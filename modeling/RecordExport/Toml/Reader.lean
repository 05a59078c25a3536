import RecordExport.Decimal
import RecordExport.Toml.Table
/-!
# Reading TOML

Each reader takes what it reads off the front of a text and answers the rest, or nothing if the text
does not go on as it must; a file with a single place of that sort is no configuration. Values nest
at most `maxNesting` deep, which is also what the recursion runs on; loops over items and lines are
bounded by the length of the text, of which every round takes some.
-/

namespace RecordExport.TomlText

/-- Reads something off the front of a text. -/
abbrev Reader (α : Type) := Text → Option (α × Text)

/-! ## 1. Blanks, comments, line ends -/

/-- The text without the spaces and tabs in front. -/
def skipBlanks (t : Text) : Text := t.dropWhile fun c => c = ' ' || c = '\t'

/-- A character that may stand in a comment. -/
def isCommentChar (c : Char) : Bool := c = '\t' || (0x20 ≤ c.toNat && c.toNat ≠ 0x7F)

/-- The text without a comment in front. -/
def skipComment : Text → Text
  | '#' :: t => t.dropWhile isCommentChar
  | t => t

/-- A line end. -/
def lineEnd? : Text → Option Text
  | '\n' :: t => some t
  | '\r' :: '\n' :: t => some t
  | _ => none

/-- The rest of a line that has said what it says: blanks, a comment, the end. -/
def endLine? (t : Text) : Option Text :=
  match skipComment (skipBlanks t) with
  | [] => some []
  | t => lineEnd? t

/-- The text without blanks, comments and line ends in front, in at most `bound` rounds. -/
def skipLines : (bound : Nat) → Text → Option Text
  | 0, t => some t
  | n + 1, t =>
    match skipBlanks t with
    | '#' :: r =>
      match r.dropWhile isCommentChar with
      | [] => some []
      | r => (lineEnd? r).bind (skipLines n)
    | r =>
      match lineEnd? r with
      | some r => skipLines n r
      | none => some r

/-- The text without the blanks and line ends in front. -/
def skipGaps : (bound : Nat) → Text → Text
  | 0, t => t
  | n + 1, t =>
    match lineEnd? (skipBlanks t) with
    | some r => skipGaps n r
    | none => skipBlanks t

/-! ## 2. Strings -/

/-- The value of a hexadecimal digit. -/
def hexValue? (c : Char) : Option Nat :=
  if '0' ≤ c ∧ c ≤ '9' then some (c.toNat - 48)
  else if 'a' ≤ c ∧ c ≤ 'f' then some (c.toNat - 87)
  else if 'A' ≤ c ∧ c ≤ 'F' then some (c.toNat - 55)
  else none

/-- A character given by its code point in a number of hexadecimal digits. -/
def codePoint (digits : Nat) : Reader Char := fun t =>
  if t.length < digits then none
  else do
    let values ← (t.take digits).mapM hexValue?
    let n := values.foldl (fun n d => n * 16 + d) 0
    if n < 0xD800 ∨ (0xDFFF < n ∧ n < 0x110000) then some (Char.ofNat n, t.drop digits) else none

/-- An escape, behind its backslash. -/
def escape : Reader Char
  | 'b' :: t => some ('\x08', t)
  | 't' :: t => some ('\t', t)
  | 'n' :: t => some ('\n', t)
  | 'f' :: t => some ('\x0c', t)
  | 'r' :: t => some ('\r', t)
  | '"' :: t => some ('"', t)
  | '\\' :: t => some ('\\', t)
  | 'u' :: t => codePoint 4 t
  | 'U' :: t => codePoint 8 t
  | _ => none

/-- A character that may stand in a string as it is. -/
def isStringChar (c : Char) : Bool := isCommentChar c

/-- The rest of a string in double quotes. -/
def basicRest : (bound : Nat) → Reader Text
  | 0, _ => none
  | _ + 1, [] => none
  | _ + 1, '"' :: t => some ([], t)
  | n + 1, '\\' :: t => do
    let (c, r) ← escape t
    let (cs, r) ← basicRest n r
    some (c :: cs, r)
  | n + 1, c :: t =>
    if isStringChar c then (basicRest n t).map fun (cs, r) => (c :: cs, r) else none

/-- The rest of a string in single quotes. -/
def literalRest : Reader Text
  | [] => none
  | '\'' :: t => some ([], t)
  | c :: t => if isStringChar c then (literalRest t).map fun (cs, r) => (c :: cs, r) else none

/-- Three quotes that end a string over several lines; up to two more before them belong to it. -/
def closing? (quote : Char) (t : Text) : Option (Text × Text) :=
  let quotes := t.takeWhile (· = quote)
  if quotes.length < 3 then none
  else
    let inside := min (quotes.length - 3) 2
    some (List.replicate inside quote, t.drop (inside + 3))

/-- A backslash at a line's end takes away what follows up to the next visible character. -/
def joinedLine? (t : Text) : Option Text :=
  (lineEnd? (skipBlanks t)).map fun r => skipGaps r.length r

/-- The rest of a string over several lines. Line ends become line feeds; with `escapes` a backslash
    begins an escape. -/
def longRest (quote : Char) (escapes : Bool) : (bound : Nat) → Reader Text
  | 0, _ => none
  | _ + 1, [] => none
  | n + 1, c :: t =>
    match closing? quote (c :: t), lineEnd? (c :: t) with
    | some (inside, r), _ => some (inside, r)
    | none, some r => (longRest quote escapes n r).map fun (cs, r) => ('\n' :: cs, r)
    | none, none =>
      if c = '\\' && escapes then
        match joinedLine? t with
        | some r => longRest quote escapes n r
        | none => do
          let (e, r) ← escape t
          let (cs, r) ← longRest quote escapes n r
          some (e :: cs, r)
      else if isStringChar c then (longRest quote escapes n t).map fun (cs, r) => (c :: cs, r)
      else none

/-- A string over several lines, behind its opening quotes: a line end right there is left out. -/
def long (quote : Char) (escapes : Bool) : Reader Text := fun t =>
  let r := (lineEnd? t).getD t
  longRest quote escapes (r.length + 1) r

/-- A string of any kind. -/
def string : Reader Text
  | '"' :: '"' :: '"' :: t => long '"' true t
  | '\'' :: '\'' :: '\'' :: t => long '\'' false t
  | '"' :: t => basicRest (t.length + 1) t
  | '\'' :: t => literalRest t
  | _ => none

/-! ## 3. Keys -/

/-- A character of a key without quotes. -/
def isBareChar (c : Char) : Bool := c.isAlphanum || c = '_' || c = '-'

/-- One part of a key. -/
def keyPart : Reader String
  | '"' :: t => (basicRest (t.length + 1) t).map fun (s, r) => (String.ofList s, r)
  | '\'' :: t => (literalRest t).map fun (s, r) => (String.ofList s, r)
  | t =>
    match t.takeWhile isBareChar with
    | [] => none
    | s => some (String.ofList s, t.dropWhile isBareChar)

/-- A key of at most `bound` parts with dots between: the parts before the last, and the last. -/
def key : (bound : Nat) → Reader (List String × String)
  | 0, _ => none
  | n + 1, t => do
    let (part, r) ← keyPart (skipBlanks t)
    match skipBlanks r with
    | '.' :: r =>
      let ((path, last), r) ← key n r
      some ((part :: path, last), r)
    | r => some (([], part), r)

/-! ## 4. Numbers and dates -/

/-- Digits with single underscores between two of them. -/
def digitsOf (isDigit : Char → Bool) : Text → Option (Text × Text)
  | c :: t =>
    if isDigit c then
      match t with
      | '_' :: d :: r =>
        if isDigit d then (digitsOf isDigit (d :: r)).map fun (cs, r) => (c :: cs, r) else none
      | '_' :: [] => none
      | [] => some ([c], [])
      | d :: r =>
        if isDigit d then (digitsOf isDigit (d :: r)).map fun (cs, r) => (c :: cs, r)
        else some ([c], d :: r)
    else none
  | [] => none

/-- The number digits write in a base. -/
def valueIn (base : Nat) (ds : Text) : Nat :=
  ds.foldl (fun n d => n * base + (hexValue? d).getD 0) 0

/-- A whole number that fits into 64 bits with sign. -/
def wordInteger? (n : Int) : Option Toml :=
  if -Int.pow 2 63 ≤ n ∧ n < Int.pow 2 63 then some (.integer n) else none

/-- A number in another base, behind its mark. -/
def based (base : Nat) (isDigit : Char → Bool) : Reader Toml := fun t => do
  let (ds, r) ← digitsOf isDigit t
  let v ← wordInteger? (valueIn base ds)
  some (v, r)

/-- An exponent, behind its letter. -/
def exponent : Reader Int
  | '-' :: t => (digitsOf Char.isDigit t).map fun (ds, r) => (-(valueIn 10 ds : Int), r)
  | '+' :: t => (digitsOf Char.isDigit t).map fun (ds, r) => ((valueIn 10 ds : Int), r)
  | t => (digitsOf Char.isDigit t).map fun (ds, r) => ((valueIn 10 ds : Int), r)

/-- A number of either sign that may stand: one that rounds up to infinity may not, while one that
    rounds down to minus infinity may. -/
def isAllowed (negative : Bool) (digits : Text) (scale : Int) : Bool :=
  negative || (Decimal.mk (valueIn 10 digits) scale).isFinite

/-- An exponent, if one stands here. -/
def exponent? : Text → Option (Option Int × Text)
  | 'e' :: t | 'E' :: t => (exponent t).map fun (n, r) => (some n, r)
  | t => some (none, t)

/-- A decimal number without its sign. -/
def decimal (negative : Bool) : Reader Toml := fun t => do
  let (ds, r) ← digitsOf Char.isDigit t
  if ds.length > 1 && ds.head? = some '0' then none
  else
    match r with
    | '.' :: r =>
      let (behind, r) ← digitsOf Char.isDigit r
      let (e, r) ← exponent? r
      if isAllowed negative (ds ++ behind) (e.getD 0 - behind.length) then some (.float, r)
      else none
    | r =>
      let (e, r) ← exponent? r
      match e with
      | some e => if isAllowed negative ds e then some (.float, r) else none
      | none =>
        let n : Int := valueIn 10 ds
        let v ← wordInteger? (if negative then -n else n)
        some (v, r)

/-- A number of exactly so many decimal digits between two bounds. -/
def fixedDigits (count low high : Nat) : Reader Nat := fun t =>
  let ds := t.take count
  let n := valueIn 10 ds
  if ds.length = count ∧ ds.all Char.isDigit ∧ low ≤ n ∧ n ≤ high then some (n, t.drop count)
  else none

/-- The days of a month. -/
def daysIn (year month : Nat) : Nat :=
  if month = 2 then
    if (year % 4 = 0 ∧ year % 100 ≠ 0) ∨ year % 400 = 0 then 29 else 28
  else if month = 4 ∨ month = 6 ∨ month = 9 ∨ month = 11 then 30
  else 31

/-- A time of day. -/
def timeOfDay : Reader Unit := fun t => do
  let (_, r) ← fixedDigits 2 0 23 t
  let r ← Text.afterLeading? [':'] r
  let (_, r) ← fixedDigits 2 0 59 r
  let r ← Text.afterLeading? [':'] r
  let (_, r) ← fixedDigits 2 0 60 r
  match r with
  | '.' :: r =>
    if (r.takeWhile Char.isDigit).isEmpty then none else some ((), r.dropWhile Char.isDigit)
  | r => some ((), r)

/-- The distance of a time from universal time, if one stands here. -/
def offset? : Text → Option Text
  | 'Z' :: t | 'z' :: t => some t
  | '+' :: t | '-' :: t => do
    let (_, r) ← fixedDigits 2 0 23 t
    let r ← Text.afterLeading? [':'] r
    let (_, r) ← fixedDigits 2 0 59 r
    some r
  | t => some t

/-- A date, with a time or without. -/
def date : Reader Toml := fun t => do
  let (year, r) ← fixedDigits 4 0 9999 t
  let r ← Text.afterLeading? ['-'] r
  let (month, r) ← fixedDigits 2 1 12 r
  let r ← Text.afterLeading? ['-'] r
  let (_, r) ← fixedDigits 2 1 (daysIn year month) r
  match r with
  | 'T' :: s | 't' :: s => do
    let (_, r) ← timeOfDay s
    let r ← offset? r
    some (.dateTime, r)
  | ' ' :: s =>
    match timeOfDay s with
    | some (_, r) => (offset? r).map fun r => (.dateTime, r)
    | none => some (.dateTime, ' ' :: s)
  | r => some (.dateTime, r)

/-- A text begins like a date: four digits and a hyphen. -/
def looksLikeDate (t : Text) : Bool := (t.take 4).all Char.isDigit && (t.drop 4).head? = some '-'

/-- A text begins like a time: two digits and a colon. -/
def looksLikeTime (t : Text) : Bool := (t.take 2).all Char.isDigit && (t.drop 2).head? = some ':'

/-- A number or a date. -/
def number : Reader Toml
  | '0' :: 'x' :: t => based 16 (fun c => (hexValue? c).isSome) t
  | '0' :: 'o' :: t => based 8 (fun c => '0' ≤ c && c ≤ '7') t
  | '0' :: 'b' :: t => based 2 (fun c => c = '0' || c = '1') t
  | '+' :: 'i' :: 'n' :: 'f' :: t | '-' :: 'i' :: 'n' :: 'f' :: t => some (.float, t)
  | '+' :: 'n' :: 'a' :: 'n' :: t | '-' :: 'n' :: 'a' :: 'n' :: t => some (.float, t)
  | '+' :: t => decimal false t
  | '-' :: t => decimal true t
  | t =>
    if looksLikeDate t then date t
    else if looksLikeTime t then (timeOfDay t).map fun (_, r) => (.dateTime, r)
    else decimal false t

/-! ## 5. Values -/

/-- How many containers may nest, the outermost counted, plus one. -/
def maxNesting : Nat := 80

/-- How many parts a key may have. -/
def maxKeyParts : Nat := 79

/-- Items of a list, behind its opening bracket or a comma, up to the closing bracket. -/
def items (value : Reader Toml) : (bound : Nat) → Reader (List Toml)
  | 0, _ => none
  | n + 1, t => do
    match ← skipLines (t.length + 1) t with
    | ']' :: r => some ([], r)
    | r =>
      let (v, r) ← value r
      match ← skipLines (r.length + 1) r with
      | ',' :: r => (items value n r).map fun (vs, r) => (v :: vs, r)
      | ']' :: r => some ([v], r)
      | _ => none

/-- One key with its value. -/
def keyValue (value : Reader Toml) : Reader (List String × String × Toml) := fun t => do
  let ((path, last), r) ← key maxKeyParts t
  let r ← Text.afterLeading? ['='] r
  let (v, r) ← value (skipBlanks r)
  some ((path, last, v), r)

/-- The entries of a written table, behind its opening brace or a comma, up to the closing brace. -/
def entries (value : Reader Toml) : (bound : Nat) → Reader (List (List String × String × Toml))
  | 0, _ => none
  | n + 1, t => do
    let (e, r) ← keyValue value t
    match skipBlanks r with
    | ',' :: r => (entries value n r).map fun (es, r) => (e :: es, r)
    | '\x7d' :: r => some ([e], r)
    | _ => none

/-- A value, containers nested fewer than `depth` deep. -/
def value : (depth : Nat) → Reader Toml
  | 0, _ => none
  | depth + 1, t =>
    match t with
    | '"' :: _ | '\'' :: _ => (string t).map fun (s, r) => (.string (String.ofList s), r)
    | '[' :: r =>
      if depth = 0 then none
      else (items (value depth) (r.length + 1) r).map fun (vs, r) => (.array vs, r)
    | '\x7b' :: r =>
      if depth = 0 then none
      else
        match skipBlanks r with
        | '\x7d' :: r => some (.written [], r)
        | r => do
          let (es, r) ← entries (value depth) (r.length + 1) r
          let w ← writtenTable es
          some (w, r)
    | 't' :: 'r' :: 'u' :: 'e' :: r => some (.boolean true, r)
    | 'f' :: 'a' :: 'l' :: 's' :: 'e' :: r => some (.boolean false, r)
    | 'i' :: 'n' :: 'f' :: r | 'n' :: 'a' :: 'n' :: r => some (.float, r)
    | t => number t

/-! ## 6. Files -/

/-- A line that says something. -/
def line : Reader TomlLine
  | '[' :: '[' :: t => do
    let ((path, last), r) ← key maxKeyParts t
    let r ← Text.afterLeading? [']', ']'] r
    some (.listed path last, r)
  | '[' :: t => do
    let ((path, last), r) ← key maxKeyParts t
    let r ← Text.afterLeading? [']'] r
    some (.header path last, r)
  | t => (keyValue (value maxNesting) t).map fun ((path, last, v), r) => (.entry path last v, r)

/-- The lines of a file, in at most `bound` rounds. -/
def lines : (bound : Nat) → Text → Option (List TomlLine)
  | 0, _ => none
  | n + 1, t => do
    match ← skipLines (t.length + 1) t with
    | [] => some []
    | r =>
      let (l, r) ← line r
      let r ← endLine? r
      (lines n r).map (l :: ·)

/-- The root table of a file. A byte-order mark in front is left out. -/
def file? (t : Text) : Option TomlTable := do
  let t := match t with
    | '\ufeff' :: r => r
    | t => t
  let ls ← lines (t.length + 1) t
  let f ← ls.foldlM TomlFile.add TomlFile.empty
  some f.root

end RecordExport.TomlText
