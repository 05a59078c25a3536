import RecordExport.Json.Reading
/-!
# Reading JSON text

Two steps lead from a text to its `Reading`. The text is cut into lexemes (punctuation, strings,
other scalars, characters that begin nothing), and a machine with a stack of open containers puts
the values together. Both stop at the first place that cannot even be passed over; the containers
still open there keep the fault.

Strings may hold escapes of surrogate halves. A pair makes one character; a half alone is a fault
for a reader only, since passing over a string looks at four hexadecimal digits and no further.
-/

namespace RecordExport.Json

/-! ## 1. Strings -/

/-- The value of a hexadecimal digit. -/
def hexValue? (c : Char) : Option Nat :=
  if '0' ≤ c ∧ c ≤ '9' then some (c.toNat - 48)
  else if 'a' ≤ c ∧ c ≤ 'f' then some (c.toNat - 87)
  else if 'A' ≤ c ∧ c ≤ 'F' then some (c.toNat - 55)
  else none

/-- Four hexadecimal digits and the text after them. Fewer than four bytes of text are a text that
    ends early. -/
def hexQuad : Text → Except Fault (Nat × Text)
  | a :: b :: c :: d :: t =>
    match hexValue? a, hexValue? b, hexValue? c, hexValue? d with
    | some w, some x, some y, some z => .ok (((w * 16 + x) * 16 + y) * 16 + z, t)
    | _, _, _, _ => .error .malformed
  | t => .error (if Text.byteSize t < 4 then .truncated else .malformed)

theorem length_of_hexQuad {t r : Text} {n : Nat} (h : hexQuad t = .ok (n, r)) :
    r.length < t.length := by
  unfold hexQuad at h
  split at h
  · split at h
    · simp only [Except.ok.injEq, Prod.mk.injEq] at h
      obtain ⟨_, rfl⟩ := h
      simp
      omega
    · simp at h
  · simp at h

/-- The character a backslash and this one stand for, the four-digit form apart. -/
def shortEscape? : Char → Option Char
  | '"' => some '"'
  | '\\' => some '\\'
  | '/' => some '/'
  | 'b' => some '\x08'
  | 'f' => some '\x0c'
  | 'n' => some '\n'
  | 'r' => some '\r'
  | 't' => some '\t'
  | _ => none

/-- A number in the range of the first halves of surrogate pairs. -/
def isHighHalf (n : Nat) : Bool := 0xD800 ≤ n && n ≤ 0xDBFF

/-- A number in the range of the second halves of surrogate pairs. -/
def isLowHalf (n : Nat) : Bool := 0xDC00 ≤ n && n ≤ 0xDFFF

/-- The rest of a string literal: its characters for a reader, and the text after it for one who
    passes over it. -/
structure StringScan where
  read : Except Fault Text
  rest : Except Fault Text

/-- A string that nobody gets past. -/
def StringScan.fail (f : Fault) : StringScan := ⟨.error f, .error f⟩

/-- A string with one more character in front. -/
def StringScan.cons (c : Char) (s : StringScan) : StringScan := ⟨s.read.map (c :: ·), s.rest⟩

/-- A string whose reader stops with a fault. -/
def StringScan.refuse (f : Fault) (s : StringScan) : StringScan := ⟨.error f, s.rest⟩

/-- What follows the first half of a surrogate pair: the second half and the text after it, or the
    reader's fault. -/
def secondHalf : Text → Except Fault (Nat × Text)
  | [] => .error .truncated
  | '\\' :: [] => .error .truncated
  | '\\' :: 'u' :: t =>
    match hexQuad t with
    | .ok (n, r) => if isLowHalf n then .ok (n, r) else .error .malformed
    | .error f => .error f
  | _ => .error .malformed

theorem length_of_secondHalf {t r : Text} {n : Nat} (h : secondHalf t = .ok (n, r)) :
    r.length < t.length := by
  unfold secondHalf at h
  split at h
  · simp at h
  · simp at h
  · split at h
    · rename_i hq
      split at h
      · simp only [Except.ok.injEq, Prod.mk.injEq] at h
        obtain ⟨_, rfl⟩ := h
        have := length_of_hexQuad hq
        simp
        omega
      · simp at h
    · simp at h
  · simp at h

/-- The rest of a string literal, behind its opening quote. -/
def scanString : Text → StringScan
  | [] => .fail .truncated
  | '"' :: t => ⟨.ok [], .ok t⟩
  | '\\' :: [] => .fail .truncated
  | '\\' :: 'u' :: t =>
    match _h : hexQuad t with
    | .error f => .fail f
    | .ok (n, r) =>
      if isLowHalf n then (scanString r).refuse .malformed
      else if isHighHalf n then
        match _h2 : secondHalf r with
        | .error f => (scanString r).refuse f
        | .ok (m, r') =>
          (scanString r').cons (Char.ofNat (0x10000 + (n - 0xD800) * 0x400 + (m - 0xDC00)))
      else (scanString r).cons (Char.ofNat n)
  | '\\' :: e :: t =>
    match shortEscape? e with
    | some c => (scanString t).cons c
    | none => .fail .malformed
  | c :: t => if c.toNat < 0x20 then .fail .malformed else (scanString t).cons c
  termination_by t => t.length
  decreasing_by
    · have h1 := length_of_hexQuad _h
      simp only [List.length_cons]
      omega
    · have h1 := length_of_hexQuad _h
      simp only [List.length_cons]
      omega
    · have h1 := length_of_hexQuad _h
      have h2 := length_of_secondHalf _h2
      simp only [List.length_cons]
      omega
    · have h1 := length_of_hexQuad _h
      simp only [List.length_cons]
      omega
    · simp only [List.length_cons]
      omega
    · exact Nat.lt_succ_self _

/-! ## 2. Numbers and words -/

/-- Digits at the head of a text, and the text after them. -/
def cutDigits (t : Text) : Text × Text := (t.takeWhile Char.isDigit, t.dropWhile Char.isDigit)

/-- A number that breaks off: at the end of the text a reader finds the text too short. -/
def brokenNumber (rest : Text) : Trouble :=
  ⟨if rest.isEmpty then .truncated else .malformed, some .malformed⟩

/-- An exponent, if one is written here: its value and the text after it. -/
def cutExponent : Text → Except Trouble (Option Int × Text)
  | [] => .ok (none, [])
  | c :: t =>
    if c = 'e' ∨ c = 'E' then
      let signed := match t with
        | '-' :: r => (true, r)
        | '+' :: r => (false, r)
        | r => (false, r)
      match cutDigits signed.2 with
      | ([], r) => .error (brokenNumber r)
      | (ds, r) => .ok (some (if signed.1 then -(digitsValue ds : Int) else digitsValue ds), r)
    else .ok (none, c :: t)

/-- A fraction, if one is written here: its digits and the text after them. -/
def cutFraction : Text → Except Trouble (Option Text × Text)
  | '.' :: t =>
    match cutDigits t with
    | ([], r) => .error (brokenNumber r)
    | (ds, r) => .ok (some ds, r)
  | t => .ok (none, t)

/-- A number without its sign, and the text after it. A leading zero stands alone. -/
def cutNumber (negative : Bool) (t : Text) : Except Trouble (Number × Text) :=
  match cutDigits t with
  | ([], r) => .error (brokenNumber r)
  | ('0' :: _ :: _, _) => .error (.both .malformed)
  | (ds, r) =>
    match cutFraction r with
    | .error e => .error e
    | .ok (fraction, r) =>
      match cutExponent r with
      | .error e => .error e
      | .ok (exponent, r) =>
        let behind := fraction.getD []
        .ok (⟨negative, digitsValue (ds ++ behind), exponent.getD 0 - behind.length,
          fraction.isNone && exponent.isNone⟩, r)

/-- A word that must stand at the head of a text. -/
def cutWord : (word t : Text) → Except Fault Text
  | [], t => .ok t
  | _ :: _, [] => .error .truncated
  | a :: word, c :: t => if a = c then cutWord word t else .error .malformed

/-! ## 3. Lexemes -/

/-- A piece of a document. -/
inductive Lexeme where
  | openArray
  | closeArray
  | openObject
  | closeObject
  | comma
  | colon
  /-- a string literal -/
  | word (s : Except Trouble String)
  /-- a scalar that is no string -/
  | scalar (r : Reading)
  /-- a character that begins nothing -/
  | stray

/-- The insignificant characters between lexemes. -/
def isSpace (c : Char) : Bool := c = ' ' || c = '\n' || c = '\t' || c = '\r'

/-- A word with a meaning, or what keeps it from being one. -/
def lexWord (word : Text) (r : Reading) (t : Text) : Lexeme × Option Text :=
  match cutWord word t with
  | .ok rest => (.scalar r, some rest)
  | .error f => (.scalar (.cutWord f), none)

/-- A number, kept from its reader if it is beyond the finite ones. -/
def lexNumber (negative : Bool) (t : Text) : Lexeme × Option Text :=
  match cutNumber negative t with
  | .ok (n, rest) =>
    (.scalar (.num (if n.isFinite then .ok n else .error ⟨.malformed, none⟩)), some rest)
  | .error e => (.scalar (.num (.error e)), none)

/-- A string, behind its opening quote. -/
def lexString (t : Text) : Lexeme × Option Text :=
  match scanString t with
  | ⟨.ok s, .ok rest⟩ => (.word (.ok (String.ofList s)), some rest)
  | ⟨.ok _, .error f⟩ => (.word (.error (.both f)), none)
  | ⟨.error f, .ok rest⟩ => (.word (.error ⟨f, none⟩), some rest)
  | ⟨.error f, .error g⟩ => (.word (.error ⟨f, some g⟩), none)

/-- The lexeme that begins with a character, and the text after it unless the text cannot be
    passed. -/
def lexeme (c : Char) (t : Text) : Lexeme × Option Text :=
  match c with
  | '[' => (.openArray, some t)
  | ']' => (.closeArray, some t)
  | '\x7b' => (.openObject, some t)
  | '\x7d' => (.closeObject, some t)
  | ',' => (.comma, some t)
  | ':' => (.colon, some t)
  | '"' => lexString t
  | 'n' => lexWord ['u', 'l', 'l'] .null t
  | 't' => lexWord ['r', 'u', 'e'] (.bool true) t
  | 'f' => lexWord ['a', 'l', 's', 'e'] (.bool false) t
  | '-' => lexNumber true t
  | c => if c.isDigit then lexNumber false (c :: t) else (.stray, none)

/-- The lexemes of a text, up to the first that cannot be passed. The count bounds the steps; a
    text has no more lexemes than characters. -/
def lexemesUpTo : (count : Nat) → Text → List Lexeme
  | 0, _ => []
  | _ + 1, [] => []
  | n + 1, c :: t =>
    if isSpace c then lexemesUpTo n t
    else
      match lexeme c t with
      | (l, some rest) => l :: lexemesUpTo n rest
      | (l, none) => [l]

/-- The lexemes of a text, up to the first that cannot be passed. -/
def lexemes (t : Text) : List Lexeme := lexemesUpTo t.length t

/-! ## 4. The stack of open containers -/

/-- An open container with what it holds so far, the latest first. -/
inductive Frame where
  | array (items : List Reading)
  | object (members : List (Except Trouble String × Reading)) (key : Except Trouble String)

/-- What the document must go on with. -/
inductive Expect where
  /-- a value, or the end of a list just opened -/
  | value (closes : Bool)
  /-- a key, or the end of an object just opened, with the members read so far -/
  | key (closes : Bool) (members : List (Except Trouble String × Reading))
  /-- the colon behind a key -/
  | colon (key : Except Trouble String) (members : List (Except Trouble String × Reading))
  /-- a comma or an end, the value in hand complete -/
  | next (value : Reading)

/-- The value in hand, put into the container around it that is now closed by a fault, and so on
    outwards. -/
def abandon (f : Fault) : List Frame → Reading → Reading
  | [], r => r
  | .array items :: fs, r => abandon f fs (.array (items.reverse ++ [r]) (some f))
  | .object members key :: fs, r =>
    abandon f fs (.object (members.reverse ++ [(key, r)]) (some f))

/-- A document and, behind it, the fault of anything more. -/
structure Document where
  root : Reading
  trailing : Option Fault

/-- The document cut by a fault where something else was expected. -/
def cutAt (f : Fault) (frames : List Frame) : Expect → Document
  | .value closes =>
    match frames, closes with
    | .array [] :: fs, true => ⟨abandon f fs (.array [] (some f)), none⟩
    | fs, _ => ⟨abandon f fs (.missing f), none⟩
  | .key closes members =>
    let members := if closes then members else (.error (.both f), .missing f) :: members
    ⟨abandon f frames (.object members.reverse (some f)), none⟩
  | .colon key members => ⟨abandon f frames (.object ((key, .missing f) :: members).reverse
      (some f)), none⟩
  | .next value =>
    match frames with
    | [] => ⟨value, some f⟩
    | fs => ⟨abandon f fs value, none⟩

/-- **The document a list of lexemes spells.** A closing bracket ends the innermost container; a
    lexeme out of place is a malformed text, the end of the lexemes a text cut short. -/
def spell : List Lexeme → List Frame → Expect → Document
  | [], [], .next value => ⟨value, none⟩
  | [], frames, e => cutAt .truncated frames e
  | .scalar r :: ls, frames, .value _ => spell ls frames (.next r)
  | .word s :: ls, frames, .value _ => spell ls frames (.next (.str s))
  | .openArray :: ls, frames, .value _ => spell ls (.array [] :: frames) (.value true)
  | .openObject :: ls, frames, .value _ => spell ls frames (.key true [])
  | .closeArray :: ls, .array [] :: frames, .value true =>
    spell ls frames (.next (.array [] none))
  | .word k :: ls, frames, .key _ members => spell ls frames (.colon k members)
  | .closeObject :: ls, frames, .key true members =>
    spell ls frames (.next (.object members.reverse none))
  | .colon :: ls, frames, .colon key members =>
    spell ls (.object members key :: frames) (.value false)
  | .comma :: ls, .array items :: frames, .next v =>
    spell ls (.array (v :: items) :: frames) (.value false)
  | .closeArray :: ls, .array items :: frames, .next v =>
    spell ls frames (.next (.array (items.reverse ++ [v]) none))
  | .comma :: ls, .object members key :: frames, .next v =>
    spell ls frames (.key false ((key, v) :: members))
  | .closeObject :: ls, .object members key :: frames, .next v =>
    spell ls frames (.next (.object (members.reverse ++ [(key, v)]) none))
  | _ :: _, frames, e => cutAt .malformed frames e

/-- The document a text holds. -/
def document (t : Text) : Document := spell (lexemes t) [] (.value false)

end RecordExport.Json
