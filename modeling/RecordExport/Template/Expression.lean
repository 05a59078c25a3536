import RecordExport.Template.ExprClass
import RecordExport.Template.Pattern
/-!
# Written patterns

A pattern can be written as an expression: characters stand for themselves, `.` for any character,
`[ ]` for one of a class, `*`, `+`, `?` and `{ }` repeat what stands before them (reluctantly with
another `?`), `( )` captures, `(?: )` only groups, `|` separates choices, `^` and `$` stand for the
ends of the name, a backslash begins an escape, and `(? )` sets flags up to the end of the group it
is in. An expression is put between `^(?:` and `)$` BEFORE it is read, so an expression that closes
that group itself is valid and means what the whole then says.

An expression is read in two steps:

* `exprSigns?` goes through the text, character by character, and gives its SIGNS. It keeps the flags
  in force, and what is begun and not complete, which is the MODE;
* `ExprStack.take` puts the signs together: each extends the row in hand, or opens or closes a group.

An expression is invalid if a group is left open or closed twice, if two groups have one name, if a
repetition has nothing to repeat, or if it nests too deep: groups, repetitions, choices, classes, and
rows of more than one part each count as a level.
-/

namespace RecordExport

/-! ## 1. Signs -/

/-- The rounds that a repetition asks for: from so many on to so many, or without end. -/
structure Repetition where
  least : Nat
  most : Option Nat
  least_le : ∀ m ∈ most, least ≤ m
  deriving DecidableEq, Repr

namespace Repetition

def optional : Repetition := ⟨0, some 1, by decide⟩

def anyNumber : Repetition := ⟨0, none, by decide⟩

def oneOrMore : Repetition := ⟨1, none, by decide⟩

/-- Just so many rounds. -/
def just (n : Nat) : Repetition := ⟨n, some n, by simp⟩

/-- So many rounds or more. -/
def atLeast (n : Nat) : Repetition := ⟨n, none, by simp⟩

end Repetition

/-- What an expression says at one place. -/
inductive ExprSign where
  /-- a character of a set, which nests so many levels -/
  | set (s : CharSet) (depth : Nat)
  | place (t : PlaceTest)
  /-- the last part is repeated -/
  | «repeat» (r : Repetition) (greedy : Bool)
  | choice
  /-- a group that captures, perhaps with a name -/
  | captures (name : Option Text)
  /-- a group that only holds together, and the flags that it sets for itself -/
  | holds (items : List FlagItem)
  | closes
  /-- flags for the rest of the group in hand -/
  | sets (items : List FlagItem)
  deriving DecidableEq, Repr

/-- The name of a group. -/
def ExprSign.name? : ExprSign → Option Text
  | .captures name => name
  | _ => none

/-- The flags in force, and those of the groups around the one in hand, the innermost first. -/
structure FlagStack where
  flags : ExprFlags
  outer : List ExprFlags

namespace FlagStack

/-- The flags an expression begins with. -/
def start : FlagStack := ⟨.initial, []⟩

/-- **What a sign makes of the flags.** A group that was not opened cannot be closed. -/
def take (s : FlagStack) : ExprSign → Option FlagStack
  | .set _ _ | .place _ | .repeat _ _ | .choice => some s
  | .captures _ => some ⟨s.flags, s.flags :: s.outer⟩
  | .holds items => some ⟨s.flags.set items, s.flags :: s.outer⟩
  | .closes =>
    match s.outer with
    | [] => none
    | flags :: outer => some ⟨flags, outer⟩
  | .sets items => some ⟨s.flags.set items, s.outer⟩

/-- What several signs make of the flags. -/
def takeAll (s : FlagStack) (signs : List ExprSign) : Option FlagStack := signs.foldlM take s

end FlagStack

/-! ## 2. Modes -/

/-- What of the head of a group was read. -/
inductive HeadMode where
  /-- the bracket -/
  | opened
  /-- the bracket and a question mark -/
  | asked
  /-- that a name follows, in angles -/
  | angle
  | name (read : Text)
  | flags (items : List FlagItem)

/-- What an expression has begun and not completed. -/
inductive ReadMode where
  | between
  /-- a repetition; a question mark may follow, behind blanks if it is written in braces -/
  | repetition (r : Repetition) (inBraces : Bool)
  /-- a brace and what stands behind it -/
  | braces (read : Text)
  | escape (m : EscapeMode)
  /-- an edge of a word; a brace may follow -/
  | edge
  /-- an edge of a word, a brace, and letters behind it -/
  | edgeNamed (name : Text)
  | class (s : ClassState)
  | head (m : HeadMode)

/-- A repetition, perhaps marked with another question mark, which asks for the other way than the flags. -/
def Repetition.sign (r : Repetition) (flags : ExprFlags) (marked : Bool) : ExprSign :=
  .repeat r (marked == flags .swapGreed)

/-- The rounds that are written between braces. -/
def Repetition.ofBraces? (t : Text) : Option Repetition :=
  let number? (t : Text) : Option (Nat × Text) :=
    let digits := (t.dropWhile isBlank).takeWhile Char.isDigit
    let n := digits.foldl (fun n d => 10 * n + (d.toNat - '0'.toNat)) 0
    if digits = [] || UInt32.size ≤ n then none
    else some (n, ((t.dropWhile isBlank).drop digits.length).dropWhile isBlank)
  (number? t).bind fun (least, rest) =>
    match rest with
    | [] => some (.just least)
    | [','] => some (.atLeast least)
    | ',' :: rest =>
      (number? rest).bind fun (most, rest) =>
        if h : rest = [] ∧ least ≤ most then some ⟨least, some most, by simpa using h.2⟩ else none
    | _ => none

/-- The name of a group may go on with this character. -/
def ExprTables.isNameChar (tables : ExprTables) (first : Bool) (c : Char) : Bool :=
  c = '_' || isLetter c ||
    (!first && (c = '.' || c = '[' || c = ']' || tables.isNumeric c))

/-- A letter of the names of the edges of words. -/
def isEdgeChar (c : Char) : Bool := c.isAlpha || c = '-'

/-- What one more character makes of flags in the head of a group. None of them can be there twice, and
    something is taken back. -/
def HeadMode.nextFlag (items : List FlagItem) (c : Char) : Option (HeadMode ⊕ ExprSign) :=
  if c = ':' ∨ c = ')' then
    if items.getLast? = some .takesBack then none
    else if c = ':' then some (.inr (.holds items))
    else if items = [] then none
    else some (.inr (.sets items))
  else
    let item := if c = '-' then some .takesBack else (ExprFlag.ofChar? c).map .flag
    item.bind fun i => if i ∈ items then none else some (.inl (.flags (items ++ [i])))

/-- What one more character makes of the head of a group: another mode, or a sign. -/
def HeadMode.next (tables : ExprTables) (m : HeadMode) (c : Char) : Option (HeadMode ⊕ ExprSign) :=
  match m with
  | .opened => if c = '?' then some (.inl .asked) else none
  | .asked =>
    if c = 'P' then some (.inl .angle)
    else if c = '<' then some (.inl (.name []))
    else nextFlag [] c
  | .angle => if c = '<' then some (.inl (.name [])) else none
  | .name read =>
    if c = '>' then if read = [] then none else some (.inr (.captures (some read)))
    else if tables.isNameChar (read = []) c then some (.inl (.name (read ++ [c]))) else none
  | .flags items => nextFlag items c

namespace ReadMode

/-- The signs of what would be complete if the expression went on otherwise, or ended. -/
def pending? (tables : ExprTables) (flags : ExprFlags) : ReadMode → Option (List ExprSign)
  | .between => some []
  | .repetition r _ => some [r.sign flags false]
  | .edge => some [.place (tables.test flags (.word .edge))]
  | _ => none

/-- The signs that are complete if what was begun does not go on with the next character, and the mode
    that is left. -/
def settle (tables : ExprTables) (flags : ExprFlags) (m : ReadMode) (c : Char) :
    List ExprSign × ReadMode :=
  match m with
  | .repetition r inBraces =>
    if c = '?' || (inBraces && flags .verbose && (isBlank c || c = '#')) then ([], m)
    else ([r.sign flags false], .between)
  | .edge =>
    if c = '\x7b' then ([], m)
    else ([.place (tables.test flags (.word .edge))], .between)
  | .edgeNamed [] =>
    if isEdgeChar c || (flags .verbose && (isBlank c || c = '#')) then ([], m)
    else ([.place (tables.test flags (.word .edge))], .braces [])
  | .class s => ([], .class (s.settle c))
  | .head .opened =>
    if c = '?' || (flags .verbose && (isBlank c || c = '#')) then ([], m)
    else ([.captures none], .between)
  | _ => ([], m)

/-- Blanks and comments count for nothing here. -/
def skips : ReadMode → Bool
  | .between | .repetition _ true | .braces _ | .edgeNamed _ | .head .opened => true
  | .repetition _ false | .edge | .head _ => false
  | .escape m => m.skips
  | .class s => s.skips

/-- The mode with a character skipped. -/
def skipped (m : ReadMode) (c : Char) : ReadMode :=
  match m with
  | .class s => .class (s.skipped c)
  | _ => m

/-- One sign is complete, and nothing is begun. -/
def complete (s : ExprSign) : ReadMode × List ExprSign := (.between, [s])

/-- The sign of a set that does not nest. -/
def completeSet (s : CharSet) : ReadMode × List ExprSign := complete (.set s 0)

/-- **What one more character makes of what was begun**, with all that could not go on settled: the mode
    and the signs that are complete now. -/
def next (tables : ExprTables) (flags : ExprFlags) (m : ReadMode) (c : Char) :
    Option (ReadMode × List ExprSign) :=
  match m with
  | .between =>
    match c with
    | '(' => some (.head .opened, [])
    | ')' => some (.between, [.closes])
    | '|' => some (.between, [.choice])
    | '[' => some (.class .opened, [])
    | '?' => some (.repetition .optional false, [])
    | '*' => some (.repetition .anyNumber false, [])
    | '+' => some (.repetition .oneOrMore false, [])
    | '\x7b' => some (.braces [], [])
    | '\\' => some (.escape .begun, [])
    | '.' => (ExprTables.any? flags).map completeSet
    | '^' => some (complete (.place (tables.test flags .lineStart)))
    | '$' => some (complete (.place (tables.test flags .lineStop)))
    | c => (tables.char? flags c false).map completeSet
  | .repetition r _ => some (.between, [r.sign flags true])
  | .braces read =>
    if c = '\x7d' then (Repetition.ofBraces? read).map fun r => (.repetition r true, [])
    else some (.braces (read ++ [c]), [])
  | .escape m =>
    (m.next c).bind fun r =>
      match r with
      | .inl m => some (.escape m, [])
      | .inr (.char c asByte) => (tables.char? flags c asByte).map completeSet
      | .inr (.place (.word .edge)) => some (.edge, [])
      | .inr (.place t) => some (complete (.place (tables.test flags t)))
      | .inr (.perl k negated) => (tables.perl? flags k negated).map completeSet
      | .inr (.property q negated) => (tables.property? flags q negated).map completeSet
  | .edge => some (.edgeNamed [], [])
  | .edgeNamed name =>
    if c = '\x7d' then
      (WordPlace.ofName? name).map fun p => complete (.place (tables.test flags (.word p)))
    else if isEdgeChar c then some (.edgeNamed (name ++ [c]), [])
    else none
  | .class s =>
    (s.next tables flags c).map fun r =>
      match r with
      | .inl s => (.class s, [])
      | .inr p => complete (.set p.set p.depth)
  | .head m =>
    (m.next tables c).map fun r =>
      match r with
      | .inl m => (.head m, [])
      | .inr sign => complete sign

/-- **Go on by one character**, perhaps in a comment: the mode, whether a comment goes on, and the signs that
    are complete. A comment ends with its line; elsewhere what was begun is settled first, and blanks are
    skipped where they count for nothing. -/
def step? (tables : ExprTables) (flags : ExprFlags) (m : ReadMode) (inComment : Bool) (c : Char) :
    Option (ReadMode × Bool × List ExprSign) :=
  if inComment then some (m.skipped c, c ≠ '\n', [])
  else
    let (settled, m) := m.settle tables flags c
    if flags .verbose && m.skips && (isBlank c || c = '#') then some (m.skipped c, c = '#', settled)
    else (m.next tables flags c).map fun (m, signs) => (m, false, settled ++ signs)

end ReadMode

/-! ## 3. The signs of a text -/

/-- A reader in the middle of a text. -/
structure ExprReader where
  mode : ReadMode
  inComment : Bool
  stack : FlagStack

namespace ExprReader

/-- A reader at the beginning of a text. -/
def start : ExprReader := ⟨.between, false, .start⟩

/-- **Read one more character**: the reader behind it, and the signs that are complete. -/
def next (tables : ExprTables) (r : ExprReader) (c : Char) : Option (ExprReader × List ExprSign) :=
  (r.mode.step? tables r.stack.flags r.inComment c).bind fun (mode, inComment, signs) =>
    (r.stack.takeAll signs).map fun stack => (⟨mode, inComment, stack⟩, signs)

/-- Read a text. -/
def read (tables : ExprTables) (r : ExprReader) : Text → Option (ExprReader × List ExprSign)
  | [] => some (r, [])
  | c :: t =>
    (r.next tables c).bind fun (r, signs) => (read tables r t).map fun (r, more) => (r, signs ++ more)

/-- The signs that are complete if the text ends here, unless something is left begun. -/
def pending? (tables : ExprTables) (r : ExprReader) : Option (List ExprSign) :=
  r.mode.pending? tables r.stack.flags

end ExprReader

/-- **The signs of a text.** -/
def exprSigns? (tables : ExprTables) (t : Text) : Option (List ExprSign) :=
  (ExprReader.start.read tables t).bind fun (r, signs) => (r.pending? tables).map (signs ++ ·)

/-! ## 4. Parts and groups -/

/-- A part of an expression as it is written, and how many levels it nests. -/
structure ExprPart where
  expr : NameExpr
  depth : Nat
  /-- flags are set here, and nothing is repeated -/
  setsFlags : Bool

namespace ExprPart

/-- A part that something can be said of. -/
def of (expr : NameExpr) (depth : Nat) : ExprPart := ⟨expr, depth, false⟩

/-- Flags that are set. -/
def flags : ExprPart := ⟨.word [], 0, true⟩

/-- Parts one after the other. -/
def row (ps : List ExprPart) : ExprPart :=
  .of (.row (ps.map (·.expr))) (joinedDepth (ps.map (·.depth)))

/-- A choice between parts. -/
def choice (ps : List ExprPart) : ExprPart :=
  .of (.choice (ps.map (·.expr))) (joinedDepth (ps.map (·.depth)))

/-- The part inside a level of its own. -/
def inside (f : NameExpr → NameExpr) (p : ExprPart) : ExprPart := .of (f p.expr) (p.depth + 1)

end ExprPart

/-- An open group: its index if it captures, the rows before the one in hand, and that row; rows and their
    parts stand the latest first. -/
structure ExprLevel where
  index : Option Nat
  rows : List (List ExprPart)
  row : List ExprPart

namespace ExprLevel

/-- A group just opened. -/
def opened (index : Option Nat) : ExprLevel := ⟨index, [], []⟩

/-- One more part at the end of the row in hand. -/
def push (l : ExprLevel) (p : ExprPart) : ExprLevel := { l with row := p :: l.row }

/-- Another row. -/
def choose (l : ExprLevel) : ExprLevel := { l with rows := l.row :: l.rows, row := [] }

/-- The rows of the group, in the order in which they are written. -/
def sides (l : ExprLevel) : List ExprPart := (l.row :: l.rows).reverse.map fun ps => .row ps.reverse

/-- Everything the group holds. -/
def contents (l : ExprLevel) : ExprPart := .choice l.sides

/-- The closed group. -/
def close (l : ExprLevel) : ExprPart :=
  l.contents.inside fun e =>
    match l.index with
    | some i => .group i e
    | none => e

/-- The last part of the row in hand, repeated; there must be one, and no flags. -/
def onLast? (l : ExprLevel) (f : NameExpr → NameExpr) : Option ExprLevel :=
  match l.row with
  | [] => none
  | p :: ps => if p.setsFlags then none else some { l with row := p.inside f :: ps }

end ExprLevel

/-- The open groups, the innermost first, and the number of groups that capture. -/
structure ExprStack where
  level : ExprLevel
  outer : List ExprLevel
  groups : Nat

namespace ExprStack

/-- An expression just begun. -/
def start : ExprStack := ⟨.opened none, [], 0⟩

/-- **What a sign makes of the open groups.** -/
def take (s : ExprStack) : ExprSign → Option ExprStack
  | .set cs depth => some { s with level := s.level.push (.of (.ofSet cs) depth) }
  | .place t => some { s with level := s.level.push (.of (.place t) 0) }
  | .repeat r greedy =>
    (s.level.onLast? fun e => e.repeated r.least r.most greedy).map fun level => { s with level }
  | .choice => some { s with level := s.level.choose }
  | .captures _ => some ⟨.opened (some (s.groups + 1)), s.level :: s.outer, s.groups + 1⟩
  | .holds _ => some ⟨.opened none, s.level :: s.outer, s.groups⟩
  | .closes =>
    match s.outer with
    | [] => none
    | level :: outer => some ⟨level.push s.level.close, outer, s.groups⟩
  | .sets _ => some { s with level := s.level.push .flags }

/-- What several signs make of the open groups. -/
def takeAll (s : ExprStack) (signs : List ExprSign) : Option ExprStack := signs.foldlM take s

end ExprStack

/-- What signs are put together to, if no group is left open. -/
def readSigns? (signs : List ExprSign) : Option ExprPart :=
  (ExprStack.start.takeAll signs).bind fun s =>
    if s.outer.isEmpty then some s.level.contents else none

/-- **Read an expression**, if it is valid. -/
def readExpr? (tables : ExprTables) (t : Text) : Option ExprPart :=
  (exprSigns? tables t).bind fun signs =>
    if (signs.filterMap ExprSign.name?).Nodup then readSigns? signs else none

/-! ## 5. Patterns -/

namespace Pattern

/-- How many levels an expression may nest. -/
def maxLevels : Nat := 250

/-- An expression between the signs for the ends of a name. -/
def betweenEnds (e : Text) : Text := "^(?:".toList ++ e ++ ")$".toList

/-- The pattern an expression writes, if it is valid and not too large. -/
def ofExpression? (e : Text) (tables : ExprTables := .ascii) : Option Pattern := do
  let whole ← readExpr? tables (betweenEnds e)
  if whole.depth ≤ maxLevels ∧ tables.fits whole.expr then some (.expression whole.expr.machine)
  else none

/-- The pattern of the names of a namespace with an expression behind its underscore. -/
def ofExpressionWithin? (space e : Text) (tables : ExprTables := .ascii) : Option Pattern :=
  ofExpression? (escapeExpr space ++ '_' :: e) tables

end Pattern
end RecordExport
