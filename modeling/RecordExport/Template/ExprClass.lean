import RecordExport.Template.ExprEscape
import RecordExport.Text.Blank
/-!
# Classes in brackets

Brackets hold a CLASS: characters for themselves, ranges, escapes, named classes of ASCII and other
classes, all together or all but them. Two classes can also be cut, left out of each other or told
apart by a doubled sign between them. A class is read character by character too.

* `ClassFrame`: what an open bracket holds so far, and `ClassFrame.close?`: the set it comes to;
* `ClassState.next`: what one more character makes of an open class, another state or its set.
-/

namespace RecordExport

/-- The levels of parts put together: one more than the deepest, if there is more than one part. -/
def joinedDepth (depths : List Nat) : Nat :=
  let deepest := depths.foldl max 0
  if depths.length < 2 then deepest else deepest + 1

/-! ## 1. Open brackets -/

/-- A set in a class, and how many levels it nests. -/
structure SetPart where
  set : CharSet
  depth : Nat

/-- What a doubled sign between two sets asks for. -/
inductive SetOp where
  | inter
  | diff
  | symmDiff
  deriving DecidableEq, Repr

namespace SetOp

def ofChar? : Char → Option SetOp
  | '&' => some .inter
  | '-' => some .diff
  | '~' => some .symmDiff
  | _ => none

def apply : SetOp → CharSet → CharSet → CharSet
  | .inter => .inter
  | .diff => .diff
  | .symmDiff => .symmDiff

end SetOp

/-- An open bracket: a set that waits for what its operation is to be applied to, and the items behind
    that, the latest first. -/
structure ClassFrame where
  negated : Bool
  waiting : Option (SetPart × SetOp)
  items : List SetPart

namespace ClassFrame

/-- A bracket just opened. -/
def opened : ClassFrame := ⟨false, none, []⟩

/-- One more item. -/
def push (f : ClassFrame) (p : SetPart) : ClassFrame := { f with items := p :: f.items }

/-- One more item without levels of its own. -/
def pushSet (f : ClassFrame) (s : CharSet) : ClassFrame := f.push ⟨s, 0⟩

/-- The items together. -/
def joined (f : ClassFrame) : SetPart :=
  ⟨.unionAll (f.items.reverse.map (·.set)), joinedDepth (f.items.map (·.depth))⟩

variable (tables : ExprTables) (flags : ExprFlags)

/-- The items together, with the set that waits for them. -/
def settled (f : ClassFrame) : SetPart :=
  match f.waiting with
  | none => f.joined
  | some (p, op) =>
    ⟨op.apply (tables.closed flags p.set) (tables.closed flags f.joined.set),
      max p.depth f.joined.depth + 1⟩

/-- An operation behind the items. -/
def wait (f : ClassFrame) (op : SetOp) : ClassFrame :=
  { f with waiting := some (f.settled tables flags, op), items := [] }

/-- The set of a closed bracket. -/
def close? (f : ClassFrame) : Option SetPart :=
  let p := f.settled tables flags
  (ExprTables.negated? flags f.negated (tables.closed flags p.set)).map fun s => ⟨s, p.depth + 1⟩

end ClassFrame

/-! ## 2. Named classes of ASCII -/

/-- The classes of ASCII by their names. -/
def posixSets : List (String × CharSet) :=
  [("alnum", .union .asciiLetter .asciiDigit), ("alpha", .asciiLetter), ("ascii", .ofCodes 0 0x7F),
   ("blank", .ofChars ['\t', ' ']), ("cntrl", .union (.ofCodes 0 0x1F) (.ofCodes 0x7F 0x7F)),
   ("digit", .asciiDigit), ("graph", .ofRange '!' '~'), ("lower", .asciiLower),
   ("print", .ofRange ' ' '~'),
   ("punct", .unionAll [.ofRange '!' '/', .ofRange ':' '@', .ofRange '[' (Char.ofNat 0x60),
      .ofCodes 0x7B 0x7E]),
   ("space", .asciiSpace), ("upper", .asciiUpper), ("word", .asciiWord),
   ("xdigit", .unionAll [.asciiDigit, .ofRange 'a' 'f', .ofRange 'A' 'F'])]

/-- What stands behind a bracket that begins a named class: its set, and whether that is left out. -/
def posixForms : List (Text × CharSet × Bool) :=
  posixSets.flatMap fun (name, s) =>
    [(":".toList ++ name.toList ++ ":]".toList, s, false),
     (":^".toList ++ name.toList ++ ":]".toList, s, true)]

/-! ## 3. Reading -/

/-- An item of a class that may be the start of a range. -/
inductive ClassItem where
  | char (c : Char)
  | set (s : CharSet)

/-- What of a class was read behind its complete items. -/
inductive ClassMode where
  /-- the bracket -/
  | opened
  /-- the bracket and the sign of exclusion -/
  | excluding
  /-- the bracket and dashes, which stand for themselves -/
  | dashed
  | between
  /-- a sign that another one doubles, and else stands for itself -/
  | sign (c : Char)
  /-- an item that a dash may follow -/
  | item (i : ClassItem)
  /-- an item, a dash, and what was skipped behind them -/
  | dash (i : ClassItem) (gap : Text)
  /-- an escape begun, which may be the end of a range -/
  | escape (start : Option ClassItem) (m : EscapeMode)
  /-- a bracket and the beginning of a name behind it -/
  | named (read : Text)

/-- An open class: its innermost bracket, those around it, and what was read behind its items. -/
structure ClassState where
  frame : ClassFrame
  outer : List ClassFrame
  mode : ClassMode

namespace ClassState

/-- A class just opened. -/
def opened : ClassState := ⟨.opened, [], .opened⟩

/-- The next character after blanks and comments that follow an item and a dash; of a comment the
    first one that is no blank counts. -/
def peeked (t : Text) : Option Char :=
  match t.dropWhile isBlank with
  | '#' :: t => (t.dropWhile isBlank).head?
  | t => t.head?

/-- The state if what was begun does not go on with the next character. -/
def settle (s : ClassState) (c : Char) : ClassState :=
  match s.mode with
  | .sign d => if c = d then s else { s with mode := .item (.char d) }
  | .named read =>
    if posixForms.any fun f => (read ++ [c]).isPrefixOf f.1 then s
    else
      -- the bracket opens a class of its own, in which what was read stands for itself
      let frame := read.dropLast.foldl (fun f c => f.pushSet (.only c)) .opened
      ⟨frame, s.frame :: s.outer, (read.getLast?.map fun c => .item (.char c)).getD .opened⟩
  | _ => s

/-- Blanks and comments count for nothing here. -/
def skips (s : ClassState) : Bool :=
  match s.mode with
  | .opened | .excluding | .dashed | .between | .item _ | .dash _ _ => true
  | .sign _ | .named _ => false
  | .escape _ m => m.skips

/-- The state with a character skipped. -/
def skipped (s : ClassState) (c : Char) : ClassState :=
  match s.mode with
  | .dash i gap => { s with mode := .dash i (gap ++ [c]) }
  | _ => s

variable (tables : ExprTables) (flags : ExprFlags)

/-- One more item. -/
def push? (s : ClassState) (i : ClassItem) : Option ClassState :=
  match i with
  | .char c =>
    (ExprTables.charSet? flags c).map fun set => ⟨s.frame.pushSet set, s.outer, .between⟩
  | .set set => some ⟨s.frame.pushSet set, s.outer, .between⟩

/-- One more range; both its ends must be characters. -/
def range? (s : ClassState) (lo hi : ClassItem) : Option ClassState :=
  match lo, hi with
  | .char lo, .char hi =>
    (ExprTables.range? flags lo hi).map fun set => ⟨s.frame.pushSet set, s.outer, .between⟩
  | _, _ => none

/-- The item that an escape writes; a place is none. -/
def itemOf? : Escaped → Option ClassItem
  | .char c _ => some (.char c)
  | .place _ => none
  | .perl k negated => (tables.perl? flags k negated).map .set
  | .property q negated => (tables.property? flags q negated).map .set

/-- The state with the innermost bracket closed, or the set of the class. -/
def close? (s : ClassState) : Option (ClassState ⊕ SetPart) :=
  (s.frame.close? tables flags).map fun p =>
    match s.outer with
    | [] => .inr p
    | f :: fs => .inl ⟨f.push p, fs, .between⟩

/-- The next character behind complete items. -/
def nextItem (s : ClassState) (c : Char) : Option (ClassState ⊕ SetPart) :=
  match c with
  | '[' => some (.inl { s with mode := .named [] })
  | ']' => s.close? tables flags
  | '\\' => some (.inl { s with mode := .escape none .begun })
  | c =>
    if (SetOp.ofChar? c).isSome then some (.inl { s with mode := .sign c })
    else some (.inl { s with mode := .item (.char c) })

/-- The next character behind an item. -/
def nextBehind (s : ClassState) (i : ClassItem) (c : Char) : Option (ClassState ⊕ SetPart) :=
  if c = '-' then some (.inl { s with mode := .dash i [] })
  else (s.push? flags i).bind fun s => s.nextItem tables flags c

/-- The next character where dashes, or a bracket if `closes`, stand for themselves. -/
def nextLeading (s : ClassState) (bracket : Bool) (c : Char) : Option (ClassState ⊕ SetPart) :=
  if c = '-' then some (.inl ⟨s.frame.pushSet (.only '-'), s.outer, .dashed⟩)
  else if bracket && c = ']' then some (.inl ⟨s.frame.pushSet (.only ']'), s.outer, .between⟩)
  else s.nextItem tables flags c

/-- **What one more character makes of an open class**: another state, or the set of the class. -/
def next (s : ClassState) (c : Char) : Option (ClassState ⊕ SetPart) :=
  match s.mode with
  | .opened =>
    if c = '^' then
      some (.inl ⟨{ s.frame with negated := true }, s.outer, .excluding⟩)
    else s.nextLeading tables flags true c
  | .excluding => s.nextLeading tables flags true c
  | .dashed => s.nextLeading tables flags false c
  | .between => s.nextItem tables flags c
  | .sign d =>
    (SetOp.ofChar? d).map fun op => .inl ⟨s.frame.wait tables flags op, s.outer, .between⟩
  | .item i => s.nextBehind tables flags i c
  | .dash i gap =>
    if peeked (gap ++ [c]) = some ']' || peeked (gap ++ [c]) = some '-' then
      -- the dash ends no range: it is doubled, or an item of its own
      (s.push? flags i).bind fun s =>
        if gap = [] && c = '-' then
          some (.inl ⟨s.frame.wait tables flags .diff, s.outer, .between⟩)
        else s.nextBehind tables flags (.char '-') c
    else if c = '\\' then some (.inl { s with mode := .escape (some i) .begun })
    else (s.range? flags i (.char c)).map .inl
  | .escape start m =>
    (m.next c).bind fun r =>
      match r with
      | .inl m => some (.inl { s with mode := .escape start m })
      | .inr e => (itemOf? tables flags e).bind fun i =>
        match start with
        | none => some (.inl { s with mode := .item i })
        | some lo => (s.range? flags lo i).map .inl
  | .named read =>
    match posixForms.find? fun f => f.1 = read ++ [c] with
    | some (_, set, negated) =>
      (ExprTables.negated? flags negated (tables.closed flags set)).map fun set =>
        .inl ⟨s.frame.pushSet set, s.outer, .between⟩
    | none => some (.inl { s with mode := .named (read ++ [c]) })

end ClassState
end RecordExport
