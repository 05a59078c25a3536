import RecordExport.Decimal
import RecordExport.Json.Value
/-!
# JSON as a reader meets it

A document is read from left to right, and the FIRST fault met decides what is wrong with it. What
counts as a fault depends on who reads: a string with half a surrogate pair cannot be taken as a
text, yet it can be passed over in a member nobody asked for. So a document is first laid out as a
`Reading`: the value as far as the text goes, with every fault kept at its place. Decoding a record
then walks the reading in text order.

* `Fault` is the kind of a fault;
* `Reading` is the tree, its containers cut where the text fails;
* `pass` passes over a value, `readable` reads a value in full whatever its type.
-/

namespace RecordExport.Json

/-! ## 1. Faults -/

/-- What is wrong with a document. -/
inductive Fault where
  /-- the text is not JSON -/
  | malformed
  /-- the text ends early -/
  | truncated
  /-- a value has the wrong shape -/
  | mismatch
  deriving DecidableEq, Repr

/-- A scalar that cannot be taken: the fault for a reader, and the fault for one who only passes
    over it, if there is one. -/
structure Trouble where
  read : Fault
  pass : Option Fault
  deriving DecidableEq, Repr

/-- The same fault for everyone. -/
def Trouble.both (f : Fault) : Trouble := ⟨f, some f⟩

/-! ## 2. Numbers -/

/-- A number as written: the sign, the digits as one natural number, the power of ten they are
    scaled by, and whether neither a fraction nor an exponent was written. -/
structure Number where
  negative : Bool
  digits : Nat
  scale : Int
  isInteger : Bool
  deriving DecidableEq, Repr

/-- The number is read as a finite double-precision number. It is read in two steps, each of which
    rounds: first the leading digits that make a 64-bit number, and then their product with a power
    of ten. A quotient by a power of ten is always finite. -/
def Number.isFinite (n : Number) : Bool :=
  let d := (Decimal.mk n.digits n.scale).toWord
  if d.digits = 0 ∨ d.scale < 0 then true
  else if d.scale > 308 then false
  else
    match nearestTo d.digits 1, nearestTo (Nat.pow 10 d.scale.toNat) 1 with
    | some word, some power => (word.times? power).isSome
    | _, _ => false

/-- The natural number written, if one is. Minus zero is none. -/
def Number.toNat? (n : Number) : Option Nat :=
  if n.isInteger ∧ ¬n.negative then some n.digits else none

/-! ## 3. Readings -/

/-- A document or a part of it, as far as its text goes. -/
inductive Reading where
  | null
  | bool (b : Bool)
  | num (n : Except Trouble Number)
  | str (s : Except Trouble String)
  /-- the text begins like `null`, `true` or `false` and goes on differently -/
  | cutWord (f : Fault)
  /-- no value begins here -/
  | missing (f : Fault)
  /-- the items, and the fault that keeps the list from being closed, if one does -/
  | array (items : List Reading) (tail : Option Fault)
  /-- the members, and the fault that keeps the object from being closed, if one does -/
  | object (members : List (Except Trouble String × Reading)) (tail : Option Fault)

namespace Reading

mutual

/-- The fault met on passing over a value. -/
def pass : Reading → Option Fault
  | .null | .bool _ | .num (.ok _) | .str (.ok _) => none
  | .num (.error t) | .str (.error t) => t.pass
  | .cutWord f | .missing f => some f
  | .array items tail => (passItems items).or tail
  | .object members tail => (passMembers members).or tail

/-- The first fault met on passing over items. -/
def passItems : List Reading → Option Fault
  | [] => none
  | r :: rs => (pass r).or (passItems rs)

/-- The first fault met on passing over members. -/
def passMembers : List (Except Trouble String × Reading) → Option Fault
  | [] => none
  | (k, r) :: ms =>
    let key : Option Fault := match k with
      | .ok _ => none
      | .error t => t.pass
    (key.or (pass r)).or (passMembers ms)

end

mutual

/-- The fault met on reading a value in full, containers nested fewer than `depth` deep if that is
    limited. -/
def readable (depth : Option Nat) : Reading → Option Fault
  | .null | .bool _ | .num (.ok _) | .str (.ok _) => none
  | .num (.error t) | .str (.error t) => some t.read
  | .cutWord f | .missing f => some f
  | .array items tail =>
    if depth.any (· ≤ 1) then some .malformed
    else (readableItems (depth.map (· - 1)) items).or tail
  | .object members tail =>
    if depth.any (· ≤ 1) then some .malformed
    else (readableMembers (depth.map (· - 1)) members).or tail

/-- The first fault met on reading items in full. -/
def readableItems (depth : Option Nat) : List Reading → Option Fault
  | [] => none
  | r :: rs => (readable depth r).or (readableItems depth rs)

/-- The first fault met on reading members in full. -/
def readableMembers (depth : Option Nat) : List (Except Trouble String × Reading) → Option Fault
  | [] => none
  | (k, r) :: ms =>
    let key : Option Fault := match k with
      | .ok _ => none
      | .error t => some t.read
    (key.or (readable depth r)).or (readableMembers depth ms)

end

/-- The values of the members of an object that have the given key. -/
def values (key : String) : Reading → List Reading
  | .object members _ =>
    members.filterMap fun m => match m.1 with
      | .ok k => if k = key then some m.2 else none
      | .error _ => none
  | _ => []

/-- The value an object holds under a key; of several the last. -/
def get? (r : Reading) (key : String) : Option Reading := (r.values key).getLast?

/-- The items of a list; another value has none. -/
def items : Reading → List Reading
  | .array rs _ => rs
  | _ => []

/-- The string written, if one is. -/
def str? : Reading → Option String
  | .str (.ok s) => some s
  | _ => none

/-- The truth value written, if one is. -/
def bool? : Reading → Option Bool
  | .bool b => some b
  | _ => none

/-- The natural number written, if one is. -/
def nat? : Reading → Option Nat
  | .num (.ok n) => n.toNat?
  | _ => none

/-- The value is null. -/
def isNull : Reading → Bool
  | .null => true
  | _ => false

end Reading

/-! ## 4. The reading of a written value -/

mutual

/-- A value as a reader meets it in its written form. -/
def toReading : Json → Reading
  | .null => .null
  | .bool b => .bool b
  | .nat n => .num (.ok ⟨false, n, 0, true⟩)
  | .str s => .str (.ok s)
  | .arr items => .array (toReadings items) none
  | .obj members => .object (toMembers members) none

/-- Items as a reader meets them. -/
def toReadings : List Json → List Reading
  | [] => []
  | v :: vs => toReading v :: toReadings vs

/-- Members as a reader meets them. -/
def toMembers : List (String × Json) → List (Except Trouble String × Reading)
  | [] => []
  | (k, v) :: ms => (.ok k, toReading v) :: toMembers ms

end

end RecordExport.Json
