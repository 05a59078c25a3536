import RecordExport.Json.Scan
/-!
# Decoding readings

A decoder takes a reading to a value or to the first fault met in text order. The decoders of
records are put together from a list of slots, one per field, each with its key, its decoder and,
where the field may be left out, its default:

* an object gives its members in any order; keys that name no slot are passed over, a key that names
  one twice is a mismatch at its second place;
* a list gives the slots in order; slots with a default may be missing at its end, and more items
  than slots are not a list of this record;
* a slot still empty at the end takes its default, or is a mismatch.
-/

namespace RecordExport.Json

/-- From a reading to a value. -/
abbrev Decoder (α : Type) := Reading → Except Fault α

namespace Decoder

/-! ## 1. Scalars -/

/-- A string. -/
def str : Decoder String
  | .str (.ok s) => .ok s
  | .str (.error t) | .num (.error t) => .error t.read
  | .cutWord f | .missing f => .error f
  | _ => .error .mismatch

/-- A truth value. -/
def bool : Decoder Bool
  | .bool b => .ok b
  | .str (.error t) | .num (.error t) => .error t.read
  | .cutWord f | .missing f => .error f
  | _ => .error .mismatch

/-- A natural number below a bound. -/
def natBelow (bound : Nat) : Decoder Nat
  | .num (.ok n) =>
    match n.toNat? with
    | some k => if k < bound then .ok k else .error .mismatch
    | none => .error .mismatch
  | .str (.error t) | .num (.error t) => .error t.read
  | .cutWord f | .missing f => .error f
  | _ => .error .mismatch

/-- A value that may be null. -/
def optional {α : Type} (d : Decoder α) : Decoder (Option α)
  | .null => .ok none
  | r => (d r).map some

/-- One of a list of words, given as the word or as an object with null under it. -/
def oneOf {α : Type} (words : List (String × α)) : Decoder α
  | .str (.ok s) =>
    match words.lookup s with
    | some a => .ok a
    | none => .error .mismatch
  | .str (.error t) => .error t.read
  | .missing f => .error f
  | .object [] tail => .error (tail.getD .malformed)
  | .object ((.error t, _) :: _) _ => .error t.read
  | .object ((.ok k, r) :: ms) tail =>
    match words.lookup k with
    | none => .error .mismatch
    | some a =>
      match r with
      | .null =>
        match ms, tail with
        | [], none => .ok a
        | [], some f => .error f
        | _ :: _, _ => .error .malformed
      | .str (.error t) | .num (.error t) => .error t.read
      | .cutWord f | .missing f => .error f
      | _ => .error .mismatch
  | _ => .error .malformed

/-! ## 2. Lists -/

/-- Items in order. -/
def each {α : Type} (d : Decoder α) : List Reading → Except Fault (List α)
  | [] => .ok []
  | r :: rs =>
    match d r with
    | .error f => .error f
    | .ok a => (each d rs).map (a :: ·)

/-- A list. -/
def list {α : Type} (d : Decoder α) : Decoder (List α)
  | .array items tail =>
    match each d items with
    | .error f => .error f
    | .ok as =>
      match tail with
      | some f => .error f
      | none => .ok as
  | .str (.error t) | .num (.error t) => .error t.read
  | .cutWord f | .missing f => .error f
  | _ => .error .mismatch

/-! ## 3. Records -/

/-- One field of a record. -/
structure Slot (α : Type) where
  key : String
  decode : Decoder α
  default? : Option α

/-- A field that must be given. -/
def Slot.required {α : Type} (key : String) (d : Decoder α) : Slot α := ⟨key, d, none⟩

/-- A field that may be left out. -/
def Slot.defaulted {α : Type} (key : String) (d : Decoder α) (a : α) : Slot α := ⟨key, d, some a⟩

/-- The fields of a record, in the order of their declaration. -/
inductive Slots : List Type → Type 1 where
  | nil : Slots []
  | cons {α : Type} {ts : List Type} (s : Slot α) (rest : Slots ts) : Slots (α :: ts)

/-- A value for each field. -/
def Values : List Type → Type
  | [] => Unit
  | α :: ts => α × Values ts

/-- A value for each field given so far. -/
def Filled : List Type → Type
  | [] => Unit
  | α :: ts => Option α × Filled ts

/-- No field given yet. -/
def Filled.none : (ts : List Type) → Filled ts
  | [] => ()
  | _ :: ts => (Option.none, Filled.none ts)

namespace Slots

/-- Give the field a key names: `none` if no field has the key. -/
def fill (key : String) (r : Reading) :
    {ts : List Type} → Slots ts → Filled ts → Option (Except Fault (Filled ts))
  | _, .nil, _ => .none
  | _, .cons s rest, (given, others) =>
    if key = s.key then
      some <| match given with
        | some _ => .error .mismatch
        | .none => (s.decode r).map fun a => (some a, others)
    else (rest.fill key r others).map fun e => e.map fun others => (given, others)

/-- Give fields by the members of an object. -/
def fillMembers {ts : List Type} (slots : Slots ts) :
    List (Except Trouble String × Reading) → Filled ts → Except Fault (Filled ts)
  | [], given => .ok given
  | (.error t, _) :: _, _ => .error t.read
  | (.ok key, r) :: ms, given =>
    match slots.fill key r given with
    | some (.error f) => .error f
    | some (.ok given) => slots.fillMembers ms given
    | .none =>
      match r.pass with
      | some f => .error f
      | .none => slots.fillMembers ms given

/-- The values of the fields once all members are read. -/
def complete : {ts : List Type} → Slots ts → Filled ts → Except Fault (Values ts)
  | _, .nil, _ => .ok ()
  | _, .cons s rest, (given, others) =>
    match given.or s.default? with
    | .none => .error .mismatch
    | some a => (rest.complete others).map fun vs => (a, vs)

/-- The values of the fields from the items of a list. -/
def inOrder : {ts : List Type} → Slots ts → List Reading → Option Fault → Except Fault (Values ts)
  | _, .nil, [], .none => .ok ()
  | _, .nil, [], some f => .error f
  | _, .nil, _ :: _, _ => .error .malformed
  | _, .cons s rest, r :: rs, tail =>
    match s.decode r with
    | .error f => .error f
    | .ok a => (rest.inOrder rs tail).map fun vs => (a, vs)
  | _, .cons _ _, [], some f => .error f
  | _, .cons s rest, [], .none =>
    match s.default? with
    | .none => .error .mismatch
    | some a => (rest.inOrder [] .none).map fun vs => (a, vs)

end Slots

/-- The fields of a record, from the members of an object that is closed or cut. -/
def members {ts : List Type} (slots : Slots ts) (ms : List (Except Trouble String × Reading))
    (tail : Option Fault) : Except Fault (Values ts) :=
  match slots.fillMembers ms (Filled.none ts) with
  | .error f => .error f
  | .ok given =>
    match tail with
    | some f => .error f
    | none => slots.complete given

/-- A record. -/
def record {α : Type} {ts : List Type} (slots : Slots ts) (build : Values ts → α) : Decoder α
  | .object ms tail => (members slots ms tail).map build
  | .array items tail => (slots.inOrder items tail).map build
  | .str (.error t) | .num (.error t) => .error t.read
  | .cutWord f | .missing f => .error f
  | _ => .error .mismatch

/-! ## 4. Whole texts -/

/-- Decode a text that holds nothing but one value. -/
def ofText {α : Type} (d : Decoder α) (t : Text) : Except Fault α :=
  let doc := document t
  match d doc.root with
  | .error f => .error f
  | .ok a =>
    match doc.trailing with
    | some f => .error f
    | none => .ok a

/-- Decode a part of a document already known to be JSON: whatever is wrong is its shape. -/
def ofPart {α : Type} (d : Decoder α) (r : Reading) : Except Fault α :=
  match d r with
  | .error _ => .error .mismatch
  | .ok a => .ok a

end Decoder
end RecordExport.Json
