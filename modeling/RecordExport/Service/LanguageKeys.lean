import RecordExport.Record.Object
import RecordExport.Text.Identifier
/-!
# Language keys

Texts of the game stand in language files under keys. A request identifies a text by its owner and,
unless it is the owner's name, by a field; the first request of an identity issues a key, later ones
get the same key again and renew its text.

A key reads type, owner and field, each as an identifier. Where that is taken, a number is put
behind it: the smallest from two on that gives a free key. More candidates are tried than there are
keys, so one of them is free.
-/

namespace RecordExport

/-! ## 1. Requests -/

/-- The field part of a request. -/
structure KeyField where
  id : String
  name : String
  value : String
  deriving DecidableEq, Repr

/-- A request for a key; without a field it is for the owner's name. -/
structure KeyRequest where
  ownerId : String
  ownerName : String
  objectType : ObjectType
  field : Option KeyField
  deriving DecidableEq, Repr

namespace KeyRequest

/-- A request for the key of an owner's name. -/
def forName (ownerId ownerName : String) (type : ObjectType) : KeyRequest :=
  ⟨ownerId, ownerName, type, none⟩

/-- The same owner's request for a field. -/
def withField (r : KeyRequest) (id name value : String) : KeyRequest :=
  { r with field := some ⟨id, name, value⟩ }

/-- What tells requests apart. -/
def identity (r : KeyRequest) : String × Option String := (r.ownerId, r.field.map (·.id))

/-- The text the key stands for. -/
def value (r : KeyRequest) : String := (r.field.map (·.value)).getD r.ownerName

/-- The key a request asks for first. -/
def baseKey (r : KeyRequest) : String :=
  r.objectType.space ++ "_" ++ identifierOf r.ownerName ++ "_"
    ++ identifierOf ((r.field.map (·.name)).getD "Name")

end KeyRequest

/-! ## 2. The table -/

/-- The keys issued: by identity, and the text of each. -/
structure KeyTable where
  issued : List ((String × Option String) × String)
  values : List (String × String)
  deriving DecidableEq, Repr

namespace KeyTable

/-- No keys. -/
def empty : KeyTable := ⟨[], []⟩

/-- The key is in use. -/
def isTaken (t : KeyTable) (key : String) : Bool := (t.values.lookup key).isSome

/-- The candidates for a key, in order: the base, then with a number from two on. -/
def candidate (base : String) : Nat → String
  | 0 => base
  | n + 1 => base ++ "_" ++ toString (n + 2)

/-- The first candidate that is free. -/
def freeKey (t : KeyTable) (base : String) : String :=
  (((List.range (t.values.length + 1)).map (candidate base)).find? (!t.isTaken ·)).getD base

/-- The table with the text of a key set. -/
def setValue (t : KeyTable) (key value : String) : KeyTable :=
  { t with values := t.values.filter (·.1 ≠ key) ++ [(key, value)] }

/-- The key of a request, and the table afterwards. -/
def request (t : KeyTable) (r : KeyRequest) : String × KeyTable :=
  match t.issued.lookup r.identity with
  | some key => (key, t.setValue key r.value)
  | none =>
    let key := t.freeKey r.baseKey
    (key, { t with issued := (r.identity, key) :: t.issued }.setValue key r.value)

/-- Every key issued with its text, in the order of the keys. -/
def keys (t : KeyTable) : List LanguageKey :=
  (t.values.mergeSort fun a b => a.1 ≤ b.1).map fun e => ⟨e.1, e.2⟩

end KeyTable
end RecordExport
