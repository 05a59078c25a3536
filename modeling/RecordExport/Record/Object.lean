import RecordExport.Text.LowerCase
/-!
# Records of a game's objects

An object is a character, an item or a skill. Besides its id and name it has FIELDS, free attributes
the author defines, and, as far as they apply, an inventory, skills, a daily routine and export
snippets. Fields and snippets are looked up by name without regard to case; a field also answers to
its aliases.
-/

namespace RecordExport

/-! ## 1. Types of objects and fields -/

/-- What an object is. -/
inductive ObjectType where
  | npc
  | item
  | skill
  deriving DecidableEq, Repr

namespace ObjectType

/-- The namespace of the object's placeholders, and the beginning of its language keys. -/
def space : ObjectType → String
  | .npc => "Npc"
  | .item => "Item"
  | .skill => "Skill"

/-- The type as a tag, with its meaning. -/
def tags : List (String × ObjectType) := [("npc", .npc), ("item", .item), ("skill", .skill)]

/-- The type as a tag. -/
def tag : ObjectType → String
  | .npc => "npc"
  | .item => "item"
  | .skill => "skill"

end ObjectType

/-- What a field holds. -/
inductive FieldType where
  | text
  | multiLineText
  | number
  | option
  deriving DecidableEq, Repr

namespace FieldType

/-- The type as a tag. -/
def tag : FieldType → String
  | .text => "text"
  | .multiLineText => "multi-line-text"
  | .number => "number"
  | .option => "option"

/-- The tags with their meanings. -/
def tags : List (String × FieldType) :=
  [("text", .text), ("multi-line-text", .multiLineText), ("number", .number), ("option", .option)]

end FieldType

/-! ## 2. Parts of an object -/

/-- A free attribute. -/
structure Field where
  id : String
  name : String
  type : FieldType
  value : String
  aliases : List String
  deriving DecidableEq, Repr

/-- Two names are the same but for case. -/
def sameName (name other : Text) : Bool := Text.lower name = Text.lower other

namespace Field

/-- The field answers to a name: its own or an alias. -/
def isNamed (f : Field) (name : Text) : Bool :=
  sameName f.name.toList name || f.aliases.any fun a => sameName a.toList name

/-- The field holds a number. -/
def isNumber (f : Field) : Bool := f.type = .number

/-- The field holds text that differs between languages. -/
def isLocalizable (f : Field) : Bool := f.type = .text || f.type = .multiLineText

end Field

/-- An item a character carries. -/
structure InventoryEntry where
  itemId : String
  quantity : UInt32
  isEquipped : Bool
  deriving DecidableEq, Repr

/-- A time of day. -/
structure TimeOfDay where
  hours : UInt8
  minutes : UInt8
  deriving DecidableEq, Repr

/-- A number with at least two digits. -/
def twoDigits (n : Nat) : String := if n < 10 then "0" ++ toString n else toString n

/-- The time as hours and minutes with a colon between. -/
def TimeOfDay.clock (t : TimeOfDay) : String :=
  twoDigits t.hours.toNat ++ ":" ++ twoDigits t.minutes.toNat

/-- Code with a name. -/
structure Script where
  name : String
  code : String
  deriving DecidableEq, Repr

/-- One event of a daily routine. -/
structure ScheduleEvent where
  id : String
  earliest : TimeOfDay
  latest : TimeOfDay
  movementTarget : Option String
  script : Option Script
  enabledByDefault : Bool
  deriving DecidableEq, Repr

/-- Code an object offers to its template. -/
structure Snippet where
  id : String
  name : String
  code : String
  deriving DecidableEq, Repr

/-- The snippet's code as a script. -/
def Snippet.script (s : Snippet) : Script := ⟨s.name, s.code⟩

/-! ## 3. Objects -/

/-- A character, an item or a skill. -/
structure GameObject where
  id : String
  name : String
  type : ObjectType
  fields : List Field
  inventory : List InventoryEntry
  /-- ids of skill objects -/
  skills : List String
  dailyRoutine : List ScheduleEvent
  snippets : List Snippet
  deriving DecidableEq, Repr

namespace GameObject

/-- The first field that answers to a name. -/
def field? (o : GameObject) (name : Text) : Option Field := o.fields.find? (·.isNamed name)

/-- The first snippet with a name. -/
def snippet? (o : GameObject) (name : Text) : Option Snippet :=
  o.snippets.find? fun s => sameName s.name.toList name

end GameObject

/-! ## 4. What is derived from records -/

/-- A function generated from a script or a dialog. -/
structure ScriptFunction where
  name : String
  code : String
  /-- a short description of what leads into the function -/
  parentPreview : String
  deriving DecidableEq, Repr

/-- A key of the language table and the text it stands for. -/
structure LanguageKey where
  key : String
  value : String
  deriving DecidableEq, Repr

end RecordExport
