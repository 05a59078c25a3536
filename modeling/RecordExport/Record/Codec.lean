import RecordExport.Json.Decoder
import RecordExport.Record.Project
/-!
# Records in JSON

The form of every record in a project file: its keys, in the order in which a list gives them, and
the defaults of those that may be left out. Writing a record writes every field.

A node of a dialog has its own form: it is always an object, its content is told by the member
`type`, and the members of that content stand beside `id`. The content can only be read once the
type is known, so the other members are first read in full, whatever their type; they may nest as
deep as the reader of the whole file allows. The type may also be given by its number.
-/

namespace RecordExport

open Json Json.Decoder

/-! ## 1. Writing -/

namespace Field

/-- The field as it is written. -/
def toJson (f : Field) : Json :=
  .obj [("id", .str f.id), ("name", .str f.name), ("type", .str f.type.tag),
    ("value", .str f.value), ("aliases", .strs f.aliases)]

end Field

/-- The entry as it is written. -/
def InventoryEntry.toJson (e : InventoryEntry) : Json :=
  .obj [("item_id", .str e.itemId), ("quantity", .nat e.quantity.toNat),
    ("is_equipped", .bool e.isEquipped)]

/-- The time as it is written. -/
def TimeOfDay.toJson (t : TimeOfDay) : Json :=
  .obj [("hours", .nat t.hours.toNat), ("minutes", .nat t.minutes.toNat)]

/-- The script as it is written. -/
def Script.toJson (s : Script) : Json := .obj [("name", .str s.name), ("code", .str s.code)]

/-- The event as it is written. -/
def ScheduleEvent.toJson (e : ScheduleEvent) : Json :=
  .obj [("id", .str e.id), ("earliest_time", e.earliest.toJson), ("latest_time", e.latest.toJson),
    ("movement_target", .ofOption .str e.movementTarget),
    ("script", .ofOption Script.toJson e.script), ("enabled_by_default", .bool e.enabledByDefault)]

/-- The snippet as it is written. -/
def Snippet.toJson (s : Snippet) : Json :=
  .obj [("id", .str s.id), ("name", .str s.name), ("code", .str s.code)]

/-- The object as it is written. -/
def GameObject.toJson (o : GameObject) : Json :=
  .obj [("id", .str o.id), ("name", .str o.name), ("type", .str o.type.tag),
    ("fields", .arr (o.fields.map Field.toJson)),
    ("inventory", .arr (o.inventory.map InventoryEntry.toJson)),
    ("skills", .strs o.skills),
    ("daily_routine", .arr (o.dailyRoutine.map ScheduleEvent.toJson)),
    ("export_snippets", .arr (o.snippets.map Snippet.toJson))]

/-- The option as it is written. -/
def ChoiceOption.toJson (o : ChoiceOption) : Json :=
  .obj [("id", .str o.id), ("text", .str o.text), ("next", .ofOption .str o.next)]

/-- The members that tell a node's content. -/
def NodeContent.toMembers : NodeContent → List (String × Json)
  | .npcText text next =>
    [("type", .str "npc-text"), ("text", .str text), ("next", .ofOption .str next)]
  | .playerText text next =>
    [("type", .str "player-text"), ("text", .str text), ("next", .ofOption .str next)]
  | .choice options =>
    [("type", .str "choice"), ("options", .arr (options.map ChoiceOption.toJson))]
  | .action name value next =>
    [("type", .str "action"), ("action", .str name), ("value", .str value),
      ("next", .ofOption .str next)]

/-- The node as it is written. -/
def DialogNode.toJson (n : DialogNode) : Json := .obj (("id", .str n.id) :: n.content.toMembers)

/-- The dialog as it is written. -/
def Dialog.toJson (d : Dialog) : Json :=
  .obj [("id", .str d.id), ("object_id", .str d.objectId),
    ("nodes", .arr (d.nodes.map DialogNode.toJson))]

/-- The project as it is written. -/
def Project.toJson (p : Project) : Json :=
  .obj [("objects", .arr (p.objects.map GameObject.toJson)),
    ("dialogs", .arr (p.dialogs.map Dialog.toJson))]

/-- The function as it is written. -/
def ScriptFunction.toJson (f : ScriptFunction) : Json :=
  .obj [("name", .str f.name), ("code", .str f.code), ("parent_preview", .str f.parentPreview)]

/-- The key as it is written. -/
def LanguageKey.toJson (k : LanguageKey) : Json :=
  .obj [("key", .str k.key), ("value", .str k.value)]

/-! ## 2. Reading objects -/

/-- Reads a field. -/
def Field.decoder : Decoder Field :=
  record
    (.cons (.required "id" str) <| .cons (.required "name" str) <|
      .cons (.defaulted "type" (oneOf FieldType.tags) .text) <|
      .cons (.defaulted "value" str "") <| .cons (.defaulted "aliases" (list str) []) .nil)
    fun (id, name, type, value, aliases, _) => ⟨id, name, type, value, aliases⟩

/-- Reads an entry. -/
def InventoryEntry.decoder : Decoder InventoryEntry :=
  record
    (.cons (.required "item_id" str) <| .cons (.defaulted "quantity" (natBelow (Nat.pow 2 32)) 1) <|
      .cons (.defaulted "is_equipped" bool false) .nil)
    fun (itemId, quantity, isEquipped, _) => ⟨itemId, UInt32.ofNat quantity, isEquipped⟩

/-- Reads a time. -/
def TimeOfDay.decoder : Decoder TimeOfDay :=
  record
    (.cons (.required "hours" (natBelow 256)) <| .cons (.required "minutes" (natBelow 256)) .nil)
    fun (hours, minutes, _) => ⟨UInt8.ofNat hours, UInt8.ofNat minutes⟩

/-- Reads a script. -/
def Script.decoder : Decoder Script :=
  record (.cons (.required "name" str) <| .cons (.defaulted "code" str "") .nil)
    fun (name, code, _) => ⟨name, code⟩

/-- Reads an event. -/
def ScheduleEvent.decoder : Decoder ScheduleEvent :=
  record
    (.cons (.required "id" str) <| .cons (.required "earliest_time" TimeOfDay.decoder) <|
      .cons (.required "latest_time" TimeOfDay.decoder) <|
      .cons (.defaulted "movement_target" (optional str) none) <|
      .cons (.defaulted "script" (optional Script.decoder) none) <|
      .cons (.defaulted "enabled_by_default" bool true) .nil)
    fun (id, earliest, latest, target, script, enabled, _) =>
      ⟨id, earliest, latest, target, script, enabled⟩

/-- Reads a snippet. -/
def Snippet.decoder : Decoder Snippet :=
  record
    (.cons (.required "id" str) <| .cons (.required "name" str) <|
      .cons (.defaulted "code" str "") .nil)
    fun (id, name, code, _) => ⟨id, name, code⟩

/-- Reads an object. -/
def GameObject.decoder : Decoder GameObject :=
  record
    (.cons (.required "id" str) <| .cons (.required "name" str) <|
      .cons (.defaulted "type" (oneOf ObjectType.tags) .npc) <|
      .cons (.defaulted "fields" (list Field.decoder) []) <|
      .cons (.defaulted "inventory" (list InventoryEntry.decoder) []) <|
      .cons (.defaulted "skills" (list str) []) <|
      .cons (.defaulted "daily_routine" (list ScheduleEvent.decoder) []) <|
      .cons (.defaulted "export_snippets" (list Snippet.decoder) []) .nil)
    fun (id, name, type, fields, inventory, skills, routine, snippets, _) =>
      ⟨id, name, type, fields, inventory, skills, routine, snippets⟩

/-- Reads a function. -/
def ScriptFunction.decoder : Decoder ScriptFunction :=
  record
    (.cons (.required "name" str) <| .cons (.required "code" str) <|
      .cons (.defaulted "parent_preview" str "") .nil)
    fun (name, code, preview, _) => ⟨name, code, preview⟩

/-- Reads a language key. -/
def LanguageKey.decoder : Decoder LanguageKey :=
  record (.cons (.required "key" str) <| .cons (.required "value" str) .nil)
    fun (key, value, _) => ⟨key, value⟩

/-! ## 3. Reading dialogs -/

/-- Reads an option. -/
def ChoiceOption.decoder : Decoder ChoiceOption :=
  record
    (.cons (.required "id" str) <| .cons (.required "text" str) <|
      .cons (.defaulted "next" (optional str) none) .nil)
    fun (id, text, next, _) => ⟨id, text, next⟩

/-- What the member `type` of a node says. -/
inductive NodeTag where
  | npcText
  | playerText
  | choice
  | action
  deriving DecidableEq, Repr

namespace NodeTag

/-- The tags with their meanings, in the order of their numbers. -/
def tags : List (String × NodeTag) :=
  [("npc-text", .npcText), ("player-text", .playerText), ("choice", .choice), ("action", .action)]

/-- Reads a tag, given as its word or its number. -/
def decoder : Decoder NodeTag
  | .str (.ok s) => match tags.lookup s with
    | some t => .ok t
    | none => .error .mismatch
  | .num (.ok n) => match (n.toNat?.bind fun i => tags[i]?) with
    | some t => .ok t.2
    | none => .error .mismatch
  | _ => .error .mismatch

end NodeTag

/-- Members of a JSON object as they are read. -/
abbrev Members := List (Except Trouble String × Reading)

/-- Reads the content of a node from the members beside its id. -/
def NodeContent.ofMembers (tag : NodeTag) (ms : Members) : Except Fault NodeContent :=
  let line : Slots [String, Option String] :=
    .cons (.required "text" str) <| .cons (.defaulted "next" (optional str) none) .nil
  match tag with
  | .npcText => (members line ms none).map fun (text, next, _) => .npcText text next
  | .playerText => (members line ms none).map fun (text, next, _) => .playerText text next
  | .choice =>
    (members (.cons (.required "options" (list ChoiceOption.decoder)) .nil) ms none).map
      fun (options, _) => .choice options
  | .action =>
    (members (.cons (.required "action" str) <| .cons (.defaulted "value" str "") <|
        .cons (.defaulted "next" (optional str) none) .nil) ms none).map
      fun (name, value, next, _) => .action name value next

/-- The id of a node, if it has one, and its other members, each read in full, nested fewer than
    `depth` deep if that is limited. -/
def nodeMembers (depth : Option Nat) :
    Members → (id : Option String) → Except Fault (Option String × Members)
  | [], id => .ok (id, [])
  | (.error t, _) :: _, _ => .error t.read
  | (.ok key, r) :: ms, id =>
    if key = "id" then
      match id with
      | some _ => .error .mismatch
      | none =>
        match str r with
        | .error f => .error f
        | .ok s => nodeMembers depth ms (some s)
    else
      match r.readable depth with
      | some f => .error f
      | none => (nodeMembers depth ms id).map fun (id, others) => (id, (.ok key, r) :: others)

/-- The content of a node from its other members; whatever is wrong is their shape. -/
def nodeContent (others : Members) : Except Fault NodeContent :=
  let isTag (m : Except Trouble String × Reading) : Bool :=
    match m.1 with
    | .ok k => k = "type"
    | .error _ => false
  let content := match others.filter isTag with
    | [tag] => (NodeTag.decoder tag.2).bind fun tag =>
      NodeContent.ofMembers tag (others.filter fun m => !isTag m)
    | _ => .error .mismatch
  match content with
  | .ok c => .ok c
  | .error _ => .error .mismatch

/-- Reads a node whose members may nest fewer than `depth` deep, if that is limited. -/
def DialogNode.decoder (depth : Option Nat) : Decoder DialogNode
  | .object ms tail =>
    match nodeMembers depth ms none with
    | .error f => .error f
    | .ok (id, others) =>
      match tail, id with
      | some f, _ => .error f
      | none, none => .error .mismatch
      | none, some id => (nodeContent others).map fun c => ⟨id, c⟩
  | .str (.error t) | .num (.error t) => .error t.read
  | .cutWord f | .missing f => .error f
  | _ => .error .mismatch

/-- Reads a dialog. -/
def Dialog.decoder (depth : Option Nat) : Decoder Dialog :=
  record
    (.cons (.required "id" str) <| .cons (.required "object_id" str) <|
      .cons (.defaulted "nodes" (list (DialogNode.decoder depth)) []) .nil)
    fun (id, objectId, nodes, _) => ⟨id, objectId, nodes⟩

/-- Reads a project. -/
def Project.decoder (depth : Option Nat) : Decoder Project :=
  record
    (.cons (.defaulted "objects" (list GameObject.decoder) []) <|
      .cons (.defaulted "dialogs" (list (Dialog.decoder depth)) []) .nil)
    fun (objects, dialogs, _) => ⟨objects, dialogs⟩

/-- How deep the members of a node may nest in a project file. -/
def fileDepth : Nat := 123

/-- The project a text holds. -/
def Project.ofText (t : Text) : Except Fault Project :=
  Json.Decoder.ofText (Project.decoder (some fileDepth)) t

end RecordExport
