import RecordExport.Record.Object
/-!
# Kinds of artefacts

Every template produces one kind of artefact: an object, a listing of fields, a function of a dialog
or one step of it, a function of a routine or a snippet, a language file.
-/

namespace RecordExport

/-- What a template produces. -/
inductive ArtifactKind where
  | npc
  | item
  | skill
  | fieldList
  | dialogFunction
  | npcLine
  | playerLine
  | choice
  | action
  | functionCall
  | routineFunction
  | snippetFunction
  | languageFile
  deriving DecidableEq, Repr

namespace ArtifactKind

/-- Every kind. -/
def all : List ArtifactKind :=
  [.npc, .item, .skill, .fieldList, .dialogFunction, .npcLine, .playerLine, .choice, .action,
    .functionCall, .routineFunction, .snippetFunction, .languageFile]

/-- The kind as a tag. -/
def tag : ArtifactKind → String
  | .npc => "object-npc"
  | .item => "object-item"
  | .skill => "object-skill"
  | .fieldList => "object-field-list"
  | .dialogFunction => "tale-dialog-function"
  | .npcLine => "tale-npc-text-line"
  | .playerLine => "tale-player-text-line"
  | .choice => "tale-choice"
  | .action => "tale-action"
  | .functionCall => "tale-function-call"
  | .routineFunction => "daily-routine-function"
  | .snippetFunction => "snippet-function"
  | .languageFile => "language-file"

/-- The tags with their meanings. -/
def tags : List (String × ArtifactKind) := all.map fun k => (k.tag, k)

/-- The kind with a tag. -/
def ofTag? (t : String) : Option ArtifactKind := tags.lookup t

/-- The type of the object an object kind renders. -/
def objectType? : ArtifactKind → Option ObjectType
  | .npc => some .npc
  | .item => some .item
  | .skill => some .skill
  | _ => none

/-- The namespace of the object an object kind renders. -/
def space? (k : ArtifactKind) : Option String := k.objectType?.map (·.space)

/-- The kind renders one step of a dialog. -/
def isDialogStep : ArtifactKind → Bool
  | .npcLine | .playerLine | .choice | .action | .functionCall => true
  | _ => false

end ArtifactKind
end RecordExport
