import RecordExport.Kind
import RecordExport.Record.Dialog
/-!
# What a render is about

Every render has a subject, the record it produces output for, and the type of object its language
keys are issued for. A language file may also list keys of texts that other objects own.
-/

namespace RecordExport

/-- A step of a dialog's function. -/
structure DialogStep where
  ownerId : String
  ownerName : String
  dialogId : String
  node : DialogNode
  /-- the function each option leads to, in the order of the options -/
  optionFunctions : List (Option String)
  /-- the function the step goes on with, if the step is a call -/
  nextFunction : Option String
  deriving DecidableEq, Repr

/-- The record a render produces output for. -/
inductive Subject where
  | object (o : GameObject)
  | objects (os : List GameObject)
  | dialogFunction (f : ScriptFunction)
  | dialogStep (s : DialogStep)
  | scheduleEvent (eventId : String) (f : ScriptFunction)
  | snippetFunction (f : ScriptFunction)
  deriving DecidableEq, Repr

/-- The subject's type in words. -/
def Subject.typeName : Subject → String
  | .object _ => "object"
  | .objects _ => "object list"
  | .dialogFunction _ => "dialog function"
  | .dialogStep _ => "dialog step"
  | .scheduleEvent _ _ => "schedule event"
  | .snippetFunction _ => "snippet function"

/-- What a render is about. -/
structure RenderContext where
  subject : Subject
  objectType : ObjectType
  /-- keys of texts the subject refers to without owning them -/
  referencedKeys : List LanguageKey
  deriving DecidableEq, Repr

namespace RenderContext

/-- A context without referenced keys. -/
def of (s : Subject) (t : ObjectType) : RenderContext := ⟨s, t, []⟩

/-- The context of an object, under its own type. -/
def ofObject (o : GameObject) : RenderContext := of (.object o) o.type

/-- The context with other fields for its object; without an object nothing changes. -/
def withFields (fields : List Field) (c : RenderContext) : RenderContext :=
  match c.subject with
  | .object o => { c with subject := .object { o with fields } }
  | _ => c

end RenderContext
end RecordExport
