import RecordExport.Record.Object
import RecordExport.Record.Dialog
/-!
# Projects

A project file lists objects and dialogs. Looked up by id, the last record with an id counts; a
dialog is looked up by the object it belongs to.
-/

namespace RecordExport

/-- The records of a project, in the order of its file. -/
structure Project where
  objects : List GameObject
  dialogs : List Dialog
  deriving DecidableEq, Repr

namespace Project

/-- No records. -/
def empty : Project := ⟨[], []⟩

/-- The object with an id. -/
def object? (p : Project) (id : String) : Option GameObject := p.objects.reverse.find? (·.id = id)

/-- The dialog of an object. -/
def dialogOf? (p : Project) (objectId : String) : Option Dialog :=
  p.dialogs.reverse.find? (·.objectId = objectId)

end Project
end RecordExport
