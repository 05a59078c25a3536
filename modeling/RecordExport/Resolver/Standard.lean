import RecordExport.Render.Engine
import RecordExport.Resolver.DailyRoutine
import RecordExport.Resolver.Dialog
import RecordExport.Resolver.FieldList
import RecordExport.Resolver.Language
import RecordExport.Resolver.Possessions
import RecordExport.Resolver.Snippets
/-!
# The standard resolvers

Snippets and dialogs come first, so the text they put in is seen by the resolvers after them. The
fields of an object come after the lists it is part of, so that its placeholders inside expanded
lists are resolved too and all uses of a field are seen. Languages come last.
-/

namespace RecordExport

/-- What a standard resolver is about. -/
inductive Topic where
  | snippets
  | dialog
  | dailyRoutine
  | inventory
  | skills
  | fields
  | fieldList
  | language
  deriving DecidableEq, Repr

namespace Topic

/-- Every topic. -/
def all : List Topic :=
  [.snippets, .dialog, .dailyRoutine, .inventory, .skills, .fields, .fieldList, .language]

/-- The resolver of a topic. -/
def resolver : Topic → Resolver
  | .snippets => .snippets
  | .dialog => .dialog
  | .dailyRoutine => .dailyRoutine
  | .inventory => .inventory
  | .skills => .skills
  | .fields => .fields
  | .fieldList => .fieldList
  | .language => .language

/-- The order number of a topic's resolver. -/
def order : Topic → Nat
  | .snippets => 10
  | .dialog => 20
  | .dailyRoutine => 30
  | .inventory => 40
  | .skills => 50
  | .fields => 60
  | .fieldList => 70
  | .language => 80

/-- The topic whose resolver has a name. -/
def named? (name : String) : Option Topic := all.find? (·.resolver.name = name)

end Topic

/-- The standard resolvers with their order numbers. -/
def standardResolvers : List Registration := Topic.all.map fun t => ⟨t.order, t.resolver⟩

/-- An engine with the standard resolvers. -/
def Engine.standard {ω : Type} (services : Services ω) (maxDepth : Nat) : Engine ω :=
  .ofRegistrations standardResolvers services maxDepth

end RecordExport
