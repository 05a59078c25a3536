import RecordExport.Settings
import RecordExport.Template.BuiltIn
/-!
# Default templates

Every kind has a default template: the built-in one, or the one put in its place last. A template
names the engine that renders it; this library renders its own.
-/

namespace RecordExport

/-- The tag of the engine that renders placeholders. -/
def placeholderEngine : String := "placeholder"

/-- A default template and the engine that renders it. -/
structure DefaultTemplate where
  text : Text
  engine : String
  deriving DecidableEq, Repr

/-- A template for the placeholder engine. -/
def DefaultTemplate.placeholder (t : Text) : DefaultTemplate := ⟨t, placeholderEngine⟩

/-- The templates put in the place of built-in ones, the latest last. -/
structure TemplateRegistry where
  overrides : List (ArtifactKind × Text)
  deriving DecidableEq, Repr

namespace TemplateRegistry

/-- The built-in templates alone. -/
def builtIn : TemplateRegistry := ⟨[]⟩

/-- The templates of a configuration. -/
def ofConfig (c : Config) : TemplateRegistry := ⟨c.templates.map fun t => (t.1, t.2.toList)⟩

/-- A template in the place of a kind's. -/
def set (r : TemplateRegistry) (k : ArtifactKind) (t : Text) : TemplateRegistry :=
  ⟨r.overrides ++ [(k, t)]⟩

/-- The template of a kind. -/
def get (r : TemplateRegistry) (k : ArtifactKind) : DefaultTemplate :=
  .placeholder ((r.overrides.reverse.lookup k).getD (BuiltIn.template k))

end TemplateRegistry
end RecordExport
