import RecordExport.Render.Program
import RecordExport.Template.Block
/-!
# Resolvers

A resolver owns a family of placeholders. It resolves the placeholders it knows and leaves the rest
of the text to the resolvers after it. Besides its program it tells which kinds of artefacts it
takes part in, what it has to offer for each, and which of its blocks share an end marker.
-/

namespace RecordExport

/-- What an author can write, and what it stands for. -/
structure CatalogEntry where
  name : String
  description : String
  deriving DecidableEq, Repr

/-- A family of placeholders and what is done with them. -/
structure Resolver where
  name : String
  applies : ArtifactKind → Bool
  resolve : ArtifactKind → RenderContext → Text → RenderProgram Text
  catalog : ArtifactKind → List CatalogEntry
  families : List BlockFamily

/-- The program of a resolver that cannot render its subject. -/
def wrongSubject {α : Type} (resolver : String) (s : Subject) : RenderProgram α :=
  .fail (.wrongSubject resolver s.typeName)

/-- The single object a resolver renders. -/
def singleObject (resolver : String) (c : RenderContext) : RenderProgram GameObject :=
  match c.subject with
  | .object o => pure o
  | s => wrongSubject resolver s

end RecordExport
