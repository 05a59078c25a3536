import RecordExport.Resolver.Fields
/-!
# Probes

A probe is a small resolver that stands in a pipeline to see how it behaves around it: one that
marks the text, one that cancels the render, one that renders again inside itself, one that resolves
an object, one that fails.
-/

namespace RecordExport

/-- How a failing probe fails. -/
inductive ProbeFailure where
  | cancelled
  | depthExceeded
  | wrongSubject
  | notFound
  | unsupportedEngine
  | unavailable
  deriving DecidableEq, Repr

/-- What a probe does. -/
inductive ProbeAction where
  /-- put the probe's text in angle brackets behind the text -/
  | tag
  /-- cancel the render -/
  | cancel
  /-- render the probe's text inside, under a label if wanted -/
  | recurse (labelled : Bool)
  /-- resolve the subject in the namespace that the probe's text names -/
  | object
  | fail (how : ProbeFailure)
  deriving DecidableEq, Repr

/-- The action in a word. -/
def ProbeAction.word : ProbeAction → String
  | .tag => "tag"
  | .cancel => "cancel"
  | .recurse _ => "recurse"
  | .object => "object"
  | .fail _ => "fail"

/-- A probe. Without kinds it takes part in all of them. -/
structure Probe where
  action : ProbeAction
  text : String
  kinds : Option (List ArtifactKind)
  catalogName : String
  deriving DecidableEq, Repr

namespace Probe

/-- The error of a failing probe. -/
def error (p : Probe) (how : ProbeFailure) (kind : ArtifactKind) (c : RenderContext) :
    RenderError :=
  match how with
  | .cancelled => .cancelled
  | .depthExceeded => .depthExceeded 7
  | .wrongSubject => .wrongSubject "fail" c.subject.typeName
  | .notFound => .service (.notFound "thing" p.text)
  | .unsupportedEngine => .service (.unsupportedEngine p.text kind.tag)
  | .unavailable => .service (.unavailable p.text)

/-- The result of a nested render; a failure is reported and stands empty. -/
def recovered (r : Except RenderError Text) : RenderProgram Text :=
  match r with
  | .ok t => pure t
  | .error .cancelled => .fail .cancelled
  | .error e => do
    RenderProgram.record e.diagnosticKind e.message
    pure []

/-- Render the probe's text inside the render of another. -/
def recurse (p : Probe) (labelled : Bool) (kind : ArtifactKind) (c : RenderContext) (t : Text) :
    RenderProgram Text := do
  let inner ← RenderProgram.within "resolving" do
    let depth ← RenderProgram.request .depth
    let label := if labelled then some ("level " ++ toString depth) else none
    let result ← RenderProgram.request (.nested ⟨kind, p.text.toList, c, label⟩)
    recovered result
  pure (Text.replaceAll (braced "Recurse".toList) ('(' :: inner ++ [')']) t)

/-- What a probe does to a text. -/
def resolve (p : Probe) (kind : ArtifactKind) (c : RenderContext) (t : Text) :
    RenderProgram Text :=
  match p.action with
  | .tag => pure (t ++ '<' :: p.text.toList ++ ['>'])
  | .cancel => do
    RenderProgram.request .cancel
    pure t
  | .recurse labelled => p.recurse labelled kind c t
  | .object =>
    match c.subject with
    | .object o => resolveObject o c.objectType p.text t
    | _ => pure t
  | .fail how => .fail (p.error how kind c)

/-- The probe as a resolver. -/
def resolver (p : Probe) : Resolver where
  name := p.action.word
  applies k := p.kinds.all (·.contains k)
  resolve := p.resolve
  catalog _ := [⟨p.catalogName, p.action.word⟩]
  families := []

end Probe
end RecordExport
