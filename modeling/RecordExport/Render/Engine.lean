import RecordExport.Render.Session
import RecordExport.Resolver.Basic
import RecordExport.Template.Validation
/-!
# Rendering

An engine has resolvers in the order they run in, collaborators, and a limit to how deep renders
nest. A render checks its text, reports what is wrong with it, and lets each resolver that takes
part in the kind change the text in turn.

* a resolver that fails leaves the text as it got it; the failure is reported and the next resolver
  goes on with that text. Only cancellation ends a render without a text;
* a nested render is a render one level deeper with a log of its own. At the limit there is none, so
  a render ends whatever its resolvers ask for.
-/

namespace RecordExport

/-! ## 1. The engine -/

/-- Resolvers, collaborators and a limit. -/
structure Engine (ω : Type) where
  resolvers : List Resolver
  services : Services ω
  maxDepth : Nat

/-- A resolver and its order number. -/
structure Registration where
  order : Nat
  resolver : Resolver

/-- Resolvers by their order numbers; of equal numbers the first registered comes first. -/
def inOrder (rs : List Registration) : List Resolver :=
  (rs.mergeSort fun a b => a.order ≤ b.order).map (·.resolver)

namespace Engine

variable {ω : Type}

/-- An engine with registered resolvers. -/
def ofRegistrations (rs : List Registration) (services : Services ω) (maxDepth : Nat) : Engine ω :=
  ⟨inOrder rs, services, maxDepth⟩

/-- The resolvers that take part in a kind. -/
def applicable (e : Engine ω) (kind : ArtifactKind) : List Resolver :=
  e.resolvers.filter (·.applies kind)

/-- Their names. -/
def pipeline (e : Engine ω) (kind : ArtifactKind) : List String :=
  (e.applicable kind).map (·.name)

/-- The families of blocks that share an end marker. -/
def families (e : Engine ω) : List BlockFamily := e.resolvers.flatMap (·.families)

/-- The issues of a template. -/
def validate (e : Engine ω) (t : Text) : List Issue := RecordExport.validate e.families t

/-- What is said of a template. -/
def validationReport (e : Engine ω) (t : Text) : ValidationReport :=
  RecordExport.validationReport e.families t

/-- Entries with names met for the first time. -/
def firstOfEachName : (seen : List String) → List CatalogEntry → List CatalogEntry
  | _, [] => []
  | seen, c :: cs =>
    if seen.contains c.name then firstOfEachName seen cs
    else c :: firstOfEachName (c.name :: seen) cs

/-- What a template of a kind can use, each name once. -/
def catalog (e : Engine ω) (kind : ArtifactKind) : List CatalogEntry :=
  firstOfEachName [] ((e.applicable kind).flatMap (·.catalog kind))

/-! ## 2. Answering a program -/

/-- How a nested render is answered. -/
abbrev NestedRender (ω : Type) := RenderRequest → SessionM ω (Except RenderError Text)

/-- An artefact from the default template of its kind; what fails is reported. -/
def artifact (e : Engine ω) (nested : NestedRender ω) (kind : ArtifactKind) (c : RenderContext)
    (label : String) : SessionM ω Text := do
  match ← SessionM.callOrReport (e.services.template e.services.projectId kind) with
  | none => pure []
  | some t =>
    if t.engine = placeholderEngine then
      match ← nested ⟨kind, t.text, c, some label⟩ with
      | .ok rendered => pure rendered
      | .error err =>
        SessionM.report err
        pure []
    else
      SessionM.report (.service (.unsupportedEngine t.engine kind.tag))
      pure []

/-- Answer an operation. -/
def answer (e : Engine ω) (nested : NestedRender ω) (depth : Nat) :
    (o : RenderOp) → SessionM ω o.Answer
  | .object id => SessionM.callOrReport (e.services.object id)
  | .dialog objectId => do
    let found ← SessionM.callOrReport (e.services.dialog objectId)
    pure found.join
  | .languageKey r => do
    let key ← SessionM.callOrReport (e.services.languageKey r)
    pure (key.getD "")
  | .functions scope id owner script =>
    SessionM.functionsOnce scope id (e.services.functions owner script)
  | .recall scope id => do pure ((← get).memo.get? scope id)
  | .keep scope id fs => modify fun s => { s with memo := s.memo.insert scope id fs }
  | .artifact kind c label => e.artifact nested kind c label
  | .nested r => nested r
  | .record kind detail => SessionM.record kind detail
  | .enter label => SessionM.enter label
  | .leave scope => SessionM.leave scope
  | .settings => pure e.services.escape
  | .depth => pure depth
  | .cancel => SessionM.cancel

/-- Run a program, answering each of its operations. -/
def run (answer : (o : RenderOp) → SessionM ω o.Answer) :
    {α : Type} → RenderProgram α → SessionM ω α
  | _, .done a => pure a
  | _, .fail err => throw err
  | _, .ask o go => do
    let x ← answer o
    run answer (go x)
  | _, .under label inner go => do
    let t ← SessionM.within label (run answer inner)
    run answer (go t)

/-! ## 3. Renders -/

/-- Let a resolver change a text. If it fails the text stays as it was. -/
def attempt (answer : (o : RenderOp) → SessionM ω o.Answer) (kind : ArtifactKind)
    (c : RenderContext) (t : Text) (r : Resolver) : SessionM ω Text := do
  SessionM.checkpoint
  tryCatch (run answer (r.resolve kind c t)) fun
    | .cancelled => throw .cancelled
    | err => do
      SessionM.record err.diagnosticKind (r.name ++ ": " ++ err.message)
      pure t

/-- What a diagnostic says about an issue. -/
def issueDetail (i : Issue) : String :=
  i.message ++ " (byte " ++ toString i.span.start ++ ")"

/-- Report the issues of a text and let every applicable resolver change it. -/
def passWith (e : Engine ω) (answer : (o : RenderOp) → SessionM ω o.Answer) (kind : ArtifactKind)
    (c : RenderContext) (t : Text) : SessionM ω Text := do
  (e.validate t).forM fun i => SessionM.record .malformedTemplate (issueDetail i)
  (e.applicable kind).foldlM (attempt answer kind c) t

/-- Nested renders with so many levels left: at the limit there is none, else it is a render with
    one level less and a log of its own. -/
def nested (e : Engine ω) : (left : Nat) → NestedRender ω
  | 0, _ => do
    SessionM.checkpoint
    pure (.error (.depthExceeded e.maxDepth))
  | left + 1, r => do
    SessionM.checkpoint
    let inner := e.passWith (e.answer (e.nested left) (e.maxDepth - left)) r.kind r.context r.text
    let t ← SessionM.isolated r.label inner
    pure (.ok t)

/-- Render with so many levels left to nest in. -/
def pass (e : Engine ω) (left : Nat) (kind : ArtifactKind) (c : RenderContext) (t : Text) :
    SessionM ω Text :=
  e.passWith (e.answer (e.nested left) (e.maxDepth - left)) kind c t

/-- The text of a render and what was reported on the way. -/
structure RenderOutput where
  text : Text
  diagnostics : List Diagnostic
  deriving DecidableEq, Repr

/-- How many diagnostics are of a kind. -/
def RenderOutput.count (kind : DiagnosticKind) (o : RenderOutput) : Nat :=
  o.diagnostics.countP (·.kind = kind)

/-- **Render a template.** There is a text unless the render was cancelled. -/
def render (e : Engine ω) (kind : ArtifactKind) (c : RenderContext) (t : Text) (w : ω)
    (cancelled : Bool) : Except RenderError RenderOutput × ω :=
  let (r, s) := (e.pass e.maxDepth kind c t).run (Session.start w cancelled)
  (r.map fun t => ⟨t, s.log.entries⟩, s.world)

end Engine
end RecordExport
