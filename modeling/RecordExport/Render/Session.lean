import RecordExport.Render.Program
import RecordExport.Service.Services
/-!
# The state of a render

A render keeps the world of its collaborators, a log of diagnostics, the functions it derived and
whether it was cancelled. Everything nested in it shares this state but for the log, which a nested
render has for itself; its entries then go to the caller's log, whether the render succeeded or not.

Once a render is cancelled nobody is asked for anything any more. Every other failure of a
collaborator is reported where it happens.
-/

namespace RecordExport

/-- The state of a render. -/
structure Session (ω : Type) where
  world : ω
  log : DiagnosticLog
  memo : FunctionMemo
  cancelled : Bool

/-- The state a render begins in. -/
def Session.start {ω : Type} (w : ω) (cancelled : Bool) : Session ω :=
  ⟨w, .empty, .empty, cancelled⟩

/-- A step of a render: it may fail, and the state is there even then. -/
abbrev SessionM (ω : Type) := ExceptT RenderError (StateM (Session ω))

namespace SessionM

variable {ω α : Type}

/-! ## 1. Cancellation and reports -/

/-- Fail if the render was cancelled. -/
def checkpoint : SessionM ω Unit := do
  if (← get).cancelled then throw .cancelled

/-- Cancel the render. -/
def cancel : SessionM ω Unit := modify fun s => { s with cancelled := true }

/-- Report a problem. -/
def record (kind : DiagnosticKind) (detail : String) : SessionM ω Unit :=
  modify fun s => { s with log := s.log.record kind detail }

/-- Report a failure. -/
def report (e : RenderError) : SessionM ω Unit := record e.diagnosticKind e.message

/-! ## 2. Calls -/

/-- Call a collaborator, unless the render was cancelled. -/
def call (c : Call ω α) : SessionM ω (Except ServiceError α) := do
  checkpoint
  let s ← get
  let r := c s.world
  set { s with world := r.world, cancelled := s.cancelled || r.cancels }
  pure r.result

/-- Call a collaborator; a failure is reported. -/
def callOrReport (c : Call ω α) : SessionM ω (Option α) := do
  match ← call c with
  | .ok a => pure (some a)
  | .error e =>
    report (.service e)
    pure none

/-- Functions kept under a scope and an id, or else those a collaborator gives, which are kept. -/
def functionsOnce (scope : MemoScope) (id : String) (c : Call ω (List ScriptFunction)) :
    SessionM ω (List ScriptFunction) := do
  match (← get).memo.get? scope id with
  | some fs => pure fs
  | none =>
    match ← callOrReport c with
    | none => pure []
    | some fs =>
      modify fun s => { s with memo := s.memo.insert scope id fs }
      pure fs

/-! ## 3. Labels and logs -/

/-- Go under a label. -/
def enter (label : String) : SessionM ω LogScope :=
  modifyGet fun s =>
    let (scope, log) := s.log.enter label
    (scope, { s with log })

/-- Go back to where a label was entered. -/
def leave (scope : LogScope) : SessionM ω Unit :=
  modify fun s => { s with log := s.log.leave scope }

/-- Run a step under a label and leave the label however the step ends. -/
def within (label : String) (x : SessionM ω α) : SessionM ω α := fun s =>
  let (scope, log) := s.log.enter label
  let (r, s) := x { s with log }
  (r, { s with log := s.log.leave scope })

/-- Run a step on a log of its own, whose entries go to the caller's log under a label, however the
    step ends. -/
def isolated (label : Option String) (x : SessionM ω α) : SessionM ω α := fun s =>
  let (r, s') := x { s with log := .empty }
  (r, { s' with log := s.log.mergeUnder label s'.log })

end SessionM
end RecordExport
