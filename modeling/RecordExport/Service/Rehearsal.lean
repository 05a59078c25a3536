import RecordExport.Service.Services
/-!
# Rehearsals

A rehearsal watches the calls a render makes and lets some of them go wrong, to see what becomes of
the text. Every call is noted before it is made. Faults are searched in order for the first that
means the call; a fault can let a number of calls pass before it acts.
-/

namespace RecordExport

/-! ## 1. Faults -/

/-- The collaborator a call goes to. -/
inductive CallSite where
  | object
  | dialog
  | key
  | script
  | template
  deriving DecidableEq, Repr

namespace CallSite

/-- The tags with their meanings. -/
def tags : List (String × CallSite) :=
  [("object", .object), ("dialog", .dialog), ("key", .key), ("script", .script),
    ("template", .template)]

/-- The collaborator as a tag. -/
def tag : CallSite → String
  | .object => "object"
  | .dialog => "dialog"
  | .key => "key"
  | .script => "script"
  | .template => "template"

end CallSite

/-- What becomes of a call. -/
inductive FaultEffect where
  | fail (e : ServiceError)
  /-- the call succeeds and the render it is made for is cancelled -/
  | cancel
  /-- another answer: this key, no functions, a template of this engine -/
  | answer (text : String)
  deriving DecidableEq, Repr

/-- A fault: the calls it means, how many of them it lets pass, and what it does. -/
structure CallFault where
  site : CallSite
  id : Option String
  skip : Nat
  effect : FaultEffect
  deriving DecidableEq, Repr

/-- The fault means a call. -/
def CallFault.means (f : CallFault) (site : CallSite) (id : String) : Bool :=
  f.site = site && f.id.all (· = id)

/-- What the first fault that acts does to a call, and the faults afterwards. -/
def faultOf (site : CallSite) (id : String) : List CallFault → Option FaultEffect × List CallFault
  | [] => (none, [])
  | f :: fs =>
    if f.means site id then
      if f.skip = 0 then (some f.effect, f :: fs)
      else
        let (effect, fs) := faultOf site id fs
        (effect, { f with skip := f.skip - 1 } :: fs)
    else
      let (effect, fs) := faultOf site id fs
      (effect, f :: fs)

/-! ## 2. Watched calls -/

/-- A watched world: the calls so far, the latest last, and the faults. -/
structure Watched (ω : Type) where
  inner : ω
  trace : List String
  faults : List CallFault

/-- A call that is noted and may go wrong; `other` is its other answer, if it has one. -/
def watched {ω α : Type} (site : CallSite) (id : String) (other : String → Call ω α)
    (c : Call ω α) : Call (Watched ω) α := fun w =>
  let trace := w.trace ++ [site.tag ++ ":" ++ id]
  let (effect, faults) := faultOf site id w.faults
  let after (r : Reply ω α) : Reply (Watched ω) α := ⟨r.result, r.cancels, ⟨r.world, trace, faults⟩⟩
  match effect with
  | none => after (c w.inner)
  | some (.fail e) => ⟨.error e, false, ⟨w.inner, trace, faults⟩⟩
  | some .cancel => { after (c w.inner) with cancels := true }
  | some (.answer text) => after (other text w.inner)

/-- How a request for a key is noted. -/
def KeyRequest.trace (r : KeyRequest) : String :=
  match r.field with
  | none => r.ownerId
  | some f => r.ownerId ++ "/" ++ f.id

/-- The same collaborators, watched. -/
def Services.watched {ω : Type} (s : Services ω) : Services (Watched ω) where
  object id := RecordExport.watched .object id (fun _ => s.object id) (s.object id)
  dialog objectId :=
    RecordExport.watched .dialog objectId (fun _ => s.dialog objectId) (s.dialog objectId)
  languageKey r := RecordExport.watched .key r.trace (fun key => .pure (.ok key)) (s.languageKey r)
  functions owner script :=
    RecordExport.watched .script (owner ++ "/" ++ script.name) (fun _ => .pure (.ok []))
      (s.functions owner script)
  template projectId kind :=
    let call := s.template projectId kind
    let foreign (engine : String) : Call ω DefaultTemplate := fun w =>
      let r := call w
      { r with result := r.result.map fun t => { t with engine } }
    RecordExport.watched .template (projectId ++ "/" ++ kind.tag) foreign call
  projectId := s.projectId
  escape := s.escape

end RecordExport
