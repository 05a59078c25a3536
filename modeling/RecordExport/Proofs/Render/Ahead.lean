import RecordExport.Proofs.Render.Additions
/-!
# What is behind a render

When a resolver has its turn, others have had theirs. They left a text and a state, and in its log what
there was to report. No step looks at that again.

* `Engine.ahead`: what a render comes to before the resolver of a topic has its turn;
* `SessionM.Unaware`: a step that goes on the same whatever was reported before, and leaves it alone;
* `Engine.unaware_run`: **so does every program**, whatever it asks for.
-/

namespace RecordExport

variable {ω α β : Type}

open SessionM

/-! ## 1. The resolvers ahead -/

namespace Engine

variable (e : Engine ω) (kind : ArtifactKind) (c : RenderContext) (t : Text)

/-- **What a render comes to before the resolver of a topic has its turn.** -/
def ahead (τ : Topic) (w : ω) (cancelled : Bool) : Except RenderError Text × Session ω :=
  (τ.resolversAhead kind).foldlM (attempt (e.answer (e.nested e.maxDepth) 0) kind c) t
    (e.reported t (.start w cancelled))

/-- The render goes on from there with that resolver and those behind it. -/
theorem render_of_ahead {τ : Topic} {rs : List Resolver}
    (happlicable : e.applicable kind = τ.resolversAhead kind ++ rs) {w : ω} {cancelled : Bool}
    {given : Text} {begun : Session ω}
    (hahead : e.ahead kind c t τ w cancelled = (.ok given, begun)) :
    let out : Except RenderError Text × Session ω :=
      rs.foldlM (attempt (e.answer (e.nested e.maxDepth) 0) kind c) given begun
    e.render kind c t w cancelled = (out.1.map fun t => ⟨t, out.2.log.entries⟩, out.2.world) := by
  intro out
  have hpass : e.pass e.maxDepth kind c t (.start w cancelled) = out := by
    rw [pass_apply, Nat.sub_self, happlicable, List.foldlM_append, bind_apply]
    show (Except.casesOn (e.ahead kind c t τ w cancelled).1 throw _ : SessionM ω Text)
      (e.ahead kind c t τ w cancelled).2 = out
    rw [hahead]
  have hrender : e.render kind c t w cancelled =
      let s := e.pass e.maxDepth kind c t (.start w cancelled)
      (s.1.map fun t => ⟨t, s.2.log.entries⟩, s.2.world) := rfl
  rw [hrender, hpass]

/-- The labels are then what they were in the beginning. -/
theorem breadcrumb_ahead (τ : Topic) (w : ω) (cancelled : Bool) :
    (e.ahead kind c t τ w cancelled).2.log.breadcrumb = [] := by
  have hruns : ∀ r ∈ τ.resolversAhead kind, ∀ t, Adds (fun _ _ _ => True)
      (run (e.answer (e.nested e.maxDepth) 0) (r.resolve kind c t)) := by
    intro r hr t s
    obtain ⟨topic, -, rfl⟩ := List.mem_map.1 hr
    refine DiagnosticLog.Grew.added ?_ fun _ _ _ => trivial
    exact leads_resolve stepRelation_grew (fun _ ho => e.grew_plain _ _ ho) topic
      (fun inner _ c label => e.grew_artifact _ _ inner c label) (fun scope _ => e.grew_functions _ _ scope)
      (fun _ _ npc d => e.grew_dialogFunctions _ _ npc d) s
  have hadded := (e.added_reported (fun _ => trivial) t (.start w cancelled)).trans
    (adds_attempts hruns (fun _ _ => trivial) t _)
  exact hadded.breadcrumb

end Engine

/-! ## 2. What was reported before -/

/-- The log with earlier entries in front of its own. -/
def DiagnosticLog.after (earlier : List Diagnostic) (l : DiagnosticLog) : DiagnosticLog :=
  { l with entries := earlier ++ l.entries }

theorem DiagnosticLog.record_after (earlier : List Diagnostic) (kind : DiagnosticKind) (detail : String)
    (l : DiagnosticLog) : (l.after earlier).record kind detail = (l.record kind detail).after earlier := by
  simp [after, record]

theorem DiagnosticLog.mergeUnder_after (earlier : List Diagnostic) (label : Option String)
    (nested l : DiagnosticLog) :
    (l.after earlier).mergeUnder label nested = (l.mergeUnder label nested).after earlier := by
  cases label <;> simp [after, mergeUnder, enter, merge, leave]

/-- The session with earlier entries in front of its own. -/
def Session.after (earlier : List Diagnostic) (s : Session ω) : Session ω :=
  { s with log := s.log.after earlier }

/-- The session without entries. -/
def Session.blank (s : Session ω) : Session ω := { s with log := { s.log with entries := [] } }

theorem Session.after_blank (s : Session ω) : s.blank.after s.log.entries = s := by
  simp [after, blank, DiagnosticLog.after]

namespace SessionM

/-- **The step does not look at what was reported before**, and leaves it alone. -/
def Unaware (x : SessionM ω α) : Prop :=
  ∀ earlier s, x (s.after earlier) = ((x s).1, (x s).2.after earlier)

variable {x : SessionM ω α}

theorem unaware_pure (a : α) : Unaware (pure a : SessionM ω α) := fun _ _ => rfl

theorem unaware_throw (e : RenderError) : Unaware (throw e : SessionM ω α) := fun _ _ => rfl

theorem Unaware.bind {f : α → SessionM ω β} (hx : Unaware x) (hf : ∀ a, Unaware (f a)) :
    Unaware (x >>= f) := by
  intro earlier s
  rw [bind_apply, bind_apply, hx]
  dsimp only
  cases (x s).1 with
  | ok a => exact hf a earlier _
  | error e => rfl

theorem Unaware.tryCatch {f : RenderError → SessionM ω α} (hx : Unaware x) (hf : ∀ e, Unaware (f e)) :
    Unaware (tryCatch x f) := by
  intro earlier s
  rw [tryCatch_apply, tryCatch_apply, hx]
  dsimp only
  cases (x s).1 with
  | ok a => rfl
  | error e => exact hf e earlier _

theorem unaware_modify {f : Session ω → Session ω}
    (h : ∀ earlier s, f (s.after earlier) = (f s).after earlier) : Unaware (modify f) :=
  fun earlier s => congrArg (Prod.mk (Except.ok PUnit.unit)) (h earlier s)

theorem unaware_checkpoint_bind (hx : Unaware x) : Unaware (checkpoint >>= fun _ => x) := by
  intro earlier s
  rw [checkpoint_bind_apply, checkpoint_bind_apply]
  show (if s.cancelled then _ else _) = _
  split
  · rfl
  · exact hx earlier s

theorem unaware_record (kind : DiagnosticKind) (detail : String) :
    Unaware (record kind detail : SessionM ω Unit) :=
  unaware_modify fun earlier s =>
    congrArg (fun log => { s with log }) (s.log.record_after earlier kind detail)

theorem unaware_call (c : Call ω α) : Unaware (call c) :=
  unaware_checkpoint_bind fun _ _ => rfl

theorem unaware_callOrReport (c : Call ω α) : Unaware (callOrReport c) := by
  refine (unaware_call c).bind fun r => ?_
  cases r with
  | ok a => exact unaware_pure _
  | error e => exact (unaware_record _ _).bind fun _ => unaware_pure _

theorem unaware_functionsOnce (scope : MemoScope) (id : String) (c : Call ω (List ScriptFunction)) :
    Unaware (functionsOnce scope id c) := by
  intro earlier s
  cases hm : s.memo.get? scope id with
  | some fs =>
    rw [functionsOnce_of_kept hm, functionsOnce_of_kept (s := s.after earlier) hm]
  | none =>
    rw [functionsOnce_of_missing hm, functionsOnce_of_missing (s := s.after earlier) hm,
      unaware_callOrReport c earlier s]
    rcases callOrReport c s with ⟨_ | _ | _, _⟩ <;> rfl

theorem Unaware.within (hx : Unaware x) (label : String) : Unaware (within label x) := by
  intro earlier s
  have hinner := hx earlier { s with log := (s.log.enter label).2 }
  have houter : SessionM.within label x (s.after earlier) =
      let out := x (Session.after earlier { s with log := (s.log.enter label).2 })
      (out.1, { out.2 with log := out.2.log.leave (s.log.enter label).1 }) := rfl
  rw [houter, hinner]
  rfl

/-- A step with a log of its own does not see any other. -/
theorem unaware_isolated (label : Option String) (x : SessionM ω α) : Unaware (isolated label x) := by
  intro earlier s
  refine congrArg (Prod.mk (x { s with log := .empty }).1) ?_
  exact congrArg (fun log => { (x { s with log := .empty }).2 with log })
    (DiagnosticLog.mergeUnder_after earlier label _ s.log)

end SessionM

namespace Engine

variable (e : Engine ω) (left depth : Nat)

theorem unaware_nested (r : RenderRequest) : Unaware (e.nested left r) := by
  cases left with
  | zero => exact unaware_checkpoint_bind (unaware_pure _)
  | succ left =>
    exact unaware_checkpoint_bind <| (unaware_isolated r.label _).bind fun t => unaware_pure _

theorem unaware_artifact (kind : ArtifactKind) (c : RenderContext) (label : String) :
    Unaware (e.artifact (e.nested left) kind c label) := by
  refine (unaware_callOrReport _).bind fun found => ?_
  cases found with
  | none => exact unaware_pure []
  | some t =>
    dsimp only
    split
    · refine (e.unaware_nested left _).bind fun r => ?_
      cases r with
      | ok rendered => exact unaware_pure rendered
      | error err => exact (unaware_record _ _).bind fun _ => unaware_pure []
    · exact (unaware_record _ _).bind fun _ => unaware_pure []

theorem unaware_answer (o : RenderOp) : Unaware (e.answer (e.nested left) depth o) := by
  cases o with
  | object id => exact unaware_callOrReport _
  | dialog id => exact (unaware_callOrReport _).bind fun _ => unaware_pure _
  | languageKey r => exact (unaware_callOrReport _).bind fun _ => unaware_pure _
  | functions scope id owner script => exact unaware_functionsOnce scope id _
  | artifact kind c label => exact e.unaware_artifact left kind c label
  | nested r => exact e.unaware_nested left r
  | record kind detail => exact unaware_record kind detail
  | _ => exact fun _ _ => rfl

/-- **No program looks at what was reported before it ran.** -/
theorem unaware_run (p : RenderProgram α) :
    Unaware (run (e.answer (e.nested left) depth) p) := by
  induction p with
  | done a => exact unaware_pure a
  | fail err => exact unaware_throw err
  | ask o go ih => exact (e.unaware_answer left depth o).bind ih
  | under label inner go ihi ihg => exact (ihi.within label).bind ihg

end Engine
end RecordExport
