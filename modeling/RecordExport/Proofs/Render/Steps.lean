import RecordExport.Proofs.Render.Alongside
import RecordExport.Proofs.Render.Requests
/-!
# What a step of a render leads to

A step LEADS from any session to one that is related to it, however it ends: with a result, with a failure
or cancelled in the middle. What relates the two is left open, as long as nothing at all and one step after
the other are related too, and a label or a log of one's own does no harm (`StepRelation`).

* one rule for each way steps are put together and one for each step of a session;
* `Engine.leads_resolve`: the program of a standard resolver leads wherever the answers do that it may ask
  for;
* `Engine.leads_passSeen`: so does a whole pass, if its resolvers do and what it reports.
-/

namespace RecordExport

variable {ω α β : Type}

/-- **How a step of a render may relate sessions.** -/
structure StepRelation (R : Session ω → Session ω → Prop) : Prop where
  refl : ∀ s, R s s
  trans : ∀ {s₁ s₂ s₃}, R s₁ s₂ → R s₂ s₃ → R s₁ s₃
  /-- a step under a label -/
  within : ∀ {s s'} label, R { s with log := (s.log.enter label).2 } s' →
    R s { s' with log := s'.log.leave (s.log.enter label).1 }
  /-- a step with a log of its own -/
  isolated : ∀ {s s'} label, R { s with log := .empty } s' →
    R s { s' with log := s.log.mergeUnder label s'.log }

/-- The log does not matter for what is shared. -/
theorem StepRelation.shared {Q : Shared ω → Shared ω → Prop} (refl : ∀ a, Q a a)
    (trans : ∀ {a b c}, Q a b → Q b c → Q a c) :
    StepRelation fun s s' : Session ω => Q s.shared s'.shared where
  refl s := refl s.shared
  trans := trans
  within _ h := h
  isolated _ h := h

namespace SessionM

/-- **The step leads to a related session**, however it ends. -/
def Leads (R : Session ω → Session ω → Prop) (x : SessionM ω α) : Prop := ∀ s, R s (x s).2

variable {R : Session ω → Session ω → Prop} {x : SessionM ω α}

/-! ## 1. Putting steps together -/

theorem Leads.mono (hx : Leads R x) {R' : Session ω → Session ω → Prop} (h : ∀ s s', R s s' → R' s s') :
    Leads R' x := fun s => h _ _ (hx s)

theorem leads_pure (hR : StepRelation R) (a : α) : Leads R (pure a : SessionM ω α) := hR.refl

theorem leads_throw (hR : StepRelation R) (e : RenderError) : Leads R (throw e : SessionM ω α) := hR.refl

/-- What comes after a step is only met with a result of it, in the session it led to. -/
theorem leads_bind_of (hR : StepRelation R) {f : α → SessionM ω β} {s : Session ω} (hx : R s (x s).2)
    (hf : ∀ a, (x s).1 = .ok a → R (x s).2 (f a (x s).2).2) : R s ((x >>= f) s).2 := by
  rw [bind_apply]
  cases hxs : (x s).1 with
  | ok a => exact hR.trans hx (hf a hxs)
  | error e => exact hx

theorem Leads.bind (hR : StepRelation R) {f : α → SessionM ω β} (hx : Leads R x)
    (hf : ∀ a, Leads R (f a)) : Leads R (x >>= f) :=
  fun s => leads_bind_of hR (hx s) fun a _ => hf a _

theorem sequencedBy_leads (hR : StepRelation R) : SequencedBy fun α (x : SessionM ω α) => Leads R x where
  result := leads_pure hR
  sequence := Leads.bind hR

theorem Leads.within (hR : StepRelation R) (hx : Leads R x) (label : String) :
    Leads R (within label x) := fun _ => hR.within label (hx _)

theorem Leads.isolated (hR : StepRelation R) (hx : Leads R x) (label : Option String) :
    Leads R (isolated label x) := fun _ => hR.isolated label (hx _)

/-- A step that is seen as a nested render. -/
theorem Leads.nesting (hR : StepRelation R) (hx : Leads R x) {see : Observer ω} {r : RenderRequest}
    (hbegins : Leads R (SessionM.see see (.begins r))) (hends : Leads R (SessionM.see see .ends)) :
    Leads R (nesting see r x) := fun s => hR.trans (hbegins s) (hR.trans (hx _) (hends _))

theorem leads_modify {f : Session ω → Session ω} (h : ∀ s, R s (f s)) : Leads R (modify f) := h

/-- Behind a checkpoint the render is not cancelled. -/
theorem leads_checkpoint_bind (hR : StepRelation R)
    (hx : ∀ s : Session ω, s.cancelled = false → R s (x s).2) :
    Leads R (checkpoint >>= fun _ => x) := by
  intro s
  rw [checkpoint_bind_apply]
  cases hs : s.cancelled with
  | true => exact hR.refl s
  | false => exact hx s hs

/-! ## 2. Calls -/

theorem leads_call (hR : StepRelation R) {c : Call ω α}
    (h : ∀ s : Session ω, R s { s with
      world := (c s.world).world, cancelled := s.cancelled || (c s.world).cancels }) :
    Leads R (call c) := leads_checkpoint_bind hR fun s _ => h s

theorem leads_callOrReport (hR : StepRelation R) {c : Call ω α} (hc : Leads R (call c))
    (hr : ∀ e, Leads R (report (.service e) : SessionM ω Unit)) : Leads R (callOrReport c) := by
  refine hc.bind hR fun r => ?_
  cases r with
  | ok a => exact leads_pure hR _
  | error e => exact (hr e).bind hR fun _ => leads_pure hR _

/-- Functions lead where the call and its report do, and where functions are kept under what nothing was
    kept under yet. -/
theorem leads_functionsOnce (hR : StepRelation R) {scope : MemoScope} {id : String}
    {c : Call ω (List ScriptFunction)} (hc : Leads R (call c))
    (hr : ∀ e, Leads R (report (.service e) : SessionM ω Unit))
    (hkeep : ∀ s fs, s.memo.get? scope id = none → (c s.world).result = .ok fs →
      R s ⟨(c s.world).world, s.log, s.memo.insert scope id fs, s.cancelled || (c s.world).cancels⟩) :
    Leads R (functionsOnce scope id c) := by
  intro s
  cases hm : s.memo.get? scope id with
  | some fs =>
    rw [functionsOnce_of_kept hm]
    exact hR.refl s
  | none =>
    have hcalled := leads_callOrReport hR hc hr s
    rw [functionsOnce_of_missing hm]
    cases hs : s.cancelled with
    | true =>
      rw [callOrReport_of_cancelled hs]
      exact hR.refl s
    | false =>
      cases hfs : (c s.world).result with
      | ok fs =>
        rw [callOrReport_of_ok hs hfs]
        exact hkeep s fs hm hfs
      | error e =>
        rw [callOrReport_of_error hs hfs] at hcalled ⊢
        exact hcalled

end SessionM

open SessionM

/-- The calls of collaborators lead to related sessions, but for those to derive functions. -/
structure Services.Lead (R : Session ω → Session ω → Prop) (s : Services ω) : Prop where
  object : ∀ id, Leads R (call (s.object id))
  dialog : ∀ id, Leads R (call (s.dialog id))
  languageKey : ∀ r, Leads R (call (s.languageKey r))
  template : ∀ projectId kind, Leads R (call (s.template projectId kind))
  /-- and so does the report of a call that failed -/
  report : ∀ e, Leads R (SessionM.report (.service e) : SessionM ω Unit)

namespace Engine

variable {R : Session ω → Session ω → Prop} {e : Engine ω} {nested : NestedRender ω} {depth : Nat}
  {answer : (o : RenderOp) → SessionM ω o.Answer} {kind : ArtifactKind} {c : RenderContext} {t : Text}

/-! ## 3. Answers -/

theorem leads_answer_plain (e : Engine ω) (nested : NestedRender ω) (depth : Nat) (hR : StepRelation R)
    (hs : e.services.Lead R)
    (hrecord : ∀ kind detail, (RenderOp.record kind detail).IsPlain →
      Leads R (record kind detail : SessionM ω Unit)) :
    ∀ o : RenderOp, o.IsPlain → Leads R (e.answer nested depth o) := by
  intro o ho
  cases o with
  | object id => exact leads_callOrReport hR (hs.object id) hs.report
  | dialog id =>
    exact (leads_callOrReport hR (hs.dialog id) hs.report).bind hR fun _ => leads_pure hR _
  | languageKey r =>
    exact (leads_callOrReport hR (hs.languageKey r) hs.report).bind hR fun _ => leads_pure hR _
  | settings => exact leads_pure hR _
  | record kind detail => exact hrecord kind detail ho
  | _ => exact ho.elim

/-- An artefact leads where nested renders do, and the report of one there was none of. -/
theorem leads_artifact (hR : StepRelation R) (hs : e.services.Lead R)
    (hn : ∀ r : RenderRequest, r.kind = kind → Leads R (nested r))
    (hnone : ∀ r : RenderRequest, r.kind = kind → ∀ s err, (nested r s).1 = .ok (.error err) →
      Leads R (report err : SessionM ω Unit)) (label : String) :
    Leads R (e.artifact nested kind c label) := by
  refine (leads_callOrReport hR (hs.template _ kind) hs.report).bind hR fun found => ?_
  cases found with
  | none => exact leads_pure hR []
  | some t =>
    dsimp only
    split
    · refine fun s => leads_bind_of hR (hn _ rfl s) fun rendered hrendered => ?_
      cases rendered with
      | ok rendered => exact leads_pure hR rendered _
      | error err => exact (hnone _ rfl s err hrendered).bind hR (fun _ => leads_pure hR []) _
    · exact (hs.report _).bind hR fun _ => leads_pure hR []

/-- An answer that is seen. -/
theorem leads_answerSeen (hR : StepRelation R) {see : Observer ω} {o : RenderOp}
    (ha : Leads R (e.answer nested depth o)) (hsee : ∀ x, Leads R (SessionM.see see (.answered o x))) :
    Leads R (e.answerSeen see nested depth o) :=
  ha.bind hR fun x => (hsee x).bind hR fun _ => leads_pure hR x

/-- Nested renders lead that are not of a character. -/
def LeadsInside (R : Session ω → Session ω → Prop) (nested : NestedRender ω) : Prop :=
  ∀ r : RenderRequest, r.kind.height < 2 → Leads R (nested r)

theorem run_request (o : RenderOp) : run answer (.request o) = answer o := bind_pure (answer o)

theorem run_derivedOnce (scope : MemoScope) (id : String) (p : RenderProgram (List ScriptFunction)) :
    run answer (.derivedOnce scope id p) = (do
      match ← answer (.recall scope id) with
      | some fs => pure fs
      | none =>
        let fs ← run answer p
        let _ ← answer (.keep scope id fs)
        pure fs) := by
  unfold RenderProgram.derivedOnce
  rw [run_bind, run_request]
  refine bind_congr fun known => ?_
  cases known with
  | some fs => rfl
  | none =>
    show run answer (p >>= _) = _
    rw [run_bind]
    refine bind_congr fun fs => ?_
    show run answer (.request (.keep scope id fs) >>= _) = _
    rw [run_bind, run_request]
    rfl

theorem leads_request {o : RenderOp} (h : Leads R (answer o)) : Leads R (run answer (.request o)) := by
  rw [run_request]
  exact h

/-- **Where plain requests lead to related sessions programs do.** -/
theorem composed_leads (hR : StepRelation R) (hplain : ∀ o : RenderOp, o.IsPlain → Leads R (answer o)) :
    Composed fun α p => Leads R (run (α := α) answer p) where
  result a := leads_pure hR a
  sequence {α β p f} hp hf := by
    rw [run_bind]
    exact hp.bind hR hf
  within {p} hp label := by
    rw [run_within]
    exact hp.within hR label
  plain o ho := leads_request (hplain o ho)

/-- **A standard resolver leads where the answers do that it may ask for.** -/
theorem leads_resolve (hR : StepRelation R) (hplain : ∀ o : RenderOp, o.IsPlain → Leads R (answer o))
    (topic : Topic)
    (ha : ∀ inner ∈ topic.inside kind, ∀ c label, Leads R (answer (.artifact inner c label)))
    (hf : ∀ scope ∈ topic.scope? kind, ∀ id owner script,
      Leads R (answer (.functions scope id owner script)))
    (hd : topic = .dialog → kind = .npc → ∀ npc d, Leads R (run answer (dialogFunctions npc d))) :
    Leads R (run answer (topic.resolver.resolve kind c t)) :=
  topic.composed_resolve (composed_leads hR hplain)
    (fun resolver s => leads_throw hR (.wrongSubject resolver s.typeName)) kind c t
    (fun inner hi c label => leads_request (ha inner hi c label))
    (fun scope hs id owner script => leads_request (hf scope hs id owner script)) hd

/-- A program fails as its answers do. -/
theorem composed_fails {F : RenderError → Prop}
    (h : ∀ o s err, (answer o s).1 = .error err → F err) :
    Composed fun α p => ∀ s err, (run (α := α) answer p s).1 = .error err → F err where
  result a s err he := by cases he
  sequence {α β p f} hp hf s err he := by
    rw [run_bind, bind_apply] at he
    cases hs : (run answer p s).1 with
    | ok a =>
      rw [hs] at he
      exact hf a _ err he
    | error err' =>
      rw [hs] at he
      obtain rfl : err' = err := Except.error.inj he
      exact hp s err' hs
  within {p} hp label s err he := by
    rw [run_within] at he
    exact hp _ err he
  plain o _ s err he := by
    rw [run_request] at he
    exact h o s err he

/-- **A standard resolver fails as its answers do**, or at a subject of a wrong type. -/
theorem fails_resolve {F : RenderError → Prop} (h : ∀ o s err, (answer o s).1 = .error err → F err)
    (hwrong : ∀ resolver found, F (.wrongSubject resolver found)) (topic : Topic) (kind : ArtifactKind)
    (c : RenderContext) (t : Text) (s : Session ω) (err : RenderError)
    (he : (run answer (topic.resolver.resolve kind c t) s).1 = .error err) : F err := by
  have hcomposed := composed_fails h
  have hrequest : ∀ o, ∀ s err, (run answer (.request o) s).1 = .error err → F err := by
    intro o s err he
    rw [run_request] at he
    exact h o s err he
  refine topic.composed_resolve hcomposed (fun resolver subject s err he => ?_) kind c t
    (fun _ _ _ _ => hrequest _) (fun _ _ _ _ _ => hrequest _) (fun _ _ npc dialog =>
      hcomposed.dialogFunctions (fun _ _ _ _ => hrequest _) (fun _ _ => hrequest _) (fun _ => hrequest _)
        (fun _ _ => hrequest _) npc dialog) s err he
  cases he
  exact hwrong resolver subject.typeName

/-! ## 4. Passes -/

theorem leads_attempt (hR : StepRelation R) {r : Resolver}
    (hrun : Leads R (run answer (r.resolve kind c t)))
    (hfails : ∀ s err, (run answer (r.resolve kind c t) s).1 = .error err → err ≠ .cancelled →
      Leads R (record err.diagnosticKind (r.name ++ ": " ++ err.message) : SessionM ω Unit)) :
    Leads R (attempt answer kind c t r) := by
  intro s
  rw [attempt_apply]
  cases s.cancelled with
  | true => exact hR.refl s
  | false =>
    have hto := hrun s
    have hfail := hfails s
    rcases hrs : run answer (r.resolve kind c t) s with ⟨result, s'⟩
    rw [hrs] at hto hfail
    cases result with
    | ok t' => exact hto
    | error err =>
      cases err with
      | cancelled => exact hto
      | _ => exact hR.trans hto (hfail _ rfl (fun h => by cases h) s')

/-- **A pass leads where its resolvers do**, and what it reports. -/
theorem leads_passSeen (hR : StepRelation R) {see : Observer ω}
    (hissue : ∀ i, Leads R (record .malformedTemplate (issueDetail i) : SessionM ω Unit))
    (hsee : ∀ name given, Leads R (SessionM.see see (.resolver kind name given)))
    (hr : ∀ r ∈ e.applicable kind, ∀ t, Leads R (attempt answer kind c t r)) :
    Leads R (e.passSeen see answer kind c t) := by
  refine ((sequencedBy_leads hR).forM fun i _ => hissue i).bind hR fun _ => ?_
  refine (sequencedBy_leads hR).foldlM (fun t r hmem => leads_checkpoint_bind hR fun s _ => ?_) t
  exact (hsee r.name t).bind hR (fun _ => hr r hmem t) s

theorem leads_passWith (hR : StepRelation R)
    (hissue : ∀ i, Leads R (record .malformedTemplate (issueDetail i) : SessionM ω Unit))
    (hr : ∀ r ∈ e.applicable kind, ∀ t, Leads R (attempt answer kind c t r)) :
    Leads R (e.passWith answer kind c t) := by
  rw [← passSeen_blind]
  exact leads_passSeen hR hissue (fun _ _ => leads_pure hR ()) hr

/-- The resolvers that take part in a kind are those of topics. -/
theorem exists_topic_of_mem_applicable {services : Services ω} {maxDepth : Nat} {r : Resolver}
    (h : r ∈ (Engine.standard services maxDepth).applicable kind) :
    ∃ topic : Topic, r = topic.resolver ∧ topic.resolver.applies kind = true := by
  rw [applicable_standard] at h
  obtain ⟨hmem, happlies⟩ := List.mem_filter.1 h
  obtain ⟨topic, -, rfl⟩ := List.mem_map.1 hmem
  exact ⟨topic, rfl, happlies⟩

/-- **So a pass of the standard resolvers leads** where the answers do that they may ask for. -/
theorem leads_standard (services : Services ω) (n : Nat) {see : Observer ω} (hR : StepRelation R)
    (hplain : ∀ o : RenderOp, o.IsPlain → Leads R (answer o))
    (hrecord : ∀ kind detail, SaysMissing kind detail → Leads R (record kind detail : SessionM ω Unit))
    (hsee : ∀ name given, Leads R (SessionM.see see (.resolver kind name given)))
    (ha : ∀ topic : Topic, topic.resolver.applies kind = true → ∀ inner ∈ topic.inside kind,
      ∀ c label, Leads R (answer (.artifact inner c label)))
    (hf : ∀ topic : Topic, topic.resolver.applies kind = true → ∀ scope ∈ topic.scope? kind,
      ∀ id owner script, Leads R (answer (.functions scope id owner script)))
    (hd : kind = .npc → ∀ npc d, Leads R (run answer (dialogFunctions npc d))) :
    Leads R ((Engine.standard services n).passSeen see answer kind c t) := by
  refine leads_passSeen hR (fun i => hrecord _ _ nofun) hsee fun r hr t => ?_
  obtain ⟨topic, rfl, happlies⟩ := exists_topic_of_mem_applicable hr
  exact leads_attempt hR (leads_resolve hR hplain topic (ha topic happlies) (hf topic happlies) fun _ => hd)
    fun _ err _ _ => hrecord _ _ (saysMissing_failure _ err)

section Inside

variable {services : Services ω} (hR : StepRelation R) (hs : services.Lead R)
  (hrecord : ∀ kind detail, SaysMissing kind detail → Leads R (record kind detail : SessionM ω Unit))
  (hf : ∀ scope, scope ≠ .dialog → ∀ id owner script,
    Leads R (functionsOnce scope id (services.functions owner script))) {n : Nat}

include hR hs hrecord

/-- What is rendered in a render is not of a character. -/
theorem leads_artifact_inside (hn : LeadsInside R nested) (hkind : kind.height < 2) (label : String) :
    Leads R ((Engine.standard services n).answer nested depth (.artifact kind c label)) :=
  leads_artifact hR hs (fun r hr => hn r (hr ▸ hkind))
    (fun _ _ _ err _ => hrecord _ _ (saysMissing_error err)) label

include hf

/-- **So does the turn of a standard resolver**, but for the resolver of dialogs in a character. -/
theorem leads_attempt_inside (hn : LeadsInside R nested) {topic : Topic}
    (happlies : topic.resolver.applies kind = true) (hdialog : topic = .dialog → kind ≠ .npc) :
    Leads R (attempt ((Engine.standard services n).answer nested depth) kind c t topic.resolver) := by
  have hplain := leads_answer_plain (Engine.standard services n) nested depth hR hs
    fun _ _ h => hrecord _ _ h.saysMissing
  refine leads_attempt hR (leads_resolve hR hplain topic (fun inner hinner c label => ?_)
    (fun scope hscope => hf scope (Topic.ne_dialog_of_scope? scope hscope))
    fun htopic hnpc => absurd hnpc (hdialog htopic)) fun _ err _ _ => hrecord _ _ (saysMissing_failure _ err)
  have hheight := Nat.lt_of_lt_of_le (Topic.height_lt_of_inside happlies inner hinner) kind.height_le
  exact leads_artifact_inside hR hs hrecord hn hheight label

variable (n)

/-- **And so do nested renders** that are not of a character, by induction on the levels left. -/
theorem leadsInside_nested (left : Nat) : LeadsInside R ((Engine.standard services n).nested left) := by
  induction left with
  | zero => exact fun r hr => leads_checkpoint_bind hR fun s _ => hR.refl s
  | succ left ih =>
    intro r hr
    have hnpc : r.kind ≠ .npc := fun h => absurd hr (by rw [h]; decide)
    have hpass : Leads R ((Engine.standard services n).pass left r.kind r.context r.text) := by
      refine leads_passWith hR (fun i => hrecord _ _ nofun) fun r' hr' t => ?_
      obtain ⟨topic, rfl, happlies⟩ := exists_topic_of_mem_applicable hr'
      exact leads_attempt_inside hR hs hrecord hf ih happlies fun _ => hnpc
    exact leads_checkpoint_bind hR fun s _ => (hpass.isolated hR r.label).bind hR (fun _ => leads_pure hR _) s

end Inside

end Engine
end RecordExport
