import RecordExport.Proofs.Render.Cast
import RecordExport.Proofs.Render.Course
import RecordExport.Proofs.Render.Pipeline
/-!
# Cancelled renders

A call may cancel the render it is made for, and a render may be cancelled before it begins. What would
have come without the cancellation is told by the UNSTOPPED render: the same one with collaborators
that answer the same and cancel nothing, whose transcript still says which calls would have cancelled.

* `Transcript.Quiet`: no resolver, no nested render and no call starts once the render was cancelled;
* `Likeness.stopping`: a render and the unstopped one go alike until something is to start in a cancelled
  render, and then the first is stopped;
* `Engine.heedsCancellation_standard`: so transcripts are quiet, and where something was still to come
  the render ends as cancelled. If it does not end so it is the unstopped render, with its text and its
  diagnostics, so cancellation is never taken for a failure to report.
-/

namespace RecordExport

variable {ω α : Type}

/-! ## 1. Quiet transcripts -/

/-- A resolver, a nested render or a call starts. -/
def RenderEvent.starts : RenderEvent → Bool
  | .resolver _ _ _ | .begins _ | .called _ _ _ => true
  | .ends | .answered _ _ => false

/-- A call cancels the render. -/
def RenderEvent.cancels : RenderEvent → Bool
  | .called _ _ cancels => cancels
  | _ => false

namespace Transcript

/-- A render that may have been cancelled before was cancelled by now. -/
def CancelledBy (cancelled : Bool) (T : Transcript) : Bool := cancelled || T.any (·.cancels)

/-- **Nothing starts once the render was cancelled.** -/
def Quiet (cancelled : Bool) (T : Transcript) : Prop :=
  ∀ T₁ ev, T₁ ++ [ev] <+: T → ev.starts = true → CancelledBy cancelled T₁ = false

variable {cancelled : Bool} {T : Transcript} {ev : RenderEvent}

theorem quiet_nil : Quiet cancelled [] := by
  intro T₁ ev hT
  simp at hT

theorem Quiet.concat (h : Quiet cancelled T)
    (hev : ev.starts = true → CancelledBy cancelled T = false) : Quiet cancelled (T ++ [ev]) := by
  intro T₁ ev₁ hT hs
  rcases List.prefix_concat_iff.1 hT with heq | hT
  · obtain ⟨rfl, hlast⟩ := List.append_inj' heq rfl
    obtain rfl : ev₁ = ev := List.singleton_inj.1 hlast
    exact hev hs
  · exact h T₁ ev₁ hT hs

theorem cancelledBy_concat :
    CancelledBy cancelled (T ++ [ev]) = (CancelledBy cancelled T || ev.cancels) := by
  simp [CancelledBy, Bool.or_assoc]

end Transcript

/-! ## 2. The unstopped render -/

/-- The call, which cancels nothing. -/
def Call.heedless (c : Call ω α) : Call ω α := fun w => { c w with cancels := false }

/-- The same collaborators, whose calls cancel nothing. -/
def Services.heedless (s : Services ω) : Services ω where
  object id := (s.object id).heedless
  dialog objectId := (s.dialog objectId).heedless
  languageKey r := (s.languageKey r).heedless
  functions owner script := (s.functions owner script).heedless
  template projectId kind := (s.template projectId kind).heedless
  projectId := s.projectId
  escape := s.escape

namespace Engine

/-- The engine whose calls cancel nothing. -/
def heedless (e : Engine ω) : Engine ω := { e with services := e.services.heedless }

/-- **What a render would have come to** if nothing had cancelled it, with its transcript. -/
def unstopped (e : Engine ω) (kind : ArtifactKind) (c : RenderContext) (t : Text) (w : ω) :
    Except RenderError RenderOutput × (ω × Transcript) :=
  e.transcribing.heedless.renderSeen .scribe kind c t (w, []) false

end Engine

/-! ## 3. Until something is to start -/

/-- A contract that leaves it to the collaborators to cancel a render, and promises nothing of them. -/
structure Contract.LeavesCancelling (K : Contract) : Prop where
  cancel : ¬ K.cancel
  fails : ∀ err, K.fails err → err ≠ .cancelled
  object : ∀ id o, K.object id o
  dialog : ∀ id x, K.dialog id x

/-- So do the standard resolvers. -/
theorem Cast.leavesCancelling_everything : Cast.everything.contract.LeavesCancelling where
  cancel h := h
  fails := by
    rintro _ ⟨resolver, found, rfl⟩ h
    cases h
  object _ _ := trivial
  dialog _ _ := trivial

/-- A render that may be cancelled beside the unstopped one. -/
def Likeness.stopping (ω : Type) (cancelled : Bool) :
    Likeness (ω × Transcript) (ω × Transcript) where
  same _ a b := a.world = b.world ∧ a.memo = b.memo ∧ b.cancelled = false ∧
    a.cancelled = Transcript.CancelledBy cancelled a.world.2 ∧ a.world.2.Quiet cancelled
  stopped a := Transcript.CancelledBy cancelled a.world.2 = true ∧ a.world.2.Quiet cancelled
  fails err := err ≠ .cancelled
  checkpoint := by
    rintro d a b ⟨-, -, hb, ha, hquiet⟩
    cases hc : a.cancelled with
    | true => exact .inr ⟨rfl, ha.symm.trans hc, hquiet⟩
    | false =>
      refine .inl ⟨hb.symm, fun hb' => ?_⟩
      rw [hb] at hb'
      cases hb'
  memo h := h.2.1

variable {cancelled : Bool} {d : Nat}

/-- Calls that are seen answer alike as long as the render is not cancelled. -/
theorem answersAlike_stopping (c : Call ω α) (made : Except ServiceError α → CallMade)
    {P : Option α → Prop} (hP : ∀ r, P r) :
    (Likeness.stopping ω cancelled).AnswersAlike d P (c.onLeft.seen .scribe made)
      (Call.heedless (c.onLeft.seen .scribe made)) := by
  rintro ⟨⟨w, T⟩, memo, ca⟩ ⟨_, _, cb⟩ ⟨rfl, rfl, hb, ha, hquiet⟩ hca hcb
  have hT : Transcript.CancelledBy cancelled T = false := ha.symm.trans hca
  refine ⟨rfl, hP _, rfl, rfl, ?_, ?_, ?_⟩
  · show (cb || false) = false
    rw [Bool.or_false]
    exact hcb
  · show (ca || (c w).cancels) = Transcript.CancelledBy cancelled (T ++ [.called _ _ (c w).cancels])
    rw [Transcript.cancelledBy_concat, hT]
    have hca : ca = false := hca
    rw [hca]
    rfl
  · exact Transcript.Quiet.concat hquiet fun _ => hT

/-- What does not start anything may be seen in a cancelled render too. -/
theorem seen_stopping {a b : Shared (ω × Transcript)} {d d' : Nat} {labels : List String}
    {ev : RenderEvent} (h : (Likeness.stopping ω cancelled).same d a b) (hcancels : ev.cancels = false)
    (hstarts : ev.starts = true → a.cancelled = false) :
    (Likeness.stopping ω cancelled).same d' (a.seen .scribe labels ev) (b.seen .scribe labels ev) := by
  obtain ⟨hw, hmemo, hb, ha, hquiet⟩ := h
  refine ⟨congrArg (Observer.scribe.happens labels a.memo ev) hw, hmemo, hb, ?_, ?_⟩
  · show a.cancelled = Transcript.CancelledBy cancelled (a.world.2 ++ [ev])
    rw [Transcript.cancelledBy_concat, hcancels, Bool.or_false]
    exact ha
  · exact Transcript.Quiet.concat hquiet fun hs => ha.symm.trans (hstarts hs)

namespace Engine

variable {K : Contract} {e : Engine ω}

theorem agree_stopping (hkeeps : ∀ r ∈ e.resolvers, r.Keeps K) (hK : K.LeavesCancelling) :
    e.transcribing.Agree (.stopping ω cancelled) K .scribe .scribe e.transcribing.heedless where
  resolvers := rfl
  maxDepth := rfl
  projectId := rfl
  escape := rfl
  keeps := hkeeps
  fails := hK.fails
  cancel hc := absurd hc hK.cancel
  keep _ hs := ⟨hs.1, congrArg (FunctionMemo.insert · _ _ _) hs.2.1, hs.2.2⟩
  object _ _ := answersAlike_stopping _ _ fun _ _ _ => hK.object _ _
  dialog _ _ := answersAlike_stopping _ _ fun _ _ _ => hK.dialog _ _
  languageKey _ _ _ := answersAlike_stopping _ _ fun _ => trivial
  functions _ _ _ _ _ _ :=
    functionsSeen_alike (fun _ _ _ hs => ⟨hs.1, congrArg (FunctionMemo.insert · _ _ _) hs.2.1, hs.2.2⟩)
      (answersAlike_stopping _ _ fun _ => trivial)
      fun _ _ _ _ hs => seen_stopping hs rfl fun h => by cases h
  template _ _ _ := answersAlike_stopping _ _ fun _ => trivial
  resolver hs ha _ := seen_stopping hs rfl fun _ => ha
  begins _ hs ha _ := seen_stopping hs rfl fun _ => ha
  ends _ hs := seen_stopping hs rfl fun h => by cases h
  stopped hs := by
    refine ⟨?_, hs.2.concat fun h => by cases h⟩
    show Transcript.CancelledBy cancelled (_ ++ [_]) = true
    rw [Transcript.cancelledBy_concat, hs.1]
    rfl
  answered _ _ _ _ hs := seen_stopping hs rfl fun h => by cases h

end Engine

/-! ## 4. Nothing cancels the unstopped render -/

/-- The unstopped render with its transcript beside the one without. -/
def Likeness.unstopped (ω : Type) : Likeness (ω × Transcript) ω where
  same _ a b := a.world.1 = b.world ∧ a.memo = b.memo ∧ a.cancelled = false ∧ b.cancelled = false
  stopped _ := False
  fails err := err ≠ .cancelled
  checkpoint := by
    rintro d a b ⟨-, -, ha, hb⟩
    refine .inl ⟨ha.trans hb.symm, fun hb' => ?_⟩
    rw [hb] at hb'
    cases hb'
  memo h := h.2.1

theorem answersAlike_unstopped (c : Call ω α) (made : Except ServiceError α → CallMade)
    {P : Option α → Prop} (hP : ∀ r, P r) :
    (Likeness.unstopped ω).AnswersAlike d P (Call.heedless (c.onLeft.seen .scribe made))
      c.heedless := by
  rintro ⟨⟨w, T⟩, memo, ca⟩ ⟨_, _, cb⟩ ⟨rfl, rfl, ha, hb⟩ - -
  refine ⟨rfl, hP _, rfl, rfl, ?_, ?_⟩
  · show (ca || false) = false
    rw [Bool.or_false]
    exact ha
  · show (cb || false) = false
    rw [Bool.or_false]
    exact hb

namespace Engine

variable {K : Contract} {e : Engine ω}

theorem agree_unstopped (hkeeps : ∀ r ∈ e.resolvers, r.Keeps K) (hK : K.LeavesCancelling) :
    e.transcribing.heedless.Agree (.unstopped ω) K .scribe .blind e.heedless where
  resolvers := rfl
  maxDepth := rfl
  projectId := rfl
  escape := rfl
  keeps := hkeeps
  fails := hK.fails
  cancel hc := absurd hc hK.cancel
  keep _ hs := ⟨hs.1, congrArg (FunctionMemo.insert · _ _ _) hs.2.1, hs.2.2⟩
  object _ _ := answersAlike_unstopped _ _ fun _ _ _ => hK.object _ _
  dialog _ _ := answersAlike_unstopped _ _ fun _ _ _ => hK.dialog _ _
  languageKey _ _ _ := answersAlike_unstopped _ _ fun _ => trivial
  functions _ _ _ _ _ _ :=
    functionsSeen_alike (fun _ _ _ hs => ⟨hs.1, congrArg (FunctionMemo.insert · _ _ _) hs.2.1, hs.2.2⟩)
      (answersAlike_unstopped _ _ fun _ => trivial) fun _ _ _ _ hs => hs
  template _ _ _ := answersAlike_unstopped _ _ fun _ => trivial
  resolver hs _ _ := hs
  begins _ hs _ _ := hs
  ends _ hs := hs
  stopped hs := hs
  answered _ _ _ _ hs := hs

/-! ## 5. Renders -/

/-- **What becomes of a render that is cancelled**, before it begins or by a call. -/
structure HeedsCancellation (e : Engine ω) (kind : ArtifactKind) (c : RenderContext) (t : Text)
    (w : ω) (cancelled : Bool) : Prop where
  /-- writing the transcript changes nothing -/
  transcript : ((e.transcribed kind c t w cancelled).1, (e.transcribed kind c t w cancelled).2.1) =
    e.render kind c t w cancelled
  /-- no resolver, no nested render and no call starts once the render was cancelled -/
  quiet : (e.transcribed kind c t w cancelled).2.2.Quiet cancelled
  /-- where one was still to come the render ends as cancelled -/
  stops : ∀ T₁ ev, T₁ ++ [ev] <+: (e.unstopped kind c t w).2.2 → ev.starts = true →
    Transcript.CancelledBy cancelled T₁ = true →
    (e.render kind c t w cancelled).1 = .error .cancelled
  /-- a render that does not end so is the unstopped one, its diagnostics included -/
  same : (e.render kind c t w cancelled).1 ≠ .error .cancelled →
    e.transcribed kind c t w cancelled = e.unstopped kind c t w
  /-- a render only ends so if it was cancelled -/
  cause : (e.render kind c t w cancelled).1 = .error .cancelled →
    Transcript.CancelledBy cancelled (e.transcribed kind c t w cancelled).2.2 = true
  /-- the unstopped render is the render by collaborators that cancel nothing, and has a text -/
  unstopped : ((e.unstopped kind c t w).1, (e.unstopped kind c t w).2.1) =
    e.heedless.render kind c t w false ∧ ∃ out, (e.unstopped kind c t w).1 = .ok out

theorem render_unstopped (hkeeps : ∀ r ∈ e.resolvers, r.Keeps K) (hK : K.LeavesCancelling)
    (kind : ArtifactKind) {c : RenderContext} (hc : K.context c) (t : Text) (w : ω) :
    ((e.unstopped kind c t w).1, (e.unstopped kind c t w).2.1) = e.heedless.render kind c t w false ∧
      ∃ out, (e.unstopped kind c t w).1 = .ok out := by
  have hstart : (Likeness.unstopped ω).same 0 ⟨(w, []), .empty, false⟩ ⟨w, .empty, false⟩ :=
    ⟨rfl, rfl, rfl, rfl⟩
  have hend := renderSeen_alike (agree_unstopped hkeeps hK) kind hc t hstart
  rw [renderSeen_blind] at hend
  cases hend with
  | stops _ stopped => exact stopped.elim fun _ hs => hs.1.elim
  | goesOn result failed same =>
    obtain ⟨a, b, ⟨hw, -, -, -⟩, ha, hb⟩ := same
    rw [ha, hb] at hw
    refine ⟨Prod.ext result hw, ?_⟩
    cases hout : (e.unstopped kind c t w).1 with
    | ok out => exact ⟨out, rfl⟩
    | error err =>
      obtain ⟨us, hus⟩ := e.heedless.exists_turns e.maxDepth kind c t (Session.start w false)
      have herr := hus.error err (eq_error_of_map (result.symm.trans hout))
      exact absurd herr (failed err hout)

theorem heedsCancellation (hkeeps : ∀ r ∈ e.resolvers, r.Keeps K) (hK : K.LeavesCancelling)
    (kind : ArtifactKind) {c : RenderContext} (hc : K.context c) (t : Text) (w : ω)
    (cancelled : Bool) : e.HeedsCancellation kind c t w cancelled := by
  have htranscript := e.transcribed_fst kind c t w cancelled
  have hrender : (e.transcribed kind c t w cancelled).1 = (e.render kind c t w cancelled).1 :=
    congrArg Prod.fst htranscript
  have hunstopped := render_unstopped hkeeps hK kind hc t w
  have hstart : (Likeness.stopping ω cancelled).same 0 ⟨(w, []), .empty, cancelled⟩
      ⟨(w, []), .empty, false⟩ :=
    ⟨rfl, rfl, rfl, (Bool.or_false cancelled).symm, Transcript.quiet_nil⟩
  cases renderSeen_alike (agree_stopping hkeeps hK) kind hc t hstart with
  | stops result stopped =>
    obtain ⟨a, ⟨hcancelled, hquiet⟩, ha⟩ := stopped
    rw [ha] at hcancelled hquiet
    have hout : (e.render kind c t w cancelled).1 = .error .cancelled := hrender.symm.trans result
    exact ⟨htranscript, hquiet, fun _ _ _ _ _ => hout, fun hne => absurd hout hne,
      fun _ => hcancelled, hunstopped⟩
  | goesOn result failed same =>
    obtain ⟨a, b, ⟨hw, -, -, -, hquiet⟩, ha, hb⟩ := same
    rw [ha] at hquiet
    rw [ha, hb] at hw
    have hsame : e.transcribed kind c t w cancelled = e.unstopped kind c t w := Prod.ext result hw
    refine ⟨htranscript, hquiet, fun T₁ ev hT hs hby => ?_, fun _ => hsame, fun hout => ?_,
      hunstopped⟩
    · -- the transcript is the unstopped one, and it is quiet
      rw [← hsame] at hT
      have hT₁ : Transcript.CancelledBy cancelled T₁ = false := hquiet T₁ ev hT hs
      rw [hby] at hT₁
      cases hT₁
    · exact absurd rfl (failed .cancelled (hrender.trans hout))

/-- **Renders of the standard resolvers heed cancellation**, whoever their collaborators are. -/
theorem heedsCancellation_standard (services : Services ω) (maxDepth : Nat) (kind : ArtifactKind)
    (c : RenderContext) (t : Text) (w : ω) (cancelled : Bool) :
    (Engine.standard services maxDepth).HeedsCancellation kind c t w cancelled :=
  heedsCancellation (keeps_standard _ _) Cast.leavesCancelling_everything kind
    (Cast.renders_everything c.subject) t w cancelled

end Engine
end RecordExport
