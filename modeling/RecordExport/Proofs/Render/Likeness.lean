import RecordExport.Proofs.Render.Contract
import RecordExport.Proofs.Render.Transcript
/-!
# Steps of renders that go alike

Two renders are compared step by step. They have the same log, and what they otherwise share with the
renders nested in them is related by a LIKENESS. It says what is related while both go on, what is
known of the first once it was stopped by its cancellation while the second goes on, and how they may
fail.

* `SessionM.Alike`: two steps that lead from alike to alike, or else the first is stopped;
* there is one rule for each way steps are put together and one for each step of a session;
* `run_alike`: a program that keeps to a contract goes alike wherever its operations are answered
  alike.

A likeness of a render with itself is an invariant.
-/

namespace RecordExport

universe u

variable {ω₁ ω₂ α β : Type}

/-! ## 1. What is compared -/

/-- What a render shares with the renders nested in it: everything but the log. -/
structure Shared (ω : Type) where
  world : ω
  memo : FunctionMemo
  cancelled : Bool

/-- What a session shares. -/
def Session.shared {ω : Type} (s : Session ω) : Shared ω := ⟨s.world, s.memo, s.cancelled⟩

namespace Shared

variable {ω : Type}

/-- An event was seen under labels. -/
def seen (see : Observer ω) (labels : List String) (ev : RenderEvent) (a : Shared ω) : Shared ω :=
  { a with world := see.happens labels a.memo ev a.world }

/-- A collaborator was called. -/
def after (c : Call ω α) (a : Shared ω) : Shared ω :=
  ⟨(c a.world).world, a.memo, a.cancelled || (c a.world).cancels⟩

/-- Functions were kept. -/
def keep (scope : MemoScope) (id : String) (fs : List ScriptFunction) (a : Shared ω) : Shared ω :=
  { a with memo := a.memo.insert scope id fs }

/-- The render was cancelled. -/
def cancel (a : Shared ω) : Shared ω := { a with cancelled := true }

end Shared

/-- **How two renders are alike.** -/
structure Likeness (ω₁ ω₂ : Type) where
  /-- what they share is related while both go on, so many renders deep -/
  same : Nat → Shared ω₁ → Shared ω₂ → Prop
  /-- what the first shares once it was stopped -/
  stopped : Shared ω₁ → Prop
  /-- a failure both may have -/
  fails : RenderError → Prop
  /-- at a checkpoint both go on or both fail, or else the first is stopped -/
  checkpoint : ∀ {d a b}, same d a b →
    (a.cancelled = b.cancelled ∧ (b.cancelled = true → fails .cancelled)) ∨
      (a.cancelled = true ∧ stopped a)
  /-- functions are kept alike -/
  memo : ∀ {d a b}, same d a b → a.memo = b.memo

/-- Two calls that answer alike where the renders go on; what they give, if anything, is as it should
    be. -/
structure Likeness.Answers (L : Likeness ω₁ ω₂) (d : Nat) (P : Option α → Prop) (c₁ : Call ω₁ α)
    (c₂ : Call ω₂ α) (a : Shared ω₁) (b : Shared ω₂) : Prop where
  result : (c₁ a.world).result = (c₂ b.world).result
  given : P (c₁ a.world).result.toOption
  same : L.same d (a.after c₁) (b.after c₂)

/-- Two calls that answer alike wherever the renders go on. -/
def Likeness.AnswersAlike (L : Likeness ω₁ ω₂) (d : Nat) (P : Option α → Prop) (c₁ : Call ω₁ α)
    (c₂ : Call ω₂ α) : Prop :=
  ∀ a b, L.same d a b → a.cancelled = false → b.cancelled = false → L.Answers d P c₁ c₂ a b

theorem eq_error_of_map {ε β : Type} {f : α → β} {x : Except ε α} {e : ε}
    (h : x.map f = .error e) : x = .error e := by
  cases x with
  | error e' => exact congrArg Except.error (Except.error.inj h)
  | ok a => cases h

namespace SessionM

/-- How two steps end: alike, or else the first was stopped. -/
inductive EndAlike (L : Likeness ω₁ ω₂) (d : Nat) (Q : α → Prop)
    (x : Except RenderError α × Session ω₁) (y : Except RenderError α × Session ω₂) : Prop where
  | goesOn (result : x.1 = y.1) (given : ∀ a, x.1 = .ok a → Q a)
      (failed : ∀ e, x.1 = .error e → L.fails e) (log : x.2.log = y.2.log)
      (same : L.same d x.2.shared y.2.shared)
  | stops (result : x.1 = .error .cancelled) (stopped : L.stopped x.2.shared)

/-- **Two steps of renders that go alike.** -/
def Alike (L : Likeness ω₁ ω₂) (d : Nat) (Q : α → Prop) (x : SessionM ω₁ α)
    (y : SessionM ω₂ α) : Prop :=
  ∀ s₁ s₂, s₁.log = s₂.log → L.same d s₁.shared s₂.shared → EndAlike L d Q (x s₁) (y s₂)

variable {L : Likeness ω₁ ω₂} {d : Nat} {P Q : α → Prop} {x : SessionM ω₁ α} {y : SessionM ω₂ α}

/-! ## 2. Putting steps together -/

theorem alike_pure {a : α} (ha : Q a) :
    Alike L d Q (pure a : SessionM ω₁ α) (pure a : SessionM ω₂ α) := by
  intro s₁ s₂ hl hs
  refine .goesOn rfl (fun b hb => ?_) (fun e he => ?_) hl hs
  · cases hb
    exact ha
  · cases he

theorem alike_throw {e : RenderError} (he : L.fails e) :
    Alike L d Q (throw e : SessionM ω₁ α) (throw e : SessionM ω₂ α) := by
  intro s₁ s₂ hl hs
  refine .goesOn rfl (fun a ha => ?_) (fun e' he' => ?_) hl hs
  · cases ha
  · cases he'
    exact he

theorem bind_apply {ω : Type} (x : SessionM ω α) (f : α → SessionM ω β) (s : Session ω) :
    (x >>= f) s = (Except.casesOn (x s).1 throw f : SessionM ω β) (x s).2 := by
  show ExceptT.bindCont f (x s).1 (x s).2 = _
  cases (x s).1 <;> rfl

theorem tryCatch_apply {ω : Type} (x : SessionM ω α) (f : RenderError → SessionM ω α)
    (s : Session ω) :
    (tryCatch x f : SessionM ω α) s = (Except.casesOn (x s).1 f pure : SessionM ω α) (x s).2 := by
  have hb : ∀ g : Except RenderError α → StateM (Session ω) (Except RenderError α),
      (x.run >>= g) s = g (x s).1 (x s).2 := fun _ => rfl
  show ExceptT.tryCatch x f s = _
  refine (hb _).trans ?_
  cases (x s).1 <;> rfl

theorem EndAlike.bind {f : α → SessionM ω₁ β} {g : α → SessionM ω₂ β} {Q : β → Prop}
    {s₁ : Session ω₁} {s₂ : Session ω₂} (hx : EndAlike L d P (x s₁) (y s₂))
    (hf : ∀ a, P a → Alike L d Q (f a) (g a)) : EndAlike L d Q ((x >>= f) s₁) ((y >>= g) s₂) := by
  rw [bind_apply, bind_apply]
  cases hx with
  | goesOn result given failed log same =>
    rw [← result]
    cases hxs : (x s₁).1 with
    | ok a => exact hf a (given a hxs) _ _ log same
    | error e => exact alike_throw (failed e hxs) _ _ log same
  | stops result stopped =>
    rw [result]
    exact .stops rfl stopped

theorem Alike.bind {f : α → SessionM ω₁ β} {g : α → SessionM ω₂ β} {Q : β → Prop}
    (hx : Alike L d P x y) (hf : ∀ a, P a → Alike L d Q (f a) (g a)) :
    Alike L d Q (x >>= f) (y >>= g) := fun s₁ s₂ hl hs => (hx s₁ s₂ hl hs).bind hf

theorem Alike.mono (hx : Alike L d P x y) (h : ∀ a, P a → Q a) : Alike L d Q x y := by
  intro s₁ s₂ hl hs
  cases hx s₁ s₂ hl hs with
  | goesOn result given failed log same =>
    exact .goesOn result (fun a ha => h a (given a ha)) failed log same
  | stops result stopped => exact .stops result stopped

/-- What catches failures lets a cancellation pass. -/
theorem Alike.tryCatch {f : RenderError → SessionM ω₁ α} {g : RenderError → SessionM ω₂ α}
    (hx : Alike L d Q x y) (hf : ∀ e, L.fails e → Alike L d Q (f e) (g e))
    (hc : f .cancelled = throw .cancelled) : Alike L d Q (tryCatch x f) (tryCatch y g) := by
  intro s₁ s₂ hl hs
  rw [tryCatch_apply, tryCatch_apply]
  cases hx s₁ s₂ hl hs with
  | goesOn result given failed log same =>
    rw [← result]
    cases hxs : (x s₁).1 with
    | ok a => exact alike_pure (given a hxs) _ _ log same
    | error e => exact hf e (failed e hxs) _ _ log same
  | stops result stopped =>
    rw [result]
    show EndAlike L d Q (f .cancelled (x s₁).2) _
    rw [hc]
    exact .stops rfl stopped

/-- Going on with the present state. -/
theorem alike_get_bind {f : Session ω₁ → SessionM ω₁ α} {g : Session ω₂ → SessionM ω₂ α}
    (h : ∀ s₁ s₂, s₁.log = s₂.log → L.same d s₁.shared s₂.shared →
      EndAlike L d Q (f s₁ s₁) (g s₂ s₂)) : Alike L d Q (get >>= f) (get >>= g) := h

/-- Behind a checkpoint neither render is cancelled. -/
theorem alike_checkpoint_bind
    (h : ∀ s₁ s₂, s₁.log = s₂.log → L.same d s₁.shared s₂.shared → s₁.cancelled = false →
      s₂.cancelled = false → EndAlike L d Q (x s₁) (y s₂)) :
    Alike L d Q (checkpoint >>= fun _ => x) (checkpoint >>= fun _ => y) := by
  intro s₁ s₂ hl hs
  rw [checkpoint_bind_apply, checkpoint_bind_apply]
  rcases L.checkpoint hs with ⟨hc, hf⟩ | ⟨hc, hstop⟩
  · have hc : s₁.cancelled = s₂.cancelled := hc
    cases h₂ : s₂.cancelled with
    | true =>
      rw [hc, h₂]
      exact alike_throw (hf h₂) s₁ s₂ hl hs
    | false =>
      rw [hc, h₂]
      exact h s₁ s₂ hl hs (hc.trans h₂) h₂
  · have hc : s₁.cancelled = true := hc
    rw [hc]
    exact .stops rfl hstop

/-! ## 3. The steps of a session -/

theorem alike_modify {f : Session ω₁ → Session ω₁} {g : Session ω₂ → Session ω₂}
    (h : ∀ s₁ s₂, s₁.log = s₂.log → L.same d s₁.shared s₂.shared →
      (f s₁).log = (g s₂).log ∧ L.same d (f s₁).shared (g s₂).shared) :
    Alike L d (fun _ => True) (modify f) (modify g) := by
  intro s₁ s₂ hl hs
  obtain ⟨hl', hs'⟩ := h s₁ s₂ hl hs
  exact .goesOn rfl (fun _ _ => trivial) (fun e he => by cases he) hl' hs'

theorem alike_cancel (h : ∀ a b, L.same d a b → L.same d a.cancel b.cancel) :
    Alike L d (fun _ => True) (cancel : SessionM ω₁ Unit) (cancel : SessionM ω₂ Unit) :=
  alike_modify fun _ _ hl hs => ⟨hl, h _ _ hs⟩

theorem alike_record (kind : DiagnosticKind) (detail : String) :
    Alike L d (fun _ => True) (record kind detail : SessionM ω₁ Unit)
      (record kind detail : SessionM ω₂ Unit) :=
  alike_modify fun _ _ hl hs => ⟨congrArg (DiagnosticLog.record kind detail) hl, hs⟩

theorem alike_report (e : RenderError) :
    Alike L d (fun _ => True) (report e : SessionM ω₁ Unit) (report e : SessionM ω₂ Unit) :=
  alike_record _ _

theorem alike_leave (scope : LogScope) :
    Alike L d (fun _ => True) (leave scope : SessionM ω₁ Unit) (leave scope : SessionM ω₂ Unit) :=
  alike_modify fun _ _ hl hs => ⟨congrArg (DiagnosticLog.leave scope) hl, hs⟩

theorem alike_enter (label : String) :
    Alike L d (fun _ => True) (enter label : SessionM ω₁ LogScope)
      (enter label : SessionM ω₂ LogScope) := by
  intro s₁ s₂ hl hs
  refine .goesOn ?_ (fun _ _ => trivial) (fun e he => by cases he) ?_ hs
  · show Except.ok (s₁.log.enter label).1 = Except.ok (s₂.log.enter label).1
    rw [hl]
  · show (s₁.log.enter label).2 = (s₂.log.enter label).2
    rw [hl]

/-- In sessions with one log an event is seen under the same labels. -/
theorem same_seen {see₁ : Observer ω₁} {see₂ : Observer ω₂} {ev : RenderEvent} {s₁ : Session ω₁}
    {s₂ : Session ω₂} (hl : s₁.log = s₂.log)
    (h : ∀ labels, L.same d (s₁.shared.seen see₁ labels ev) (s₂.shared.seen see₂ labels ev)) :
    L.same d (s₁.seen see₁ ev).shared (s₂.seen see₂ ev).shared := by
  have hlabels : s₁.log.breadcrumb = s₂.log.breadcrumb := congrArg DiagnosticLog.breadcrumb hl
  show L.same d (s₁.shared.seen see₁ _ ev) (s₂.shared.seen see₂ s₂.log.breadcrumb ev)
  rw [← hlabels]
  exact h _

theorem alike_see {see₁ : Observer ω₁} {see₂ : Observer ω₂} {ev : RenderEvent}
    (h : ∀ labels a b, L.same d a b → L.same d (a.seen see₁ labels ev) (b.seen see₂ labels ev)) :
    Alike L d (fun _ => True) (see see₁ ev) (see see₂ ev) :=
  alike_modify fun _ _ hl hs => ⟨hl, same_seen hl fun labels => h labels _ _ hs⟩

theorem alike_call {P : Option α → Prop} {c₁ : Call ω₁ α} {c₂ : Call ω₂ α}
    (h : L.AnswersAlike d P c₁ c₂) : Alike L d (fun r => P r.toOption) (call c₁) (call c₂) := by
  refine alike_checkpoint_bind fun s₁ s₂ hl hs h₁ h₂ => ?_
  obtain ⟨hr, hp, hs'⟩ := h _ _ hs h₁ h₂
  refine .goesOn (congrArg Except.ok hr) (fun r hr' => ?_) (fun e he => by cases he) hl hs'
  cases hr'
  exact hp

theorem alike_callOrReport {P : Option α → Prop} {c₁ : Call ω₁ α} {c₂ : Call ω₂ α}
    (h : L.AnswersAlike d P c₁ c₂) : Alike L d P (callOrReport c₁) (callOrReport c₂) := by
  refine (alike_call h).bind fun r hr => ?_
  cases r with
  | ok a => exact alike_pure hr
  | error e => exact (alike_report _).bind fun _ _ => alike_pure hr

theorem alike_functionsOnce {c₁ : Call ω₁ (List ScriptFunction)}
    {c₂ : Call ω₂ (List ScriptFunction)} {scope : MemoScope} {id : String}
    (hkeep : ∀ a b fs, L.same d a b → L.same d (a.keep scope id fs) (b.keep scope id fs))
    (h : L.AnswersAlike d (fun _ => True) c₁ c₂) :
    Alike L d (fun _ => True) (functionsOnce scope id c₁) (functionsOnce scope id c₂) := by
  refine alike_get_bind fun s₁ s₂ hl hs => ?_
  have hm : s₁.memo = s₂.memo := L.memo hs
  rw [← hm]
  cases s₁.memo.get? scope id with
  | some fs => exact alike_pure trivial s₁ s₂ hl hs
  | none =>
    refine ((alike_callOrReport h).bind fun found _ => ?_) s₁ s₂ hl hs
    cases found with
    | none => exact alike_pure trivial
    | some fs =>
      refine Alike.bind (P := fun _ => True) (alike_modify fun s₁ s₂ hl hs => ⟨hl, ?_⟩)
        fun _ _ => alike_pure trivial
      exact hkeep _ _ fs hs

theorem Alike.within (h : Alike L d Q x y) (label : String) :
    Alike L d Q (within label x) (within label y) := by
  rintro ⟨w₁, log, memo₁, cancelled₁⟩ ⟨w₂, _, memo₂, cancelled₂⟩ rfl hs
  cases h ⟨w₁, (log.enter label).2, memo₁, cancelled₁⟩ ⟨w₂, (log.enter label).2, memo₂, cancelled₂⟩
    rfl hs with
  | goesOn result given failed log same =>
    exact .goesOn result given failed (congrArg (DiagnosticLog.leave _) log) same
  | stops result stopped => exact .stops result stopped

theorem Alike.isolated (h : Alike L d Q x y) (label : Option String) :
    Alike L d Q (isolated label x) (isolated label y) := by
  rintro ⟨w₁, log, memo₁, cancelled₁⟩ ⟨w₂, _, memo₂, cancelled₂⟩ rfl hs
  cases h ⟨w₁, .empty, memo₁, cancelled₁⟩ ⟨w₂, .empty, memo₂, cancelled₂⟩ rfl hs with
  | goesOn result given failed log' same =>
    exact .goesOn result given failed (congrArg (log.mergeUnder label) log') same
  | stops result stopped => exact .stops result stopped

/-- A nested render is one render deeper as long as it goes on. -/
theorem Alike.nesting {see₁ : Observer ω₁} {see₂ : Observer ω₂} (h : Alike L (d + 1) Q x y)
    (hends : ∀ labels a b, L.same (d + 1) a b →
      L.same d (a.seen see₁ labels .ends) (b.seen see₂ labels .ends))
    (hstopped : ∀ labels a, L.stopped a → L.stopped (a.seen see₁ labels .ends)) {r : RenderRequest}
    {s₁ : Session ω₁} {s₂ : Session ω₂} (hl : s₁.log = s₂.log)
    (hs : L.same (d + 1) (s₁.seen see₁ (.begins r)).shared (s₂.seen see₂ (.begins r)).shared) :
    EndAlike L d Q (nesting see₁ r x s₁) (nesting see₂ r y s₂) := by
  cases h (s₁.seen see₁ (.begins r)) (s₂.seen see₂ (.begins r)) hl hs with
  | goesOn result given failed log same =>
    exact .goesOn result given failed log (same_seen log fun labels => hends labels _ _ same)
  | stops result stopped => exact .stops result (hstopped _ _ stopped)

/-! ## 4. Loops -/

theorem alike_forM {f : β → SessionM ω₁ PUnit} {g : β → SessionM ω₂ PUnit} {l : List β}
    (h : ∀ b ∈ l, Alike L d (fun _ => True) (f b) (g b)) :
    Alike L d (fun _ => True) (l.forM f) (l.forM g) := by
  induction l with
  | nil => exact alike_pure trivial
  | cons b l ih =>
    exact (h b List.mem_cons_self).bind fun _ _ => ih fun b hb => h b (List.mem_cons_of_mem _ hb)

theorem alike_foldlM {β : Type u} {f : α → β → SessionM ω₁ α} {g : α → β → SessionM ω₂ α}
    {l : List β}
    (h : ∀ a, ∀ b ∈ l, Alike L d (fun _ => True) (f a b) (g a b)) (a : α) :
    Alike L d (fun _ => True) (l.foldlM f a) (l.foldlM g a) := by
  induction l generalizing a with
  | nil => exact alike_pure trivial
  | cons b l ih =>
    exact (h a b List.mem_cons_self).bind fun a _ =>
      ih (fun a b hb => h a b (List.mem_cons_of_mem _ hb)) a

end SessionM

/-! ## 5. Programs -/

open SessionM

/-- **A program that keeps to a contract goes alike where its operations do.** -/
theorem run_alike {L : Likeness ω₁ ω₂} {d : Nat} {K : Contract}
    {answer₁ : (o : RenderOp) → SessionM ω₁ o.Answer}
    {answer₂ : (o : RenderOp) → SessionM ω₂ o.Answer}
    (h : ∀ o, K.allows o → Alike L d (K.promises o) (answer₁ o) (answer₂ o))
    (hfails : ∀ e, K.fails e → L.fails e) {p : RenderProgram α} {Q : α → Prop}
    (hp : p.KeepsTo K Q) : Alike L d Q (Engine.run answer₁ p) (Engine.run answer₂ p) := by
  induction p with
  | done a => exact alike_pure hp
  | fail e => exact alike_throw (hfails e hp)
  | ask o go ih => exact (h o hp.1).bind fun x hx => ih x (hp.2 x hx)
  | under label inner go ihi ihg =>
    exact ((ihi hp.1).within label).bind fun t _ => ihg t (hp.2 t)

end RecordExport
