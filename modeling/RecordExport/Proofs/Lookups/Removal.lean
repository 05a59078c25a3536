import RecordExport.Proofs.Lookups.Possessions
import RecordExport.Proofs.Lookups.Sparing
/-!
# Objects that cannot be had

A character names the items it carries and the skills it has. If one of them can never be had, the render
goes on as if the character did not name it, and each time it is looked up in vain there is an entry in the
log. So two renders are compared, of the character and of the character without those entries.

* `ObjectLookup`: what became of the lookups of a list, one for each entry in order;
* `SessionM.EndsBeside`: two steps that end alike, with the same reports behind different earlier ones;
* `RemovesBeside`: steps of which the first looked for more. Where it is cancelled before a lookup that the
  second does not make, the second is cancelled too and stops at the next resolver;
* `Engine.removesOnly_standard`: **a lookup that fails removes its entry and nothing else.**
-/

namespace RecordExport

variable {ω α β : Type}

/-! ## 1. Lookups -/

/-- The lookup of an object, and how it failed, if it did. -/
structure ObjectLookup where
  id : String
  error? : Option ServiceError
  deriving DecidableEq, Repr

namespace ObjectLookup

/-- The entries of those that failed under labels. -/
def failures (labels : List String) (ls : List ObjectLookup) : List Diagnostic :=
  ls.filterMap fun l => l.error?.map fun err => (FailedLookup.mk labels err).diagnostic

/-- The lookups of all but some objects. -/
def except (gone : String → Bool) (ls : List ObjectLookup) : List ObjectLookup :=
  ls.filter fun l => !gone l.id

theorem failures_of_some (labels : List String) (id : String) (err : ServiceError) :
    failures labels [⟨id, some err⟩] =
      [⟨labels, (RenderError.service err).diagnosticKind, (RenderError.service err).message⟩] := rfl

theorem failures_of_none (labels : List String) (id : String) : failures labels [⟨id, none⟩] = [] := rfl

variable {gone : String → Bool} {l : ObjectLookup}

theorem except_kept (h : gone l.id = false) : except gone [l] = [l] :=
  List.filter_cons_of_pos (by simp [h])

theorem except_gone (h : gone l.id = true) : except gone [l] = [] :=
  List.filter_cons_of_neg (by simp [h])

end ObjectLookup

/-- **Collaborators that never have some objects**, without cancelling the render, and whose other calls
    answer alike whether or not these were asked for: `R` relates the worlds they cannot tell apart. -/
structure Services.NeverHas (R : ω → ω → Prop) (gone : String → Bool) (s : Services ω) : Prop where
  alike : s.Alike R .any s
  error : ∀ {id}, gone id = true → ∀ w, ∃ e, (s.object id w).result = .error e
  goesOn : ∀ {id}, gone id = true → ∀ w, (s.object id w).cancels = false
  world : ∀ {id}, gone id = true → ∀ {w₁ w₂}, R w₁ w₂ → R (s.object id w₁).world w₂

/-- **What lookups of some ids came to**: there is one for each of them in order, it failed as the
    collaborators say, and those failed that they never have. -/
structure Services.LooksUp (s : Services ω) (gone : String → Bool) (ids : List String)
    (ls : List ObjectLookup) : Prop where
  inOrder : ls.map (·.id) = ids
  told : ∀ l ∈ ls, ∃ w, (∀ err, l.error? = some err ↔ (s.object l.id w).result = .error err)
  failed : ∀ l ∈ ls, gone l.id = true → l.error?.isSome = true

/-! ## 2. Sessions side by side -/

/-- Two sessions that differ in what was reported, and in worlds that cannot be told apart. -/
structure Session.Beside (R : ω → ω → Prop) (s₁ s₂ : Session ω) : Prop where
  world : R s₁.world s₂.world
  memo : s₁.memo = s₂.memo
  cancelled : s₁.cancelled = s₂.cancelled
  breadcrumb : s₁.log.breadcrumb = s₂.log.breadcrumb

namespace SessionM

variable {R : ω → ω → Prop} {es₁ es₂ : List Diagnostic}

/-- **Two steps that end alike**, and behind these entries they reported the same. -/
structure EndsBeside (R : ω → ω → Prop) (es₁ es₂ : List Diagnostic)
    (x y : Except RenderError α × Session ω) : Prop where
  result : x.1 = y.1
  beside : x.2.Beside R y.2
  reports : ∃ es, x.2.log.entries = es₁ ++ es ∧ y.2.log.entries = es₂ ++ es

/-- A step that goes alike in worlds that cannot be told apart, does not look at what was reported before
    and leaves a cancelled render cancelled. -/
structure Steady (R : ω → ω → Prop) (x : SessionM ω α) : Prop where
  unaware : Unaware x
  alike : Alike (.worlds fun _ _ => R) 0 (fun _ => True) x x
  keepsCancelled : KeepsCancelled x

/-- A steady step ends alike where it begins alike. -/
theorem Steady.endsBeside {x : SessionM ω α} (hx : Steady R x) {s₁ s₂ : Session ω}
    (hs : s₁.Beside R s₂) : EndsBeside R s₁.log.entries s₂.log.entries (x s₁) (x s₂) := by
  have hlog : s₁.blank.log = s₂.blank.log := congrArg (DiagnosticLog.mk []) hs.breadcrumb
  have h₁ := hx.unaware s₁.log.entries s₁.blank
  have h₂ := hx.unaware s₂.log.entries s₂.blank
  rw [s₁.after_blank] at h₁
  rw [s₂.after_blank] at h₂
  rw [h₁, h₂]
  cases hx.alike s₁.blank s₂.blank hlog ⟨hs.memo, hs.cancelled, hs.world⟩ with
  | stops _ stopped => exact stopped.elim
  | goesOn result _ _ log same =>
    have hlabels : (x s₁.blank).2.log.breadcrumb = (x s₂.blank).2.log.breadcrumb := by rw [log]
    have hreports : (x s₁.blank).2.log.entries = (x s₂.blank).2.log.entries := by rw [log]
    refine ⟨result, ⟨same.2.2, same.1, same.2.1, hlabels⟩, (x s₁.blank).2.log.entries, rfl, ?_⟩
    rw [hreports]
    rfl

/-- A steady step behind two that end alike. -/
theorem EndsBeside.next {x y : Except RenderError α × Session ω}
    {f : Except RenderError α → SessionM ω β} (h : EndsBeside R es₁ es₂ x y)
    (hf : ∀ r, Steady R (f r)) : EndsBeside R es₁ es₂ (f x.1 x.2) (f y.1 y.2) := by
  obtain ⟨es, h₁, h₂⟩ := h.reports
  rw [← h.result]
  obtain ⟨hresult, hbeside, es', h₁', h₂'⟩ := (hf x.1).endsBeside h.beside
  refine ⟨hresult, hbeside, es ++ es', ?_, ?_⟩
  · rw [h₁', h₁, List.append_assoc]
  · rw [h₂', h₂, List.append_assoc]

theorem steady_pure (a : α) : Steady R (pure a : SessionM ω α) :=
  ⟨unaware_pure a, alike_pure trivial, fun _ h => h⟩

theorem steady_throw (e : RenderError) : Steady R (throw e : SessionM ω α) :=
  ⟨unaware_throw e, alike_throw trivial, fun _ h => h⟩

theorem steady_record (kind : DiagnosticKind) (detail : String) :
    Steady R (record kind detail : SessionM ω Unit) :=
  ⟨unaware_record kind detail, alike_record kind detail, fun _ h => h⟩

theorem Steady.bind {x : SessionM ω α} {f : α → SessionM ω β} (hx : Steady R x)
    (hf : ∀ a, Steady R (f a)) : Steady R (x >>= f) := by
  refine ⟨hx.unaware.bind fun a => (hf a).unaware, hx.alike.bind fun a _ => (hf a).alike,
    fun s hs => ?_⟩
  rw [bind_apply]
  cases (x s).1 with
  | ok a => exact (hf a).keepsCancelled _ (hx.keepsCancelled s hs)
  | error e => exact hx.keepsCancelled s hs

theorem sequencedBy_steady (R : ω → ω → Prop) :
    SequencedBy fun α (x : SessionM ω α) => Steady R x where
  result := steady_pure
  sequence := Steady.bind

theorem Steady.tryCatch {x : SessionM ω α} {f : RenderError → SessionM ω α} (hx : Steady R x)
    (hf : ∀ e, Steady R (f e)) (hc : f .cancelled = throw .cancelled) : Steady R (tryCatch x f) := by
  refine ⟨hx.unaware.tryCatch fun e => (hf e).unaware,
    hx.alike.tryCatch (fun e _ => (hf e).alike) hc, fun s hs => ?_⟩
  rw [tryCatch_apply]
  cases (x s).1 with
  | ok a => exact hx.keepsCancelled s hs
  | error e => exact (hf e).keepsCancelled _ (hx.keepsCancelled s hs)

theorem steady_checkpoint_bind {x : SessionM ω α} (hx : Steady R x) :
    Steady R (checkpoint >>= fun _ => x) := by
  refine ⟨unaware_checkpoint_bind hx.unaware, ?_, fun s hs => ?_⟩
  · exact alike_checkpoint_bind fun s₁ s₂ hl hs _ _ => hx.alike s₁ s₂ hl hs
  · rw [checkpoint_bind_apply, if_pos hs]
    exact hs

end SessionM

/-! ## 3. Programs and attempts -/

namespace Engine

open SessionM

variable {R : ω → ω → Prop} {e : Engine ω}

section Steady

variable (h : e.services.Alike R .any e.services)
include h

theorem steady_answer (o : RenderOp) : Steady R (e.answer (e.nested e.maxDepth) 0 o) := by
  have hagree : e.Agree (.worlds fun _ _ => R) .any .blind .blind e :=
    Alike.agree ⟨rfl, rfl, h, fun r _ kind c t _ => (r.resolve kind c t).keepsTo_any⟩
  have hn := nestedSeen_alike hagree e.maxDepth (Nat.sub_zero _).symm
  have ha := answerSeen_alike hagree hn o (by cases o <;> trivial)
  rw [answerSeen_blind, nestedSeen_blind] at ha
  have hkeeps := keepsCancelled_run e e.maxDepth 0 (.request o)
  rw [run_request] at hkeeps
  exact ⟨e.unaware_answer _ _ o, ha.mono fun _ _ => trivial, hkeeps⟩

theorem steady_run (p : RenderProgram α) : Steady R (run (e.answer (e.nested e.maxDepth) 0) p) := by
  refine ⟨e.unaware_run _ _ p, ?_, keepsCancelled_run e _ _ p⟩
  refine run_alike (K := .any) (fun o _ => (steady_answer h o).alike.mono fun _ _ => ?_)
    (fun _ _ => trivial) p.keepsTo_any
  cases o <;> first | trivial | exact fun _ _ => trivial

/-- Attempts one after the other. -/
theorem steady_attempts (kind : ArtifactKind) (c : RenderContext) (rs : List Resolver) (t : Text) :
    Steady R (rs.foldlM (attempt (e.answer (e.nested e.maxDepth) 0) kind c) t) := by
  refine (sequencedBy_steady R).foldlM (fun t r _ => steady_checkpoint_bind ?_) t
  refine (steady_run h _).tryCatch (fun err => ?_) rfl
  cases err with
  | cancelled => exact steady_throw _
  | _ => exact (steady_record _ _).bind fun _ => steady_pure t

end Steady

end Engine

/-! ## 4. Lookups of which some are left out -/

namespace SessionM

/-- **How two steps end of which the first looked up some ids, and the second those of them that may be
    had**: alike, with a report for each lookup that failed, or cancelled. Where the first is cancelled
    before a lookup that the second does not make, the second is cancelled too and goes on. -/
inductive RemovesBeside (R : ω → ω → Prop) (services : Services ω) (gone : String → Bool)
    (ids : List String) (labels : List String) (es₁ es₂ : List Diagnostic)
    (x y : Except RenderError α × Session ω) : Prop where
  | goesOn (ls : List ObjectLookup) (looks : services.LooksUp gone ids ls)
      (ends : EndsBeside R (es₁ ++ ObjectLookup.failures labels ls)
        (es₂ ++ ObjectLookup.failures labels (ObjectLookup.except gone ls)) x y)
  | stops (result : x.1 = .error .cancelled)
      (stopped : y.1 = .error .cancelled ∨ y.2.cancelled = true)

variable {R : ω → ω → Prop} {services : Services ω} {gone : String → Bool} {ids labels : List String}
  {es₁ es₂ : List Diagnostic}

/-- A steady step behind them, which lets a cancellation pass. -/
theorem RemovesBeside.next {x y : Except RenderError α × Session ω}
    {f : Except RenderError α → SessionM ω β}
    (h : RemovesBeside R services gone ids labels es₁ es₂ x y) (hf : ∀ r, Steady R (f r))
    (hc : f (.error .cancelled) = throw .cancelled) :
    RemovesBeside R services gone ids labels es₁ es₂ (f x.1 x.2) (f y.1 y.2) := by
  cases h with
  | goesOn ls looks ends => exact .goesOn ls looks (ends.next hf)
  | stops result stopped =>
    rw [result, hc]
    refine .stops rfl ?_
    rcases stopped with hy | hy
    · rw [hy, hc]
      exact .inl rfl
    · exact .inr ((hf y.1).keepsCancelled y.2 hy)

theorem RemovesBeside.bind {x y : SessionM ω α} {f : α → SessionM ω β} {s₁ s₂ : Session ω}
    (h : RemovesBeside R services gone ids labels es₁ es₂ (x s₁) (y s₂)) (hf : ∀ a, Steady R (f a)) :
    RemovesBeside R services gone ids labels es₁ es₂ ((x >>= f) s₁) ((y >>= f) s₂) := by
  rw [bind_apply, bind_apply]
  refine h.next (f := fun r => Except.casesOn r throw f) (fun r => ?_) rfl
  cases r with
  | ok a => exact hf a
  | error e => exact steady_throw e

theorem RemovesBeside.tryCatch {x y : SessionM ω α} {f : RenderError → SessionM ω α}
    {s₁ s₂ : Session ω} (h : RemovesBeside R services gone ids labels es₁ es₂ (x s₁) (y s₂))
    (hf : ∀ e, Steady R (f e)) (hc : f .cancelled = throw .cancelled) :
    RemovesBeside R services gone ids labels es₁ es₂ ((tryCatch x f : SessionM ω α) s₁)
      ((tryCatch y f : SessionM ω α) s₂) := by
  rw [tryCatch_apply, tryCatch_apply]
  refine h.next (f := fun r => Except.casesOn r f pure) (fun r => ?_) hc
  cases r with
  | ok a => exact steady_pure a
  | error e => exact hf e

theorem RemovesBeside.within {x y : SessionM ω α} {s₁ s₂ : Session ω} {label : String} (hs : s₁.Beside R s₂)
    (h : RemovesBeside R services gone ids labels es₁ es₂ (x { s₁ with log := (s₁.log.enter label).2 })
      (y { s₂ with log := (s₂.log.enter label).2 })) :
    RemovesBeside R services gone ids labels es₁ es₂ (within label x s₁) (within label y s₂) := by
  cases h with
  | stops result stopped => exact .stops result stopped
  | goesOn ls looks ends =>
    refine .goesOn ls looks ⟨ends.result, { ends.beside with breadcrumb := ?_ }, ends.reports⟩
    have hdepth : s₁.log.breadcrumb.length = s₂.log.breadcrumb.length := by rw [hs.breadcrumb]
    exact congrArg₂ List.take hdepth ends.beside.breadcrumb

/-- One lookup more, which both made, or the first alone made in vain. -/
theorem RemovesBeside.cons {x y : Except RenderError α × Session ω} {l : ObjectLookup}
    (hl : services.LooksUp gone [l.id] [l])
    (h : RemovesBeside R services gone ids labels (es₁ ++ ObjectLookup.failures labels [l])
      (es₂ ++ ObjectLookup.failures labels (ObjectLookup.except gone [l])) x y) :
    RemovesBeside R services gone (l.id :: ids) labels es₁ es₂ x y := by
  cases h with
  | stops result stopped => exact .stops result stopped
  | goesOn ls looks ends =>
    refine .goesOn (l :: ls) ⟨congrArg (l.id :: ·) looks.inOrder, ?_, ?_⟩ ?_
    · exact List.forall_mem_cons.2 ⟨hl.told l (List.mem_singleton_self l), looks.told⟩
    · exact List.forall_mem_cons.2 ⟨hl.failed l (List.mem_singleton_self l), looks.failed⟩
    · have hfailures : ∀ ls, ObjectLookup.failures labels (l :: ls) =
          ObjectLookup.failures labels [l] ++ ObjectLookup.failures labels ls := fun ls =>
        List.filterMap_append (l := [l])
      have hexcept : ObjectLookup.failures labels (ObjectLookup.except gone (l :: ls)) =
          ObjectLookup.failures labels (ObjectLookup.except gone [l]) ++
            ObjectLookup.failures labels (ObjectLookup.except gone ls) := by
        have happend : ObjectLookup.except gone (l :: ls) =
            ObjectLookup.except gone [l] ++ ObjectLookup.except gone ls := List.filter_append [l] ls
        rw [happend]
        exact List.filterMap_append
      rw [hfailures, hexcept, ← List.append_assoc, ← List.append_assoc]
      exact ends

end SessionM

namespace Engine

open SessionM

variable {R : ω → ω → Prop} {e : Engine ω} {gone : String → Bool}

/-- What one lookup came to. -/
theorem looksUp_one {services : Services ω} {l : ObjectLookup} {w : ω}
    (htold : ∀ err, l.error? = some err ↔ (services.object l.id w).result = .error err)
    (hfailed : gone l.id = true → l.error?.isSome = true) : services.LooksUp gone [l.id] [l] where
  inOrder := rfl
  told := List.forall_mem_singleton.2 ⟨w, htold⟩
  failed := List.forall_mem_singleton.2 hfailed

/-- A lookup that both make. -/
theorem removesBeside_object {services : Services ω} (h : services.NeverHas R gone) {id : String}
    (hid : gone id = false) {ids : List String} {x y : Option GameObject → SessionM ω α}
    (hnext : ∀ found s₁ s₂, Session.Beside R s₁ s₂ →
      RemovesBeside R services gone ids s₁.log.breadcrumb s₁.log.entries s₂.log.entries (x found s₁)
        (y found s₂)) {s₁ s₂ : Session ω} (hs : s₁.Beside R s₂) :
    RemovesBeside R services gone (id :: ids) s₁.log.breadcrumb s₁.log.entries s₂.log.entries
      ((callOrReport (services.object id) >>= x) s₁) ((callOrReport (services.object id) >>= y) s₂) := by
  rw [bind_apply, bind_apply]
  cases hc : s₁.cancelled with
  | true =>
    rw [callOrReport_of_cancelled hc, callOrReport_of_cancelled (hs.cancelled.symm.trans hc)]
    exact .stops rfl (.inl rfl)
  | false =>
    have hc₂ := hs.cancelled.symm.trans hc
    obtain ⟨result, -, cancels, world⟩ := h.alike.object id _ _ hs.world
    have hafter : ∀ {log₁ log₂ : DiagnosticLog}, log₁.breadcrumb = log₂.breadcrumb →
        Session.Beside R
          ⟨(services.object id s₁.world).world, log₁, s₁.memo,
            s₁.cancelled || (services.object id s₁.world).cancels⟩
          ⟨(services.object id s₂.world).world, log₂, s₂.memo,
            s₂.cancelled || (services.object id s₂.world).cancels⟩ :=
      fun hlabels => ⟨world, hs.memo, by rw [hs.cancelled, cancels], hlabels⟩
    cases hr : (services.object id s₁.world).result with
    | ok o =>
      rw [callOrReport_of_ok hc hr, callOrReport_of_ok hc₂ (result.symm.trans hr)]
      refine .cons (l := ⟨id, none⟩)
        (looksUp_one (w := s₁.world) (fun err => by simp [hr]) (by simp [hid])) ?_
      rw [ObjectLookup.except_kept hid, ObjectLookup.failures_of_none, List.append_nil, List.append_nil]
      exact hnext (some o) _ _ (hafter hs.breadcrumb)
    | error err =>
      rw [callOrReport_of_error hc hr, callOrReport_of_error hc₂ (result.symm.trans hr)]
      refine .cons (l := ⟨id, some err⟩)
        (looksUp_one (w := s₁.world) (fun err => by simp [hr]) fun _ => rfl) ?_
      have hlabels : (s₁.log.record (RenderError.service err).diagnosticKind err.message).breadcrumb =
          (s₂.log.record (RenderError.service err).diagnosticKind err.message).breadcrumb :=
        hs.breadcrumb
      have hreport : s₂.log.entries ++ ObjectLookup.failures s₁.log.breadcrumb [⟨id, some err⟩] =
          (s₂.log.record (RenderError.service err).diagnosticKind err.message).entries := by
        rw [hs.breadcrumb]
        rfl
      rw [ObjectLookup.except_kept hid, hreport]
      exact hnext none _ _ (hafter hlabels)

/-- A lookup that the first makes in vain. -/
theorem removesBeside_gone {services : Services ω} (h : services.NeverHas R gone) {id : String}
    (hid : gone id = true) {ids : List String} {x : Option GameObject → SessionM ω α} {y : SessionM ω α}
    (hnext : ∀ s₁ s₂, Session.Beside R s₁ s₂ →
      RemovesBeside R services gone ids s₁.log.breadcrumb s₁.log.entries s₂.log.entries (x none s₁)
        (y s₂)) (hy : KeepsCancelled y) {s₁ s₂ : Session ω} (hs : s₁.Beside R s₂) :
    RemovesBeside R services gone (id :: ids) s₁.log.breadcrumb s₁.log.entries s₂.log.entries
      ((callOrReport (services.object id) >>= x) s₁) (y s₂) := by
  rw [bind_apply]
  cases hc : s₁.cancelled with
  | true =>
    rw [callOrReport_of_cancelled hc]
    exact .stops rfl (.inr (hy s₂ (hs.cancelled.symm.trans hc)))
  | false =>
    obtain ⟨err, herr⟩ := h.error hid s₁.world
    rw [callOrReport_of_error hc herr]
    refine .cons (l := ⟨id, some err⟩)
      (looksUp_one (w := s₁.world) (fun err => by simp [herr]) fun _ => rfl) ?_
    have hcancelled : (s₁.cancelled || (services.object id s₁.world).cancels) = s₂.cancelled := by
      rw [h.goesOn hid, Bool.or_false, hs.cancelled]
    have hbeside : Session.Beside R ⟨(services.object id s₁.world).world,
        s₁.log.record (RenderError.service err).diagnosticKind err.message, s₁.memo,
        s₁.cancelled || (services.object id s₁.world).cancels⟩ s₂ :=
      ⟨h.world hid hs.world, hs.memo, hcancelled, hs.breadcrumb⟩
    rw [ObjectLookup.except_gone hid, ObjectLookup.failures_of_some]
    exact (List.append_nil s₂.log.entries).symm ▸ hnext _ _ hbeside

/-- **Looking up a list and looking up what may be had of it**, by induction on the list. -/
theorem removesBeside_fetchObjects (h : e.services.NeverHas R gone) (id : α → String) (l : List α)
    {s₁ s₂ : Session ω} (hs : s₁.Beside R s₂) :
    RemovesBeside R e.services gone (l.map id) s₁.log.breadcrumb s₁.log.entries s₂.log.entries
      (run (e.answer (e.nested e.maxDepth) 0) (fetchObjects id l) s₁)
      (run (e.answer (e.nested e.maxDepth) 0) (fetchObjects id (l.filter fun a => !gone (id a))) s₂) := by
  let fetch (l : List α) : SessionM ω (List (α × GameObject)) :=
    run (e.answer (e.nested e.maxDepth) 0) (fetchObjects id l)
  have hcons : ∀ a as, fetch (a :: as) = callOrReport (e.services.object (id a)) >>= fun found =>
      fetch as >>= fun others => pure (found.toList.map (a, ·) ++ others) := by
    intro a as
    show run _ (RenderProgram.object (id a) >>= _) = _
    rw [run_bind]
    refine congrArg₂ _ (run_request _) (funext fun found => ?_)
    exact run_bind _ _
  show RemovesBeside R e.services gone (l.map id) s₁.log.breadcrumb s₁.log.entries s₂.log.entries
    (fetch l s₁) (fetch (l.filter fun a => !gone (id a)) s₂)
  induction l generalizing s₁ s₂ with
  | nil =>
    refine .goesOn [] ⟨rfl, ?_, ?_⟩ ⟨rfl, hs, [], ?_, ?_⟩
    · exact fun _ hl => absurd hl List.not_mem_nil
    · exact fun _ hl => absurd hl List.not_mem_nil
    · exact ((List.append_nil _).trans (List.append_nil _)).symm
    · exact ((List.append_nil _).trans (List.append_nil _)).symm
  | cons a as ih =>
    rw [hcons]
    cases hid : gone (id a) with
    | true =>
      rw [List.filter_cons_of_neg (by simp [hid])]
      refine removesBeside_gone h hid (fun s₁ s₂ hs => ?_) (keepsCancelled_run e _ _ _) hs
      have hsame : (fetch as >>= fun others => pure ((none : Option GameObject).toList.map (a, ·) ++ others)) =
          fetch as := bind_pure _
      rw [hsame]
      exact ih hs
    | false =>
      rw [List.filter_cons_of_pos (by simp [hid]), hcons]
      refine removesBeside_object h hid (fun found s₁ s₂ hs => ?_) hs
      exact (ih hs).bind fun others => steady_pure (found.toList.map (a, ·) ++ others)

/-! ## 5. Renders -/

section Turn

variable {services : Services ω} (h : services.NeverHas R gone) (n : Nat) (P : Possession)
  {npc : GameObject} {c : RenderContext} (hc : c.subject = .object npc) {given : Text}
  (hm : mentions P.mark given = true)
include h hc hm

/-- The resolver of a list and the same without what can never be had. -/
theorem removesBeside_attempt {s : Session ω} (hs : s.Beside R s) (hgo : s.cancelled = false) :
    let e := Engine.standard services n
    let answer := e.answer (e.nested e.maxDepth) 0
    RemovesBeside R services gone ((P.entries npc).map P.id) (s.log.breadcrumb ++ [P.label])
      s.log.entries s.log.entries (attempt answer .npc c given P.topic.resolver s)
      (attempt answer .npc (P.contextWithout gone npc c) given P.topic.resolver s) := by
  intro e answer
  have hc' : (P.contextWithout gone npc c).subject = .object (P.without gone npc) := rfl
  have hsteady : ∀ found, Steady R (run answer (P.expand found given)) := fun found =>
    steady_run (e := e) h.alike _
  unfold attempt
  rw [checkpoint_bind_apply, checkpoint_bind_apply, hgo]
  refine RemovesBeside.tryCatch ?_ (fun err => ?_) rfl
  · rw [P.resolve_topic npc hc, P.resolve_topic _ hc', if_pos hm, if_pos hm, run_within, run_within,
      P.entries_without]
    refine RemovesBeside.within hs ?_
    rw [run_bind, run_bind]
    refine RemovesBeside.bind ?_ hsteady
    have hentered : Session.Beside R { s with log := (s.log.enter P.label).2 }
        { s with log := (s.log.enter P.label).2 } := ⟨hs.world, rfl, rfl, rfl⟩
    exact removesBeside_fetchObjects (e := e) h P.id (P.entries npc) hentered
  · cases err with
    | cancelled => exact steady_throw _
    | _ => exact (steady_record _ _).bind fun _ => steady_pure given

end Turn

/-- **How the render of a character ends beside that of the character without what can never be had**: with
    the same text, and behind what was reported before the resolver of the list had its turn there is one
    entry for each of its lookups that failed, in the order of the list; or both are cancelled. -/
inductive RemovesOnly (services : Services ω) (gone : String → Bool) (ids : List String)
    (label : String) (before : List Diagnostic) :
    Except RenderError RenderOutput → Except RenderError RenderOutput → Prop
  | rendered (text : Text) (ls : List ObjectLookup) (after : List Diagnostic)
      (looks : services.LooksUp gone ids ls) :
      RemovesOnly services gone ids label before
        (.ok ⟨text, before ++ ObjectLookup.failures [label] ls ++ after⟩)
        (.ok ⟨text, before ++ ObjectLookup.failures [label] (ObjectLookup.except gone ls) ++ after⟩)
  | cancelled : RemovesOnly services gone ids label before (.error .cancelled) (.error .cancelled)

section Render

variable {services : Services ω} (h : services.NeverHas R gone) (n : Nat) (P : Possession)
  {npc : GameObject} {c : RenderContext} (hc : c.subject = .object npc)
include h hc

/-- The resolver of a list and those behind it: where one of two renders is cancelled so is the other. -/
theorem removesBeside_foldlM {given : Text} (hm : mentions P.mark given = true) {s : Session ω}
    (hs : R s.world s.world) (hgo : s.cancelled = false) :
    let e := Engine.standard services n
    let answer := e.answer (e.nested e.maxDepth) 0
    let resolvers := P.topic.resolver :: (P.behind.map (·.resolver) ++ [Resolver.fields])
    let out : Except RenderError Text × Session ω := resolvers.foldlM (attempt answer .npc c) given s
    let out' : Except RenderError Text × Session ω :=
      resolvers.foldlM (attempt answer .npc (P.contextWithout gone npc c)) given s
    (∃ ls, services.LooksUp gone ((P.entries npc).map P.id) ls ∧ EndsBeside R
      (s.log.entries ++ ObjectLookup.failures (s.log.breadcrumb ++ [P.label]) ls)
      (s.log.entries ++ ObjectLookup.failures (s.log.breadcrumb ++ [P.label])
        (ObjectLookup.except gone ls)) out out') ∨
      out.1 = .error .cancelled ∧ out'.1 = .error .cancelled := by
  intro e answer resolvers out out'
  let turn : SessionM ω Text := attempt answer .npc c given P.topic.resolver
  let turn' : SessionM ω Text :=
    attempt answer .npc (P.contextWithout gone npc c) given P.topic.resolver
  let rest : Text → SessionM ω Text :=
    (P.behind.map (·.resolver) ++ [Resolver.fields]).foldlM (attempt answer .npc c)
  have hrest : (P.behind.map (·.resolver) ++ [Resolver.fields]).foldlM
      (attempt answer .npc (P.contextWithout gone npc c)) = rest :=
    funext fun t => P.foldlM_behind_without gone npc hc services n e.maxDepth 0 t
  have hout : out = (turn >>= rest) s := rfl
  have hout' : out' = (turn' >>= rest) s := by
    rw [← hrest]
    rfl
  have hturn : RemovesBeside R services gone _ _ _ _ (turn s) (turn' s) :=
    removesBeside_attempt h n P hc hm ⟨hs, rfl, rfl, rfl⟩ hgo
  rw [hout, hout', bind_apply, bind_apply]
  cases hturn with
  | goesOn ls looks ends =>
    refine .inl ⟨ls, looks, ends.next (f := fun r => Except.casesOn r throw rest) fun r => ?_⟩
    cases r with
    | ok t => exact steady_attempts (e := e) h.alike .npc c _ t
    | error err => exact steady_throw err
  | stops result stopped =>
    refine .inr ⟨by rw [result]; rfl, ?_⟩
    -- the next resolver finds the second render cancelled
    cases hy : (turn' s).1 with
    | error err =>
      obtain rfl := eq_cancelled_of_attempt hy
      rfl
    | ok t =>
      rw [hy] at stopped
      have hcancelled := stopped.resolve_left fun h => by cases h
      exact foldlM_attempt_of_cancelled .npc c _ _ t hcancelled

end Render

/-- **A lookup that fails removes its entry and nothing else.** Whatever a character cannot have among the
    items it carries, or among its skills: where the resolver of the list is given a text that calls for it,
    the render of the character comes to the text of the character without these entries, and its
    diagnostics are those of the other with one entry more for each of them, in the order of the list and
    before all else that this resolver reports. -/
theorem removesOnly_standard {services : Services ω} (h : services.NeverHas R gone) (maxDepth : Nat)
    (P : Possession) {npc : GameObject} {c : RenderContext} (hc : c.subject = .object npc) (t : Text)
    {w : ω} (hw : R w w) (cancelled : Bool) {given : Text}
    (hgiven : ((Engine.standard services maxDepth).ahead .npc c t P.topic w cancelled).1 = .ok given)
    (hm : mentions P.mark given = true) :
    let e := Engine.standard services maxDepth
    let begun := (e.ahead .npc c t P.topic w cancelled).2
    RemovesOnly services gone ((P.entries npc).map P.id) P.label begun.log.entries
      (e.render .npc c t w cancelled).1
      (e.render .npc (P.contextWithout gone npc c) t w cancelled).1 := by
  intro e begun
  let answer := e.answer (e.nested e.maxDepth) 0
  let resolvers := P.topic.resolver :: (P.behind.map (·.resolver) ++ [Resolver.fields])
  have hahead : e.ahead .npc c t P.topic w cancelled = (.ok given, begun) := Prod.ext hgiven rfl
  have hahead' : e.ahead .npc (P.contextWithout gone npc c) t P.topic w cancelled =
      (.ok given, begun) := by
    rw [← hahead]
    exact congrFun (P.foldlM_ahead_without gone npc hc services maxDepth e.maxDepth 0 t) _
  have happlicable := P.applicable_npc services maxDepth
  rw [e.render_of_ahead .npc c t happlicable hahead, e.render_of_ahead .npc _ t happlicable hahead']
  have hlabels : begun.log.breadcrumb = [] := e.breadcrumb_ahead .npc c t P.topic w cancelled
  cases hgo : begun.cancelled with
  | true =>
    have hcancelled : ∀ c, (resolvers.foldlM (attempt answer .npc c) given begun).1 =
        .error .cancelled := fun c =>
      foldlM_attempt_of_cancelled .npc c (P.topic.resolver :: P.behind.map (·.resolver)) _ given hgo
    dsimp only
    rw [hcancelled, hcancelled]
    exact .cancelled
  | false =>
    have hworld : R begun.world begun.world := by
      have hbegins : Session.Beside R (e.reported t (.start w cancelled))
          (e.reported t (.start w cancelled)) := ⟨hw, rfl, rfl, rfl⟩
      have hsame := (steady_attempts (e := e) h.alike .npc c (P.topic.resolversAhead .npc) t).endsBeside
        hbegins
      exact hsame.beside.world
    have hturn := removesBeside_foldlM h maxDepth P hc hm hworld hgo
    rw [hlabels, List.nil_append] at hturn
    dsimp only at hturn ⊢
    rcases hturn with ⟨ls, looks, result, -, es, hes, hes'⟩ | ⟨hout, hout'⟩
    · rw [hes, hes', ← result]
      cases hx : (resolvers.foldlM (attempt answer .npc c) given begun).1 with
      | ok text => exact .rendered text ls es looks
      | error err =>
        obtain ⟨us, hus⟩ := exists_pipeline answer .npc c resolvers given begun
        obtain rfl := hus.eq_cancelled hx
        exact .cancelled
    · rw [hout, hout']
      exact .cancelled

/-- The objects that a project lacks can never be had from it. -/
theorem neverHas_inMemory (p : Project) (r : TemplateRegistry) (c : Config) :
    (Services.inMemory p r c).NeverHas Eq fun id => (p.object? id).isNone where
  alike := Services.alike_eq _
  error {id} hid w := by
    refine ⟨.notFound "object" id, ?_⟩
    show p.find id = _
    unfold Project.find
    rw [Option.isNone_iff_eq_none.1 hid]
  goesOn _ _ := rfl
  world _ _ _ hw := hw

/-- A character that carries a sword and twice what is not there. -/
def hoarder : GameObject :=
  ⟨"a", "Goblin", .npc, [], [⟨"ghost", 1, false⟩, ⟨"sword", 2, true⟩, ⟨"ghost", 3, false⟩], [], [], []⟩

/-- What it carries, by its place in the list. -/
def hoardText : Text :=
  braced "Inventory_Start".toList ++
    (braced "Inventory_Index".toList ++ braced "Inventory_End".toList)

theorem removesOnly_hoarder :
    let services := Services.inMemory ⟨[hoarder, sword], []⟩ .builtIn .standard
    let gone (id : String) : Bool := ((Project.mk [hoarder, sword] []).object? id).isNone
    let e := Engine.standard services 16
    let c : RenderContext := .ofObject hoarder
    let begun := (e.ahead .npc c hoardText Possession.items.topic .empty false).2
    (e.ahead .npc c hoardText Possession.items.topic .empty false).1 = .ok hoardText ∧
      mentions Possession.items.mark hoardText = true ∧
      RemovesOnly services gone ["ghost", "sword", "ghost"] "Inventory" begun.log.entries
        (e.render .npc c hoardText .empty false).1
        (e.render .npc (Possession.items.contextWithout gone hoarder c) hoardText .empty false).1 := by
  intro services gone e c begun
  have hvalid : e.validate hoardText = [] := by
    refine validate_eq_nil_iff.2 ?_
    rw [show e.families = _ from families_standard _ _]
    decide +kernel
  have hgiven : (e.ahead .npc c hoardText Possession.items.topic .empty false).1 = .ok hoardText := by
    unfold ahead reported
    rw [hvalid]
    decide +kernel
  have hm : mentions Possession.items.mark hoardText = true := by decide +kernel
  have hc : c.subject = .object hoarder := rfl
  exact ⟨hgiven, hm, removesOnly_standard (neverHas_inMemory _ _ _) 16 .items hc hoardText rfl false
    hgiven hm⟩

end Engine
end RecordExport
