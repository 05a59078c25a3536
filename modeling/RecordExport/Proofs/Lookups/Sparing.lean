import RecordExport.Proofs.Lookups.Noting
import RecordExport.Proofs.Render.Nesting
import RecordExport.Proofs.Render.Pipeline
/-!
# Failed lookups beside blank ones

A lookup that fails is compared with one that succeeds and gives nothing: an empty key, no functions.
What a failure may change is the log, which gets an entry more, and what is kept, since the functions of
a script that could not be had are not kept and are looked up again.

* `Interleaved`: two lists put into each other, each in its order;
* `Spares`: two steps, one noting what fails and the other with blank answers, that end alike. Their logs
  differ by the entries of the failures alone. Where only what is kept was asked for, the first can stop
  at a call that the second does not make; then the second is cancelled and stops at the next
  checkpoint;
* `Engine.EndsScriptless`: in a pipeline whose last resolver asks for no scripts there is such a
  checkpoint;
* `Engine.passWith_spares`, `Engine.nested_spares`: so renders spare everything but the placeholders whose
  lookups failed.
-/

namespace RecordExport

variable {ω α β : Type}

/-! ## 1. Interleavings -/

/-- Two lists put into each other, each in its order. -/
inductive Interleaved : List α → List α → List α → Prop where
  | nil : Interleaved [] [] []
  | left (a : α) {l r m : List α} (h : Interleaved l r m) : Interleaved (a :: l) r (a :: m)
  | right (a : α) {l r m : List α} (h : Interleaved l r m) : Interleaved l (a :: r) (a :: m)

namespace Interleaved

theorem append {l r m l' r' m' : List α} (h : Interleaved l r m) (h' : Interleaved l' r' m') :
    Interleaved (l ++ l') (r ++ r') (m ++ m') := by
  induction h with
  | nil => exact h'
  | left a _ ih => exact .left a ih
  | right a _ ih => exact .right a ih

theorem map {l r m : List α} (f : α → β) (h : Interleaved l r m) :
    Interleaved (l.map f) (r.map f) (m.map f) := by
  induction h with
  | nil => exact .nil
  | left a _ ih => exact .left (f a) ih
  | right a _ ih => exact .right (f a) ih

theorem length {l r m : List α} (h : Interleaved l r m) : m.length = l.length + r.length := by
  induction h with
  | nil => rfl
  | left a _ ih =>
    rw [List.length_cons, List.length_cons, ih]
    omega
  | right a _ ih =>
    rw [List.length_cons, List.length_cons, ih]
    omega

theorem filter (p : α → Bool) {l r m : List α} (h : Interleaved l r m) :
    Interleaved (l.filter p) (r.filter p) (m.filter p) := by
  induction h with
  | nil => exact .nil
  | left a _ ih =>
    rw [List.filter_cons, List.filter_cons]
    split
    · exact .left a ih
    · exact ih
  | right a _ ih =>
    rw [List.filter_cons, List.filter_cons]
    split
    · exact .right a ih
    · exact ih

theorem perm {l r m : List α} (h : Interleaved l r m) : m.Perm (l ++ r) := by
  induction h with
  | nil => exact .nil
  | left a _ ih => exact ih.cons a
  | right a _ ih => exact (ih.cons a).trans List.perm_middle.symm

/-- A list by itself. -/
theorem alone (l : List α) : Interleaved l [] l := by
  induction l with
  | nil => exact .nil
  | cons a l ih => exact .left a ih

theorem eq_of_nil {l m : List α} (h : Interleaved l [] m) : m = l := by
  generalize hr : [] = r at h
  induction h with
  | nil => rfl
  | left a _ ih => rw [ih hr]
  | right a _ _ => cases hr

end Interleaved

/-! ## 2. Blank answers -/

/-- The call, which answers blank where it fails. -/
def Call.orBlank (blank : α) (c : Call ω α) : Call ω α := fun w =>
  { c w with result := .ok ((c w).result.toOption.getD blank) }

/-- The same collaborators with empty keys in the place of those that cannot be had, and no functions
    for the scripts that are said to fail. -/
def Services.blanked (fails : String → Script → Bool) (s : Services ω) : Services ω :=
  { s with
    languageKey := fun r => (s.languageKey r).orBlank ""
    functions := fun owner script =>
      if fails owner script then .pure (.ok []) else s.functions owner script }

/-- The engine with blank answers. -/
def Engine.blanked (fails : String → Script → Bool) (e : Engine ω) : Engine ω :=
  { e with services := e.services.blanked fails }

/-- **Collaborators that always fail at some scripts**, without cancelling the render, and whose other
    calls answer alike whether or not these were tried: `R` relates the worlds they cannot tell
    apart. -/
structure Services.FailsAt (R : ω → ω → Prop) (K : Contract) (fails : String → Script → Bool)
    (s : Services ω) : Prop where
  alike : s.Alike R K s
  error : ∀ {owner script}, fails owner script = true → ∀ w,
    ∃ e, (s.functions owner script w).result = .error e
  goesOn : ∀ {owner script}, fails owner script = true → ∀ w,
    (s.functions owner script w).cancels = false
  world : ∀ {owner script}, fails owner script = true → ∀ {w₁ w₂}, R w₁ w₂ →
    R (s.functions owner script w₁).world w₂

/-- Scripts asked for under one scope and id fail all or not at all, and what programs keep themselves
    is kept under scopes and ids of its own. -/
structure Contract.FailsTogether (K : Contract) (fails : String → Script → Bool) : Prop where
  «recall» : ∀ {scope id owner script}, K.recall scope id → ¬ K.script scope id owner script
  script : ∀ {scope id owner script owner' script'}, K.script scope id owner script →
    K.script scope id owner' script' → fails owner script = fails owner' script'

/-! ## 3. What is compared -/

/-- How two renders are compared: by worlds that cannot be told apart, under a contract, some scripts
    failing. -/
structure Blanks (ω : Type) where
  worlds : ω → ω → Prop
  contract : Contract
  fails : String → Script → Bool

namespace Blanks

/-- What is kept beside what is kept with blank answers: that has more, without functions, for scripts
    that fail. -/
structure Memos (B : Blanks ω) (m₁ m₂ : FunctionMemo) : Prop where
  kept : ∀ {scope id fs}, m₁.get? scope id = some fs → m₂.get? scope id = some fs
  blank : ∀ {scope id fs}, m₁.get? scope id = none → m₂.get? scope id = some fs →
    fs = [] ∧ ∃ owner script, B.contract.script scope id owner script ∧ B.fails owner script = true

variable {B : Blanks ω} {m₁ m₂ : FunctionMemo} {scope : MemoScope} {id owner : String}
  {script : Script}

theorem Memos.refl (m : FunctionMemo) : B.Memos m m where
  kept h := h
  blank hnone hsome := by
    rw [hnone] at hsome
    cases hsome

theorem Memos.insert (h : B.Memos m₁ m₂) (scope : MemoScope) (id : String)
    (fs : List ScriptFunction) : B.Memos (m₁.insert scope id fs) (m₂.insert scope id fs) := by
  constructor
  case kept =>
    intro scope' id' fs' h₁
    rw [FunctionMemo.get?_insert] at h₁ ⊢
    by_cases hkey : (scope', id') = (scope, id)
    · rw [if_pos hkey] at h₁ ⊢
      exact h₁
    · rw [if_neg hkey] at h₁ ⊢
      exact h.kept h₁
  case blank =>
    intro scope' id' fs' h₁ h₂
    rw [FunctionMemo.get?_insert] at h₁ h₂
    by_cases hkey : (scope', id') = (scope, id)
    · rw [if_pos hkey] at h₁
      cases h₁
    · rw [if_neg hkey] at h₁ h₂
      exact h.blank h₁ h₂

/-- No functions are kept for a script that fails. -/
theorem Memos.insertBlank (h : B.Memos m₁ m₂) (hm : m₁.get? scope id = none)
    (hs : B.contract.script scope id owner script) (hf : B.fails owner script = true) :
    B.Memos m₁ (m₂.insert scope id []) := by
  constructor
  case kept =>
    intro scope' id' fs' h₁
    rw [FunctionMemo.get?_insert, if_neg]
    · exact h.kept h₁
    · intro heq
      obtain ⟨rfl, rfl⟩ := Prod.mk.inj heq
      rw [hm] at h₁
      cases h₁
  case blank =>
    intro scope' id' fs' h₁ h₂
    rw [FunctionMemo.get?_insert] at h₂
    split at h₂
    · rename_i heq
      obtain ⟨rfl, rfl⟩ := Prod.mk.inj heq
      exact ⟨(Option.some.inj h₂).symm, owner, script, hs, hf⟩
    · exact h.blank h₁ h₂

/-- What programs keep themselves is the same. -/
theorem Memos.recall (h : B.Memos m₁ m₂) (hB : B.contract.FailsTogether B.fails)
    (hr : B.contract.recall scope id) : m₁.get? scope id = m₂.get? scope id := by
  cases h₁ : m₁.get? scope id with
  | some fs => exact (h.kept h₁).symm
  | none =>
    cases h₂ : m₂.get? scope id with
    | none => rfl
    | some fs =>
      obtain ⟨-, owner, script, hs, -⟩ := h.blank h₁ h₂
      exact absurd hs (hB.recall hr)

/-- **Two renders so far**, within others that have the labels `inside` and in which `before` was noted:
    nothing failed that is not noted yet, and their logs differ by the entries of what failed in this
    one. -/
structure Twins (B : Blanks ω) (inside : List (List String)) (before : List FailedLookup)
    (s₁ : Session (WithNotes ω)) (s₂ : Session ω) : Prop where
  world : B.worlds s₁.world.1 s₂.world
  cancelled : s₁.cancelled = s₂.cancelled
  breadcrumb : s₁.log.breadcrumb = s₂.log.breadcrumb
  memo : B.Memos s₁.memo s₂.memo
  notes : ∃ fs : List FailedLookup,
    s₁.world.2 = ⟨inside, none, before ++ fs.map (·.under (Notebook.outer inside))⟩ ∧
      Interleaved (fs.map (·.diagnostic)) s₂.log.entries s₁.log.entries

/-- The observer of the first. -/
abbrev noter (B : Blanks ω) : Observer (WithNotes ω) := (Observer.noter B.fails).beside

/-- How two steps end: alike, or the first stops as cancelled. Then so does the second, or it is
    cancelled, if that is `loose` enough. -/
inductive Ends (B : Blanks ω) (inside : List (List String)) (before : List FailedLookup) (loose : Prop)
    (Q : α → Prop) (x : Except RenderError α × Session (WithNotes ω))
    (y : Except RenderError α × Session ω) : Prop where
  | goesOn (result : x.1 = y.1) (given : ∀ a, x.1 = .ok a → Q a) (twins : B.Twins inside before x.2 y.2)
  | stops (result : x.1 = .error .cancelled)
      (stopped : y.1 = .error .cancelled ∨ loose ∧ y.2.cancelled = true)

/-- **A step and the same with blank answers**, which spares everything but what was looked up in
    vain. -/
def Spares (B : Blanks ω) (inside : List (List String)) (loose : Prop) (Q : α → Prop)
    (x : SessionM (WithNotes ω) α) (y : SessionM ω α) : Prop :=
  ∀ before s₁ s₂, B.Twins inside before s₁ s₂ → B.Ends inside before loose Q (x s₁) (y s₂)

end Blanks

/-- A step leaves a cancelled render cancelled. -/
def SessionM.KeepsCancelled (y : SessionM ω α) : Prop :=
  ∀ s, s.cancelled = true → (y s).2.cancelled = true

/-! ## 4. Putting steps together -/

namespace Blanks

open SessionM

variable {B : Blanks ω} {inside : List (List String)} {before : List FailedLookup} {loose : Prop}
  {P Q : α → Prop} {x : SessionM (WithNotes ω) α} {y : SessionM ω α} {s₁ : Session (WithNotes ω)}
  {s₂ : Session ω}

theorem spares_pure {a : α} (ha : Q a) : B.Spares inside loose Q (pure a) (pure a) := by
  intro before s₁ s₂ hs
  refine .goesOn rfl (fun b hb => ?_) hs
  cases hb
  exact ha

theorem spares_throw (e : RenderError) : B.Spares inside loose Q (throw e) (throw e) := by
  intro before s₁ s₂ hs
  refine .goesOn rfl (fun b hb => ?_) hs
  cases hb

theorem Ends.bind {f : α → SessionM (WithNotes ω) β} {g : α → SessionM ω β} {Q : β → Prop}
    (hx : B.Ends inside before loose P (x s₁) (y s₂))
    (hf : ∀ a, P a → B.Spares inside loose Q (f a) (g a)) (hg : loose → ∀ a, KeepsCancelled (g a)) :
    B.Ends inside before loose Q ((x >>= f) s₁) ((y >>= g) s₂) := by
  rw [bind_apply, bind_apply]
  cases hx with
  | goesOn result given twins =>
    rw [← result]
    cases hxs : (x s₁).1 with
    | ok a => exact hf a (given a hxs) before _ _ twins
    | error e => exact spares_throw e before _ _ twins
  | stops result stopped =>
    rw [result]
    refine .stops rfl ?_
    rcases stopped with hy | ⟨hl, hy⟩
    · rw [hy]
      exact .inl rfl
    · refine .inr ⟨hl, ?_⟩
      cases (y s₂).1 with
      | ok a => exact hg hl a _ hy
      | error e => exact hy

theorem Spares.bind {f : α → SessionM (WithNotes ω) β} {g : α → SessionM ω β} {Q : β → Prop}
    (hx : B.Spares inside loose P x y) (hf : ∀ a, P a → B.Spares inside loose Q (f a) (g a))
    (hg : loose → ∀ a, KeepsCancelled (g a)) : B.Spares inside loose Q (x >>= f) (y >>= g) :=
  fun before s₁ s₂ hs => (hx before s₁ s₂ hs).bind hf hg

/-- Strict steps one after the other. -/
theorem Spares.then {f : α → SessionM (WithNotes ω) β} {g : α → SessionM ω β} {Q : β → Prop}
    (hx : B.Spares inside False P x y) (hf : ∀ a, P a → B.Spares inside False Q (f a) (g a)) :
    B.Spares inside False Q (x >>= f) (y >>= g) := hx.bind hf False.elim

theorem Spares.mono (hx : B.Spares inside loose P x y) (h : ∀ a, P a → Q a) :
    B.Spares inside loose Q x y := by
  intro before s₁ s₂ hs
  cases hx before s₁ s₂ hs with
  | goesOn result given twins => exact .goesOn result (fun a ha => h a (given a ha)) twins
  | stops result stopped => exact .stops result stopped

/-- A strict step is loose enough. -/
theorem Spares.loosen (hx : B.Spares inside False Q x y) (loose : Prop) :
    B.Spares inside loose Q x y := by
  intro before s₁ s₂ hs
  cases hx before s₁ s₂ hs with
  | goesOn result given twins => exact .goesOn result given twins
  | stops result stopped => exact .stops result (stopped.imp_right fun h => h.1.elim)

/-- What catches failures lets a cancellation pass. -/
theorem Spares.tryCatch {f : RenderError → SessionM (WithNotes ω) α} {g : RenderError → SessionM ω α}
    (hx : B.Spares inside loose Q x y) (hf : ∀ e, B.Spares inside loose Q (f e) (g e))
    (hfc : f .cancelled = throw .cancelled) (hgc : g .cancelled = throw .cancelled)
    (hg : ∀ e, KeepsCancelled (g e)) :
    B.Spares inside loose Q (tryCatch x f) (tryCatch y g) := by
  intro before s₁ s₂ hs
  rw [tryCatch_apply, tryCatch_apply]
  cases hx before s₁ s₂ hs with
  | goesOn result given twins =>
    rw [← result]
    cases hxs : (x s₁).1 with
    | ok a => exact spares_pure (given a hxs) before _ _ twins
    | error e => exact hf e before _ _ twins
  | stops result stopped =>
    rw [result]
    show B.Ends inside before loose Q (f .cancelled (x s₁).2) _
    rw [hfc]
    refine .stops rfl ?_
    rcases stopped with hy | ⟨hl, hy⟩
    · rw [hy]
      refine .inl ?_
      show (g .cancelled (y s₂).2).1 = _
      rw [hgc]
      rfl
    · refine .inr ⟨hl, ?_⟩
      cases (y s₂).1 with
      | ok a => exact hy
      | error e => exact hg e _ hy

/-- Behind a checkpoint neither render is cancelled. -/
theorem spares_checkpoint_bind
    (h : ∀ before s₁ s₂, B.Twins inside before s₁ s₂ → s₁.cancelled = false → s₂.cancelled = false →
      B.Ends inside before loose Q (x s₁) (y s₂)) :
    B.Spares inside loose Q (checkpoint >>= fun _ => x) (checkpoint >>= fun _ => y) := by
  intro before s₁ s₂ hs
  rw [checkpoint_bind_apply, checkpoint_bind_apply, hs.cancelled]
  cases h₂ : s₂.cancelled with
  | true => exact .stops rfl (.inl rfl)
  | false => exact h before s₁ s₂ hs (hs.cancelled.trans h₂) h₂

theorem spares_forM {f : β → SessionM (WithNotes ω) PUnit} {g : β → SessionM ω PUnit} {l : List β}
    (h : ∀ b ∈ l, B.Spares inside False (fun _ => True) (f b) (g b)) :
    B.Spares inside False (fun _ => True) (l.forM f) (l.forM g) := by
  induction l with
  | nil => exact spares_pure trivial
  | cons b l ih =>
    exact (h b List.mem_cons_self).then fun _ _ => ih fun b hb => h b (List.mem_cons_of_mem _ hb)

/-! ## 5. The steps of a session -/

theorem spares_modify {f : Session (WithNotes ω) → Session (WithNotes ω)} {g : Session ω → Session ω}
    (h : ∀ before s₁ s₂, B.Twins inside before s₁ s₂ → B.Twins inside before (f s₁) (g s₂)) :
    B.Spares inside loose (fun _ => True) (modify f) (modify g) :=
  fun before s₁ s₂ hs => .goesOn rfl (fun _ _ => trivial) (h before s₁ s₂ hs)

/-- Both logs get the same entry. -/
theorem Twins.record (h : B.Twins inside before s₁ s₂) (kind : DiagnosticKind) (detail : String) :
    B.Twins inside before { s₁ with log := s₁.log.record kind detail }
      { s₂ with log := s₂.log.record kind detail } := by
  obtain ⟨fs, hfs, hlogs⟩ := h.notes
  refine { h with notes := ⟨fs, hfs, ?_⟩ }
  have hnew := hlogs.append (.right ⟨s₂.log.breadcrumb, kind, detail⟩ .nil)
  rw [List.append_nil] at hnew
  show Interleaved _ (s₂.log.entries ++ [_]) (s₁.log.entries ++ [⟨s₁.log.breadcrumb, kind, detail⟩])
  rw [h.breadcrumb]
  exact hnew

theorem spares_record (kind : DiagnosticKind) (detail : String) :
    B.Spares inside loose (fun _ => True) (record kind detail) (record kind detail) :=
  spares_modify fun _ _ _ h => h.record kind detail

theorem spares_report (e : RenderError) :
    B.Spares inside loose (fun _ => True) (report e) (report e) := spares_record _ _

theorem spares_cancel : B.Spares inside loose (fun _ => True) cancel cancel :=
  spares_modify fun _ _ _ h => { h with cancelled := rfl }

theorem spares_keep (scope : MemoScope) (id : String) (fs : List ScriptFunction) :
    B.Spares inside loose (fun _ => True)
      (modify fun s => { s with memo := s.memo.insert scope id fs })
      (modify fun s => { s with memo := s.memo.insert scope id fs }) :=
  spares_modify fun _ _ _ h => { h with memo := h.memo.insert scope id fs }

theorem spares_leave (scope : LogScope) :
    B.Spares inside loose (fun _ => True) (leave scope) (leave scope) :=
  spares_modify fun _ _ _ h =>
    { h with breadcrumb := congrArg (List.take scope.depth) h.breadcrumb }

theorem spares_enter (label : String) :
    B.Spares inside loose (fun _ => True) (enter label) (enter label) := by
  intro before s₁ s₂ hs
  refine .goesOn ?_ (fun _ _ => trivial)
    { hs with breadcrumb := congrArg (· ++ [label]) hs.breadcrumb }
  show Except.ok (LogScope.mk s₁.log.breadcrumb.length) = .ok (LogScope.mk s₂.log.breadcrumb.length)
  rw [hs.breadcrumb]

theorem Spares.within (h : B.Spares inside loose Q x y) (label : String) :
    B.Spares inside loose Q (within label x) (within label y) := by
  intro before s₁ s₂ hs
  have hentered : B.Twins inside before { s₁ with log := (s₁.log.enter label).2 }
      { s₂ with log := (s₂.log.enter label).2 } :=
    { hs with breadcrumb := congrArg (· ++ [label]) hs.breadcrumb }
  cases h before _ _ hentered with
  | goesOn result given twins =>
    refine .goesOn result given { twins with breadcrumb := ?_ }
    have hdepth : s₁.log.breadcrumb.length = s₂.log.breadcrumb.length := by rw [hs.breadcrumb]
    exact congrArg₂ List.take hdepth twins.breadcrumb
  | stops result stopped => exact .stops result stopped

/-- What failed in a nested render failed in its caller too, under the labels active there. -/
theorem Spares.nesting {r : RenderRequest}
    (h : B.Spares ((Notebook.outer inside ++ s₁.log.breadcrumb ++ r.label.toList) :: inside) loose Q x y)
    (hs : B.Twins inside before s₁ s₂) :
    B.Ends inside before loose Q (nesting B.noter r (isolated r.label x) s₁)
      (isolated r.label y s₂) := by
  obtain ⟨fs, hfs, hlogs⟩ := hs.notes
  have hown : B.Twins ((Notebook.outer inside ++ s₁.log.breadcrumb ++ r.label.toList) :: inside)
      (before ++ fs.map (·.under (Notebook.outer inside)))
      { s₁.seen B.noter (.begins r) with log := .empty } { s₂ with log := .empty } := by
    refine { hs with breadcrumb := rfl, notes := ⟨[], ?_, .nil⟩ }
    show (Observer.noter B.fails).happens s₁.log.breadcrumb s₁.memo (.begins r) s₁.world.2 = _
    rw [hfs, List.map_nil, List.append_nil]
    rfl
  cases h _ _ _ hown with
  | stops result stopped => exact .stops result stopped
  | goesOn result given twins =>
    obtain ⟨fs', hfs', hlogs'⟩ := twins.notes
    let inner := s₁.log.breadcrumb ++ r.label.toList
    refine .goesOn result given ⟨twins.world, twins.cancelled, ?_, twins.memo,
      fs ++ fs'.map (·.under inner), ?_, ?_⟩
    · show (s₁.log.mergeUnder r.label _).breadcrumb = (s₂.log.mergeUnder r.label _).breadcrumb
      rw [DiagnosticLog.breadcrumb_mergeUnder, DiagnosticLog.breadcrumb_mergeUnder]
      exact hs.breadcrumb
    · -- its labels are no longer active as it ends
      refine (congrArg (fun n : Notebook => { n with inside := n.inside.tail }) hfs').trans ?_
      have hlabels : ∀ f : FailedLookup, f.under (Notebook.outer inside ++ s₁.log.breadcrumb ++
          r.label.toList) = (f.under inner).under (Notebook.outer inside) := fun f => by
        rw [FailedLookup.under_under, List.append_assoc]
      refine congrArg (Notebook.mk inside none) ?_
      rw [List.map_append, List.map_map, ← List.append_assoc]
      exact congrArg (_ ++ ·) (List.map_congr_left fun f _ => hlabels f)
    · show Interleaved _ (s₂.log.mergeUnder r.label _).entries (s₁.log.mergeUnder r.label _).entries
      rw [DiagnosticLog.entries_mergeUnder, DiagnosticLog.entries_mergeUnder, ← hs.breadcrumb,
        List.map_append, List.map_map]
      refine hlogs.append ?_
      have hmapped := hlogs'.map (·.under inner)
      rw [List.map_map] at hmapped
      exact hmapped

/-! ## 6. Lookups -/

theorem spares_callOrReport {c₁ c₂ : Call ω α} (h : Call.Alike B.worlds Q c₁ c₂) :
    B.Spares inside loose (fun found => ∀ a, found = some a → Q a) (callOrReport c₁.onLeft)
      (callOrReport c₂) := by
  intro before s₁ s₂ hs
  cases h₂ : s₂.cancelled with
  | true =>
    rw [callOrReport_of_cancelled (hs.cancelled.trans h₂), callOrReport_of_cancelled h₂]
    exact .stops rfl (.inl rfl)
  | false =>
    have h₁ := hs.cancelled.trans h₂
    obtain ⟨result, given, cancels, world⟩ := h _ _ hs.world
    have hcancelled : (s₁.cancelled || (c₁ s₁.world.1).cancels) =
        (s₂.cancelled || (c₂ s₂.world).cancels) := by rw [hs.cancelled, cancels]
    cases hr : (c₁ s₁.world.1).result with
    | ok a =>
      rw [callOrReport_of_ok (c := c₁.onLeft) h₁ hr, callOrReport_of_ok h₂ (result.symm.trans hr)]
      refine .goesOn rfl (fun found hfound b hb => ?_)
        { hs with world := world, cancelled := hcancelled }
      cases hfound
      cases hb
      exact given a hr
    | error e =>
      rw [callOrReport_of_error (c := c₁.onLeft) h₁ hr,
        callOrReport_of_error h₂ (result.symm.trans hr)]
      refine .goesOn rfl (fun found hfound b hb => ?_) ?_
      · cases hfound
        cases hb
      · have hcalled : B.Twins inside before
            { s₁ with
              world := ((c₁ s₁.world.1).world, s₁.world.2)
              cancelled := s₁.cancelled || (c₁ s₁.world.1).cancels }
            { s₂ with
              world := (c₂ s₂.world).world
              cancelled := s₂.cancelled || (c₂ s₂.world).cancels } :=
          { hs with world := world, cancelled := hcancelled }
        exact hcalled.record _ _

/-- A failure is noted, and its entry is the only one more. -/
theorem Twins.note (h : B.Twins inside before s₁ s₂) {w₁ w₂ : ω} (hw : B.worlds w₁ w₂)
    {cancelled₁ cancelled₂ : Bool} (hc : cancelled₁ = cancelled₂) (e : ServiceError)
    {m : FunctionMemo} (hm : B.Memos s₁.memo m) :
    B.Twins inside before
      ⟨(w₁, s₁.world.2.add s₁.log.breadcrumb e),
        s₁.log.record (RenderError.service e).diagnosticKind (RenderError.service e).message,
        s₁.memo, cancelled₁⟩ ⟨w₂, s₂.log, m, cancelled₂⟩ := by
  obtain ⟨fs, hfs, hlogs⟩ := h.notes
  let f : FailedLookup := ⟨s₁.log.breadcrumb, e⟩
  refine ⟨hw, hc, h.breadcrumb, hm, fs ++ [f], ?_, ?_⟩
  · show s₁.world.2.add s₁.log.breadcrumb e = _
    rw [hfs, List.map_append, ← List.append_assoc]
    rfl
  · have hnew := hlogs.append (.left f.diagnostic .nil)
    rw [List.append_nil] at hnew
    rw [List.map_append]
    exact hnew

/-- So far everything that failed was noted. -/
theorem Twins.settled (h : B.Twins inside before s₁ s₂) : s₁.world.2.failed = none := by
  obtain ⟨fs, hfs, -⟩ := h.notes
  rw [hfs]

/-- An answer that is seen. -/
theorem Spares.answered {o : RenderOp} {Q : o.Answer → Prop} {x : SessionM (WithNotes ω) o.Answer}
    {y : SessionM ω o.Answer} (h : B.Spares inside loose Q x y) :
    B.Spares inside loose Q (do let a ← x; SessionM.see B.noter (.answered o a); pure a) y := by
  intro before s₁ s₂ hs
  rw [bind_apply]
  cases h before s₁ s₂ hs with
  | goesOn result given twins =>
    cases hxs : (x s₁).1 with
    | ok a =>
      show B.Ends inside before loose Q (.ok a, (x s₁).2.seen B.noter (.answered o a)) _
      rw [Engine.seen_of_settled twins.settled]
      exact .goesOn (hxs.symm.trans result) (fun b hb => given b (hxs.trans hb)) twins
    | error e => exact .goesOn (hxs.symm.trans result) (fun b hb => by cases hb) twins
  | stops result stopped =>
    rw [result]
    exact .stops rfl stopped

/-- A key that cannot be had is as good as an empty one. -/
theorem spares_languageKey {e : Engine ω} {r : KeyRequest} 
    {nested₁ : Engine.NestedRender (WithNotes ω)} {nested₂ : Engine.NestedRender ω} {depth : Nat}
    (h : Call.Alike B.worlds (fun _ => True)
      (e.services.languageKey r) (e.services.languageKey r)) :
    B.Spares inside False (fun _ => True)
      ((e.noting B.fails).answerSeen B.noter nested₁ depth (.languageKey r))
      ((e.blanked B.fails).answer nested₂ depth (.languageKey r)) := by
  intro before s₁ s₂ hs
  let c : Call ω String := e.services.languageKey r
  have hblanked : (e.blanked B.fails).answer nested₂ depth (.languageKey r) s₂ =
      (do let found ← callOrReport (c.orBlank ""); pure (found.getD "")) s₂ := rfl
  rw [hblanked, bind_apply]
  cases h₂ : s₂.cancelled with
  | true =>
    rw [Engine.key_of_cancelled (hs.cancelled.trans h₂), callOrReport_of_cancelled h₂]
    exact .stops rfl (.inl rfl)
  | false =>
    have h₁ := hs.cancelled.trans h₂
    obtain ⟨result, -, cancels, world⟩ := h _ _ hs.world
    have hcancelled : (s₁.cancelled || (c s₁.world.1).cancels) =
        (s₂.cancelled || (c s₂.world).cancels) := by rw [hs.cancelled, cancels]
    have hblank : (c.orBlank "" s₂.world).result =
        .ok ((c s₁.world.1).result.toOption.getD "") := by rw [result]; rfl
    rw [callOrReport_of_ok h₂ hblank]
    cases hr : (c s₁.world.1).result with
    | ok key =>
      rw [Engine.key_of_ok h₁ hs.settled hr]
      exact .goesOn rfl (fun _ _ => trivial) { hs with world, cancelled := hcancelled }
    | error err =>
      rw [Engine.key_of_error h₁ hr]
      exact .goesOn rfl (fun _ _ => trivial) (hs.note world hcancelled err hs.memo)

section Functions

variable {s : Services ω} {scope : MemoScope} {id owner : String} {script : Script}

/-- Scripts that do not fail are derived alike. -/
theorem spares_functionsOnce (hs : s.FailsAt B.worlds B.contract B.fails)
    (hB : B.contract.FailsTogether B.fails) (ho : B.contract.script scope id owner script)
    (hf : B.fails owner script = false) :
    B.Spares inside False (fun _ => True) (functionsOnce scope id (s.functions owner script).onLeft)
      (functionsOnce scope id (s.functions owner script)) := by
  intro before s₁ s₂ htwins
  cases h₁ : s₁.memo.get? scope id with
  | some fs =>
    rw [functionsOnce_of_kept h₁, functionsOnce_of_kept (htwins.memo.kept h₁)]
    exact .goesOn rfl (fun _ _ => trivial) htwins
  | none =>
    have h₂ : s₂.memo.get? scope id = none := by
      by_contra hne
      obtain ⟨fs, h₂⟩ := Option.ne_none_iff_exists'.1 hne
      obtain ⟨-, owner', script', ho', hf'⟩ := htwins.memo.blank h₁ h₂
      rw [hB.script ho ho', hf'] at hf
      cases hf
    rw [functionsOnce_of_missing h₁, functionsOnce_of_missing h₂]
    have hspares : B.Spares inside False _ (callOrReport (s.functions owner script).onLeft)
        (callOrReport (s.functions owner script)) := spares_callOrReport (hs.alike.functions owner script)
    have hcall := hspares before s₁ s₂ htwins
    rcases hx : callOrReport (s.functions owner script).onLeft s₁ with ⟨r₁, s₁'⟩
    rcases hy : callOrReport (s.functions owner script) s₂ with ⟨r₂, s₂'⟩
    rw [hx, hy] at hcall
    cases hcall with
    | stops result stopped =>
      obtain rfl : r₁ = .error .cancelled := result
      obtain rfl : r₂ = .error .cancelled := stopped.resolve_right fun h => h.1
      exact .stops rfl (.inl rfl)
    | goesOn result given twins =>
      obtain rfl : r₁ = r₂ := result
      rcases r₁ with e | _ | fs
      · exact .goesOn rfl (fun _ _ => trivial) twins
      · exact .goesOn rfl (fun _ _ => trivial) twins
      · exact .goesOn rfl (fun _ _ => trivial) { twins with memo := twins.memo.insert scope id fs }

/-- Scripts that fail have no functions, whether they are tried again or not. -/
theorem spares_functionsNoted {e : Engine ω} (hs : e.services.FailsAt B.worlds B.contract B.fails)
    (ho : B.contract.script scope id owner script) (hf : B.fails owner script = true) :
    B.Spares inside True (fun _ => True)
      ((e.noting B.fails).functionsSeen B.noter scope id owner script)
      (functionsOnce scope id (.pure (.ok []))) := by
  intro before s₁ s₂ htwins
  cases h₁ : s₁.memo.get? scope id with
  | some fs =>
    rw [Engine.functionsSeen_of_kept h₁, functionsOnce_of_kept (htwins.memo.kept h₁),
      Engine.seen_of_settled htwins.settled]
    exact .goesOn rfl (fun _ _ => trivial) htwins
  | none =>
    obtain ⟨err, herr⟩ := hs.error hf s₁.world.1
    have hworld := hs.world hf htwins.world
    have hgoes := hs.goesOn hf s₁.world.1
    cases h₂ : s₂.memo.get? scope id with
    | none =>
      rw [functionsOnce_of_missing h₂]
      cases hc : s₂.cancelled with
      | true =>
        rw [Engine.functionsSeen_of_error h₁ (callOrReport_of_cancelled (htwins.cancelled.trans hc)),
          callOrReport_of_cancelled hc]
        exact .stops rfl (.inl rfl)
      | false =>
        have hc₁ := htwins.cancelled.trans hc
        rw [Engine.functions_of_error hc₁ h₁ hf herr, callOrReport_of_ok (a := []) hc rfl]
        refine .goesOn rfl (fun _ _ => trivial) (htwins.note hworld ?_ err ?_)
        · rw [hgoes, htwins.cancelled]
          rfl
        · exact htwins.memo.insertBlank h₁ ho hf
    | some fs =>
      obtain ⟨rfl, -⟩ := htwins.memo.blank h₁ h₂
      rw [functionsOnce_of_kept h₂]
      cases hc : s₂.cancelled with
      | true =>
        -- here the first stops where the second asks for nothing
        rw [Engine.functionsSeen_of_error h₁ (callOrReport_of_cancelled (htwins.cancelled.trans hc))]
        exact .stops rfl (.inr ⟨trivial, hc⟩)
      | false =>
        have hc₁ := htwins.cancelled.trans hc
        rw [Engine.functions_of_error hc₁ h₁ hf herr]
        refine .goesOn rfl (fun _ _ => trivial) (htwins.note hworld ?_ err htwins.memo)
        rw [hgoes, Bool.or_false, htwins.cancelled]

end Functions

end Blanks

/-! ## 7. Programs -/

/-- A cancelled render beside itself. -/
def Likeness.cancelled (ω : Type) : Likeness ω ω where
  same _ a b := a = b ∧ a.cancelled = true
  stopped _ := False
  fails _ := True
  checkpoint h := .inl ⟨congrArg Shared.cancelled h.1, fun _ => trivial⟩
  memo h := congrArg Shared.memo h.1

theorem answersAlike_cancelled {d : Nat} {P : Option α → Prop} (c : Call ω α) :
    (Likeness.cancelled ω).AnswersAlike d P c c := by
  rintro a _ ⟨rfl, ha⟩ - hb
  rw [ha] at hb
  cases hb

namespace Engine

theorem agree_cancelled (e : Engine ω) : e.Agree (.cancelled ω) .any .blind .blind e where
  resolvers := rfl
  maxDepth := rfl
  projectId := rfl
  escape := rfl
  keeps r _ kind c t _ := (r.resolve kind c t).keepsTo_any
  fails _ _ := trivial
  cancel _ _ _ _ h := ⟨congrArg Shared.cancel h.1, rfl⟩
  keep _ h := ⟨congrArg (Shared.keep _ _ _) h.1, h.2⟩
  object _ _ := answersAlike_cancelled _
  dialog _ _ := answersAlike_cancelled _
  languageKey _ _ _ := answersAlike_cancelled _
  functions _ _ _ _ _ _ :=
    functionsSeen_alike (fun _ _ _ h => ⟨congrArg (Shared.keep _ _ _) h.1, h.2⟩)
      (answersAlike_cancelled _) fun _ _ _ _ h => h
  template _ _ _ := answersAlike_cancelled _
  resolver h _ _ := h
  begins _ h _ _ := h
  ends _ h := h
  stopped h := h
  answered _ _ _ _ h := h

/-- A program leaves a cancelled render cancelled. -/
theorem keepsCancelled_run (e : Engine ω) (left depth : Nat) (p : RenderProgram α) :
    SessionM.KeepsCancelled (run (e.answer (e.nested left) depth) p) := by
  have hn : ∀ r, SessionM.Alike (.cancelled ω) depth (fun _ => True) (e.nested left r)
      (e.nested left r) := by
    intro r
    cases left <;>
      exact SessionM.alike_checkpoint_bind fun s₁ s₂ _ hs h₁ _ =>
        absurd (hs.2.symm.trans h₁) Bool.noConfusion
  intro s hs
  have ha := answerSeen_alike e.agree_cancelled (fun r _ => hn r)
  simp only [answerSeen_blind] at ha
  have hrun := run_alike ha (fun _ _ => trivial) (RenderProgram.keepsTo_any p) s s rfl ⟨rfl, hs⟩
  cases hrun with
  | goesOn result given failed log same => exact same.2
  | stops result stopped => exact stopped.elim

end Engine

namespace Blanks

variable {B : Blanks ω} {inside : List (List String)} {loose : Prop} {K : Contract} {Q : α → Prop}

/-- **A program spares what its operations spare.** -/
theorem spares_run {answer₁ : (o : RenderOp) → SessionM (WithNotes ω) o.Answer}
    {answer₂ : (o : RenderOp) → SessionM ω o.Answer}
    (h : ∀ o, K.allows o → B.Spares inside loose (K.promises o) (answer₁ o) (answer₂ o))
    (hcancelled : ∀ {β : Type} (p : RenderProgram β), SessionM.KeepsCancelled (Engine.run answer₂ p))
    {p : RenderProgram α} (hp : p.KeepsTo K Q) :
    B.Spares inside loose Q (Engine.run answer₁ p) (Engine.run answer₂ p) := by
  induction p with
  | done a => exact spares_pure hp
  | fail e => exact spares_throw e
  | ask o go ih => exact (h o hp.1).bind (fun x hx => ih x (hp.2 x hx)) fun _ x => hcancelled (go x)
  | under label inner go ihi ihg =>
    exact ((ihi hp.1).within label).bind (fun t _ => ihg t (hp.2 t)) fun _ t => hcancelled (go t)

end Blanks

namespace Engine

open Blanks

variable {B : Blanks ω} {inside : List (List String)} {e : Engine ω} {depth : Nat}
  {nested₁ : NestedRender (WithNotes ω)} {nested₂ : NestedRender ω}

theorem artifact_spares (hs : e.services.FailsAt B.worlds B.contract B.fails)
    (hn : ∀ r, B.contract.context r.context →
      B.Spares inside False (fun _ => True) (nested₁ r) (nested₂ r))
    (kind : ArtifactKind) {c : RenderContext} (hc : B.contract.context c) (label : String) :
    B.Spares inside False (fun _ => True) ((e.noting B.fails).artifact nested₁ kind c label)
      ((e.blanked B.fails).artifact nested₂ kind c label) := by
  refine (spares_callOrReport (hs.alike.template e.services.projectId kind)).then fun found _ => ?_
  cases found with
  | none => exact spares_pure trivial
  | some t =>
    by_cases he : t.engine = placeholderEngine
    · simp only [if_pos he]
      refine (hn ⟨kind, t.text, c, some label⟩ hc).then fun r _ => ?_
      cases r with
      | ok rendered => exact spares_pure trivial
      | error err => exact (spares_report err).then fun _ _ => spares_pure trivial
    · simp only [if_neg he]
      exact (spares_report _).then fun _ _ => spares_pure trivial

/-- Every operation but for scripts is answered alike. -/
theorem answer_spares_scriptless (hs : e.services.FailsAt B.worlds B.contract B.fails)
    (hB : B.contract.FailsTogether B.fails)
    (hn : ∀ r, B.contract.context r.context →
      B.Spares inside False (fun _ => True) (nested₁ r) (nested₂ r))
    (o : RenderOp) (ho : B.contract.scriptless.allows o) :
    B.Spares inside False (B.contract.scriptless.promises o)
      ((e.noting B.fails).answerSeen B.noter nested₁ depth o)
      ((e.blanked B.fails).answer nested₂ depth o) := by
  cases o with
  | functions scope id owner script => exact ho.elim
  | languageKey r => exact spares_languageKey (hs.alike.languageKey r ho)
  | object id =>
    exact Spares.answered ((spares_callOrReport (hs.alike.object id)).mono fun _ hfound => hfound)
  | dialog objectId =>
    refine Spares.answered ((spares_callOrReport (hs.alike.dialog objectId)).then fun found hfound => ?_)
    refine spares_pure fun d hd => ?_
    exact hfound (some d) (Option.join_eq_some_iff.1 hd) d rfl
  | «recall» scope id =>
    refine Spares.answered fun before s₁ s₂ htwins => ?_
    refine .goesOn (congrArg Except.ok ?_) (fun _ _ => trivial) htwins
    exact htwins.memo.recall hB ho
  | keep scope id fs => exact Spares.answered (spares_keep scope id fs)
  | artifact kind c label => exact Spares.answered (artifact_spares hs hn kind ho label)
  | nested r => exact Spares.answered (hn r ho)
  | record kind detail => exact Spares.answered (spares_record kind detail)
  | enter label => exact Spares.answered (spares_enter label)
  | leave scope => exact Spares.answered (spares_leave scope)
  | settings => exact Spares.answered (spares_pure trivial)
  | depth => exact Spares.answered (spares_pure trivial)
  | cancel => exact Spares.answered spares_cancel

/-- Every operation is answered alike, those for scripts loosely. -/
theorem answer_spares (hs : e.services.FailsAt B.worlds B.contract B.fails)
    (hB : B.contract.FailsTogether B.fails)
    (hn : ∀ r, B.contract.context r.context →
      B.Spares inside False (fun _ => True) (nested₁ r) (nested₂ r))
    (o : RenderOp) (ho : B.contract.allows o) :
    B.Spares inside True (B.contract.promises o) ((e.noting B.fails).answerSeen B.noter nested₁ depth o)
      ((e.blanked B.fails).answer nested₂ depth o) := by
  have helse : o.AsksElse → B.Spares inside True (B.contract.promises o)
      ((e.noting B.fails).answerSeen B.noter nested₁ depth o)
      ((e.blanked B.fails).answer nested₂ depth o) := by
    intro helse
    have ho' : B.contract.scriptless.allows o := by
      cases o with
      | functions => exact helse.elim
      | _ => exact ho
    have hpromises : B.contract.scriptless.promises o = B.contract.promises o := by
      cases o <;> rfl
    rw [← hpromises]
    exact (answer_spares_scriptless hs hB hn o ho').loosen True
  cases o with
  | functions scope id owner script =>
    have hblanked : (e.blanked B.fails).services.functions owner script =
        if B.fails owner script then .pure (.ok []) else e.services.functions owner script := rfl
    show B.Spares inside True (fun _ => True)
      ((e.noting B.fails).functionsSeen B.noter scope id owner script)
      (SessionM.functionsOnce scope id ((e.blanked B.fails).services.functions owner script))
    rw [hblanked]
    cases hf : B.fails owner script with
    | true => exact spares_functionsNoted hs ho hf
    | false =>
      have hunnoticed : (e.noting B.fails).services.functions owner script =
          (e.services.functions owner script).onLeft :=
        Call.seen_of_unnoticed (fun result _ n => by
          cases result with
          | ok fs => rfl
          | error err =>
            show (if B.fails owner script = true then _ else n) = n
            rw [hf]
            rfl) _
      unfold functionsSeen
      rw [hunnoticed]
      exact Spares.answered (o := .functions scope id owner script)
        ((spares_functionsOnce hs hB ho hf).loosen True)
  | _ => exact helse trivial

/-! ## 8. Renders -/

/-- **Resolvers that keep to a contract, and in every kind the last asks for no scripts.** -/
structure EndsScriptless (K : Contract) (e : Engine ω) : Prop where
  keeps : ∀ r ∈ e.resolvers, r.Keeps K
  last : ∀ kind, ∃ rs r, e.applicable kind = rs ++ [r] ∧
    ∀ c t, K.context c → (r.resolve kind c t).Keeps K.scriptless

section Attempts

variable {answer₁ : (o : RenderOp) → SessionM (WithNotes ω) o.Answer}
  {answer₂ : (o : RenderOp) → SessionM ω o.Answer} {loose : Prop} {K : Contract}

theorem attempt_spares
    (h : ∀ o, K.allows o → B.Spares inside loose (K.promises o) (answer₁ o) (answer₂ o))
    (hcancelled : ∀ {β : Type} (p : RenderProgram β), SessionM.KeepsCancelled (run answer₂ p))
    (kind : ArtifactKind) {c : RenderContext} (t : Text) {r : Resolver}
    (hr : (r.resolve kind c t).Keeps K) :
    B.Spares inside loose (fun _ => True) (attempt answer₁ kind c t r)
      (attempt answer₂ kind c t r) := by
  refine spares_checkpoint_bind fun before s₁ s₂ hs _ _ => ?_
  refine ((spares_run h hcancelled hr).tryCatch (fun err => ?_) ?_ ?_ fun err => ?_) before s₁ s₂ hs
  · cases err with
    | cancelled => exact spares_throw _
    | _ => exact (spares_record _ _).bind (fun _ _ => spares_pure trivial) fun _ _ _ hs => hs
  · rfl
  · rfl
  · intro s hs
    cases err <;> exact hs

/-- A cancelled render stops at the next resolver. -/
theorem foldlM_attempt_of_cancelled (kind : ArtifactKind) (c : RenderContext) (rs : List Resolver)
    (r : Resolver) (t : Text) {s : Session ω} (hs : s.cancelled = true) :
    ((rs ++ [r]).foldlM (attempt answer₂ kind c) t s).1 = .error .cancelled := by
  have hcons : ∀ x xs, ((x :: xs).foldlM (attempt answer₂ kind c) t s).1 = .error .cancelled := by
    intro x xs
    rw [List.foldlM_cons, SessionM.bind_apply, attempt_apply, if_pos hs]
    rfl
  cases rs with
  | nil => exact hcons r []
  | cons x rs => exact hcons x (rs ++ [r])

theorem eq_cancelled_of_attempt {kind : ArtifactKind} {c : RenderContext} {t : Text} {r : Resolver}
    {s : Session ω} {err : RenderError} (h : (attempt answer₂ kind c t r s).1 = .error err) :
    err = .cancelled := by
  rw [attempt_apply] at h
  split at h
  · exact (Except.error.inj h).symm
  · rcases hrun : run answer₂ (r.resolve kind c t) s with ⟨err' | t', s'⟩
    · rw [hrun] at h
      cases err' <;> cases h
      rfl
    · rw [hrun] at h
      cases h

/-- Resolvers one after the other, by induction on those before the last: where one of them stops
    loosely there is a checkpoint to come. -/
theorem foldlM_spares {kind : ArtifactKind} {c : RenderContext} {rs : List Resolver} {r : Resolver}
    (hrs : ∀ x ∈ rs, ∀ t, B.Spares inside True (fun _ => True) (attempt answer₁ kind c t x)
      (attempt answer₂ kind c t x))
    (hr : ∀ t, B.Spares inside False (fun _ => True) (attempt answer₁ kind c t r)
      (attempt answer₂ kind c t r)) (t : Text) :
    B.Spares inside False (fun _ => True) ((rs ++ [r]).foldlM (attempt answer₁ kind c) t)
      ((rs ++ [r]).foldlM (attempt answer₂ kind c) t) := by
  induction rs generalizing t with
  | nil => exact (hr t).then fun _ _ => spares_pure trivial
  | cons x rs ih =>
    intro before s₁ s₂ hs
    rw [List.cons_append, List.foldlM_cons, List.foldlM_cons, SessionM.bind_apply,
      SessionM.bind_apply]
    cases hrs x List.mem_cons_self t before s₁ s₂ hs with
    | goesOn result given twins =>
      rw [← result]
      cases (attempt answer₁ kind c t x s₁).1 with
      | ok t' => exact ih (fun x hx => hrs x (List.mem_cons_of_mem _ hx)) t' before _ _ twins
      | error err => exact spares_throw err before _ _ twins
    | stops result stopped =>
      rw [result]
      refine .stops rfl (.inl ?_)
      cases hy : (attempt answer₂ kind c t x s₂).1 with
      | error err =>
        obtain rfl := eq_cancelled_of_attempt hy
        rfl
      | ok t' =>
        rw [hy] at stopped
        exact foldlM_attempt_of_cancelled kind c rs r t'
          (stopped.resolve_left fun h => by cases h).2

end Attempts

variable {left : Nat}

/-- **The resolvers of a render spare what its lookups spare.** -/
theorem passWith_spares (depth : Nat) (he : e.EndsScriptless B.contract)
    (hs : e.services.FailsAt B.worlds B.contract B.fails) (hB : B.contract.FailsTogether B.fails)
    (hn : ∀ r, B.contract.context r.context →
      B.Spares inside False (fun _ => True) (nested₁ r) ((e.blanked B.fails).nested left r))
    (kind : ArtifactKind) {c : RenderContext} (hc : B.contract.context c) (t : Text) :
    B.Spares inside False (fun _ => True)
      ((e.noting B.fails).passWith ((e.noting B.fails).answerSeen B.noter nested₁ depth) kind c t)
      ((e.blanked B.fails).passWith
        ((e.blanked B.fails).answer ((e.blanked B.fails).nested left) depth) kind c t) := by
  refine (spares_forM fun i _ => spares_record _ _).then fun _ _ => ?_
  obtain ⟨rs, r, hsplit, hlast⟩ := he.last kind
  have h₁ : (e.noting B.fails).applicable kind = rs ++ [r] := hsplit
  have h₂ : (e.blanked B.fails).applicable kind = rs ++ [r] := hsplit
  rw [h₁, h₂]
  refine foldlM_spares (fun x hx t => ?_) (fun t => ?_) t
  · have hmem : x ∈ e.applicable kind := by
      rw [hsplit]
      exact List.mem_append_left _ hx
    exact attempt_spares (answer_spares hs hB hn) (keepsCancelled_run _ _ _) kind t
      (he.keeps x (List.mem_filter.1 hmem).1 kind c t hc)
  · exact attempt_spares (answer_spares_scriptless hs hB hn) (keepsCancelled_run _ _ _) kind t
      (hlast c t hc)

/-- **Nested renders spare what their lookups spare**, by induction on the levels left. -/
theorem nested_spares (he : e.EndsScriptless B.contract)
    (hs : e.services.FailsAt B.worlds B.contract B.fails) (hB : B.contract.FailsTogether B.fails)
    (left : Nat) (inside : List (List String)) (r : RenderRequest)
    (hr : B.contract.context r.context) :
    B.Spares inside False (fun _ => True) ((e.noting B.fails).nestedSeen B.noter left r)
      ((e.blanked B.fails).nested left r) := by
  induction left generalizing inside r with
  | zero => exact spares_checkpoint_bind fun before s₁ s₂ hs _ _ => spares_pure trivial before s₁ s₂ hs
  | succ left ih =>
    unfold nestedSeen nested
    refine spares_checkpoint_bind fun before s₁ s₂ htwins _ _ => ?_
    rw [passSeen_of_skips fun _ _ _ _ _ _ => rfl]
    have hinner := passWith_spares (e.maxDepth - left) he hs hB
      (ih ((Notebook.outer inside ++ s₁.log.breadcrumb ++ r.label.toList) :: inside)) r.kind hr r.text
    exact (hinner.nesting htwins).bind (fun t _ => spares_pure trivial) False.elim

end Engine

end RecordExport
