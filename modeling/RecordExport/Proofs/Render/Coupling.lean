import RecordExport.Proofs.Render.Likeness
import RecordExport.Proofs.Template.Pairs
/-!
# Programs side by side

Two programs are COUPLED if, asked for related things and answered in related ways, they go on to related
results. What is related is left open: the same requests for two texts that differ, or requests of the same
kind for two objects that differ.

* `Couples`: the relation, with one rule for each way programs are made (`Couples.bind`, `couples_request`).
  Since results have it and sequences keep it, walks and loops over related texts are coupled;
* `run_coupled`: coupled programs run side by side wherever requests are answered in related ways;
* `Oracle.run`: what a program asks for, one thing after the other, and how it ends.
-/

namespace RecordExport

/-! ## 1. Coupled programs -/

/-- What two programs may ask for side by side, which answers they may get then, how the results of their
    labelled parts are related and how both may fail. -/
structure Coupling where
  asks : RenderOp → RenderOp → Prop
  answers : (o o' : RenderOp) → o.Answer → o'.Answer → Prop
  text : Text → Text → Prop
  fails : RenderError → Prop

/-- **Two programs that go side by side**, to related results. -/
inductive Couples (C : Coupling) :
    {α β : Type} → (α → β → Prop) → RenderProgram α → RenderProgram β → Prop
  | done {α β : Type} {R : α → β → Prop} {a : α} {b : β} (result : R a b) :
      Couples C R (.done a) (.done b)
  | fail {α β : Type} {R : α → β → Prop} {e : RenderError} (fails : C.fails e) :
      Couples C R (.fail e) (.fail e)
  | ask {α β : Type} {R : α → β → Prop} {o o' : RenderOp} {go : o.Answer → RenderProgram α}
      {go' : o'.Answer → RenderProgram β} (asks : C.asks o o')
      (goes : ∀ x x', C.answers o o' x x' → Couples C R (go x) (go' x')) :
      Couples C R (.ask o go) (.ask o' go')
  | under {α β : Type} {R : α → β → Prop} (label : String) {inner inner' : RenderProgram Text}
      {go : Text → RenderProgram α} {go' : Text → RenderProgram β} (inside : Couples C C.text inner inner')
      (goes : ∀ t t', C.text t t' → Couples C R (go t) (go' t')) :
      Couples C R (.under label inner go) (.under label inner' go')

variable {C : Coupling} {α β γ δ : Type} {R : α → β → Prop} {S : γ → δ → Prop}
  {p : RenderProgram α} {q : RenderProgram β}

theorem couples_pure {a : α} {b : β} (h : R a b) :
    Couples C R (pure a : RenderProgram α) (pure b : RenderProgram β) := .done h

theorem Couples.bind (h : Couples C R p q) {f : α → RenderProgram γ} {g : β → RenderProgram δ}
    (hf : ∀ a b, R a b → Couples C S (f a) (g b)) : Couples C S (p >>= f) (q >>= g) := by
  show Couples C S (p.bind f) (q.bind g)
  induction h with
  | done result => exact hf _ _ result
  | fail fails => exact .fail fails
  | ask asks _ ih => exact .ask asks fun x x' hx => ih x x' hx hf
  | under label inside _ _ ih => exact .under label inside fun t t' ht => ih t t' ht hf

theorem Couples.mono (h : Couples C R p q) {R' : α → β → Prop} (hR : ∀ a b, R a b → R' a b) :
    Couples C R' p q := by
  induction h with
  | done result => exact .done (hR _ _ result)
  | fail fails => exact .fail fails
  | ask asks _ ih => exact .ask asks fun x x' hx => ih x x' hx hR
  | under label inside _ _ ih => exact .under label inside fun t t' ht => ih t t' ht hR

theorem couples_request {o o' : RenderOp} (h : C.asks o o') :
    Couples C (C.answers o o') (RenderProgram.request o) (RenderProgram.request o') :=
  .ask h fun _ _ hx => .done hx

theorem Couples.within {inner inner' : RenderProgram Text} (h : Couples C C.text inner inner')
    (label : String) :
    Couples C C.text (RenderProgram.within label inner) (RenderProgram.within label inner') :=
  .under label h fun _ _ ht => .done ht

/-- Walks and loops over related texts are coupled. -/
theorem pairedBy_couples (C : Coupling) : PairedBy fun _ _ R p q => Couples C R p q where
  result h := .done h
  sequence h hf := h.bind hf

/-! ## 2. Running side by side -/

variable {ω₁ ω₂ : Type}

namespace SessionM

/-- How two steps end: with related results or with the same failure. -/
inductive EndSideBySide (F : RenderError → Prop) (R : α → β → Prop) :
    Except RenderError α → Except RenderError β → Prop
  | ok {a : α} {b : β} (result : R a b) : EndSideBySide F R (.ok a) (.ok b)
  | error {e : RenderError} (fails : F e) : EndSideBySide F R (.error e) (.error e)

/-- Two steps that lead from related sessions to related ones. -/
def SideBySide (F : RenderError → Prop) (I : Session ω₁ → Session ω₂ → Prop) (R : α → β → Prop)
    (x : SessionM ω₁ α) (y : SessionM ω₂ β) : Prop :=
  ∀ s₁ s₂, I s₁ s₂ → EndSideBySide F R (x s₁).1 (y s₂).1 ∧ I (x s₁).2 (y s₂).2

variable {F : RenderError → Prop} {I : Session ω₁ → Session ω₂ → Prop} {x : SessionM ω₁ α}
  {y : SessionM ω₂ β}

theorem SideBySide.bind (h : SideBySide F I R x y) {f : α → SessionM ω₁ γ} {g : β → SessionM ω₂ δ}
    (hf : ∀ a b, R a b → SideBySide F I S (f a) (g b)) : SideBySide F I S (x >>= f) (y >>= g) := by
  intro s₁ s₂ hs
  obtain ⟨hend, hs'⟩ := h s₁ s₂ hs
  rw [bind_apply, bind_apply]
  cases hx : (x s₁).1 with
  | ok a =>
    cases hy : (y s₂).1 with
    | ok b =>
      rw [hx, hy] at hend
      obtain ⟨hab⟩ := hend
      exact hf a b hab _ _ hs'
    | error e =>
      rw [hx, hy] at hend
      cases hend
  | error e =>
    cases hy : (y s₂).1 with
    | ok b =>
      rw [hx, hy] at hend
      cases hend
    | error e' =>
      rw [hx, hy] at hend
      cases hend with
      | error fails => exact ⟨.error fails, hs'⟩

end SessionM

/-- Requests are answered in related ways, and labels do not tell sessions apart. -/
structure Coupling.Answered (C : Coupling) (I : Session ω₁ → Session ω₂ → Prop)
    (answer : (o : RenderOp) → SessionM ω₁ o.Answer) (answer' : (o : RenderOp) → SessionM ω₂ o.Answer) :
    Prop where
  answers : ∀ {o o'}, C.asks o o' → SessionM.SideBySide C.fails I (C.answers o o') (answer o) (answer' o')
  enter : ∀ {s₁ s₂} (label : String), I s₁ s₂ →
    I { s₁ with log := (s₁.log.enter label).2 } { s₂ with log := (s₂.log.enter label).2 }
  leave : ∀ {s₁ s₂ t₁ t₂} (label : String), I s₁ s₂ → I t₁ t₂ →
    I { t₁ with log := t₁.log.leave (s₁.log.enter label).1 }
      { t₂ with log := t₂.log.leave (s₂.log.enter label).1 }

/-- **Coupled programs run side by side.** -/
theorem run_coupled {I : Session ω₁ → Session ω₂ → Prop}
    {answer : (o : RenderOp) → SessionM ω₁ o.Answer} {answer' : (o : RenderOp) → SessionM ω₂ o.Answer}
    (hC : C.Answered I answer answer') (h : Couples C R p q) :
    SessionM.SideBySide C.fails I R (Engine.run answer p) (Engine.run answer' q) := by
  induction h with
  | done result => exact fun _ _ hs => ⟨.ok result, hs⟩
  | fail fails => exact fun _ _ hs => ⟨.error fails, hs⟩
  | ask asks _ ih => exact (hC.answers asks).bind ih
  | under label inside _ ihInside ih =>
    refine SessionM.SideBySide.bind (R := C.text) (fun s₁ s₂ hs => ?_) ih
    obtain ⟨hend, hs'⟩ := ihInside _ _ (hC.enter label hs)
    exact ⟨hend, hC.leave label hs hs'⟩

/-! ## 3. What a program asks for -/

/-- Answers to everything that is asked for, given what was asked before. -/
abbrev Oracle := (asked : List RenderOp) → (o : RenderOp) → o.Answer

namespace Oracle

/-- Answer an operation and write it down. -/
def answer (a : Oracle) (o : RenderOp) : SessionM (List RenderOp) o.Answer := fun s =>
  (.ok (a s.world o), { s with world := s.world ++ [o] })

/-- **What a program asks for**, and how it ends, given such answers. -/
def run (a : Oracle) (p : RenderProgram α) : Except RenderError α × List RenderOp :=
  let (r, s) := Engine.run a.answer p (Session.start [] false)
  (r, s.world)

/-- Two oracles that give related answers. -/
def Answers (C : Coupling) (a a' : Oracle) : Prop :=
  ∀ asked asked' o o', C.asks o o' → C.answers o o' (a asked o) (a' asked' o')

theorem Answers.answered {a a' : Oracle} (h : Answers C a a') :
    C.Answered (fun s s' => List.Forall₂ C.asks s.world s'.world) a.answer a'.answer where
  answers ho _ _ hs := ⟨.ok (h _ _ _ _ ho), List.rel_append hs (.cons ho .nil)⟩
  enter _ hs := hs
  leave _ _ hs := hs

/-- **Coupled programs ask for related things**, and end in related ways. -/
theorem run_coupled {a a' : Oracle} (ha : Answers C a a') (h : Couples C R p q) :
    SessionM.EndSideBySide C.fails R (a.run p).1 (a'.run q).1 ∧
      List.Forall₂ C.asks (a.run p).2 (a'.run q).2 :=
  RecordExport.run_coupled ha.answered h (Session.start [] false) (Session.start [] false) .nil

end Oracle
end RecordExport
