import RecordExport.Resolver.Filling
/-!
# Contracts of programs

A `Contract` says what a program may ask the render for and what it may rely on in return. That a
program keeps to a contract is read off its tree: whatever is answered as promised, everything it asks
for after that is allowed. Programs are put together by a few rules, and there is a rule for each:

* loops and walks over placeholders and blocks only put steps one after the other, in whatever monad.
  So what holds of them is shown for every property that results have and sequences keep
  (`SequencedBy`);
* a program goes on with an answer as it is promised (`KeepsTo.bind`, `keepsTo_request`);
* then there are the requests and fillings that the resolvers share.
-/

namespace RecordExport

universe u v

/-! ## 1. Sequences and walks -/

/-- A property of steps that results have and sequences keep. -/
structure SequencedBy {m : Type → Type v} [Monad m] (P : (α : Type) → m α → Prop) : Prop where
  result : ∀ {α : Type} (a : α), P α (pure a)
  sequence : ∀ {α β : Type} {x : m α} {f : α → m β}, P α x → (∀ a, P β (f a)) → P β (x >>= f)

namespace SequencedBy

variable {m : Type → Type v} [Monad m] {P : (α : Type) → m α → Prop} {α β : Type}

theorem mapM [LawfulMonad m] (h : SequencedBy P) {f : α → m β} {l : List α}
    (hf : ∀ a ∈ l, P β (f a)) : P (List β) (l.mapM f) := by
  induction l with
  | nil => exact h.result []
  | cons a l ih =>
    rw [List.mapM_cons]
    refine h.sequence (hf a List.mem_cons_self) fun b => ?_
    exact h.sequence (ih fun a ha => hf a (List.mem_cons_of_mem _ ha)) fun bs => h.result _

theorem forM (h : SequencedBy P) {f : α → m PUnit} {l : List α} (hf : ∀ a ∈ l, P PUnit (f a)) :
    P PUnit (l.forM f) := by
  induction l with
  | nil => exact h.result _
  | cons a l ih =>
    exact h.sequence (hf a List.mem_cons_self) fun _ =>
      ih fun a ha => hf a (List.mem_cons_of_mem _ ha)

theorem foldlM (h : SequencedBy P) {β : Type u} {f : α → β → m α} {l : List β}
    (hf : ∀ a, ∀ b ∈ l, P α (f a b)) (a : α) : P α (l.foldlM f a) := by
  induction l generalizing a with
  | nil => exact h.result a
  | cons b l ih =>
    rw [List.foldlM_cons]
    exact h.sequence (hf a b List.mem_cons_self) fun a =>
      ih (fun a b hb => hf a b (List.mem_cons_of_mem _ hb)) a

theorem replaceScalarsM (h : SequencedBy P) {value : List Text → m Text}
    (hv : ∀ captures, P Text (value captures)) (p : Pattern) (placement : Placement) (t : Text) :
    P Text (replaceScalarsM p placement t value) := by
  show P Text ((ScalarWalk.start p placement t).replaceAllM value)
  induction ScalarWalk.start p placement t using ScalarWalk.replaceAllM.induct with
  | case1 w hw =>
    rw [ScalarWalk.replaceAllM]
    split
    · exact h.result _
    · rename_i found hf
      rw [hw] at hf
      cases hf
  | case2 w found hw ih =>
    rw [ScalarWalk.replaceAllM]
    split
    · exact h.result _
    · exact h.sequence (hv _) ih

theorem keepBlocksM (h : SequencedBy P) {decision : List Text → m Bool}
    (hd : ∀ captures, P Bool (decision captures)) (f : BlockFamily) (t : Text) :
    P Text (keepBlocksM f t decision) := by
  show P Text ((BlockWalk.start f t).keepAllM decision)
  induction BlockWalk.start f t using BlockWalk.keepAllM.induct with
  | case1 w hw =>
    rw [BlockWalk.keepAllM]
    split
    · exact h.result _
    · rename_i b hb
      rw [hw] at hb
      cases hb
  | case2 w b hw ih =>
    rw [BlockWalk.keepAllM]
    split
    · exact h.result _
    · exact h.sequence (hd _) ih

theorem replaceAllM (h : SequencedBy P) {render : Text → m Text}
    (hr : ∀ inner, P Text (render inner)) (w : BlockWalk) : P Text (w.replaceAllM render) := by
  induction w using BlockWalk.replaceAllM.induct with
  | case1 w hw =>
    rw [BlockWalk.replaceAllM]
    split
    · exact h.result _
    · rename_i b hb
      rw [hw] at hb
      cases hb
  | case2 w b hw ih =>
    rw [BlockWalk.replaceAllM]
    split
    · exact h.result _
    · exact h.sequence (hr _) ih

theorem expandBlocksM [LawfulMonad m] (h : SequencedBy P) {items : List α}
    {render : α → ListPosition → Text → m Text} (hr : ∀ a ∈ items, ∀ p t, P Text (render a p t))
    (f : BlockFamily) (t : Text) : P Text (expandBlocksM f t items render) := by
  refine h.replaceAllM (fun inner => ?_) (BlockWalk.start f t)
  refine h.sequence (h.mapM fun a ha => ?_) fun rendered => h.result _
  obtain ⟨⟨a, i⟩, hai, rfl⟩ := List.mem_map.1 ha
  exact hr a (List.fst_mem_of_mem_zipIdx hai) _ inner

end SequencedBy

/-! ## 2. Contracts -/

/-- What a program may ask for, and what it is promised. -/
structure Contract where
  /-- a language key may be requested -/
  key : KeyRequest → Prop
  /-- something may be rendered in a context -/
  context : RenderContext → Prop
  /-- an object may be found under an id -/
  object : String → GameObject → Prop
  /-- a dialog may be found for an object's id -/
  dialog : String → Dialog → Prop
  /-- the functions of an owner's script may be asked for under a scope and an id -/
  script : MemoScope → String → String → Script → Prop
  /-- functions kept under a scope and an id may be asked for -/
  «recall» : MemoScope → String → Prop
  /-- functions may be kept under a scope and an id -/
  keep : MemoScope → String → List ScriptFunction → Prop
  /-- the render may be cancelled from within -/
  cancel : Prop
  /-- a program may fail so -/
  fails : RenderError → Prop

namespace Contract

/-- Nothing is ruled out and nothing promised. -/
def any : Contract where
  key _ := True
  context _ := True
  object _ _ := True
  dialog _ _ := True
  script _ _ _ _ := True
  «recall» _ _ := True
  keep _ _ _ := True
  cancel := True
  fails _ := True

/-- The same, but no functions of scripts may be asked for. -/
def scriptless (K : Contract) : Contract := { K with script := fun _ _ _ _ => False }

/-- An operation a program may ask for. -/
def allows (K : Contract) : RenderOp → Prop
  | .languageKey r => K.key r
  | .functions scope id owner script => K.script scope id owner script
  | .recall scope id => K.recall scope id
  | .keep scope id fs => K.keep scope id fs
  | .artifact _ c _ => K.context c
  | .nested r => K.context r.context
  | .cancel => K.cancel
  | _ => True

/-- An answer as it is promised. -/
def promises (K : Contract) : (o : RenderOp) → o.Answer → Prop
  | .object id, found => ∀ o, found = some o → K.object id o
  | .dialog objectId, found => ∀ d, found = some d → K.dialog objectId d
  | _, _ => True

end Contract

namespace RenderProgram

/-- **A program keeps to a contract**, and its result is as it should be. -/
def KeepsTo (K : Contract) : {α : Type} → RenderProgram α → (α → Prop) → Prop
  | _, .done a, Q => Q a
  | _, .fail e, _ => K.fails e
  | _, .ask o go, Q => K.allows o ∧ ∀ x, K.promises o x → (go x).KeepsTo K Q
  | _, .under _ inner go, Q => inner.KeepsTo K (fun _ => True) ∧ ∀ t, (go t).KeepsTo K Q

/-- A program keeps to a contract, with any result. -/
def Keeps (K : Contract) {α : Type} (p : RenderProgram α) : Prop := p.KeepsTo K fun _ => True

variable {K : Contract} {α β : Type}

/-! ## 3. Rules -/

theorem keeps_pure (a : α) : (pure a : RenderProgram α).Keeps K := trivial

theorem KeepsTo.bind {p : RenderProgram α} {f : α → RenderProgram β} {P : α → Prop} {Q : β → Prop}
    (hp : p.KeepsTo K P) (hf : ∀ a, P a → (f a).KeepsTo K Q) : (p >>= f).KeepsTo K Q := by
  show (p.bind f).KeepsTo K Q
  induction p with
  | done a => exact hf a hp
  | fail e => exact hp
  | ask o go ih => exact ⟨hp.1, fun x hx => ih x (hp.2 x hx) hf⟩
  | under label inner go _ ih => exact ⟨hp.1, fun t => ih t (hp.2 t) hf⟩

theorem Keeps.bind {p : RenderProgram α} {f : α → RenderProgram β} (hp : p.Keeps K)
    (hf : ∀ a, (f a).Keeps K) : (p >>= f).Keeps K := KeepsTo.bind hp fun a _ => hf a

/-- A program that asks for no scripts may do so where they may be asked for. -/
theorem KeepsTo.of_scriptless {p : RenderProgram α} {Q : α → Prop} (hp : p.KeepsTo K.scriptless Q) :
    p.KeepsTo K Q := by
  induction p with
  | done a => exact hp
  | fail e => exact hp
  | ask o go ih =>
    have ho : K.allows o := by
      cases o with
      | functions => exact hp.1.elim
      | _ => exact hp.1
    have hx : ∀ x, K.promises o x → K.scriptless.promises o x := by
      intro x hx
      cases o <;> exact hx
    exact ⟨ho, fun x h => ih x (hp.2 x (hx x h))⟩
  | under label inner go ihi ihg => exact ⟨ihi hp.1, fun t => ihg t (hp.2 t)⟩

theorem Keeps.of_scriptless {p : RenderProgram α} (hp : p.Keeps K.scriptless) : p.Keeps K :=
  KeepsTo.of_scriptless hp

theorem keepsTo_request (o : RenderOp) (h : K.allows o) : (request o).KeepsTo K (K.promises o) :=
  ⟨h, fun _ hx => hx⟩

theorem keeps_request (o : RenderOp) (h : K.allows o) : (request o).Keeps K :=
  ⟨h, fun _ _ => trivial⟩

theorem sequencedBy_keeps : SequencedBy fun α (p : RenderProgram α) => p.Keeps K where
  result a := keeps_pure a
  sequence hp hf := hp.bind hf

end RenderProgram

/-! ## 4. What the resolvers share -/

namespace RenderProgram

variable {K : Contract} {α β σ : Type}

/-- A program with a state of its own keeps to a contract, from whatever state. -/
def StateKeeps (K : Contract) (x : StateT σ RenderProgram α) : Prop := ∀ s, (x.run s).Keeps K

theorem StateKeeps.bind {x : StateT σ RenderProgram α} {f : α → StateT σ RenderProgram β}
    (hx : StateKeeps K x) (hf : ∀ a, StateKeeps K (f a)) : StateKeeps K (x >>= f) := by
  intro s
  rw [StateT.run_bind]
  exact (hx s).bind fun r => hf r.1 r.2

theorem stateKeeps_lift {p : RenderProgram α} (hp : p.Keeps K) :
    StateKeeps K (liftM p : StateT σ RenderProgram α) := fun _ => hp.bind fun _ => keeps_pure _

theorem stateKeeps_modifyGet (f : σ → α × σ) :
    StateKeeps K (modifyGet f : StateT σ RenderProgram α) := fun _ => keeps_pure _

theorem sequencedBy_stateKeeps :
    SequencedBy fun α (x : StateT σ RenderProgram α) => StateKeeps K x where
  result _ _ := keeps_pure _
  sequence hx hf := hx.bind hf

theorem keeps_languageKey {r : KeyRequest} (h : K.key r) : (languageKey r).Keeps K :=
  (keeps_request (.languageKey r) h).bind fun _ => keeps_pure _

theorem keeps_functions {scope : MemoScope} {id owner : String} {script : Script}
    (h : K.script scope id owner script) : (functions scope id owner script).Keeps K :=
  keeps_request _ h

theorem keeps_artifact {c : RenderContext} (h : K.context c) (kind : ArtifactKind)
    (label : String) : (artifact kind c label).Keeps K := keeps_request _ h

theorem keeps_record (kind : DiagnosticKind) (detail : String) : (record kind detail).Keeps K :=
  keeps_request _ trivial

theorem keeps_missing (subject : String) (field : Text) : (missing subject field).Keeps K :=
  (keeps_record _ _).bind fun _ => keeps_pure _

theorem keeps_escaped (value : Text) : (escaped value).Keeps K :=
  (keeps_request .settings trivial).bind fun _ => keeps_pure _

theorem Keeps.within {p : RenderProgram Text} (hp : p.Keeps K) (label : String) :
    (within label p).Keeps K := ⟨hp, fun _ => trivial⟩

theorem Keeps.derivedOnce {p : RenderProgram (List ScriptFunction)} (hp : p.Keeps K)
    {scope : MemoScope} {id : String} (hr : K.recall scope id) (h : ∀ fs, K.keep scope id fs) :
    (derivedOnce scope id p).Keeps K := by
  refine (keeps_request (.recall scope id) hr).bind fun known => ?_
  cases known with
  | some fs => exact keeps_pure fs
  | none =>
    exact hp.bind fun fs => (keeps_request (.keep scope id fs) (h fs)).bind fun _ => keeps_pure fs

/-- Every program keeps to the contract that rules nothing out. -/
theorem keepsTo_any (p : RenderProgram α) : p.KeepsTo .any fun _ => True := by
  induction p with
  | done a => trivial
  | fail e => trivial
  | ask o go ih => exact ⟨by cases o <;> trivial, fun x _ => ih x⟩
  | under label inner go ihi ihg => exact ⟨ihi, ihg⟩

end RenderProgram

open RenderProgram

variable {K : Contract}

theorem keeps_fillOnce {make : RenderProgram Text} (h : make.Keeps K) (name : String) (t : Text) :
    (fillOnce name make t).Keeps K := by
  refine (sequencedBy_stateKeeps.replaceScalarsM (fun captures => ?_) _ _ t none).bind
    fun r => keeps_pure r.1
  refine StateKeeps.bind (stateKeeps_modifyGet fun made => (made, made)) fun made => ?_
  cases made with
  | some made => exact sequencedBy_stateKeeps.result made
  | none =>
    refine (stateKeeps_lift h).bind fun made => ?_
    exact (stateKeeps_modifyGet fun _ => (PUnit.unit, some made)).bind fun _ =>
      sequencedBy_stateKeeps.result made

theorem keeps_fillKey {r : KeyRequest} (h : K.key r) (name : String) (t : Text) :
    (fillKey name r t).Keeps K :=
  sequencedBy_keeps.replaceScalarsM (fun _ => keeps_languageKey h) _ _ t

theorem keeps_renderFunctions {type : ObjectType} {subject : ScriptFunction → Subject}
    {fs : List ScriptFunction} (h : ∀ f ∈ fs, K.context (.of (subject f) type))
    (kind : ArtifactKind) : (renderFunctions kind type subject fs).Keeps K := by
  refine (sequencedBy_keeps.mapM fun f hf => ?_).bind fun parts => keeps_pure _
  exact (keeps_artifact (h f hf) kind _).bind fun t => keeps_pure _

theorem keepsTo_fetchObjects {α : Type} (id : α → String) (l : List α) :
    (fetchObjects id l).KeepsTo K fun found => ∀ e ∈ found, K.object (id e.1) e.2 := by
  induction l with
  | nil => exact fun _ he => absurd he List.not_mem_nil
  | cons a l ih =>
    refine (keepsTo_request (.object (id a)) trivial).bind fun found hfound => ?_
    refine ih.bind fun others hothers e he => ?_
    rcases List.mem_append.1 he with he | he
    · obtain ⟨o, ho, rfl⟩ := List.mem_map.1 he
      exact hfound o (Option.mem_toList.1 ho)
    · exact hothers e he

end RecordExport
