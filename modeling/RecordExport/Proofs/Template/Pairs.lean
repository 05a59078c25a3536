import Mathlib.Data.List.Forall2
import RecordExport.Proofs.Template.Exchange
/-!
# Walks side by side

Two walks of the same kind, over two texts, are compared step by step. What they go through together is
said for every relation between steps that results have and sequences keep (`PairedBy`): between values, or
between programs that ask for things.

* `keepFrom_exchanged`: conditions are settled alike in exchanged texts, if they are at an exchanged block;
* `keepBlocksM_dropped`: **a condition that is dropped leaves nothing of its content**;
* `keepBlocksM_shielded`, `expandBlocksM_shielded`: contents that have no markers of the family stay
  exchanged.
-/

namespace RecordExport

universe v w

/-! ## 1. Relations between steps -/

/-- A relation between steps that results have and sequences keep. -/
structure PairedBy {m : Type → Type v} [Monad m]
    (Q : (α β : Type) → (α → β → Prop) → m α → m β → Prop) : Prop where
  result : ∀ {α β : Type} {R : α → β → Prop} {a : α} {b : β}, R a b → Q α β R (pure a) (pure b)
  sequence : ∀ {α β γ δ : Type} {R : α → β → Prop} {S : γ → δ → Prop} {x : m α} {y : m β}
    {f : α → m γ} {g : β → m δ}, Q α β R x y → (∀ a b, R a b → Q γ δ S (f a) (g b)) →
      Q γ δ S (x >>= f) (y >>= g)

/-- Values are compared as they are. -/
theorem pairedBy_id : PairedBy (m := Id) fun _ _ R a b => R a b where
  result h := h
  sequence hx hf := hf _ _ hx

namespace PairedBy

variable {m : Type → Type v} [Monad m] {Q : (α β : Type) → (α → β → Prop) → m α → m β → Prop}

theorem mapM [LawfulMonad m] (hQ : PairedBy Q) {α α' β β' : Type} {S : α → α' → Prop}
    {R : β → β' → Prop} {f : α → m β} {g : α' → m β'} (hf : ∀ a a', S a a' → Q β β' R (f a) (g a'))
    {l : List α} {l' : List α'} (hl : List.Forall₂ S l l') :
    Q (List β) (List β') (fun bs bs' => List.Forall₂ R bs bs' ∧ bs.length = l.length) (l.mapM f)
      (l'.mapM g) := by
  induction hl with
  | nil => exact hQ.result ⟨.nil, rfl⟩
  | cons ha _ ih =>
    rw [List.mapM_cons, List.mapM_cons]
    refine hQ.sequence (hf _ _ ha) fun b b' hb => ?_
    exact hQ.sequence ih fun bs bs' hbs => hQ.result ⟨.cons hb hbs.1, congrArg Nat.succ hbs.2⟩

theorem foldlM [LawfulMonad m] (hQ : PairedBy Q) {α α' : Type} {β : Type w} {R : α → α' → Prop}
    {f : α → β → m α} {g : α' → β → m α'} {l : List β}
    (hf : ∀ b ∈ l, ∀ a a', R a a' → Q α α' R (f a b) (g a' b)) {a : α} {a' : α'} (ha : R a a') :
    Q α α' R (l.foldlM f a) (l.foldlM g a') := by
  induction l generalizing a a' with
  | nil => exact hQ.result ha
  | cons b l ih =>
    rw [List.foldlM_cons, List.foldlM_cons]
    refine hQ.sequence (hf b List.mem_cons_self a a' ha) fun a a' ha => ?_
    exact ih (fun b hb => hf b (List.mem_cons_of_mem _ hb)) ha

end PairedBy

/-! ## 2. The parts of exchanged blocks -/

variable {H H₁ : Exchange} {f : BlockFamily}

theorem opensLine_exchanged {left left' inner inner' : Text} (hl : Exchanged H₁ left left')
    (hi : Exchanged H inner inner') : opensLine left inner = opensLine left' inner' := by
  unfold opensLine
  rw [hl.lastLine, hi.opensBlank]

theorem closesLine_exchanged {inner inner' right right' : Text} (hi : Exchanged H inner inner')
    (hr : Exchanged H right right') : closesLine inner right = closesLine inner' right' := by
  unfold closesLine
  rw [hi.closesBlank, hr.firstLine]

theorem innerLines_exchanged {left left' inner inner' right right' : Text}
    (hl : Exchanged H₁ left left') (hi : Exchanged H inner inner') (hr : Exchanged H right right') :
    Exchanged H (innerLines left inner right) (innerLines left' inner' right') := by
  unfold innerLines
  rw [← opensLine_exchanged hl hi, ← closesLine_exchanged hi hr]
  have hfront : Exchanged H (if opensLine left inner then inner.behindLine else inner)
      (if opensLine left inner then inner'.behindLine else inner') := by
    split
    · rename_i ho
      exact hi.behindLine (Bool.and_eq_true_iff.1 (Bool.and_eq_true_iff.1 ho).2).2
    · exact hi
  dsimp only
  split
  · rename_i hc
    have hclose := (Bool.and_eq_true_iff.1 hc).1
    refine hfront.aheadOfLine ?_
    have hlast := (Bool.and_eq_true_iff.1 hclose).2
    split
    · rwa [Text.lastLine_behindLine (Text.mem_of_closesBlank hclose)]
    · exact hlast
  · exact hfront

/-- **The parts of a block that is found in both texts are exchanged.** -/
theorem ofMatch_exchanged {before before' : Text} {ts ts' : List Token} {m m' : BlockMatch}
    (hm : findBlock f ts = some m) (hm' : findBlock f ts' = some m') (h : SwappedBlock H m m')
    (hb : Exchanged H₁ before before') :
    (Block.ofMatch before m).captures = (Block.ofMatch before' m').captures ∧
      Exchanged H₁ (Block.ofMatch before m).head (Block.ofMatch before' m').head ∧
      Exchanged H (Block.ofMatch before m).inner (Block.ofMatch before' m').inner ∧
      Exchanged H (Block.ofMatch before m).tail (Block.ofMatch before' m').tail := by
  obtain ⟨o, e, ho, he⟩ := exists_markers_of_findBlock hm
  obtain ⟨o', e', ho', he'⟩ := exists_markers_of_findBlock hm'
  obtain ⟨hcaptures, hhead, hinner, htail⟩ := Block.ofMatch_eq before ho he
  obtain ⟨hcaptures', hhead', hinner', htail'⟩ := Block.ofMatch_eq before' ho' he'
  have hl : Exchanged H₁ (before ++ sourceOf m.left) (before' ++ sourceOf m'.left) := by
    rw [← h.left]
    exact hb.append (.same _)
  have hi := h.inner.sourceOf
  have hr := h.right.sourceOf
  rw [hcaptures, hcaptures', hhead, hhead', hinner, hinner', htail, htail', ← opensLine_exchanged hl hi,
    ← closesLine_exchanged hi hr]
  refine ⟨h.captures, ?_, innerLines_exchanged hl hi hr, ?_⟩
  · split
    · rename_i ho
      exact hl.aheadOfLine (Bool.and_eq_true_iff.1 ho).1
    · exact hl
  · split
    · rename_i hc
      exact hr.behindLine (Bool.and_eq_true_iff.1 hc).2
    · exact hr

/-! ## 3. Walks -/

/-- The first character of a placeholder's block is left when the block is passed. -/
theorem length_lt_of_around (a : Text) (k : Markers) (c z : Text) :
    z.length < (a ++ (k.around c ++ z)).length := by
  have hpos : 0 < (k.around c).length := Nat.succ_pos _
  simp only [List.length_append]
  omega

section Walks

variable {m : Type → Type v} [Monad m] {Q : (α β : Type) → (α → β → Prop) → m α → m β → Prop}
  {step : Block → m (Text × Text)} {walk : Text → Text → m Text}

/-- Walks over exchanged texts, of which so much is left at most, lead to exchanged texts. -/
def WalksAlike (Q : (α β : Type) → (α → β → Prop) → m α → m β → Prop) 
    (walk : Text → Text → m Text) (H H₁ : Exchange) (n : Nat) : Prop :=
  ∀ ⦃before before' t t' : Text⦄, t.length ≤ n → Exchanged H₁ before before' → Exchanged H t t' →
    Q Text Text (Exchanged H₁) (walk before t) (walk before' t')

/-- Steps at a block that is found in both texts lead to exchanged texts, of which less is left. -/
def StepsAlike (Q : (α β : Type) → (α → β → Prop) → m α → m β → Prop) 
    (step : Block → m (Text × Text)) (H H₁ : Exchange) : Prop :=
  ∀ ⦃b b' : Block⦄, b.captures = b'.captures → Exchanged H₁ b.head b'.head →
    Exchanged H b.inner b'.inner → Exchanged H b.tail b'.tail →
      Q (Text × Text) (Text × Text)
        (fun p p' => p.2.length ≤ b.inner.length + b.tail.length ∧ Exchanged H₁ p.1 p'.1 ∧
          Exchanged H p.2 p'.2) (step b) (step b')

/-- **Walks over exchanged texts go alike**, if they do where an exchanged block comes first. -/
theorem walksAlike (hQ : PairedBy Q) (hw : WalksBy f step walk) (hH : H.Balances f)
    (hstep : StepsAlike Q step H H₁)
    (hfront : ∀ {k c c'}, H k c c' → ∀ {before before' z z' : Text}, WalksAlike Q walk H H₁ z.length →
      Exchanged H₁ before before' → Exchanged H z z' →
        Q Text Text (Exchanged H₁) (walk before (k.around c ++ z)) (walk before' (k.around c' ++ z')))
    (n : Nat) : WalksAlike Q walk H H₁ n := by
  induction n using Nat.strong_induction_on with
  | _ n ih =>
    intro before before' t t' hn hb ht
    -- a block that begins in front of the exchanged ones
    have hfound : ∀ {m m'}, findBlock f (tokenize t) = some m → findBlock f (tokenize t') = some m' →
        SwappedBlock H m m' → Q Text Text (Exchanged H₁) (walk before t) (walk before' t') := by
      intro m m' hm hm' hmm
      obtain ⟨hcaptures, hhead, hinner, htail⟩ := ofMatch_exchanged hm hm' hmm hb
      have hlength := Block.length_ofMatch before hm
      rw [source_tokenize] at hlength
      rw [hw.goes hm, hw.goes hm']
      refine hQ.sequence (hstep hcaptures hhead hinner htail) fun p p' hp => ?_
      exact ih _ (hp.1.trans_lt (hlength.trans_le hn)) (Nat.le_refl _) hp.2.1 hp.2.2
    cases ht with
    | same =>
      have hlift := findBlock_swapped hH (tokenize t) (Swapped.nil (H := H))
      rw [List.append_nil] at hlift
      rcases hlift with ⟨m, m', hm, hm', hmm⟩ | ⟨hm, hm'⟩
      · exact hfound hm hm' hmm
      · rw [hw.ends hm, hw.ends hm]
        exact hQ.result (hb.append (.same _))
    | @swap a k c c' z z' content rest =>
      have hlift := findBlock_swapped hH (tokenize a) (.swap content rest.tokenize)
      rw [← Markers.tokenize_append_around a k c, ← Markers.tokenize_append_around a k c',
        ← Markers.tokenize_around_append k c, ← Markers.tokenize_around_append k c'] at hlift
      rcases hlift with ⟨m, m', hm, hm', hmm⟩ | ⟨hm, hm'⟩
      · exact hfound hm hm' hmm
      · rw [hw.append (source_tokenize a) hm, hw.append (source_tokenize a) hm']
        have hlt := (length_lt_of_around a k c z).trans_le hn
        exact hfront content (ih _ hlt) (hb.append (.same a)) rest

theorem stepsAlike_keep (hQ : PairedBy Q) {decision : List Text → m Bool}
    (hd : ∀ cs, Q Bool Bool Eq (decision cs) (decision cs)) :
    StepsAlike Q (keepStep decision) H H₁ := by
  intro b b' hcaptures hhead hinner htail
  unfold keepStep
  rw [← hcaptures]
  refine hQ.sequence (hd _) fun kept kept' hkept => ?_
  subst hkept
  cases kept with
  | true => exact hQ.result ⟨(List.length_append).le, hhead, hinner.append htail⟩
  | false => exact hQ.result ⟨Nat.le_add_left _ _, hhead, htail⟩

theorem stepsAlike_expand (hQ : PairedBy Q) {render : Text → m Text}
    (hr : ∀ {inner inner'}, Exchanged H inner inner' →
      Q Text Text (Exchanged H) (render inner) (render inner')) :
    StepsAlike Q (expandStep render) H H := by
  intro b b' _ hhead hinner htail
  refine hQ.sequence (hr hinner) fun rendered rendered' hrendered => ?_
  exact hQ.result ⟨Nat.le_add_left _ _, hhead.append hrendered, htail⟩

end Walks

/-! ## 4. Conditions that are dropped -/

section Dropped

variable {m : Type → Type v} [Monad m] {decision : List Text → m Bool}

/-- Two contents begin and end alike, as far as the lines around them are concerned. -/
structure SameEdges (c c' : Text) : Prop where
  opensBlank : c.opensBlank = c'.opensBlank
  closesBlank : c.closesBlank = c'.closesBlank
  feed : '\n' ∈ c ↔ '\n' ∈ c'
  indent : '\n' ∈ c → leadingIndent c = leadingIndent c'

/-- **A block of a family that is dropped**: its end marker closes its start marker, and what that captures
    is not kept. -/
structure Dropped (f : BlockFamily) (drops : List Text → Prop) (k : Markers) (c : Text) : Prop where
  opens : f.isOpening (.placeholder k.opening) = true
  closes : f.isClosing (.placeholder k.closing) = true
  inside : Balanced f (tokenize c)
  denied : ∀ cs, f.opens.captures (Text.trim k.opening) = some cs → drops cs

/-- Contents that begin and end alike, of blocks that are dropped. -/
def DroppedContents (f : BlockFamily) (drops : List Text → Prop) : Exchange := fun k c c' =>
  Dropped f drops k c ∧ Dropped f drops k c' ∧ SameEdges c c'

/-- The decision is no, whatever is asked for to make it. -/
def Denies (decision : List Text → m Bool) (cs : List Text) : Prop :=
  decision cs = decision cs >>= fun _ => pure false

/-- Steps that cannot be told apart by what follows, if that does not tell their results apart. -/
def Indistinct (α β : Type) (R : α → β → Prop) (x : m α) (y : m β) : Prop :=
  ∀ ⦃γ : Type⦄ (f : α → m γ) (g : β → m γ), (∀ a b, R a b → f a = g b) → x >>= f = y >>= g

theorem pairedBy_indistinct [LawfulMonad m] : PairedBy (m := m) Indistinct where
  result hab γ f g h := by
    rw [pure_bind, pure_bind]
    exact h _ _ hab
  sequence hx hf γ f g h := by
    rw [bind_assoc, bind_assoc]
    exact hx _ _ fun a b hab => hf a b hab f g h

theorem indistinct_self {α : Type} (x : m α) : Indistinct α α Eq x x :=
  fun _ _ _ h => congrArg (x >>= ·) (funext fun a => h a a rfl)

theorem Dropped.mono {drops drops' : List Text → Prop} {k : Markers} {c : Text}
    (h : Dropped f drops k c) (hd : ∀ cs, drops cs → drops' cs) : Dropped f drops' k c :=
  { h with denied := fun cs hcs => hd cs (h.denied cs hcs) }

theorem Dropped.balanced {drops : List Text → Prop} {k : Markers} {c : Text}
    (h : Dropped f drops k c) : Balanced f (k.tokens c) := .block h.opens h.inside h.closes .nil

/-- The walk goes past a block that is dropped. -/
theorem Dropped.keepFrom_eq [LawfulMonad m] {k : Markers} {c : Text} (h : Dropped f (Denies decision) k c)
    (before z : Text) :
    ∃ cs, f.opens.captures (Text.trim k.opening) = some cs ∧
      keepFrom f decision before (k.around c ++ z) = (do
        let _ ← decision cs
        keepFrom f decision (if opensLine before c then before.aheadOfLine else before)
          (if closesLine c z then z.behindLine else z)) := by
  have hclose : findClose f 0 (tokenize c ++ .placeholder k.closing :: tokenize z) =
      some ⟨tokenize c, .placeholder k.closing, tokenize z⟩ := by
    rw [findClose_append_of_balanced h.inside, findClose_of_closing h.closes, Option.map_some,
      List.append_nil]
  obtain ⟨cs, hcs, hfound⟩ := findBlock_cons_of_closed h.opens hclose
  refine ⟨cs, hcs, ?_⟩
  have htokens : tokenize (k.around c ++ z) =
      .placeholder k.opening :: (tokenize c ++ .placeholder k.closing :: tokenize z) := by
    rw [Markers.tokenize_around_append]
    simp [Markers.tokens]
  rw [← htokens] at hfound
  obtain ⟨hcaptures, hhead, -, htail⟩ := Block.ofMatch_eq before (m := ⟨cs, [], .placeholder k.opening,
    tokenize c, .placeholder k.closing, tokenize z⟩) rfl rfl
  dsimp only at hcaptures hhead htail
  rw [sourceOf_nil, List.append_nil, source_tokenize] at hhead
  rw [source_tokenize, source_tokenize] at htail
  rw [(walksBy_keepFrom f decision).goes hfound]
  unfold keepStep
  rw [hcaptures, hhead, htail, h.denied cs hcs]
  simp only [bind_assoc, pure_bind, Bool.false_eq_true, if_false]

/-- **A condition that is dropped leaves nothing of its content**: what it held is not in the text any more
    and nothing was asked for it. -/
theorem keepBlocksM_dropped [LawfulMonad m] {t t' : Text}
    (hH : ∀ {k c c'}, H k c c' → DroppedContents f (Denies decision) k c c') (h : Exchanged H t t') :
    keepBlocksM f t decision = keepBlocksM f t' decision := by
  have hbalances : H.Balances f := fun hc => ⟨(hH hc).1.balanced, (hH hc).2.1.balanced⟩
  have hgo : Indistinct Text Text (Exchanged fun _ _ _ => False) (keepBlocksM f t decision)
      (keepBlocksM f t' decision) := by
    refine walksAlike pairedBy_indistinct (walksBy_keepFrom f decision) hbalances
      (stepsAlike_keep pairedBy_indistinct fun cs => indistinct_self _) ?_ t.length
      (Nat.le_refl _) (.same []) h
    intro k c c' hc before before' z z' ih hb hz
    obtain ⟨hdrop, hdrop', hedges⟩ := hH hc
    obtain rfl := hb.eq_of_none fun _ _ _ h => h
    obtain ⟨cs, hcs, heq⟩ := hdrop.keepFrom_eq before z
    obtain ⟨cs', hcs', heq'⟩ := hdrop'.keepFrom_eq before z'
    obtain rfl := Option.some.inj (hcs.symm.trans hcs')
    have hopens : opensLine before c' = opensLine before c := by
      unfold opensLine
      rw [hedges.opensBlank]
    have hcloses : closesLine c' z' = closesLine c z := by
      unfold closesLine
      rw [hedges.closesBlank, hz.firstLine]
    rw [heq, heq', hopens, hcloses]
    have htail : (if closesLine c z then z.behindLine else z).length ≤ z.length ∧
        Exchanged H (if closesLine c z then z.behindLine else z)
          (if closesLine c z then z'.behindLine else z') := by
      split
      · rename_i hline
        refine ⟨?_, hz.behindLine (Bool.and_eq_true_iff.1 hline).2⟩
        unfold Text.behindLine
        rw [List.length_drop]
        exact Nat.sub_le _ _
      · exact ⟨Nat.le_refl _, hz⟩
    exact pairedBy_indistinct.sequence (indistinct_self _) fun _ _ _ => ih htail.1 (.same _) htail.2
  have heq := hgo pure pure fun a b hab => congrArg pure (hab.eq_of_none fun _ _ _ h => h)
  rwa [bind_pure, bind_pure] at heq

end Dropped

/-! ## 5. Contents that are passed over -/

section Shielded

variable {m : Type → Type v} [Monad m] {Q : (α β : Type) → (α → β → Prop) → m α → m β → Prop}

/-- No placeholder in or around the contents has such a name. -/
def Exchange.Lacks (H : Exchange) (P : Text → Prop) : Prop :=
  ∀ {k c c'}, H k c c' → ∀ b, (.placeholder b ∈ k.tokens c ∨ .placeholder b ∈ k.tokens c') →
    ¬ P (Text.trim b)

/-- The name opens or closes blocks of the family. -/
def BlockFamily.marks (f : BlockFamily) (name : Text) : Prop :=
  f.opens.isMatch name = true ∨ f.closes.isMatch name = true

theorem not_marker_of_not_marks {t : Token} (h : ∀ b, t = .placeholder b → ¬ f.marks (Text.trim b)) :
    f.isOpening t = false ∧ f.isClosing t = false := by
  cases t with
  | literal l => exact ⟨rfl, rfl⟩
  | placeholder b =>
    obtain ⟨ho, hc⟩ := not_or.1 (h b rfl)
    exact ⟨Bool.eq_false_iff.2 fun hopens => ho (Bool.and_eq_true_iff.1 hopens).2,
      Bool.eq_false_iff.2 fun hcloses => hc (Bool.and_eq_true_iff.1 hcloses).2⟩

/-- Contents without markers of a family are passed over by a walk. -/
theorem walksAlike_shielded (hQ : PairedBy Q) {step : Block → m (Text × Text)}
    {walk : Text → Text → m Text} (hw : WalksBy f step walk) (hH : H.Lacks f.marks)
    (hstep : StepsAlike Q step H H) (n : Nat) : WalksAlike Q walk H H n := by
  have hmarker : ∀ {k c c'}, H k c c' →
      (∀ t ∈ k.tokens c, f.isOpening t = false ∧ f.isClosing t = false) ∧
        ∀ t ∈ k.tokens c', f.isOpening t = false ∧ f.isClosing t = false := by
    intro k c c' hc
    exact ⟨fun t ht => not_marker_of_not_marks fun b hb => hH hc b (.inl (hb ▸ ht)),
      fun t ht => not_marker_of_not_marks fun b hb => hH hc b (.inr (hb ▸ ht))⟩
  have hpass : ∀ {k : Markers} {c : Text} (before z : Text),
      (∀ t ∈ k.tokens c, f.isOpening t = false ∧ f.isClosing t = false) →
        walk before (k.around c ++ z) = walk (before ++ k.around c) z := by
    intro k c before z hm
    refine hw.append (k.sourceOf_tokens c) ?_
    rw [Markers.tokenize_around_append]
    exact findBlock_of_not_opening (fun t ht => (hm t ht).1) _
  refine walksAlike hQ hw (fun hc => ?_) hstep ?_ n
  · exact ⟨balanced_of_not_marker (hmarker hc).1, balanced_of_not_marker (hmarker hc).2⟩
  · intro k c c' hc before before' z z' ih hb hz
    rw [hpass before z (hmarker hc).1, hpass before' z' (hmarker hc).2]
    have hblock : Exchanged H (k.around c) (k.around c') := by
      have h := Exchanged.swap [] hc (.same [])
      rwa [List.nil_append, List.nil_append, List.append_nil, List.append_nil] at h
    exact ih (Nat.le_refl _) (hb.append hblock) hz

/-- Conditions are settled around contents that have no markers of the family. -/
theorem keepBlocksM_shielded [LawfulMonad m] (hQ : PairedBy Q) (decision : List Text → m Bool)
    (hd : ∀ cs, Q Bool Bool Eq (decision cs) (decision cs)) (hH : H.Lacks f.marks) {t t' : Text}
    (h : Exchanged H t t') :
    Q Text Text (Exchanged H) (keepBlocksM f t decision) (keepBlocksM f t' decision) :=
  walksAlike_shielded hQ (walksBy_keepFrom f decision) hH (stepsAlike_keep hQ hd) t.length
    (Nat.le_refl _) (.same []) h

theorem keepBlocks_shielded (decision : List Text → Bool) (hH : H.Lacks f.marks) {t t' : Text}
    (h : Exchanged H t t') : Exchanged H (keepBlocks f t decision) (keepBlocks f t' decision) :=
  keepBlocksM_shielded pairedBy_id _ (fun _ => rfl) hH h

end Shielded

end RecordExport
