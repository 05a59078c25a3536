import RecordExport.Proofs.Template.Blocks
/-!
# Texts that differ inside blocks

Two texts are EXCHANGED if one comes of the other by putting another content into some of its blocks.
Markers shield what is around a block from what is in it: they have characters that are no padding, and a
placeholder is cut there whatever stands beside it. So what is done to such a text outside of these blocks
is done to the other one too.

* `Exchanged`: the relation between texts, and `Swapped` between their tokens;
* `Exchanged.tokenize`, `Swapped.sourceOf`: each gives the other;
* `Exchanged.behindLine`, `Exchanged.aheadOfLine`: the lines that markers take are the same in both;
* `findBlock_swapped`: a block that begins outside of the exchanged ones is found in both.
-/

namespace RecordExport

/-! ## 1. Blocks as they are written -/

/-- The markers of a block. -/
structure Markers where
  opening : Text
  closing : Text
  isBody_opening : IsBody opening
  isBody_closing : IsBody closing

namespace Markers

/-- The markers around a content. -/
def around (k : Markers) (c : Text) : Text := braced k.opening ++ (c ++ braced k.closing)

/-- The tokens of the markers around a content. -/
def tokens (k : Markers) (c : Text) : List Token :=
  .placeholder k.opening :: (tokenize c ++ [.placeholder k.closing])

theorem tokenize_append_around (a : Text) (k : Markers) (c t : Text) :
    tokenize (a ++ (k.around c ++ t)) = tokenize a ++ (k.tokens c ++ tokenize t) := by
  have hsplit : a ++ (k.around c ++ t) =
      a ++ (braced k.opening ++ (c ++ (braced k.closing ++ t))) := by simp [around]
  rw [hsplit, tokenize_append_braced a k.isBody_opening, tokenize_append_braced c k.isBody_closing]
  simp [tokens]

theorem tokenize_around_append (k : Markers) (c t : Text) :
    tokenize (k.around c ++ t) = k.tokens c ++ tokenize t := by
  have h := tokenize_append_around [] k c t
  rwa [tokenize] at h

theorem tokenize_around (k : Markers) (c : Text) : tokenize (k.around c) = k.tokens c := by
  have h := k.tokenize_around_append c []
  rwa [List.append_nil, tokenize, List.append_nil] at h

theorem sourceOf_tokens (k : Markers) (c : Text) : sourceOf (k.tokens c) = k.around c := by
  simp [tokens, around, Token.source, source_tokenize]

/-- A block ends with a character that is no padding. -/
theorem around_eq_append (k : Markers) (c : Text) : ∃ l, k.around c = l ++ ['}'] :=
  ⟨braced k.opening ++ (c ++ ('{' :: '{' :: (k.closing ++ ['}']))), by simp [around, braced]⟩

end Markers

/-! ## 2. Exchanged contents -/

/-- Which content may be exchanged for which, between these markers. -/
abbrev Exchange := Markers → Text → Text → Prop

/-- **Texts that differ inside blocks.** -/
inductive Exchanged (H : Exchange) : Text → Text → Prop
  | same (a : Text) : Exchanged H a a
  | swap (a : Text) {k : Markers} {c c' t t' : Text} (content : H k c c') (rest : Exchanged H t t') :
      Exchanged H (a ++ (k.around c ++ t)) (a ++ (k.around c' ++ t'))

/-- The tokens of such texts. -/
inductive Swapped (H : Exchange) : List Token → List Token → Prop
  | nil : Swapped H [] []
  | cons (k : Token) {ts ts' : List Token} (rest : Swapped H ts ts') : Swapped H (k :: ts) (k :: ts')
  | swap {k : Markers} {c c' : Text} {ts ts' : List Token} (content : H k c c')
      (rest : Swapped H ts ts') : Swapped H (k.tokens c ++ ts) (k.tokens c' ++ ts')

variable {H : Exchange} {c t t' a a' : Text} {ts ts' us us' : List Token}

theorem Swapped.append_left (ts : List Token) (h : Swapped H us us') :
    Swapped H (ts ++ us) (ts ++ us') := by
  induction ts with
  | nil => exact h
  | cons t ts ih => exact .cons t ih

theorem Swapped.refl (ts : List Token) : Swapped H ts ts := by
  have h := Swapped.append_left ts (Swapped.nil (H := H))
  rwa [List.append_nil] at h

theorem Exchanged.tokenize (h : Exchanged H t t') :
    Swapped H (RecordExport.tokenize t) (RecordExport.tokenize t') := by
  induction h with
  | same a => exact .refl _
  | swap a content _ ih =>
    rw [Markers.tokenize_append_around, Markers.tokenize_append_around]
    exact (Swapped.swap content ih).append_left _

theorem Exchanged.append_left (a : Text) (h : Exchanged H t t') : Exchanged H (a ++ t) (a ++ t') := by
  cases h with
  | same b => exact .same _
  | swap b content rest =>
    rw [← List.append_assoc, ← List.append_assoc a b]
    exact .swap (a ++ b) content rest

theorem Exchanged.append (ha : Exchanged H a a') (ht : Exchanged H t t') :
    Exchanged H (a ++ t) (a' ++ t') := by
  induction ha with
  | same a => exact ht.append_left a
  | swap a content _ ih =>
    simp only [List.append_assoc]
    exact .swap a content ih

theorem Swapped.sourceOf (h : Swapped H ts ts') :
    Exchanged H (RecordExport.sourceOf ts) (RecordExport.sourceOf ts') := by
  induction h with
  | nil => exact .same _
  | cons k _ ih => exact ih.append_left k.source
  | swap content _ ih =>
    rw [sourceOf_append, sourceOf_append, Markers.sourceOf_tokens, Markers.sourceOf_tokens]
    exact .swap [] content ih

/-- Where nothing may be exchanged the texts are the same. -/
theorem Exchanged.eq_of_none (hH : ∀ k c c', ¬ H k c c') (h : Exchanged H t t') : t = t' := by
  cases h with
  | same a => rfl
  | swap a content _ => exact absurd content (hH _ _ _)

/-! ## 3. Lines -/

namespace Markers

theorem opensBlank_append_around (a : Text) (k : Markers) (z : Text) :
    (a ++ (k.around c ++ z)).opensBlank = a.opensBlank :=
  Text.opensBlank_append rfl (by decide)

theorem firstLine_append_around (a : Text) (k : Markers) (z : Text) :
    (Text.firstLine (a ++ (k.around c ++ z))).all isPadding = a.opensBlank :=
  Text.firstLine_padding_append rfl (by decide)

theorem append_around_append (a : Text) (k : Markers) (c : Text) :
    ∃ l, ∀ z, a ++ (k.around c ++ z) = l ++ '}' :: z := by
  obtain ⟨l, hl⟩ := k.around_eq_append c
  exact ⟨a ++ l, fun z => by rw [hl]; simp⟩

theorem closesBlank_append_around (a : Text) (k : Markers) (z : Text) :
    (a ++ (k.around c ++ z)).closesBlank = z.closesBlank := by
  obtain ⟨l, hl⟩ := append_around_append a k c
  rw [hl, Text.closesBlank_append rfl (by decide)]

theorem lastLine_append_around (a : Text) (k : Markers) (z : Text) :
    (Text.lastLine (a ++ (k.around c ++ z))).all isPadding = z.closesBlank := by
  obtain ⟨l, hl⟩ := append_around_append a k c
  rw [hl, Text.lastLine_padding_append rfl (by decide)]

end Markers

namespace Exchanged

theorem opensBlank (h : Exchanged H t t') : t.opensBlank = t'.opensBlank := by
  cases h with
  | same a => rfl
  | swap a => rw [Markers.opensBlank_append_around, Markers.opensBlank_append_around]

theorem firstLine (h : Exchanged H t t') :
    (Text.firstLine t).all isPadding = (Text.firstLine t').all isPadding := by
  cases h with
  | same a => rfl
  | swap a => rw [Markers.firstLine_append_around, Markers.firstLine_append_around]

theorem behindLine (h : Exchanged H t t') (hp : (Text.firstLine t).all isPadding = true) :
    Exchanged H t.behindLine t'.behindLine := by
  cases h with
  | same a => exact .same _
  | swap a content rest =>
    rw [Markers.firstLine_append_around] at hp
    have hn := Text.mem_of_opensBlank hp
    rw [(Text.firstLine_append_of_mem hn _).2, (Text.firstLine_append_of_mem hn _).2]
    exact .swap _ content rest

theorem closesBlank (h : Exchanged H t t') : t.closesBlank = t'.closesBlank := by
  induction h with
  | same a => rfl
  | swap a _ _ ih => rw [Markers.closesBlank_append_around, Markers.closesBlank_append_around, ih]

theorem lastLine (h : Exchanged H t t') :
    (Text.lastLine t).all isPadding = (Text.lastLine t').all isPadding := by
  cases h with
  | same a => rfl
  | swap a _ rest =>
    rw [Markers.lastLine_append_around, Markers.lastLine_append_around, rest.closesBlank]

theorem aheadOfLine (h : Exchanged H t t') (hp : (Text.lastLine t).all isPadding = true) :
    Exchanged H t.aheadOfLine t'.aheadOfLine := by
  induction h with
  | same a => exact .same _
  | @swap a k c c' t t' content rest ih =>
    rw [Markers.lastLine_append_around] at hp
    have hn := Text.mem_of_closesBlank hp
    have hn' := Text.mem_of_closesBlank (rest.closesBlank.symm.trans hp)
    have hsplit : ∀ c z, a ++ (k.around c ++ z) = (a ++ k.around c) ++ z := fun c z => by simp
    rw [hsplit, hsplit, (Text.lastLine_append_of_mem hn _).2, (Text.lastLine_append_of_mem hn' _).2,
      List.append_assoc, List.append_assoc]
    exact .swap a content (ih (Bool.and_eq_true_iff.1 hp).2)

end Exchanged

/-! ## 4. Blocks that are found -/

/-- Markers of a family close each other in every block whose content is exchanged. -/
def Exchange.Balances (H : Exchange) (f : BlockFamily) : Prop :=
  ∀ {k c c'}, H k c c' → Balanced f (k.tokens c) ∧ Balanced f (k.tokens c')

/-- Tokens cut at the same end marker. -/
structure SwappedClose (H : Exchange) (m m' : CloseMatch) : Prop where
  inner : Swapped H m.inner m'.inner
  marker : m.marker = m'.marker
  right : Swapped H m.right m'.right

/-- The same block, which begins in front of the exchanged ones. -/
structure SwappedBlock (H : Exchange) (m m' : BlockMatch) : Prop where
  captures : m.captures = m'.captures
  left : m.left = m'.left
  opening : m.opening = m'.opening
  inner : Swapped H m.inner m'.inner
  closing : m.closing = m'.closing
  right : Swapped H m.right m'.right

variable {f : BlockFamily}

/-- **An end marker is found in both.** -/
theorem findClose_swapped (hH : H.Balances f) (h : Swapped H ts ts') (depth : Nat) :
    Option.Rel (SwappedClose H) (findClose f depth ts) (findClose f depth ts') := by
  have hmap : ∀ {x x' : Option CloseMatch} {us us' : List Token},
      (∀ {ts ts'}, Swapped H ts ts' → Swapped H (us ++ ts) (us' ++ ts')) →
      Option.Rel (SwappedClose H) x x' →
      Option.Rel (SwappedClose H) (x.map fun m => { m with inner := us ++ m.inner })
        (x'.map fun m => { m with inner := us' ++ m.inner }) := by
    rintro x x' us us' hus (⟨hm⟩ | -)
    · exact .some ⟨hus hm.inner, hm.marker, hm.right⟩
    · exact .none
  induction h generalizing depth with
  | nil => exact .none
  | @cons k ts ts' rest ih =>
    have hk : ∀ {ts ts'}, Swapped H ts ts' → Swapped H ([k] ++ ts) ([k] ++ ts') := .cons k
    by_cases ho : f.isOpening k = true
    · rw [findClose_of_opening ho, findClose_of_opening ho]
      exact hmap hk (ih _)
    · by_cases hc : f.isClosing k = true
      · cases depth with
        | zero =>
          rw [findClose_of_closing hc, findClose_of_closing hc]
          exact .some ⟨.nil, rfl, rest⟩
        | succ depth =>
          rw [findClose_of_closing_succ hc, findClose_of_closing_succ hc]
          exact hmap hk (ih _)
      · rw [findClose_of_other (Bool.eq_false_iff.2 ho) (Bool.eq_false_iff.2 hc),
          findClose_of_other (Bool.eq_false_iff.2 ho) (Bool.eq_false_iff.2 hc)]
        exact hmap hk (ih _)
  | swap content _ ih =>
    rw [findClose_append_of_balanced (hH content).1, findClose_append_of_balanced (hH content).2]
    exact hmap (.swap content) (ih _)

/-- **A block that begins in front of the exchanged ones is found in both**, or else the first one is
    found further on. -/
theorem findBlock_swapped (hH : H.Balances f) (ts : List Token) (h : Swapped H us us') :
    (∃ m m', findBlock f (ts ++ us) = some m ∧ findBlock f (ts ++ us') = some m' ∧
        SwappedBlock H m m') ∨
      (findBlock f (ts ++ us) = (findBlock f us).map (.behind ts) ∧
        findBlock f (ts ++ us') = (findBlock f us').map (.behind ts)) := by
  induction ts with
  | nil => exact .inr ⟨Option.map_id'.symm, Option.map_id'.symm⟩
  | cons k ts ih =>
    have hskip : ∀ us, (f.isOpening k = false ∨ findClose f 0 (ts ++ us) = none) →
        findBlock f (k :: (ts ++ us)) = (findBlock f (ts ++ us)).map (.behind [k]) :=
      fun us => findBlock_cons_of_open
    have hfurther : (f.isOpening k = false ∨ findClose f 0 (ts ++ us) = none) →
        (f.isOpening k = false ∨ findClose f 0 (ts ++ us') = none) →
        (∃ m m', findBlock f (k :: (ts ++ us)) = some m ∧ findBlock f (k :: (ts ++ us')) = some m' ∧
            SwappedBlock H m m') ∨
          (findBlock f (k :: (ts ++ us)) = (findBlock f us).map (.behind (k :: ts)) ∧
            findBlock f (k :: (ts ++ us')) = (findBlock f us').map (.behind (k :: ts))) := by
      intro ho ho'
      rw [hskip us ho, hskip us' ho']
      rcases ih with ⟨m, m', hm, hm', hmm⟩ | ⟨hm, hm'⟩
      · refine .inl ⟨_, _, by rw [hm]; rfl, by rw [hm']; rfl, ?_⟩
        exact { hmm with left := congrArg ([k] ++ ·) hmm.left }
      · refine .inr ?_
        rw [hm, hm', Option.map_map, Option.map_map]
        exact ⟨rfl, rfl⟩
    by_cases ho : f.isOpening k = true
    · have hclose := findClose_swapped hH (h.append_left ts) 0
      cases hfound : findClose f 0 (ts ++ us) with
      | none =>
        cases hfound' : findClose f 0 (ts ++ us') with
        | none => exact hfurther (.inr hfound) (.inr hfound')
        | some m' =>
          rw [hfound, hfound'] at hclose
          cases hclose
      | some m =>
        cases hfound' : findClose f 0 (ts ++ us') with
        | none =>
          rw [hfound, hfound'] at hclose
          cases hclose
        | some m' =>
          rw [hfound, hfound'] at hclose
          obtain ⟨hm⟩ := hclose
          obtain ⟨cs, hcs, hb⟩ := findBlock_cons_of_closed ho hfound
          obtain ⟨cs', hcs', hb'⟩ := findBlock_cons_of_closed ho hfound'
          refine .inl ⟨_, _, hb, hb', ?_⟩
          exact ⟨Option.some.inj (hcs.symm.trans hcs'), rfl, rfl, hm.inner, hm.marker, hm.right⟩
    · have ho := Bool.eq_false_iff.2 ho
      exact hfurther (.inl ho) (.inl ho)

end RecordExport
