import Mathlib.Data.List.DropRight
import RecordExport.Template.MarkerLine
/-!
# Text that is trimmed and indented

Trimming takes blank lines away and indenting puts blanks in front of lines, so the INK of a text, all of
it that is no white space, stays as it is. What is left of each line is a line that was there before.

* `ink_trimBlankLines`, `ink_applyIndent`: the ink stays;
* `trimBlankLines_lines`, `applyIndent_lines`: so does what holds of every line;
* `trimBlankLines_eq`: trimming works on either end by itself, and ink bounds it (`trimFront_append`,
  `trimBack_append`);
* `infix_trimBlankLines`: a trimmed text is a part of the text, so it has nothing in it that the text has not.
-/

namespace RecordExport

variable {c : Char} {t : Text}

/-! ## 1. Ink -/

/-- A text without its white space. -/
def ink (t : Text) : Text := t.filter fun c => !isBlank c

theorem ink_of_allBlank (h : Text.allBlank t = true) : ink t = [] := by
  refine List.filter_eq_nil_iff.2 fun c hc => ?_
  rw [List.all_eq_true.1 h c hc]
  exact Bool.false_ne_true

theorem allBlank_iff_ink : Text.allBlank t = true ↔ ink t = [] := by
  refine ⟨ink_of_allBlank, fun h => List.all_eq_true.2 fun c hc => ?_⟩
  simpa using List.filter_eq_nil_iff.1 h c hc

theorem ink_append (s t : Text) : ink (s ++ t) = ink s ++ ink t := List.filter_append _ _

theorem ink_joinLines (ls : List Text) : ink (joinLines ls) = ls.flatMap ink := by
  induction ls with
  | nil => rfl
  | cons l ls ih =>
    cases ls with
    | nil => exact (List.append_nil _).symm
    | cons m ms =>
      have hfeed : ink ('\n' :: joinLines (m :: ms)) = ink (joinLines (m :: ms)) := rfl
      show ink (l ++ '\n' :: joinLines (m :: ms)) = ink l ++ (m :: ms).flatMap ink
      rw [ink_append, hfeed, ih]

theorem flatMap_ink_dropWhile (ls : List Text) :
    (ls.dropWhile Text.allBlank).flatMap ink = ls.flatMap ink := by
  induction ls with
  | nil => rfl
  | cons l ls ih =>
    by_cases hl : Text.allBlank l = true
    · rw [List.dropWhile_cons_of_pos hl, List.flatMap_cons, ih, ink_of_allBlank hl]
      rfl
    · rw [List.dropWhile_cons_of_neg hl]

theorem flatMap_ink_reverse_dropWhile (ls : List Text) :
    ((ls.reverse.dropWhile Text.allBlank).reverse).flatMap ink = ls.flatMap ink := by
  have hsplit := List.takeWhile_append_dropWhile (p := Text.allBlank) (l := ls.reverse)
  have hlines : ls = (ls.reverse.dropWhile Text.allBlank).reverse ++
      (ls.reverse.takeWhile Text.allBlank).reverse := by
    rw [← List.reverse_append, hsplit, List.reverse_reverse]
  have hblank : ((ls.reverse.takeWhile Text.allBlank).reverse).flatMap ink = [] := by
    refine List.flatMap_eq_nil_iff.2 fun l hl => ink_of_allBlank ?_
    exact List.all_eq_true.1 List.all_takeWhile l (List.mem_reverse.1 hl)
  conv => rhs; rw [hlines, List.flatMap_append, hblank, List.append_nil]

/-- **Trimming keeps the ink.** -/
theorem ink_trimBlankLines (t : Text) : ink (trimBlankLines t) = ink t := by
  unfold trimBlankLines
  dsimp only
  rw [ink_joinLines, flatMap_ink_reverse_dropWhile, flatMap_ink_dropWhile, ← ink_joinLines,
    joinLines_splitLines]

/-- **Indenting keeps the ink.** -/
theorem ink_applyIndent {indent : Text} (h : Text.allBlank indent = true) (t : Text) :
    ink (applyIndent indent t) = ink t := by
  have hline : ∀ l, ink (if Text.allBlank l then l else indent ++ l) = ink l := by
    intro l
    split
    · rfl
    · rw [ink_append, ink_of_allBlank h, List.nil_append]
  have hlines := congrArg ink (joinLines_splitLines t)
  unfold applyIndent
  split
  · rename_i hs
    exact absurd hs (splitLines_ne_nil t)
  · rename_i l ls hs
    rw [hs, ink_joinLines, List.flatMap_cons] at hlines
    rw [ink_joinLines, List.flatMap_cons, List.flatMap_map]
    simp only [hline]
    exact hlines

/-- The last character of a text is the last of its ink, or white space. -/
theorem getLast?_ink (h : t.getLast? = some c) (hc : isBlank c = false) :
    (ink t).getLast? = some c := by
  obtain ⟨l, rfl⟩ := List.getLast?_eq_some_iff.1 h
  have hone : ink [c] = [c] := List.filter_cons_of_pos (by rw [hc]; rfl)
  rw [ink_append, hone, List.getLast?_concat]

theorem allBlank_leadingIndent (left : Text) : Text.allBlank (leadingIndent left) = true := by
  refine List.all_eq_true.2 fun c hc => ?_
  have hindent := List.all_eq_true.1 List.all_takeWhile c hc
  rcases Bool.or_eq_true_iff.1 hindent with h | h
  · rw [of_decide_eq_true h]
    rfl
  · rw [of_decide_eq_true h]
    rfl

/-- Trimming and indenting a value adds nothing but white space. -/
theorem not_mem_fitted {left : Text} (hc : isBlank c = false) (h : c ∉ t) :
    c ∉ applyIndent (leadingIndent left) (trimBlankLines t) := by
  have hkept : ink (applyIndent (leadingIndent left) (trimBlankLines t)) = ink t := by
    rw [ink_applyIndent (allBlank_leadingIndent left), ink_trimBlankLines]
  intro hm
  have hink : c ∈ ink t := hkept ▸ List.mem_filter.2 ⟨hm, by rw [hc]; rfl⟩
  exact h (List.mem_of_mem_filter hink)

/-! ## 2. Lines -/

/-- What holds of lines that are joined holds of the lines of a trimmed text. -/
theorem trimBlankLines_lines {P : Text → Prop} (h : ∀ l ∈ splitLines t, P l) :
    ∃ ls, trimBlankLines t = joinLines ls ∧ ∀ l ∈ ls, P l := by
  refine ⟨_, rfl, fun l hl => h l ?_⟩
  have hkept := (List.dropWhile_sublist _).mem (List.mem_reverse.1 hl)
  exact (List.dropWhile_sublist _).mem (List.mem_reverse.1 hkept)

/-- What holds of lines as they are and indented holds of the lines of an indented text. -/
theorem applyIndent_lines {P : Text → Prop} (indent : Text) (h : ∀ l ∈ splitLines t, P l)
    (hindent : ∀ l, P l → P (indent ++ l)) :
    ∃ ls, applyIndent indent t = joinLines ls ∧ ∀ l ∈ ls, P l := by
  unfold applyIndent
  split
  · exact ⟨[], rfl, fun _ hl => by cases hl⟩
  · rename_i l ls hs
    rw [hs] at h
    refine ⟨_, rfl, fun m hm => ?_⟩
    rcases List.mem_cons.1 hm with rfl | hm
    · exact h _ List.mem_cons_self
    · obtain ⟨m, hmem, rfl⟩ := List.mem_map.1 hm
      have hP := h m (List.mem_cons_of_mem _ hmem)
      split
      · exact hP
      · exact hindent m hP

/-! ## 3. Ends -/

/-- Texts put together have their lines, of which two are joined. -/
theorem splitLines_append {a r l m : Text} (as : List Text) {ms : List Text} (ha : splitLines a = as ++ [l])
    (hr : splitLines r = m :: ms) : splitLines (a ++ r) = as ++ (l ++ m) :: ms := by
  induction a generalizing as l with
  | nil =>
    have hone : as ++ [l] = [[]] := ha.symm
    obtain ⟨rfl, rfl⟩ : as = [] ∧ l = [] := by
      cases as with
      | nil => exact ⟨rfl, (List.cons.inj hone).1⟩
      | cons x as => simp at hone
    exact hr
  | cons c a ih =>
    rw [List.cons_append]
    unfold splitLines at ha ⊢
    by_cases hc : c = '\n'
    · rw [if_pos hc] at ha ⊢
      cases as with
      | nil => exact absurd (List.cons.inj ha).2 (splitLines_ne_nil a)
      | cons x as =>
        obtain ⟨rfl, hrest⟩ := List.cons.inj ha
        exact congrArg ([] :: ·) (ih as hrest)
    · rw [if_neg hc] at ha ⊢
      cases hs : splitLines a with
      | nil => exact absurd hs (splitLines_ne_nil a)
      | cons x xs =>
        rw [hs] at ha
        cases as with
        | nil =>
          obtain ⟨rfl, rfl⟩ := List.cons.inj ha
          rw [ih [] (l := x) hs]
          rfl
        | cons y as =>
          obtain ⟨rfl, rfl⟩ := List.cons.inj ha
          rw [ih (x :: as) hs]
          rfl

theorem splitLines_singleton (hc : c ≠ '\n') : splitLines [c] = [[c]] := by
  unfold splitLines
  rw [if_neg hc]
  rfl

theorem splitLines_cons (hc : c ≠ '\n') {m : Text} {ms : List Text} (ht : splitLines t = m :: ms) :
    splitLines (c :: t) = (c :: m) :: ms := splitLines_append [] (splitLines_singleton hc) ht

theorem joinLines_append (as : List Text) (l m : Text) (ms : List Text) :
    joinLines (as ++ (l ++ m) :: ms) = joinLines (as ++ [l]) ++ joinLines (m :: ms) := by
  induction as with
  | nil => cases ms <;> simp [joinLines]
  | cons x as ih =>
    have hcons : ∀ {ls : List Text}, ls ≠ [] → joinLines (x :: ls) = x ++ '\n' :: joinLines ls := by
      intro ls hls
      cases ls with
      | nil => exact absurd rfl hls
      | cons y ls => rfl
    rw [List.cons_append, List.cons_append, hcons (by simp), hcons (by simp), ih]
    simp

/-- The text without the blank lines it begins with. -/
def trimFront (t : Text) : Text := joinLines ((splitLines t).dropWhile Text.allBlank)

/-- The text without the blank lines it ends with. -/
def trimBack (t : Text) : Text := joinLines ((splitLines t).rdropWhile Text.allBlank)

/-- The same for text that stands behind other text on its first line. -/
def trimBehind (t : Text) : Text :=
  match splitLines t with
  | [] => []
  | l :: ls => joinLines (l :: ls.rdropWhile Text.allBlank)

theorem splitLines_joinLines {ls : List Text} (hne : ls ≠ []) (h : ∀ l ∈ ls, '\n' ∉ l) :
    splitLines (joinLines ls) = ls := by
  induction ls with
  | nil => exact absurd rfl hne
  | cons l ls ih =>
    have hplain : ∀ {l : Text}, '\n' ∉ l → splitLines l = [l] := by
      intro l hl
      induction l with
      | nil => rfl
      | cons c l ihl =>
        exact splitLines_cons (fun hc => hl (hc ▸ List.mem_cons_self))
          (ihl fun hm => hl (List.mem_cons_of_mem _ hm))
    have hl := hplain (h l List.mem_cons_self)
    cases ls with
    | nil => exact hl
    | cons m ms =>
      have hrest := ih (List.cons_ne_nil _ _) fun l hl => h l (List.mem_cons_of_mem _ hl)
      have hfeed : splitLines ('\n' :: joinLines (m :: ms)) = [] :: m :: ms := by
        rw [splitLines, if_pos rfl, hrest]
      have happend := splitLines_append [] hl hfeed
      rwa [List.append_nil] at happend

theorem splitLines_of_not_mem (h : '\n' ∉ t) : splitLines t = [t] := by
  have hlines : ∀ l ∈ [t], '\n' ∉ l := by simpa using h
  exact splitLines_joinLines (List.cons_ne_nil t []) hlines

/-- A text on one line is trimmed to nothing, or not at all. -/
theorem trimBlankLines_of_not_mem (h : '\n' ∉ t) : trimBlankLines t = if Text.allBlank t then [] else t := by
  unfold trimBlankLines
  rw [splitLines_of_not_mem h]
  split
  · rename_i hblank
    simp [hblank, joinLines]
  · rename_i hblank
    simp [hblank, joinLines]

theorem not_mem_of_mem_splitLines {l : Text} (hl : l ∈ splitLines t) : '\n' ∉ l := by
  induction t generalizing l with
  | nil =>
    obtain rfl := List.mem_singleton.1 hl
    exact List.not_mem_nil
  | cons c t ih =>
    unfold splitLines at hl
    split at hl
    · rcases List.mem_cons.1 hl with rfl | hl
      · exact List.not_mem_nil
      · exact ih hl
    · rename_i hc
      split at hl
      · rename_i m ms hs
        rcases List.mem_cons.1 hl with rfl | hl
        · intro hm
          rcases List.mem_cons.1 hm with heq | hm
          · exact hc heq.symm
          · exact ih (hs ▸ List.mem_cons_self) hm
        · exact ih (hs ▸ List.mem_cons_of_mem _ hl)
      · rename_i hs
        exact absurd hs (splitLines_ne_nil t)

/-- **Trimming works on either end by itself.** -/
theorem trimBlankLines_eq (t : Text) : trimBlankLines t = trimBack (trimFront t) := by
  unfold trimBack trimFront
  by_cases hne : (splitLines t).dropWhile Text.allBlank = []
  · have hempty : (splitLines (joinLines [])).rdropWhile Text.allBlank = [] := rfl
    unfold trimBlankLines
    dsimp only
    rw [hne, hempty]
    rfl
  · rw [splitLines_joinLines hne fun l hl =>
      not_mem_of_mem_splitLines ((List.dropWhile_sublist _).mem hl)]
    rfl

theorem allBlank_of_mem {l : Text} (h : c ∈ l) (hc : isBlank c = false) : Text.allBlank l = false :=
  Bool.eq_false_iff.2 fun hall => Bool.false_ne_true (hc.symm.trans (List.all_eq_true.1 hall c h))

theorem ne_feed (hc : isBlank c = false) : c ≠ '\n' := by
  rintro rfl
  cases hc

theorem exists_splitLines (t : Text) : ∃ as l, splitLines t = as ++ [l] :=
  ⟨_, _, (List.dropLast_append_getLast (splitLines_ne_nil t)).symm⟩

/-- What goes at the front depends on what stands before the first ink. -/
theorem trimFront_append (a : Text) :
    ∃ a₁, ∀ c r, isBlank c = false → trimFront (a ++ c :: r) = a₁ ++ c :: r := by
  obtain ⟨as, l, ha⟩ := exists_splitLines a
  refine ⟨joinLines (as.dropWhile Text.allBlank ++ [l]), fun c r hc => ?_⟩
  obtain ⟨m, ms, hr⟩ := List.exists_cons_of_ne_nil (splitLines_ne_nil r)
  have hink : Text.allBlank (l ++ c :: m) = false :=
    allBlank_of_mem (List.mem_append_right _ List.mem_cons_self) hc
  have hrest : joinLines ((c :: m) :: ms) = c :: r := by
    rw [← splitLines_cons (ne_feed hc) hr, joinLines_splitLines]
  unfold trimFront
  rw [splitLines_append _ ha (splitLines_cons (ne_feed hc) hr), ← hrest, ← joinLines_append]
  congr 1
  rw [List.dropWhile_append]
  split
  · rename_i hempty
    rw [List.isEmpty_iff.1 hempty, List.dropWhile_cons_of_neg (by rw [hink]; exact Bool.false_ne_true)]
    rfl
  · rfl

theorem rdropWhile_append (ls : List Text) {l : Text} (hl : Text.allBlank l = false) (ms : List Text) :
    (ls ++ l :: ms).rdropWhile Text.allBlank = ls ++ l :: ms.rdropWhile Text.allBlank := by
  unfold List.rdropWhile
  have hstop : ∀ ls : List Text, (l :: ls).dropWhile Text.allBlank = l :: ls := fun ls =>
    List.dropWhile_cons_of_neg (by rw [hl]; exact Bool.false_ne_true)
  rw [List.reverse_append, List.reverse_cons, List.append_assoc, List.dropWhile_append]
  split
  · rename_i hempty
    rw [List.isEmpty_iff.1 hempty, List.singleton_append, hstop]
    simp
  · simp

/-- What goes at the back depends on what stands behind the last ink. -/
theorem trimBack_append (a r : Text) (hc : isBlank c = false) :
    trimBack (a ++ c :: r) = a ++ c :: trimBehind r ∧
      trimBehind (a ++ c :: r) = a ++ c :: trimBehind r := by
  obtain ⟨as, l, ha⟩ := exists_splitLines a
  obtain ⟨m, ms, hr⟩ := List.exists_cons_of_ne_nil (splitLines_ne_nil r)
  have hink : Text.allBlank ((l ++ [c]) ++ m) = false :=
    allBlank_of_mem (List.mem_append_left _ (List.mem_append_right _ List.mem_cons_self)) hc
  have hfront : splitLines (a ++ [c]) = as ++ [l ++ [c]] :=
    splitLines_append _ ha (splitLines_singleton (ne_feed hc))
  have hlines : splitLines (a ++ c :: r) = as ++ ((l ++ [c]) ++ m) :: ms := by
    have hsplit : a ++ c :: r = (a ++ [c]) ++ r := by simp
    rw [hsplit, splitLines_append _ hfront hr]
  have hbehind : trimBehind r = joinLines (m :: ms.rdropWhile Text.allBlank) := by
    unfold trimBehind
    rw [hr]
  have hjoin : joinLines (as ++ ((l ++ [c]) ++ m) :: ms.rdropWhile Text.allBlank) =
      a ++ c :: trimBehind r := by
    rw [joinLines_append, ← hfront, joinLines_splitLines, hbehind]
    simp
  constructor
  · unfold trimBack
    rw [hlines, rdropWhile_append as hink, hjoin]
  · unfold trimBehind
    rw [hlines]
    cases as with
    | nil => exact hjoin
    | cons x as =>
      rw [List.cons_append] at hjoin ⊢
      dsimp only
      rw [rdropWhile_append as hink]
      exact hjoin

/-! ## 4. A trimmed text is a part of it -/

/-- Lines are left out of a text at its front. -/
theorem joinLines_suffix {ls ms : List Text} (h : ms <:+ ls) : joinLines ms <:+ joinLines ls := by
  induction ls with
  | nil =>
    obtain rfl := List.suffix_nil.1 h
    exact List.suffix_refl _
  | cons l ls ih =>
    rcases List.suffix_cons_iff.1 h with rfl | h
    · exact List.suffix_refl _
    · cases ls with
      | nil =>
        rw [List.suffix_nil.1 h]
        exact List.nil_suffix
      | cons m ls => exact (ih h).trans ⟨l ++ ['\n'], by simp [joinLines]⟩

/-- Lines are left out of a text at its end. -/
theorem joinLines_prefix {ls ms : List Text} (h : ms <+: ls) : joinLines ms <+: joinLines ls := by
  obtain ⟨rest, rfl⟩ := h
  induction ms with
  | nil => exact List.nil_prefix
  | cons l ms ih =>
    cases ms with
    | nil =>
      cases rest with
      | nil => exact List.prefix_refl _
      | cons r rest => exact List.prefix_append _ _
    | cons m ms =>
      show l ++ '\n' :: joinLines (m :: ms) <+: l ++ '\n' :: joinLines (m :: ms ++ rest)
      exact (List.prefix_append_right_inj l).2 (List.cons_prefix_cons.2 ⟨rfl, ih⟩)

/-- **A value without its blank edge lines is a part of it.** -/
theorem infix_trimBlankLines (t : Text) : trimBlankLines t <:+: t := by
  have hfront : trimFront t <:+ t := by
    have h := joinLines_suffix (List.dropWhile_suffix (l := splitLines t) Text.allBlank)
    rwa [joinLines_splitLines] at h
  have hback : trimBack (trimFront t) <+: trimFront t := by
    have h := joinLines_prefix (List.rdropWhile_prefix Text.allBlank (splitLines (trimFront t)))
    rwa [joinLines_splitLines] at h
  rw [trimBlankLines_eq]
  exact hback.isInfix.trans hfront.isInfix

theorem applyIndent_nil (t : Text) : applyIndent [] t = t := by
  have hline : (fun l => if Text.allBlank l then l else [] ++ l) = (id : Text → Text) := by
    funext l
    rw [List.nil_append, ite_self]
    rfl
  have hjoined := joinLines_splitLines t
  obtain ⟨l, ls, hls⟩ := List.exists_cons_of_ne_nil (splitLines_ne_nil t)
  unfold applyIndent
  rw [hls] at hjoined ⊢
  dsimp only
  rw [hline, List.map_id, hjoined]

end RecordExport
