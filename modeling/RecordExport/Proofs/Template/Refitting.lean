import RecordExport.Proofs.Scripts.Sections
/-!
# Text that is fitted again

What one level of an export has trimmed, indented and joined is trimmed, indented and joined again by the level
around it. This file says that the second time adds nothing that the first could not have done at once.

* `Inked`: lines with no blank one at either end; trimmed lines are such, and such lines stay as they are;
* `trimBlankLines_trimBlankLines`, `applyIndent_applyIndent`, `joinItems_joinItems`: the laws of each by itself;
* `applyIndent_trimBlankLines_applyIndent`: a value fitted twice is one fitted with both indents;
* `getLast?_joinItems`: which lists end with a line feed;
* `fitsAgain`: **all of them**, with what is left of the lines.
-/

namespace RecordExport

variable {a t : Text} {ls : List Text}

/-! ## 1. Trimming -/

/-- Neither the first of the lines is blank nor the last. -/
structure Inked (ls : List Text) : Prop where
  first : ∀ l, ls.head? = some l → Text.allBlank l = false
  last : ∀ l, ls.getLast? = some l → Text.allBlank l = false

theorem inked_trimLines (ls : List Text) : Inked (trimLines ls) :=
  ⟨(trimsTo_trimLines ls).first, (trimsTo_trimLines ls).last⟩

theorem Inked.trimLines_eq (h : Inked ls) : trimLines ls = ls := by
  have hfront : ls.dropWhile Text.allBlank = ls := by
    cases ls with
    | nil => rfl
    | cons l ls => exact List.dropWhile_cons_of_neg (Bool.eq_false_iff.1 (h.first l rfl))
  unfold trimLines
  rw [hfront]
  exact List.rdropWhile_eq_self_iff.2 fun hne =>
    Bool.eq_false_iff.1 (h.last _ (List.getLast?_eq_some_getLast hne))

theorem not_mem_of_mem_trimLines {l : Text} (hl : l ∈ trimLines (splitLines t)) : '\n' ∉ l :=
  not_mem_of_mem_splitLines ((trimsTo_trimLines (splitLines t)).subset hl)

theorem trimBlankLines_eq_joinLines (t : Text) : trimBlankLines t = joinLines (trimLines (splitLines t)) := rfl

/-- Lines that are joined have nothing to be trimmed of if no blank one is at an end. -/
theorem Inked.trimBlankLines_joinLines (h : Inked ls) (hno : ∀ l ∈ ls, '\n' ∉ l) :
    trimBlankLines (joinLines ls) = joinLines ls := by
  by_cases hne : ls = []
  · rw [hne]
    rfl
  · rw [trimBlankLines_eq_joinLines, splitLines_joinLines hne hno, h.trimLines_eq]

/-- **A trimmed text stays as it is.** -/
theorem trimBlankLines_trimBlankLines (t : Text) : trimBlankLines (trimBlankLines t) = trimBlankLines t :=
  (inked_trimLines (splitLines t)).trimBlankLines_joinLines fun _ => not_mem_of_mem_trimLines

theorem splitLines_trimBlankLines (h : trimLines (splitLines t) ≠ []) :
    splitLines (trimBlankLines t) = trimLines (splitLines t) :=
  splitLines_joinLines h fun _ => not_mem_of_mem_trimLines

theorem trimBlankLines_eq_nil_iff : trimBlankLines t = [] ↔ Text.allBlank t = true := by
  rw [allBlank_iff_ink, ← ink_trimBlankLines]
  constructor
  · intro h
    rw [h]
    rfl
  · intro h
    -- a line that is left would have ink, and the whole text has none
    rw [trimBlankLines_eq_joinLines, ink_joinLines, List.flatMap_eq_nil_iff] at h
    rw [trimBlankLines_eq_joinLines]
    cases hkept : trimLines (splitLines t) with
    | nil => rfl
    | cons l ls =>
      rw [hkept] at h
      have hblank := allBlank_iff_ink.2 (h l List.mem_cons_self)
      have hink := (inked_trimLines (splitLines t)).first l (by rw [hkept]; rfl)
      exact absurd hblank (Bool.eq_false_iff.1 hink)

/-- **What trimming leaves**: nothing of white space, and of any other text a run of its lines. -/
theorem trimBlankLines_cases (t : Text) :
    Text.allBlank t = true ∧ trimBlankLines t = [] ∨
      ∃ kept, kept ≠ [] ∧ TrimsTo (splitLines t) kept ∧ trimBlankLines t = joinLines kept := by
  by_cases hne : trimLines (splitLines t) = []
  · have hnil : trimBlankLines t = [] := by
      rw [trimBlankLines_eq_joinLines, hne]
      rfl
    exact .inl ⟨trimBlankLines_eq_nil_iff.1 hnil, hnil⟩
  · exact .inr ⟨_, hne, trimsTo_trimLines _, rfl⟩

/-- A line feed more at the end makes no difference. -/
theorem trimBlankLines_concat_feed (t : Text) : trimBlankLines (t ++ ['\n']) = trimBlankLines t := by
  obtain ⟨as, l, ht⟩ := exists_splitLines t
  have hfeed : splitLines ['\n'] = [] :: [[]] := rfl
  have hlines : splitLines (t ++ ['\n']) = splitLines t ++ [[]] := by
    rw [splitLines_append as ht hfeed, ht, List.append_nil, List.append_assoc]
    rfl
  rw [trimBlankLines_eq_joinLines, hlines, trimLines_concat _ rfl]
  rfl

/-- No trimmed text ends with a line feed: without it the text would be trimmed to the same. -/
theorem getLast?_trimBlankLines (t : Text) : (trimBlankLines t).getLast? ≠ some '\n' := by
  intro hfeed
  obtain ⟨s, hs⟩ := List.getLast?_eq_some_iff.1 hfeed
  have hshort : trimBlankLines s = s ++ ['\n'] := by
    rw [← trimBlankLines_concat_feed, ← hs, trimBlankLines_trimBlankLines]
  have hlength := (infix_trimBlankLines s).length_le
  rw [hshort, List.length_append, List.length_singleton] at hlength
  omega

/-! ## 2. Indenting -/

/-- A line behind the first one, indented. -/
def indentLine (indent l : Text) : Text := if Text.allBlank l then l else indent ++ l

/-- Lines with every one behind the first indented. -/
def indentLines (indent : Text) : List Text → List Text
  | [] => []
  | l :: ls => l :: ls.map (indentLine indent)

theorem applyIndent_eq_joinLines (indent t : Text) :
    applyIndent indent t = joinLines (indentLines indent (splitLines t)) := by
  unfold applyIndent
  split
  · rename_i hs
    rw [hs]
    rfl
  · rename_i l ls hs
    rw [hs]
    rfl

theorem allBlank_indentLine (indent l : Text) : Text.allBlank (indentLine indent l) = Text.allBlank l := by
  unfold indentLine
  split
  · rfl
  · rename_i hl
    have hall : Text.allBlank (indent ++ l) = (Text.allBlank indent && Text.allBlank l) := List.all_append
    rw [hall, Bool.eq_false_iff.2 hl, Bool.and_false]

theorem indentLine_indentLine (a b l : Text) : indentLine b (indentLine a l) = indentLine (b ++ a) l := by
  show (if Text.allBlank (indentLine a l) then indentLine a l else b ++ indentLine a l) = _
  rw [allBlank_indentLine]
  unfold indentLine
  split
  · rfl
  · exact (List.append_assoc b a l).symm

theorem indentLines_indentLines (a b : Text) (ls : List Text) :
    indentLines b (indentLines a ls) = indentLines (b ++ a) ls := by
  cases ls with
  | nil => rfl
  | cons l ls =>
    have hlines : ∀ m ∈ ls, (indentLine b ∘ indentLine a) m = indentLine (b ++ a) m :=
      fun m _ => indentLine_indentLine a b m
    show l :: (ls.map (indentLine a)).map (indentLine b) = l :: ls.map (indentLine (b ++ a))
    rw [List.map_map, List.map_congr_left hlines]

theorem not_mem_of_mem_indentLines (ha : '\n' ∉ a) (hno : ∀ l ∈ ls, '\n' ∉ l) :
    ∀ l ∈ indentLines a ls, '\n' ∉ l := by
  cases ls with
  | nil => exact fun _ hl => nomatch hl
  | cons l ls =>
    intro m hm
    rcases List.mem_cons.1 hm with rfl | hm
    · exact hno _ List.mem_cons_self
    · obtain ⟨m, hmem, rfl⟩ := List.mem_map.1 hm
      have hplain := hno m (List.mem_cons_of_mem _ hmem)
      unfold indentLine
      split
      · exact hplain
      · exact fun hfeed => (List.mem_append.1 hfeed).elim ha hplain

/-- An indent on one line makes no lines. -/
theorem splitLines_applyIndent (ha : '\n' ∉ a) (t : Text) :
    splitLines (applyIndent a t) = indentLines a (splitLines t) := by
  rw [applyIndent_eq_joinLines]
  refine splitLines_joinLines ?_ (not_mem_of_mem_indentLines ha fun _ => not_mem_of_mem_splitLines)
  obtain ⟨l, ls, ht⟩ := List.exists_cons_of_ne_nil (splitLines_ne_nil t)
  rw [ht]
  exact List.cons_ne_nil _ _

/-- **What becomes of each line**: the first one and the blank ones stay as they are. -/
theorem getElem?_splitLines_applyIndent (ha : '\n' ∉ a) (t : Text) (n : Nat) :
    (splitLines (applyIndent a t))[n]? =
      (splitLines t)[n]?.map fun l => if n = 0 ∨ Text.allBlank l = true then l else a ++ l := by
  rw [splitLines_applyIndent ha]
  obtain ⟨l, ls, ht⟩ := List.exists_cons_of_ne_nil (splitLines_ne_nil t)
  rw [ht]
  cases n with
  | zero => rfl
  | succ n =>
    show (ls.map (indentLine a))[n]? = _
    rw [List.getElem?_map, List.getElem?_cons_succ]
    simp only [Nat.add_eq_zero_iff, Nat.one_ne_zero, and_false, false_or]
    rfl

/-- **Indenting twice is indenting once**, by the outer indent with the inner one behind it. -/
theorem applyIndent_applyIndent (ha : '\n' ∉ a) (b t : Text) :
    applyIndent b (applyIndent a t) = applyIndent (b ++ a) t := by
  rw [applyIndent_eq_joinLines, splitLines_applyIndent ha, indentLines_indentLines, ← applyIndent_eq_joinLines]

/-- An indent with a line feed makes lines, which the outer indent would move. -/
example :
    applyIndent "b".toList (applyIndent "\n".toList "x\ny".toList) = "x\n\nby".toList ∧
      applyIndent ("b".toList ++ "\n".toList) "x\ny".toList = "x\nb\ny".toList := by
  decide

/-! ## 3. Fitting -/

/-- Indenting leaves a line blank, or not, as it was. -/
theorem map_allBlank_indentLines (indent : Text) (ls : List Text) :
    (indentLines indent ls).map Text.allBlank = ls.map Text.allBlank := by
  cases ls with
  | nil => rfl
  | cons l ls =>
    have hlines : ∀ m ∈ ls, (Text.allBlank ∘ indentLine indent) m = Text.allBlank m :=
      fun m _ => allBlank_indentLine indent m
    show Text.allBlank l :: (ls.map (indentLine indent)).map Text.allBlank = Text.allBlank l :: ls.map Text.allBlank
    rw [List.map_map, List.map_congr_left hlines]

theorem Inked.indented (h : Inked ls) (indent : Text) : Inked (indentLines indent ls) := by
  have hmap := map_allBlank_indentLines indent ls
  constructor
  · intro l hl
    have hhead := congrArg List.head? hmap
    rw [List.head?_map, List.head?_map, hl] at hhead
    obtain ⟨m, hm, hlm⟩ := Option.map_eq_some_iff.1 hhead.symm
    rw [← hlm, h.first m hm]
  · intro l hl
    have hlast := congrArg List.getLast? hmap
    rw [List.getLast?_map, List.getLast?_map, hl] at hlast
    obtain ⟨m, hm, hlm⟩ := Option.map_eq_some_iff.1 hlast.symm
    rw [← hlm, h.last m hm]

/-- A trimmed text that is indented has no blank line at an end. -/
theorem trimBlankLines_applyIndent (ha : '\n' ∉ a) (t : Text) :
    trimBlankLines (applyIndent a (trimBlankLines t)) = applyIndent a (trimBlankLines t) := by
  by_cases hne : trimLines (splitLines t) = []
  · rw [trimBlankLines_eq_joinLines t, hne]
    rfl
  · rw [applyIndent_eq_joinLines, splitLines_trimBlankLines hne]
    exact ((inked_trimLines (splitLines t)).indented a).trimBlankLines_joinLines
      (not_mem_of_mem_indentLines ha fun _ => not_mem_of_mem_trimLines)

/-- **Fitting twice is fitting once**: what is trimmed and indented and then fitted into the text around it is
    as if it had been trimmed and taken both indents. -/
theorem applyIndent_trimBlankLines_applyIndent (ha : '\n' ∉ a) (b t : Text) :
    applyIndent b (trimBlankLines (applyIndent a (trimBlankLines t))) = applyIndent (b ++ a) (trimBlankLines t) := by
  rw [trimBlankLines_applyIndent ha, applyIndent_applyIndent ha]

/-! ## 4. Joining -/

theorem joinItems_eq (items : List Text) :
    joinItems items =
      if trimBlankLines items.flatten ≠ [] ∧ items.flatten.getLast? = some '\n' then
        trimBlankLines items.flatten ++ ['\n']
      else trimBlankLines items.flatten := rfl

theorem joinItems_eq_or (items : List Text) :
    joinItems items = trimBlankLines items.flatten ∨ joinItems items = trimBlankLines items.flatten ++ ['\n'] := by
  rw [joinItems_eq]
  split
  · exact .inr rfl
  · exact .inl rfl

/-- Joined items are trimmed but for a line feed. -/
theorem trimBlankLines_joinItems (items : List Text) :
    trimBlankLines (joinItems items) = trimBlankLines items.flatten := by
  rcases joinItems_eq_or items with h | h
  · rw [h, trimBlankLines_trimBlankLines]
  · rw [h, trimBlankLines_concat_feed, trimBlankLines_trimBlankLines]

/-- **Joined items end with a line feed** if the items do, and are not white space alone. -/
theorem getLast?_joinItems (items : List Text) :
    (joinItems items).getLast? = some '\n' ↔
      items.flatten.getLast? = some '\n' ∧ Text.allBlank items.flatten = false := by
  have hink : trimBlankLines items.flatten ≠ [] ↔ Text.allBlank items.flatten = false := by
    rw [Ne, trimBlankLines_eq_nil_iff, Bool.not_eq_true]
  rw [joinItems_eq]
  split
  · rename_i h
    exact iff_of_true List.getLast?_concat ⟨h.2, hink.1 h.1⟩
  · rename_i h
    exact iff_of_false (getLast?_trimBlankLines _) fun hends => h ⟨hink.2 hends.2, hends.1⟩

/-- **Joined items are joined to themselves.** -/
theorem joinItems_joinItems (items : List Text) : joinItems [joinItems items] = joinItems items := by
  have hsame : trimBlankLines items.flatten ≠ [] ∧ (joinItems items).getLast? = some '\n' ↔
      trimBlankLines items.flatten ≠ [] ∧ items.flatten.getLast? = some '\n' := by
    refine and_congr_right fun hne => (getLast?_joinItems items).trans (and_iff_left ?_)
    exact Bool.eq_false_iff.2 fun hblank => hne (trimBlankLines_eq_nil_iff.2 hblank)
  have hflat : [joinItems items].flatten = joinItems items := List.append_nil _
  rw [joinItems_eq [joinItems items], hflat, trimBlankLines_joinItems]
  exact if_congr hsame rfl rfl

/-! ## 5. One level around another -/

/-- **Trimming, indenting and joining compose**, so that a level of an export may be put into another: the laws
    of a text that is fitted and of items that are joined. An indent is any text; the inner one of two stands on
    one line, as one of spaces and tabs does. -/
structure FitsAgain (t : Text) (items : List Text) : Prop where
  /-- a trimmed text is trimmed to itself -/
  trimmed : trimBlankLines (trimBlankLines t) = trimBlankLines t
  /-- nothing is left of white space; of any other text there is a run of whole lines, of which neither the first
      is blank nor the last, and around which only blank ones are gone -/
  lines : Text.allBlank t = true ∧ trimBlankLines t = [] ∨
    ∃ kept, kept ≠ [] ∧ TrimsTo (splitLines t) kept ∧ trimBlankLines t = joinLines kept
  /-- a line that is indented has the indent in front, unless it is the first one or blank -/
  indentedLines : ∀ a, '\n' ∉ a → ∀ n, (splitLines (applyIndent a t))[n]? =
    (splitLines t)[n]?.map fun l => if n = 0 ∨ Text.allBlank l = true then l else a ++ l
  /-- two indents are one -/
  indented : ∀ a b, '\n' ∉ a → applyIndent b (applyIndent a t) = applyIndent (b ++ a) t
  /-- also with the trimming there is at either level -/
  fitted : ∀ a b, '\n' ∉ a → applyIndent b (trimBlankLines (applyIndent a (trimBlankLines t))) =
    applyIndent (b ++ a) (trimBlankLines t)
  /-- joined items are joined to themselves -/
  joined : joinItems [joinItems items] = joinItems items
  /-- they are the items one after the other, trimmed, and perhaps a line feed -/
  joinedText : joinItems items = trimBlankLines items.flatten ∨
    joinItems items = trimBlankLines items.flatten ++ ['\n']
  /-- which is there if the items end with one and are not white space alone -/
  joinedEnd : (joinItems items).getLast? = some '\n' ↔
    items.flatten.getLast? = some '\n' ∧ Text.allBlank items.flatten = false

theorem fitsAgain (t : Text) (items : List Text) : FitsAgain t items where
  trimmed := trimBlankLines_trimBlankLines t
  lines := trimBlankLines_cases t
  indentedLines _ ha := getElem?_splitLines_applyIndent ha t
  indented _ b ha := applyIndent_applyIndent ha b t
  fitted _ b ha := applyIndent_trimBlankLines_applyIndent ha b t
  joined := joinItems_joinItems items
  joinedText := joinItems_eq_or items
  joinedEnd := getLast?_joinItems items

/-- A listing with a blank line in it, written with carriage returns, two levels deep. -/
theorem fitsAgain_twoLevels :
    '\n' ∉ " \t".toList ∧
      applyIndent "--".toList (applyIndent " \t".toList "a\r\n\r\nb\r\n".toList) =
        applyIndent ("--".toList ++ " \t".toList) "a\r\n\r\nb\r\n".toList ∧
      applyIndent ("--".toList ++ " \t".toList) "a\r\n\r\nb\r\n".toList =
        "a\r\n\r\n-- \tb\r\n".toList ∧
      joinItems [joinItems ["\n".toList, "a\n".toList, " \n".toList]] = "a\n".toList := by
  have hplain : '\n' ∉ " \t".toList := by decide
  have hfits := fitsAgain "a\r\n\r\nb\r\n".toList ["\n".toList, "a\n".toList, " \n".toList]
  refine ⟨hplain, hfits.indented _ _ hplain, by decide, ?_⟩
  rw [hfits.joined]
  decide

end RecordExport
