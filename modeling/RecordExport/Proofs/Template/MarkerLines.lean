import Mathlib.Data.List.TakeWhile
import RecordExport.Template.MarkerLine
/-!
# What goes with a marker

A marker that stands alone takes its line with it: the padding before it and, behind it, the padding up to
the next line feed together with that. So nothing goes but padding and one line feed, and a character that
is neither bounds what goes.

* `Text.behindLine`, `Text.aheadOfLine`: a text without its first line, and without its last;
* `Text.opensBlank`, `Text.closesBlank`: whether those lines are padding that a line feed cuts off;
* `drop_lineExtent`, `dropLast_lineExtent`: what is left of the text on either side of a marker;
* `firstLine_append`, `lastLine_append`: what is added beyond a line feed does not matter.
-/

namespace RecordExport

theorem not_mem_of_padding {l : Text} (h : l.all isPadding = true) {c : Char}
    (hc : isPadding c = false) : c ∉ l := fun hm =>
  Bool.false_ne_true (hc.symm.trans (List.all_eq_true.1 h c hm))

namespace Text

/-! ## 1. First lines -/

/-- The text behind the first line feed. -/
def behindLine (t : Text) : Text := t.drop ((firstLine t).length + 1)

theorem firstLine_of_not_mem {t : Text} (h : '\n' ∉ t) : firstLine t = t := by
  refine List.takeWhile_eq_self_iff.2 fun c hc => decide_eq_true fun heq => h ?_
  rw [← heq]
  exact hc

theorem behindLine_of_not_mem {t : Text} (h : '\n' ∉ t) : behindLine t = [] := by
  unfold behindLine
  rw [firstLine_of_not_mem h]
  exact List.drop_of_length_le (Nat.le_succ _)

theorem firstLine_cons {l : Text} (h : '\n' ∉ l) (r : Text) : firstLine (l ++ '\n' :: r) = l := by
  have hl : ∀ c ∈ l, (fun c => decide (c ≠ '\n')) c = true := by
    refine fun c hc => decide_eq_true fun heq => h ?_
    rw [← heq]
    exact hc
  unfold firstLine
  rw [List.takeWhile_append_of_pos hl]
  exact List.append_nil l

theorem behindLine_cons {l : Text} (h : '\n' ∉ l) (r : Text) : behindLine (l ++ '\n' :: r) = r := by
  unfold behindLine
  rw [firstLine_cons h, ← List.drop_drop, List.drop_left]
  rfl

/-- What stands behind a line feed does not matter for the first line, and stays behind it. -/
theorem firstLine_append_of_mem {a : Text} (h : '\n' ∈ a) (z : Text) :
    firstLine (a ++ z) = firstLine a ∧ behindLine (a ++ z) = behindLine a ++ z := by
  obtain ⟨l, r, rfl, hl⟩ := List.eq_append_cons_of_mem h
  rw [List.append_assoc, List.cons_append, firstLine_cons hl, firstLine_cons hl, behindLine_cons hl,
    behindLine_cons hl]
  exact ⟨rfl, rfl⟩

theorem firstLine_append_of_not_mem {a : Text} (h : '\n' ∉ a) (z : Text) :
    firstLine (a ++ z) = a ++ firstLine z := by
  refine List.takeWhile_append_of_pos fun c hc => decide_eq_true fun heq => h ?_
  rw [← heq]
  exact hc

/-- The text begins with padding and a line feed. -/
def opensBlank (t : Text) : Bool := decide ('\n' ∈ t) && (firstLine t).all isPadding

theorem opensBlank_iff {t : Text} :
    opensBlank t = true ↔ ∃ l r, t = l ++ '\n' :: r ∧ '\n' ∉ l ∧ l.all isPadding = true := by
  unfold opensBlank
  rw [Bool.and_eq_true, decide_eq_true_eq]
  constructor
  · rintro ⟨hn, hall⟩
    obtain ⟨l, r, rfl, hl⟩ := List.eq_append_cons_of_mem hn
    rw [firstLine_cons hl] at hall
    exact ⟨l, r, rfl, hl, hall⟩
  · rintro ⟨l, r, rfl, hl, hall⟩
    rw [firstLine_cons hl]
    exact ⟨by simp, hall⟩

/-- A first line of padding ends in front of a character that is none. -/
theorem firstLine_padding_append {a z : Text} {d : Char} (hd : isPadding d = false) (hn : d ≠ '\n') :
    (firstLine (a ++ d :: z)).all isPadding = opensBlank a := by
  unfold opensBlank
  by_cases h : '\n' ∈ a
  · rw [(firstLine_append_of_mem h _).1]
    simp [h]
  · have hz : firstLine (d :: z) = d :: firstLine z := by simp [firstLine, hn]
    rw [firstLine_append_of_not_mem h, hz]
    simp [h, hd]

theorem mem_of_opensBlank {t : Text} (h : opensBlank t = true) : '\n' ∈ t :=
  of_decide_eq_true (Bool.and_eq_true_iff.1 h).1

theorem opensBlank_append {a z : Text} {d : Char} (hd : isPadding d = false) (hn : d ≠ '\n') :
    opensBlank (a ++ d :: z) = opensBlank a := by
  have hmem : opensBlank a = true → '\n' ∈ a ++ d :: z := fun h =>
    List.mem_append_left _ (mem_of_opensBlank h)
  show (decide ('\n' ∈ a ++ d :: z) && (firstLine (a ++ d :: z)).all isPadding) = _
  rw [firstLine_padding_append hd hn]
  cases h : opensBlank a with
  | false => exact Bool.and_false _
  | true => rw [decide_eq_true (hmem h), Bool.true_and]

/-! ## 2. Last lines -/

/-- The text up to the last line feed, and with it. -/
def aheadOfLine (t : Text) : Text := dropLast (lastLine t).length t

theorem lastLine_eq_reverse (t : Text) : lastLine t = (firstLine t.reverse).reverse := rfl

theorem lastLine_of_not_mem {t : Text} (h : '\n' ∉ t) : lastLine t = t := by
  have hr : '\n' ∉ t.reverse := fun hm => h (List.mem_reverse.1 hm)
  rw [lastLine_eq_reverse, firstLine_of_not_mem hr, List.reverse_reverse]

theorem aheadOfLine_of_not_mem {t : Text} (h : '\n' ∉ t) : aheadOfLine t = [] := by
  unfold aheadOfLine dropLast
  rw [lastLine_of_not_mem h, Nat.sub_self, List.take_zero]

theorem lastLine_cons {r : Text} (h : '\n' ∉ r) (l : Text) : lastLine (l ++ '\n' :: r) = r := by
  have hr : '\n' ∉ r.reverse := fun hm => h (List.mem_reverse.1 hm)
  have hrev : (l ++ '\n' :: r).reverse = r.reverse ++ '\n' :: l.reverse := by simp
  rw [lastLine_eq_reverse, hrev, firstLine_cons hr, List.reverse_reverse]

theorem aheadOfLine_cons {r : Text} (h : '\n' ∉ r) (l : Text) :
    aheadOfLine (l ++ '\n' :: r) = l ++ ['\n'] := by
  have hsplit : l ++ '\n' :: r = (l ++ ['\n']) ++ r := by simp
  unfold aheadOfLine dropLast
  rw [lastLine_cons h, hsplit, List.length_append, Nat.add_sub_cancel, List.take_left]

theorem eq_append_lastLine_of_mem {t : Text} (h : '\n' ∈ t) : ∃ l r, t = l ++ '\n' :: r ∧ '\n' ∉ r := by
  obtain ⟨r, l, hrev, hr⟩ := List.eq_append_cons_of_mem (List.mem_reverse.2 h)
  refine ⟨l.reverse, r.reverse, ?_, fun hm => hr (List.mem_reverse.1 hm)⟩
  rw [← List.reverse_reverse t, hrev]
  simp

/-- What stands before a line feed does not matter for the last line, and stays before it. -/
theorem lastLine_append_of_mem {a : Text} (h : '\n' ∈ a) (z : Text) :
    lastLine (z ++ a) = lastLine a ∧ aheadOfLine (z ++ a) = z ++ aheadOfLine a := by
  obtain ⟨l, r, rfl, hr⟩ := eq_append_lastLine_of_mem h
  rw [← List.append_assoc, lastLine_cons hr, lastLine_cons hr, aheadOfLine_cons hr,
    aheadOfLine_cons hr, List.append_assoc]
  exact ⟨rfl, rfl⟩

theorem lastLine_append_of_not_mem {a : Text} (h : '\n' ∉ a) (z : Text) :
    lastLine (z ++ a) = lastLine z ++ a := by
  have hr : '\n' ∉ a.reverse := fun hm => h (List.mem_reverse.1 hm)
  rw [lastLine_eq_reverse, List.reverse_append, firstLine_append_of_not_mem hr, List.reverse_append,
    List.reverse_reverse]
  rfl

/-- The text ends with a line feed and padding. -/
def closesBlank (t : Text) : Bool := decide ('\n' ∈ t) && (lastLine t).all isPadding

/-- A last line of padding begins behind a character that is none. -/
theorem lastLine_padding_append {a z : Text} {d : Char} (hd : isPadding d = false) (hn : d ≠ '\n') :
    (lastLine (z ++ d :: a)).all isPadding = closesBlank a := by
  unfold closesBlank
  have hsplit : z ++ d :: a = (z ++ [d]) ++ a := by simp
  rw [hsplit]
  by_cases h : '\n' ∈ a
  · rw [(lastLine_append_of_mem h _).1]
    simp [h]
  · have hz : lastLine (z ++ [d]) = lastLine z ++ [d] :=
      lastLine_append_of_not_mem (by simpa using fun heq : '\n' = d => hn heq.symm) z
    rw [lastLine_append_of_not_mem h, hz]
    simp [h, hd]

theorem mem_of_closesBlank {t : Text} (h : closesBlank t = true) : '\n' ∈ t :=
  of_decide_eq_true (Bool.and_eq_true_iff.1 h).1

theorem closesBlank_append {a z : Text} {d : Char} (hd : isPadding d = false) (hn : d ≠ '\n') :
    closesBlank (z ++ d :: a) = closesBlank a := by
  have hmem : closesBlank a = true → '\n' ∈ z ++ d :: a := fun h =>
    List.mem_append_right _ (List.mem_cons_of_mem _ (mem_of_closesBlank h))
  show (decide ('\n' ∈ z ++ d :: a) && (lastLine (z ++ d :: a)).all isPadding) = _
  rw [lastLine_padding_append hd hn]
  cases h : closesBlank a with
  | false => exact Bool.and_false _
  | true => rw [decide_eq_true (hmem h), Bool.true_and]

/-- The last line behind the first one, which may be all that is left there. -/
theorem lastLine_behindLine {t : Text} (h : '\n' ∈ t) :
    lastLine (behindLine t) = lastLine t := by
  obtain ⟨l, r, rfl, hl⟩ := List.eq_append_cons_of_mem h
  rw [behindLine_cons hl]
  by_cases hr : '\n' ∈ r
  · have hsplit : l ++ '\n' :: r = (l ++ ['\n']) ++ r := by simp
    rw [hsplit, (lastLine_append_of_mem hr _).1]
  · rw [lastLine_cons hr, lastLine_of_not_mem hr]

theorem length_lastLine_le (t : Text) : (lastLine t).length ≤ t.length := by
  rw [lastLine_eq_reverse, List.length_reverse]
  exact (List.takeWhile_sublist _).length_le.trans_eq List.length_reverse

end Text

/-! ## 3. What is left -/

theorem drop_lineExtent (left right : Text) :
    right.drop (lineExtent left right).2 =
      if standsAlone left right then Text.behindLine right else right := by
  unfold lineExtent
  split
  · show right.drop (min ((Text.firstLine right).length + 1) right.length) = _
    rcases Nat.le_total ((Text.firstLine right).length + 1) right.length with h | h
    · rw [Nat.min_eq_left h]
      rfl
    · rw [Nat.min_eq_right h, List.drop_length]
      exact (List.drop_of_length_le h).symm
  · rfl

theorem dropLast_lineExtent (left right : Text) :
    dropLast (lineExtent left right).1 left =
      if standsAlone left right then Text.aheadOfLine left else left := by
  unfold lineExtent
  split
  · rfl
  · exact dropLast_zero left

end RecordExport
