import Mathlib.Algebra.Group.Nat.Even
import Mathlib.Data.List.DropRight
import RecordExport.Proofs.Validation.Unpaired
/-!
# Placeholders cut short

Two opening braces in literal text are reported where a name begins behind them and the line holds no closing
braces. The check looks at two braces together and leaves both behind, so in a run of braces it looks at every
other place. A name can only begin behind the last two of a run, and these are looked at if the run is even.

* `opensPlaceholder_iff`: what reads as a placeholder cut short;
* `mem_literalIssues_iff`: where a literal is found to hold one;
* `unterminated_mem_validate_iff`: **the reported places are those where two braces stand that read so, behind an
  even number of braces**.
-/

namespace RecordExport

variable {l rest : Text} {pos : Nat}

/-! ## 1. What stands behind the braces -/

/-- The text reads as the rest of a placeholder cut short: on its first line, which a carriage return or a line
    feed ends, there is a letter or an underscore, behind white space at most, and there are no closing braces. -/
def ReadsCutShort (rest : Text) : Prop :=
  ∃ line beyond, rest = line ++ beyond ∧ (∀ d ∈ line, d ≠ '\r' ∧ d ≠ '\n') ∧
    (∀ d, beyond.head? = some d → d = '\r' ∨ d = '\n') ∧
    (∃ white c name, line = white ++ c :: name ∧
      (∀ d ∈ white, isBlank d = true) ∧ (isLetter c = true ∨ c = '_')) ∧
    ¬ ['}', '}'] <:+: line

/-- White space is no letter. -/
theorem not_isLetter_of_isBlank {c : Char} (h : isBlank c = true) : isLetter c = false := by
  have hall : ∀ n ∈ [0x9, 0xA, 0xB, 0xC, 0xD, 0x20, 0x85, 0xA0, 0x1680, 0x2000, 0x2001, 0x2002, 0x2003, 0x2004,
      0x2005, 0x2006, 0x2007, 0x2008, 0x2009, 0x200A, 0x2028, 0x2029, 0x202F, 0x205F, 0x3000],
      inRanges letterRanges n = false := by decide +kernel
  refine hall c.toNat ?_
  simp only [isBlank, Bool.or_eq_true, Bool.and_eq_true, decide_eq_true_eq, beq_iff_eq] at h
  simp only [List.mem_cons, List.not_mem_nil, or_false]
  omega

theorem not_isBlank_of_name {c : Char} (h : isLetter c = true ∨ c = '_') : isBlank c = false := by
  rcases h with h | rfl
  · cases hc : isBlank c with
    | false => rfl
    | true =>
      rw [not_isLetter_of_isBlank hc] at h
      cases h
  · rfl

/-- A line ends where the first of the two line ends stands. -/
theorem untilLineEnd_append {line beyond : Text} (hline : ∀ d ∈ line, d ≠ '\r' ∧ d ≠ '\n')
    (hbeyond : ∀ d, beyond.head? = some d → d = '\r' ∨ d = '\n') : untilLineEnd (line ++ beyond) = line := by
  unfold untilLineEnd
  rw [List.takeWhile_append_of_pos fun d hd => by simpa using hline d hd]
  cases beyond with
  | nil => exact List.append_nil line
  | cons d beyond =>
    rw [List.takeWhile_cons_of_neg, List.append_nil]
    rcases hbeyond d rfl with rfl | rfl <;> decide

/-- **The check knows what reads as a placeholder cut short.** -/
theorem opensPlaceholder_iff : opensPlaceholder rest = true ↔ ReadsCutShort rest := by
  unfold opensPlaceholder
  dsimp only
  rw [Bool.and_eq_true, Bool.not_eq_true', ← Bool.not_eq_true, Text.hasPart_iff]
  constructor
  · rintro ⟨hnamed, hclosed⟩
    refine ⟨untilLineEnd rest, rest.dropWhile fun c => c ≠ '\r' && c ≠ '\n', ?_, fun d hd => ?_, fun d hd => ?_,
      ?_, hclosed⟩
    · exact List.takeWhile_append_dropWhile.symm
    · have hd := List.all_eq_true.1 List.all_takeWhile d hd
      simpa using hd
    · have hd := List.head?_dropWhile_not (fun c : Char => c ≠ '\r' && c ≠ '\n') rest
      rename_i hhead
      rw [hhead] at hd
      simpa [or_iff_not_imp_left] using hd
    · have hsplit := List.takeWhile_append_dropWhile (p := isBlank) (l := untilLineEnd rest)
      cases htrim : Text.trimStart (untilLineEnd rest) with
      | nil =>
        rw [htrim] at hnamed
        cases hnamed
      | cons c name =>
        rw [htrim] at hnamed
        refine ⟨(untilLineEnd rest).takeWhile isBlank, c, name, ?_, List.all_eq_true.1 List.all_takeWhile, ?_⟩
        · rw [← htrim]
          exact hsplit.symm
        · simpa using hnamed
  · rintro ⟨line, beyond, rfl, hline, hbeyond, ⟨white, c, name, rfl, hwhite, hc⟩, hclosed⟩
    rw [untilLineEnd_append hline hbeyond]
    refine ⟨?_, hclosed⟩
    have hdrop : Text.trimStart (white ++ c :: name) = c :: name := by
      unfold Text.trimStart
      rw [List.dropWhile_append_of_pos hwhite, List.dropWhile_cons_of_neg]
      rw [not_isBlank_of_name hc]
      exact Bool.false_ne_true
    rw [hdrop]
    simpa using hc

/-! ## 2. What is looked at -/

/-- How many opening braces a text ends with. -/
def openBraces (a : Text) : Nat := (a.rtakeWhile (· = '{')).length

/-- A character in front counts if it is a brace and there are only braces behind it. -/
theorem openBraces_cons (c : Char) (a : Text) :
    openBraces (c :: a) = if c = '{' ∧ a.all (· = '{') = true then a.length + 1 else openBraces a := by
  unfold openBraces List.rtakeWhile
  rw [List.reverse_cons, List.length_reverse, List.length_reverse, List.takeWhile_append, ← List.all_reverse]
  by_cases hall : a.reverse.all (· = '{') = true
  · have hself : a.reverse.takeWhile (fun d => decide (d = '{')) = a.reverse :=
      List.takeWhile_eq_self_iff.2 (List.all_eq_true.1 hall)
    rw [hself, if_pos rfl]
    by_cases hc : c = '{'
    · rw [if_pos ⟨hc, hall⟩, hc]
      simp
    · rw [if_neg fun h => hc h.1]
      simp [hc]
  · have hshort : ¬ (a.reverse.takeWhile fun d => decide (d = '{')).length = a.reverse.length := fun hlength =>
      hall (List.all_eq_true.2 (List.takeWhile_eq_self_iff.1 ((List.takeWhile_prefix _).eq_of_length hlength)))
    rw [if_neg hshort, if_neg fun h => hall h.2]

theorem openBraces_of_all {a : Text} (h : a.all (· = '{') = true) : openBraces a = a.length := by
  unfold openBraces
  rw [List.rtakeWhile_eq_self_iff.2 (List.all_eq_true.1 h)]

/-- Two braces in front do not change whether the braces at the end are even. -/
theorem even_openBraces_braces {a : Text} : Even (openBraces ('{' :: '{' :: a)) ↔ Even (openBraces a) := by
  by_cases hall : a.all (· = '{') = true
  · rw [openBraces_cons, if_pos ⟨rfl, by rw [List.all_cons, hall]; rfl⟩, openBraces_of_all hall, List.length_cons]
    simp [Nat.even_add_one]
  · rw [openBraces_cons, if_neg fun h => hall (Bool.and_eq_true_iff.1 h.2).2, openBraces_cons,
      if_neg fun h => hall h.2]

/-- Two braces stand between these parts of a literal, behind an even number of braces. -/
def LookedAt (l a rest : Text) : Prop := l = a ++ '{' :: '{' :: rest ∧ Even (openBraces a)

section LookedAt

variable {a : Text}

theorem not_lookedAt_nil : ¬ LookedAt [] a rest := fun h =>
  List.cons_ne_nil _ _ (List.append_eq_nil_iff.1 h.1.symm).2

/-- The first two braces are looked at and left behind. -/
theorem lookedAt_braces_iff : LookedAt ('{' :: '{' :: l) a rest ↔
    (a = [] ∧ rest = l) ∨ ∃ b, a = '{' :: '{' :: b ∧ LookedAt l b rest := by
  constructor
  · rintro ⟨hl, heven⟩
    match a with
    | [] => exact .inl ⟨rfl, (List.cons.inj (List.cons.inj hl).2).2.symm⟩
    | [c] =>
      obtain rfl := (List.cons.inj hl).1
      exact absurd heven (by decide)
    | c :: d :: b =>
      obtain ⟨rfl, hbehind⟩ := List.cons.inj hl
      obtain ⟨rfl, hrest⟩ := List.cons.inj hbehind
      exact .inr ⟨b, rfl, hrest, even_openBraces_braces.1 heven⟩
  · rintro (⟨rfl, rfl⟩ | ⟨b, rfl, rfl, heven⟩)
    · exact ⟨rfl, by decide⟩
    · exact ⟨rfl, even_openBraces_braces.2 heven⟩

/-- What is not the first of two braces is left behind alone. -/
theorem lookedAt_cons_iff {c : Char} (hne : ∀ m, c = '{' → l ≠ '{' :: m) :
    LookedAt (c :: l) a rest ↔ ∃ b, a = c :: b ∧ LookedAt l b rest := by
  -- a text of braces in front of two braces begins with a brace
  have hfront : ∀ b, l = b ++ '{' :: '{' :: rest → openBraces (c :: b) = openBraces b := by
    intro b hl
    rw [openBraces_cons]
    refine if_neg fun ⟨hc, hall⟩ => ?_
    cases b with
    | nil => exact hne _ hc hl
    | cons d b => exact hne _ hc (of_decide_eq_true (List.all_eq_true.1 hall d List.mem_cons_self) ▸ hl)
  constructor
  · rintro ⟨hl, heven⟩
    cases a with
    | nil => exact absurd (List.cons.inj hl).2 (hne _ (List.cons.inj hl).1)
    | cons d b =>
      obtain ⟨rfl, hrest⟩ := List.cons.inj hl
      exact ⟨b, rfl, hrest, hfront b hrest ▸ heven⟩
  · rintro ⟨b, rfl, hl, heven⟩
    exact ⟨congrArg (c :: ·) hl, (hfront b hl).symm ▸ heven⟩

end LookedAt

/-- Two braces reported behind this part of a literal that begins at a position. -/
def cutShortBehind (pos : Nat) (a : Text) : Issue :=
  .unterminated ⟨pos + Text.byteSize a, pos + Text.byteSize a + 2⟩

theorem cutShortBehind_cons (pos : Nat) (c : Char) (a : Text) :
    cutShortBehind pos (c :: a) = cutShortBehind (pos + c.utf8Size) a := by
  simp only [cutShortBehind, Text.byteSize_cons, Nat.add_assoc]

theorem cutShortBehind_braces (pos : Nat) (a : Text) :
    cutShortBehind pos ('{' :: '{' :: a) = cutShortBehind (pos + 2) a := by
  rw [cutShortBehind_cons, cutShortBehind_cons]
  rfl

/-- **What a literal is found to hold**: two braces are looked at behind an even number of braces. -/
theorem mem_literalIssues_iff {i : Issue} : i ∈ literalIssues pos l ↔
    ∃ a rest, LookedAt l a rest ∧ ReadsCutShort rest ∧ i = cutShortBehind pos a := by
  -- what is found behind two braces
  have hbehind : ∀ {pos : Nat} {t : Text}, (i ∈ literalIssues (pos + 2) t ↔
      ∃ a rest, LookedAt t a rest ∧ ReadsCutShort rest ∧ i = cutShortBehind (pos + 2) a) →
      (i ∈ literalIssues (pos + 2) t ↔ ∃ b rest, LookedAt t b rest ∧ ReadsCutShort rest ∧
        i = cutShortBehind pos ('{' :: '{' :: b)) := by
    intro pos t ih
    simpa only [cutShortBehind_braces] using ih
  fun_induction literalIssues pos l with
  | case1 pos t others hopens ih =>
    rw [List.mem_cons]
    constructor
    · rintro (rfl | hmem)
      · exact ⟨[], t, lookedAt_braces_iff.2 (.inl ⟨rfl, rfl⟩), opensPlaceholder_iff.1 hopens, rfl⟩
      · obtain ⟨b, rest, hlooked, hreads, hi⟩ := (hbehind ih).1 hmem
        exact ⟨_, rest, lookedAt_braces_iff.2 (.inr ⟨b, rfl, hlooked⟩), hreads, hi⟩
    · rintro ⟨a, rest, hlooked, hreads, hi⟩
      rcases lookedAt_braces_iff.1 hlooked with ⟨rfl, rfl⟩ | ⟨b, rfl, hlater⟩
      · exact .inl hi
      · exact .inr ((hbehind ih).2 ⟨b, rest, hlater, hreads, hi⟩)
  | case2 pos t others hopens ih =>
    constructor
    · intro hmem
      obtain ⟨b, rest, hlooked, hreads, hi⟩ := (hbehind ih).1 hmem
      exact ⟨_, rest, lookedAt_braces_iff.2 (.inr ⟨b, rfl, hlooked⟩), hreads, hi⟩
    · rintro ⟨a, rest, hlooked, hreads, hi⟩
      rcases lookedAt_braces_iff.1 hlooked with ⟨rfl, rfl⟩ | ⟨b, rfl, hlater⟩
      · exact absurd (opensPlaceholder_iff.2 hreads) hopens
      · exact (hbehind ih).2 ⟨b, rest, hlater, hreads, hi⟩
  | case3 pos c t hne ih =>
    have hlook {a rest : Text} : LookedAt (c :: t) a rest ↔ ∃ b, a = c :: b ∧ LookedAt t b rest :=
      lookedAt_cons_iff hne
    refine Iff.trans ih ⟨?_, ?_⟩
    · rintro ⟨b, rest, hlooked, hreads, hi⟩
      exact ⟨c :: b, rest, hlook.2 ⟨b, rfl, hlooked⟩, hreads, hi.trans (cutShortBehind_cons pos c b).symm⟩
    · rintro ⟨a, rest, hlooked, hreads, hi⟩
      obtain ⟨b, rfl, hlater⟩ := hlook.1 hlooked
      exact ⟨b, rest, hlater, hreads, hi.trans (cutShortBehind_cons pos c b)⟩
  | case4 =>
    constructor
    · exact fun h => absurd h List.not_mem_nil
    · rintro ⟨_, _, hlooked, -⟩
      exact absurd hlooked not_lookedAt_nil

/-- Of three braces the first two are looked at, and no name stands behind them. -/
example : (literalIssues 0 ['{', '{', '{', 'A']).length = 0 ∧ (literalIssues 0 ['{', '{', 'A']).length = 1 := by
  decide +kernel

/-! ## 3. What is reported -/

/-- **Where a template is reported to cut a placeholder short**: in one of its literals, where two opening braces
    stand behind an even number of them and what follows in the literal reads so. -/
theorem unterminated_mem_validate_iff {fs : List BlockFamily} {t : Text} {s : Span} :
    .unterminated s ∈ validate fs t ↔
      ∃ l q a rest, (.literal l, q) ∈ locate t ∧ l = a ++ '{' :: '{' :: rest ∧ Even (openBraces a) ∧
        ReadsCutShort rest ∧ s = ⟨q.start + Text.byteSize a, q.start + Text.byteSize a + 2⟩ := by
  have hfound : .unterminated s ∈ validate fs t ↔ .unterminated s ∈ literalTokenIssues (locate t) := by
    refine ((perm_byPosition (foundIssues fs t)).mem_iff.trans mem_foundIssues_iff).trans
      ⟨?_, fun h => .inr (.inr h)⟩
    rintro (⟨_, _, _, hi⟩ | ⟨_, _, _, hi⟩ | h)
    · cases hi
    · cases hi
    · exact h
  rw [hfound]
  unfold literalTokenIssues
  rw [List.mem_flatMap]
  constructor
  · rintro ⟨⟨k, q⟩, hmem, hi⟩
    cases k with
    | placeholder n => cases hi
    | literal l =>
      obtain ⟨a, rest, hlooked, hreads, hi⟩ := mem_literalIssues_iff.1 hi
      exact ⟨l, q, a, rest, hmem, hlooked.1, hlooked.2, hreads, Issue.unterminated.inj hi⟩
  · rintro ⟨l, q, a, rest, hmem, hl, heven, hreads, rfl⟩
    exact ⟨_, hmem, mem_literalIssues_iff.2 ⟨a, rest, ⟨hl, heven⟩, hreads, rfl⟩⟩

end RecordExport
