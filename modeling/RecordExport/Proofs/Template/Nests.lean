import RecordExport.Proofs.Template.Names
import RecordExport.Proofs.Template.Blocks
import RecordExport.Proofs.Template.Seams
/-!
# Blocks that nest

The blocks of a text nest if every end marker closes the latest start marker that is still open, whatever its
stem, and none stays open. Seen from one stem, a search for the end of a block then finds it, and the block
nests by itself.

* `Nests`: what is open is unwound token by token (`unwind`), the stems on a stack;
* `unwind_block`: **a block with a stem nests by itself, and so does what is around it**;
* `findClose_of_unwind`: a search finds the end of every block;
* `not_isClosing_of_unwind`: without start markers with a stem there are no end markers with it.
-/

namespace RecordExport

/-! ## 1. What is open -/

/-- The stems of the start markers that are open behind a token, the latest first. -/
def nestStep (open_ : List Text) (k : Token) : Option (List Text) :=
  match k.shape, open_ with
  | .blockStart, open_ => some (k.stem :: open_)
  | .blockEnd, s :: open_ => if s = k.stem then some open_ else none
  | .blockEnd, [] => none
  | _, open_ => some open_

/-- The stems that are open behind tokens, if every end marker closes the latest start marker. -/
def unwind (open_ : List Text) (ks : List Token) : Option (List Text) := ks.foldlM nestStep open_

/-- **The blocks of a text nest**: every end marker closes the latest start marker still open, and none stays
    open. -/
def Nests (t : Text) : Prop := unwind [] (tokenize t) = some []

variable {open_ out : List Text} {k : Token} {ks : List Token} {s : Text}

theorem nestStep_of_start (h : k.shape = .blockStart) : nestStep open_ k = some (k.stem :: open_) := by
  unfold nestStep
  rw [h]

theorem nestStep_of_end (h : k.shape = .blockEnd) :
    nestStep open_ k = some out ↔ open_ = k.stem :: out := by
  unfold nestStep
  rw [h]
  cases open_ with
  | nil => exact ⟨fun h => (by cases h), fun h => (by cases h)⟩
  | cons s open_ =>
    dsimp only
    split
    · rename_i heq
      rw [heq, Option.some.injEq, List.cons.injEq, eq_self, true_and]
    · rename_i hne
      exact ⟨fun h => (by cases h), fun h => absurd (List.cons.inj h).1 hne⟩

theorem isMarker_eq_false_iff :
    k.isMarker = false ↔ k.shape ≠ .blockStart ∧ k.shape ≠ .blockEnd := by
  unfold Token.isMarker
  rw [Bool.or_eq_false_iff, decide_eq_false_iff_not, decide_eq_false_iff_not]

theorem nestStep_of_other (h : k.isMarker = false) : nestStep open_ k = some open_ := by
  obtain ⟨hs, he⟩ := isMarker_eq_false_iff.1 h
  unfold nestStep
  cases hk : k.shape with
  | literal => rfl
  | scalar => rfl
  | blockStart => exact absurd hk hs
  | blockEnd => exact absurd hk he

/-- A token is a start marker, an end marker or none. -/
theorem Token.marker_cases (k : Token) {P : Prop} (start : k.shape = .blockStart → P)
    (stop : k.shape = .blockEnd → P) (other : k.isMarker = false → P) : P := by
  by_cases hs : k.shape = .blockStart
  · exact start hs
  · by_cases he : k.shape = .blockEnd
    · exact stop he
    · exact other (isMarker_eq_false_iff.2 ⟨hs, he⟩)

theorem unwind_cons : unwind open_ (k :: ks) = (nestStep open_ k).bind fun o => unwind o ks :=
  List.foldlM_cons

theorem unwind_append (ls : List Token) :
    unwind open_ (ks ++ ls) = (unwind open_ ks).bind fun o => unwind o ls := List.foldlM_append

/-- Only markers count. -/
theorem unwind_filter (open_ : List Text) (ks : List Token) :
    unwind open_ (ks.filter Token.isMarker) = unwind open_ ks := by
  induction ks generalizing open_ with
  | nil => rfl
  | cons k ks ih =>
    cases hk : k.isMarker with
    | true =>
      rw [List.filter_cons_of_pos hk, unwind_cons, unwind_cons]
      exact congrArg _ (funext ih)
    | false =>
      rw [List.filter_cons_of_neg (Bool.eq_false_iff.1 hk), unwind_cons, nestStep_of_other hk, ih]
      rfl

theorem nests_iff {t : Text} : Nests t ↔ unwind [] (markers t) = some [] := by
  unfold Nests markers
  rw [unwind_filter]

/-- What is open below does not matter. -/
theorem unwind_frame (h : unwind open_ ks = some out) (base : List Text) :
    unwind (open_ ++ base) ks = some (out ++ base) := by
  induction ks generalizing open_ with
  | nil =>
    obtain rfl := Option.some.inj h
    rfl
  | cons k ks ih =>
    rw [unwind_cons, Option.bind_eq_some_iff] at h ⊢
    obtain ⟨next, hnext, h⟩ := h
    refine ⟨next ++ base, ?_, ih h⟩
    refine k.marker_cases (fun hk => ?_) (fun hk => ?_) fun hk => ?_
    · rw [nestStep_of_start hk, Option.some.injEq] at hnext ⊢
      rw [← hnext, List.cons_append]
    · rw [nestStep_of_end hk] at hnext ⊢
      rw [hnext, List.cons_append]
    · rw [nestStep_of_other hk, Option.some.injEq] at hnext ⊢
      rw [hnext]

/-! ## 2. Blocks with one stem -/

theorem name_of_endsIn {n trail : Text} (h : n.endsIn trail = true) :
    n = (Text.beforeTrailing? trail n).getD n ++ trail := by
  obtain ⟨front, rfl⟩ := List.isSuffixOf_iff_suffix.1 h
  unfold Text.beforeTrailing?
  rw [if_pos h, List.length_append, Nat.add_sub_cancel, List.take_left]
  rfl

theorem name_of_start (h : k.shape = .blockStart) : k.name = k.stem ++ startTrail := by
  cases k with
  | literal l => cases h
  | placeholder b =>
    have hends : (Text.trim b).endsIn startTrail = true := by
      by_contra hne
      have h : Token.shapeOfName (Text.trim b) = .blockStart := h
      unfold Token.shapeOfName at h
      rw [if_neg hne] at h
      split at h <;> cases h
    unfold Token.stem
    rw [h]
    exact name_of_endsIn hends

theorem name_of_end (h : k.shape = .blockEnd) : k.name = k.stem ++ endTrail := by
  cases k with
  | literal l => cases h
  | placeholder b =>
    have hends : (Text.trim b).endsIn endTrail = true := by
      by_contra hne
      have h : Token.shapeOfName (Text.trim b) = .blockEnd := h
      unfold Token.shapeOfName at h
      split at h
      · cases h
      · cases h
    unfold Token.stem
    rw [h]
    exact name_of_endsIn hends

theorem isOpening_ofStem_iff :
    (BlockFamily.ofStem s).isOpening k = true ↔ k.shape = .blockStart ∧ k.stem = s := by
  unfold BlockFamily.isOpening BlockFamily.ofStem
  rw [Bool.and_eq_true, decide_eq_true_eq, isMatch_literal_iff]
  refine and_congr_right fun h => ?_
  rw [name_of_start h]
  exact List.append_left_inj startTrail

theorem isClosing_ofStem_iff :
    (BlockFamily.ofStem s).isClosing k = true ↔ k.shape = .blockEnd ∧ k.stem = s := by
  unfold BlockFamily.isClosing BlockFamily.ofStem
  rw [Bool.and_eq_true, decide_eq_true_eq, isMatch_literal_iff]
  refine and_congr_right fun h => ?_
  rw [name_of_end h]
  exact List.append_left_inj endTrail

theorem unwind_nested (h : unwind [] ks = some []) (open_ : List Text) :
    unwind open_ ks = some open_ := unwind_frame h open_

/-- An end marker closes the latest start marker with its stem, so nothing is open above that. -/
theorem unwind_closing {inside : List Text} (hinside : s ∉ inside)
    (hc : (BlockFamily.ofStem s).isClosing k = true)
    (h : unwind (inside ++ s :: open_) (k :: ks) = some out) :
    inside = [] ∧ unwind open_ ks = some out := by
  obtain ⟨hk, hstem⟩ := isClosing_ofStem_iff.1 hc
  rw [unwind_cons, Option.bind_eq_some_iff] at h
  obtain ⟨next, hnext, h⟩ := h
  rw [nestStep_of_end hk, hstem] at hnext
  cases inside with
  | nil =>
    obtain rfl := (List.cons.inj hnext).2
    exact ⟨rfl, h⟩
  | cons x inside =>
    obtain ⟨rfl, -⟩ := List.cons.inj hnext
    exact absurd List.mem_cons_self hinside

/-- Where the markers of a stem close each other and blocks nest, what is open there closes too, down to the
    latest block with the stem. -/
theorem unwind_of_balanced (h : Balanced (.ofStem s) ks) (pre below : List Text) (hpre : s ∉ pre)
    (hout : unwind (pre ++ s :: below) ks = some out) :
    ∃ pre', s ∉ pre' ∧ unwind pre ks = some pre' ∧ out = pre' ++ s :: below := by
  induction h generalizing pre below out with
  | nil =>
    obtain rfl := Option.some.inj hout
    exact ⟨pre, hpre, rfl, rfl⟩
  | @other k ks ho hc _ ih =>
    rw [unwind_cons, Option.bind_eq_some_iff] at hout
    obtain ⟨next, hnext, hout⟩ := hout
    simp only [unwind_cons, Option.bind_eq_some_iff]
    refine k.marker_cases (fun hk => ?_) (fun hk => ?_) fun hk => ?_
    · rw [nestStep_of_start hk, Option.some.injEq] at hnext
      have hne : s ≠ k.stem := fun heq => by
        rw [isOpening_ofStem_iff.2 ⟨hk, heq.symm⟩] at ho
        cases ho
      obtain ⟨pre', hs, hpre', rfl⟩ := ih (k.stem :: pre) below
        (List.not_mem_cons_of_ne_of_not_mem hne hpre) (hnext ▸ hout)
      exact ⟨pre', hs, ⟨_, nestStep_of_start hk, hpre'⟩, rfl⟩
    · have hne : s ≠ k.stem := fun heq => by
        rw [isClosing_ofStem_iff.2 ⟨hk, heq.symm⟩] at hc
        cases hc
      have hopen := (nestStep_of_end hk).1 hnext
      cases pre with
      | nil => exact absurd (List.cons.inj hopen).1 hne
      | cons x pre =>
        obtain ⟨rfl, rfl⟩ := List.cons.inj hopen
        obtain ⟨pre', hs, hpre', rfl⟩ := ih pre below (fun hmem => hpre (List.mem_cons_of_mem _ hmem)) hout
        exact ⟨pre', hs, ⟨_, (nestStep_of_end hk).2 rfl, hpre'⟩, rfl⟩
    · rw [nestStep_of_other hk, Option.some.injEq] at hnext
      obtain ⟨pre', hs, hpre', rfl⟩ := ih pre below hpre (hnext ▸ hout)
      exact ⟨pre', hs, ⟨_, nestStep_of_other hk, hpre'⟩, rfl⟩
  | @block o e inner ks ho _ hc _ ihi ihr =>
    obtain ⟨hos, hostem⟩ := isOpening_ofStem_iff.1 ho
    obtain ⟨hes, hestem⟩ := isClosing_ofStem_iff.1 hc
    rw [unwind_cons, nestStep_of_start hos, hostem, Option.bind_some, unwind_append,
      Option.bind_eq_some_iff] at hout
    obtain ⟨mid, hmid, hout⟩ := hout
    obtain ⟨inside, hinside, hnested, rfl⟩ := ihi [] _ List.not_mem_nil hmid
    obtain ⟨rfl, hrest⟩ := unwind_closing hinside hc hout
    obtain ⟨pre', hs, hpre', rfl⟩ := ihr pre below hpre hrest
    refine ⟨pre', hs, ?_, rfl⟩
    rw [unwind_cons, nestStep_of_start hos, Option.bind_some, unwind_append, unwind_nested hnested,
      Option.bind_some, unwind_cons, hostem, (nestStep_of_end hes).2 (congrArg (· :: pre) hestem.symm),
      Option.bind_some, hpre']

/-- **A block in nesting text nests by itself, and so does what is around it.** -/
theorem unwind_block {o e : Token} {inner : List Token} (ho : (BlockFamily.ofStem s).isOpening o = true)
    (hinner : Balanced (.ofStem s) inner) (hc : (BlockFamily.ofStem s).isClosing e = true)
    (h : unwind open_ (o :: (inner ++ e :: ks)) = some out) :
    unwind [] inner = some [] ∧ unwind open_ ks = some out := by
  obtain ⟨hos, hostem⟩ := isOpening_ofStem_iff.1 ho
  rw [unwind_cons, nestStep_of_start hos, hostem, Option.bind_some, unwind_append,
    Option.bind_eq_some_iff] at h
  obtain ⟨mid, hmid, h⟩ := h
  obtain ⟨inside, hinside, hnested, rfl⟩ := unwind_of_balanced hinner [] _ List.not_mem_nil hmid
  obtain ⟨rfl, hrest⟩ := unwind_closing hinside hc h
  exact ⟨hnested, hrest⟩

theorem not_marker_ofStem_of_ne (h : k.stem ≠ s) :
    (BlockFamily.ofStem s).isOpening k = false ∧ (BlockFamily.ofStem s).isClosing k = false :=
  ⟨Bool.eq_false_iff.2 fun ho => h (isOpening_ofStem_iff.1 ho).2,
    Bool.eq_false_iff.2 fun hc => h (isClosing_ofStem_iff.1 hc).2⟩

/-- In nesting text a search finds the end of every block. -/
theorem findClose_of_unwind (pre : List Text) {below : List Text}
    (h : unwind (pre ++ s :: below) ks = some []) :
    (findClose (.ofStem s) (pre.count s) ks).isSome = true := by
  induction ks generalizing pre with
  | nil =>
    have hnil := Option.some.inj h
    simp at hnil
  | cons k ks ih =>
    rw [unwind_cons, Option.bind_eq_some_iff] at h
    obtain ⟨next, hnext, h⟩ := h
    refine k.marker_cases (fun hk => ?_) (fun hk => ?_) fun hk => ?_
    · rw [nestStep_of_start hk, Option.some.injEq] at hnext
      subst hnext
      have hfound := ih (k.stem :: pre) h
      by_cases hs : k.stem = s
      · rw [hs, List.count_cons_self] at hfound
        rw [findClose_of_opening (isOpening_ofStem_iff.2 ⟨hk, hs⟩), Option.isSome_map]
        exact hfound
      · obtain ⟨ho, hc⟩ := not_marker_ofStem_of_ne hs
        rw [List.count_cons_of_ne hs] at hfound
        rw [findClose_of_other ho hc, Option.isSome_map]
        exact hfound
    · have hopen := (nestStep_of_end hk).1 hnext
      cases pre with
      | nil =>
        have hs : k.stem = s := (List.cons.inj hopen).1.symm
        rw [List.count_nil, findClose_of_closing (isClosing_ofStem_iff.2 ⟨hk, hs⟩)]
        rfl
      | cons x pre =>
        obtain ⟨rfl, rfl⟩ := List.cons.inj hopen
        have hfound := ih pre h
        by_cases hs : k.stem = s
        · rw [hs, List.count_cons_self, findClose_of_closing_succ (isClosing_ofStem_iff.2 ⟨hk, hs⟩),
            Option.isSome_map]
          exact hfound
        · obtain ⟨ho, hc⟩ := not_marker_ofStem_of_ne hs
          rw [List.count_cons_of_ne hs, findClose_of_other ho hc, Option.isSome_map]
          exact hfound
    · rw [nestStep_of_other hk, Option.some.injEq] at hnext
      subst hnext
      obtain ⟨ho, hc⟩ := not_claims_of_unmarked (f := .ofStem s) (isMarker_eq_false_iff.1 hk)
      rw [findClose_of_other ho hc, Option.isSome_map]
      exact ih pre h

/-- Without start markers of a stem nesting text has no end markers of it. -/
theorem not_isClosing_of_unwind (hs : s ∉ open_) (h : unwind open_ ks = some out)
    (ho : ∀ k ∈ ks, (BlockFamily.ofStem s).isOpening k = false) :
    ∀ k ∈ ks, (BlockFamily.ofStem s).isClosing k = false := by
  induction ks generalizing open_ with
  | nil => exact fun k hk => absurd hk List.not_mem_nil
  | cons k ks ih =>
    rw [unwind_cons, Option.bind_eq_some_iff] at h
    obtain ⟨next, hnext, h⟩ := h
    have hrest : ∀ k ∈ ks, (BlockFamily.ofStem s).isOpening k = false := fun k hk =>
      ho k (List.mem_cons_of_mem _ hk)
    refine List.forall_mem_cons.2 (k.marker_cases (fun hk => ?_) (fun hk => ?_) fun hk => ?_)
    · rw [nestStep_of_start hk, Option.some.injEq] at hnext
      subst hnext
      have hne : s ≠ k.stem := fun heq => by
        have hopens := ho k List.mem_cons_self
        rw [isOpening_ofStem_iff.2 ⟨hk, heq.symm⟩] at hopens
        cases hopens
      refine ⟨(not_marker_ofStem_of_ne fun heq => hne heq.symm).2, ?_⟩
      exact ih (List.not_mem_cons_of_ne_of_not_mem hne hs) h hrest
    · obtain rfl := (nestStep_of_end hk).1 hnext
      obtain ⟨hne, hs⟩ := not_or.1 (mt List.mem_cons.2 hs)
      exact ⟨(not_marker_ofStem_of_ne fun heq => hne heq.symm).2, ih hs h hrest⟩
    · rw [nestStep_of_other hk, Option.some.injEq] at hnext
      subst hnext
      exact ⟨(not_claims_of_unmarked (isMarker_eq_false_iff.1 hk)).2, ih hs h hrest⟩

end RecordExport
