import RecordExport.Proofs.Template.Nests
import RecordExport.Proofs.Template.Scalars
import RecordExport.Proofs.Validation.Pairing
import RecordExport.Resolver.Filling
/-!
# Gates leave no marker

A gate settles the blocks with one stem, and what it drops may hold markers of other stems. The check of a
template pairs the markers of each stem by themselves, so it cannot see that blocks with different stems
cross; nor does it see what a text comes to where a marker is taken out of it. If the blocks nest, and no
marker stands behind the beginning of a placeholder, gates leave no marker.

* `leaves_ofMatch`: what is left where the markers of a block are taken out;
* `Settling.keep`: a walk leaves orderly text, whether it keeps a block or drops it;
* `gate_orderly`: **a gate leaves no marker with its stem and makes none, and the text stays orderly**;
* `unmarked_gates`: so after a gate for every stem, in any order and however they decide, there is none left.
-/

namespace RecordExport

variable {open_ out : List Text} {k : Token} {ks : List Token} {s : Text}

theorem unmarked_iff {t : Text} : Unmarked t ↔ markers t = [] := by
  unfold Unmarked markers Token.isMarker
  rw [List.filter_eq_nil_iff]
  simp

/-! ## 1. One block -/

/-- On either side of a placeholder a text has its own tokens. -/
theorem tokenize_sourceOf_of_split {t b : Text} {ls rs : List Token}
    (h : tokenize t = ls ++ .placeholder b :: rs) :
    tokenize (sourceOf ls) = ls ∧ tokenize (sourceOf rs) = rs := by
  have hright := tokenize_sourceOf_of_append h
  have hb : IsBody b := isBody_of_mem_tokenize (h ▸ List.mem_append_right ls List.mem_cons_self)
  have ht : t = sourceOf ls ++ (braced b ++ sourceOf rs) := by
    rw [← source_tokenize t, h, sourceOf_append]
    rfl
  have hsplit := tokenize_append_braced (sourceOf ls) hb (sourceOf rs)
  rw [← ht, h, hright] at hsplit
  exact ⟨(List.append_cancel_right hsplit).symm, hright⟩

/-- A block in the text it was found in: its two markers and the tokens beside them, which stand for
    themselves. -/
structure BlockMatch.Splits (m : BlockMatch) (rest o e : Text) : Prop where
  opening : m.opening = .placeholder o
  closing : m.closing = .placeholder e
  opening_body : IsBody o
  closing_body : IsBody e
  text : rest = sourceOf m.left ++ (braced o ++ (sourceOf m.inner ++ (braced e ++ sourceOf m.right)))
  left : tokenize (sourceOf m.left) = m.left
  inner : tokenize (sourceOf m.inner) = m.inner
  right : tokenize (sourceOf m.right) = m.right

theorem exists_splits {f : BlockFamily} {rest : Text} {m : BlockMatch}
    (hm : findBlock f (tokenize rest) = some m) : ∃ o e, m.Splits rest o e := by
  have htokens := (tokens_findBlock hm).1
  obtain ⟨o, e, ho, he⟩ := exists_markers_of_findBlock hm
  rw [ho, he] at htokens
  obtain ⟨hleft, hbehind⟩ := tokenize_sourceOf_of_split htokens
  obtain ⟨hinner, hright⟩ := tokenize_sourceOf_of_split hbehind
  refine ⟨o, e, ho, he, ?_, ?_, ?_, hleft, hinner, hright⟩
  · refine isBody_of_mem_tokenize (t := rest) ?_
    rw [htokens]
    simp
  · refine isBody_of_mem_tokenize (t := rest) ?_
    rw [htokens]
    simp
  · rw [← source_tokenize rest, htokens]
    simp [Token.source]

/-- What is left where the markers of a block are taken out of a text: texts that finish nothing, with these
    markers. -/
structure Block.Leaves (b : Block) (left inner right : List Token) : Prop where
  head_finished : ¬ Unfinished b.head
  inner_finished : ¬ Unfinished b.inner
  head_guarded : Guarded b.head
  inner_guarded : Guarded b.inner
  tail_guarded : Guarded b.tail
  markers_head : markers b.head = left
  markers_inner : markers b.inner = inner
  markers_tail : markers b.tail = right

section Lines

variable {p : Token → Bool}

/-- Taking the line of a marker with it leaves the text in front as it was otherwise. -/
theorem aheadOfLine_leaves {left : Text} (inner : Text) (hfinished : ¬ Unfinished left)
    (hguarded : GuardedBy p left) :
    let head := if opensLine left inner then left.aheadOfLine else left
    ¬ Unfinished head ∧ GuardedBy p head ∧ spelled (tokenize head) = spelled (tokenize left) := by
  dsimp only
  split
  · rename_i h
    exact ⟨not_unfinished_aheadOfLine left, hguarded.aheadOfLine,
      spelled_aheadOfLine (Bool.and_eq_true_iff.1 h).1⟩
  · exact ⟨hfinished, hguarded, rfl⟩

theorem behindLine_leaves (inner : Text) {right : Text} (hguarded : GuardedBy p right) :
    let tail := if closesLine inner right then right.behindLine else right
    GuardedBy p tail ∧ spelled (tokenize tail) = spelled (tokenize right) := by
  dsimp only
  split
  · rename_i h
    exact ⟨hguarded.behindLine, spelled_behindLine (Bool.and_eq_true_iff.1 h).2⟩
  · exact ⟨hguarded, rfl⟩

theorem innerLines_leaves (left right : Text) {inner : Text} (hfinished : ¬ Unfinished inner)
    (hguarded : GuardedBy p inner) :
    ¬ Unfinished (innerLines left inner right) ∧ GuardedBy p (innerLines left inner right) ∧
      spelled (tokenize (innerLines left inner right)) = spelled (tokenize inner) := by
  unfold innerLines
  have hfront : ∀ front, front = (if opensLine left inner then inner.behindLine else inner) →
      front <:+ inner ∧ GuardedBy p front ∧ spelled (tokenize front) = spelled (tokenize inner) ∧
        (closesLine inner right = true → Text.lastLine front = Text.lastLine inner) := by
    rintro _ rfl
    split
    · rename_i h
      have hblank := (Bool.and_eq_true_iff.1 h).2
      exact ⟨List.drop_suffix _ _, hguarded.behindLine,
        spelled_behindLine (Bool.and_eq_true_iff.1 hblank).2,
        fun _ => Text.lastLine_behindLine (Text.mem_of_opensBlank hblank)⟩
    · exact ⟨List.suffix_refl _, hguarded, rfl, fun _ => rfl⟩
  obtain ⟨hsuffix, hg, hspelled, hlast⟩ := hfront _ rfl
  dsimp only
  split
  · rename_i h
    have hblank := (Bool.and_eq_true_iff.1 (Bool.and_eq_true_iff.1 h).1).2
    refine ⟨not_unfinished_aheadOfLine _, hg.aheadOfLine, (spelled_aheadOfLine ?_).trans hspelled⟩
    rw [hlast h]
    exact hblank
  · exact ⟨fun hu => hfinished (hu.of_suffix hsuffix), hg, hspelled⟩

end Lines

theorem leaves_ofMatch {f : BlockFamily} {before rest : Text} {m : BlockMatch}
    (hm : findBlock f (tokenize rest) = some m) (hfinished : ¬ Unfinished before)
    (hguarded : Guarded (before ++ rest)) :
    (Block.ofMatch before m).Leaves (markers before ++ m.left.filter Token.isMarker)
      (m.inner.filter Token.isMarker) (m.right.filter Token.isMarker) := by
  have hfirst := isFirst_of_findBlock hm
  have hclosing := isClosing_of_findClose hfirst.closed
  have hopening := hfirst.opens
  obtain ⟨o, e, hsplits⟩ := exists_splits hm
  obtain ⟨-, hhead, hinner, htail⟩ := Block.ofMatch_eq before hsplits.opening hsplits.closing
  rw [hsplits.opening] at hopening
  rw [hsplits.closing] at hclosing
  have hrest := hsplits.text
  have hmarkers : (Token.placeholder o).isMarker = true ∧ (Token.placeholder e).isMarker = true := by
    unfold BlockFamily.isOpening at hopening
    unfold BlockFamily.isClosing at hclosing
    unfold Token.isMarker
    rw [(Bool.and_eq_true_iff.1 hopening).1, (Bool.and_eq_true_iff.1 hclosing).1]
    exact ⟨rfl, Bool.or_true _⟩
  -- neither marker stands behind the beginning of a placeholder
  have hleftFinished : ¬ Unfinished (before ++ sourceOf m.left) := by
    refine hguarded _ o (sourceOf m.inner ++ (braced e ++ sourceOf m.right)) ?_
      hsplits.opening_body hmarkers.1
    rw [hrest, List.append_assoc]
  have hinnerFinished : ¬ Unfinished (sourceOf m.inner) := by
    intro h
    refine hguarded (before ++ (sourceOf m.left ++ (braced o ++ sourceOf m.inner))) e (sourceOf m.right) ?_
      hsplits.closing_body hmarkers.2 (h.of_suffix ⟨before ++ (sourceOf m.left ++ braced o), ?_⟩)
    · rw [hrest]
      simp only [List.append_assoc]
    · simp only [List.append_assoc]
  have hleftGuarded : Guarded (before ++ sourceOf m.left) := by
    refine hguarded.of_infix (x := []) (z := braced o ++ (sourceOf m.inner ++
      (braced e ++ sourceOf m.right))) ?_
    rw [hrest]
    simp only [List.append_assoc, List.nil_append]
  have hinnerGuarded : Guarded (sourceOf m.inner) := by
    refine hguarded.of_infix (x := before ++ (sourceOf m.left ++ braced o))
      (z := braced e ++ sourceOf m.right) ?_
    rw [hrest]
    simp only [List.append_assoc]
  have hrightGuarded : Guarded (sourceOf m.right) := by
    refine hguarded.of_infix
      (x := before ++ (sourceOf m.left ++ (braced o ++ (sourceOf m.inner ++ braced e)))) (z := []) ?_
    rw [hrest]
    simp only [List.append_assoc, List.append_nil]
  have hself : ∀ {ts : List Token}, tokenize (sourceOf ts) = ts →
      markers (sourceOf ts) = ts.filter Token.isMarker := fun h => congrArg _ h
  obtain ⟨hheadFinished, hheadGuarded, hheadSpelled⟩ :=
    aheadOfLine_leaves (p := Token.isMarker) (sourceOf m.inner) hleftFinished hleftGuarded
  obtain ⟨hinFinished, hinGuarded, hinSpelled⟩ := innerLines_leaves (p := Token.isMarker)
    (before ++ sourceOf m.left) (sourceOf m.right) hinnerFinished hinnerGuarded
  obtain ⟨htailGuarded, htailSpelled⟩ :=
    behindLine_leaves (p := Token.isMarker) (sourceOf m.inner) hrightGuarded
  rw [← hhead] at hheadFinished hheadGuarded hheadSpelled
  rw [← hinner] at hinFinished hinGuarded hinSpelled
  rw [← htail] at htailGuarded htailSpelled
  refine ⟨hheadFinished, hinFinished, hheadGuarded, hinGuarded, htailGuarded, ?_, ?_, ?_⟩
  · rw [markers_eq_of_spelled_eq hheadSpelled, markers_append hfinished, hself hsplits.left]
  · rw [markers_eq_of_spelled_eq hinSpelled, hself hsplits.inner]
  · rw [markers_eq_of_spelled_eq htailSpelled, hself hsplits.right]

/-! ## 2. One gate -/

/-- **The blocks of a text nest, and no marker in it stands behind the beginning of a placeholder.** -/
structure Orderly (t : Text) : Prop where
  guarded : Guarded t
  nests : Nests t

/-- A walk over the blocks with a stem, before and behind its point of an orderly text: it passed no start
    marker with the stem, and there are no markers that the text in the beginning did not have. -/
structure Settling (s t before rest : Text) : Prop where
  finished : ¬ Unfinished before
  orderly : Orderly (before ++ rest)
  passed : ∀ k ∈ markers before, (BlockFamily.ofStem s).isOpening k = false
  made : ∀ k ∈ markers (before ++ rest), k ∈ markers t

section Walk

variable {t before rest : Text}

theorem Settling.unwind (h : Settling s t before rest) :
    RecordExport.unwind [] (markers before ++ tokenize rest) = some [] := by
  have hnests := nests_iff.1 h.orderly.nests
  rw [markers_append h.finished, unwind_append] at hnests
  rw [unwind_append, ← hnests]
  exact congrArg _ (funext fun open_ => (unwind_filter open_ _).symm)

/-- A search from a start marker in the rest of the text finds its end. -/
theorem Settling.findClose (h : Settling s t before rest) {l r : List Token}
    (hrest : tokenize rest = l ++ k :: r) (ho : (BlockFamily.ofStem s).isOpening k = true) :
    RecordExport.findClose (.ofStem s) 0 r ≠ none := by
  obtain ⟨hk, hstem⟩ := isOpening_ofStem_iff.1 ho
  have hall := h.unwind
  rw [hrest, ← List.append_assoc, unwind_append, Option.bind_eq_some_iff] at hall
  obtain ⟨below, -, hall⟩ := hall
  rw [unwind_cons, nestStep_of_start hk, hstem, Option.bind_some] at hall
  exact Option.isSome_iff_ne_none.1 (findClose_of_unwind [] hall)

section Found

variable (h : Settling s t before rest) {m : BlockMatch}
  (hm : findBlock (.ofStem s) (tokenize rest) = some m)
include h hm

/-- The block nests, and what is around it nests without it. -/
theorem Settling.unwind_parts :
    ∃ open_, RecordExport.unwind [] (markers before ++ m.left.filter Token.isMarker) = some open_ ∧
      RecordExport.unwind [] (m.inner.filter Token.isMarker) = some [] ∧
      RecordExport.unwind open_ (m.right.filter Token.isMarker) = some [] := by
  have hfirst := isFirst_of_findBlock hm
  have hall := h.unwind
  rw [(tokens_findBlock hm).1, ← List.append_assoc, unwind_append, Option.bind_eq_some_iff] at hall
  obtain ⟨open_, hbehind, hblock⟩ := hall
  obtain ⟨hinside, hright⟩ := unwind_block hfirst.opens (balanced_of_findClose hfirst.closed)
    (isClosing_of_findClose hfirst.closed) hblock
  refine ⟨open_, ?_, (unwind_filter _ _).trans hinside, (unwind_filter _ _).trans hright⟩
  rw [unwind_append] at hbehind ⊢
  rw [← hbehind]
  exact congrArg _ (funext fun o => unwind_filter o _)

theorem Settling.mem_parts (hk : k ∈ markers before ++ m.left.filter Token.isMarker ∨
    k ∈ m.inner.filter Token.isMarker ∨ k ∈ m.right.filter Token.isMarker) : k ∈ markers t := by
  have htokens := (tokens_findBlock hm).1
  refine h.made k ?_
  rw [markers_append h.finished]
  have hin : ∀ part : List Token, (∀ k ∈ part, k ∈ tokenize rest) → k ∈ part.filter Token.isMarker →
      k ∈ markers before ++ markers rest := fun part hpart hk => by
    obtain ⟨hk, hmarker⟩ := List.mem_filter.1 hk
    exact List.mem_append_right _ (List.mem_filter.2 ⟨hpart k hk, hmarker⟩)
  rw [htokens] at hin
  rcases hk with hk | hk | hk
  · rcases List.mem_append.1 hk with hk | hk
    · exact List.mem_append_left _ hk
    · exact hin m.left (fun k hk => List.mem_append_left _ hk) hk
  · refine hin m.inner (fun k hk => ?_) hk
    exact List.mem_append_right _ (List.mem_cons_of_mem _ (List.mem_append_left _ hk))
  · refine hin m.right (fun k hk => ?_) hk
    exact List.mem_append_right _ (List.mem_cons_of_mem _ (List.mem_append_right _
      (List.mem_cons_of_mem _ hk)))

theorem Settling.passed_parts (hk : k ∈ markers before ++ m.left.filter Token.isMarker) :
    (BlockFamily.ofStem s).isOpening k = false := by
  rcases List.mem_append.1 hk with hk | hk
  · exact h.passed k hk
  · refine Bool.eq_false_iff.2 fun ho => ?_
    obtain ⟨l, r, hsplit⟩ := List.append_of_mem (List.mem_filter.1 hk).1
    refine h.findClose (l := l) ?_ ho ((isFirst_of_findBlock hm).passed l k r hsplit ho)
    rw [(tokens_findBlock hm).1, hsplit, List.append_assoc]
    rfl

/-- **Whether the block is kept or dropped, what is left is orderly.** -/
theorem Settling.keep (kept : Bool) :
    let b := Block.ofMatch before m
    Settling s t b.head (if kept then b.inner ++ b.tail else b.tail) := by
  have hleaves := leaves_ofMatch hm h.finished h.orderly.guarded
  obtain ⟨open_, hleft, hinside, hright⟩ := h.unwind_parts hm
  have hpassed : ∀ k ∈ markers (Block.ofMatch before m).head,
      (BlockFamily.ofStem s).isOpening k = false := fun k hk =>
    h.passed_parts hm (hleaves.markers_head ▸ hk)
  generalize Block.ofMatch before m = b at hleaves hpassed
  dsimp only
  cases kept with
  | true =>
    rw [if_pos rfl]
    have hmarkers : markers (b.head ++ (b.inner ++ b.tail)) =
        (markers before ++ m.left.filter Token.isMarker) ++
          (m.inner.filter Token.isMarker ++ m.right.filter Token.isMarker) := by
      rw [markers_append hleaves.head_finished, markers_append hleaves.inner_finished,
        hleaves.markers_head, hleaves.markers_inner, hleaves.markers_tail]
    refine ⟨hleaves.head_finished, ⟨?_, ?_⟩, hpassed, fun k hk => h.mem_parts hm ?_⟩
    · exact hleaves.head_guarded.append
        (hleaves.inner_guarded.append hleaves.tail_guarded hleaves.inner_finished) hleaves.head_finished
    · rw [nests_iff, hmarkers, unwind_append, hleft, Option.bind_some, unwind_append,
        unwind_nested hinside, Option.bind_some, hright]
    · rw [hmarkers, List.mem_append] at hk
      exact hk.imp_right List.mem_append.1
  | false =>
    rw [if_neg Bool.false_ne_true]
    have hmarkers : markers (b.head ++ b.tail) =
        (markers before ++ m.left.filter Token.isMarker) ++ m.right.filter Token.isMarker := by
      rw [markers_append hleaves.head_finished, hleaves.markers_head, hleaves.markers_tail]
    refine ⟨hleaves.head_finished, ⟨?_, ?_⟩, hpassed, fun k hk => h.mem_parts hm ?_⟩
    · exact hleaves.head_guarded.append hleaves.tail_guarded hleaves.head_finished
    · rw [nests_iff, hmarkers, unwind_append, hleft, Option.bind_some, hright]
    · rw [hmarkers, List.mem_append] at hk
      exact hk.imp_right .inr

end Found

/-- Where no block is left no marker with the stem is. -/
theorem Settling.ends (h : Settling s t before rest)
    (hm : findBlock (.ofStem s) (tokenize rest) = none) :
    ∀ k ∈ markers (before ++ rest), k.stem ≠ s := by
  have hopens : ∀ k ∈ markers before ++ tokenize rest, (BlockFamily.ofStem s).isOpening k = false := by
    intro k hk
    rcases List.mem_append.1 hk with hk | hk
    · exact h.passed k hk
    · refine Bool.eq_false_iff.2 fun ho => ?_
      obtain ⟨l, r, hsplit⟩ := List.append_of_mem hk
      exact h.findClose hsplit ho (findClose_of_findBlock_eq_none hm hsplit ho)
  have hcloses := not_isClosing_of_unwind List.not_mem_nil h.unwind hopens
  intro k hk hstem
  rw [markers_append h.finished] at hk
  have hmem : k ∈ markers before ++ tokenize rest :=
    (List.mem_append.1 hk).elim (List.mem_append_left _) fun hk =>
      List.mem_append_right _ (List.mem_filter.1 hk).1
  have hmarker : k.isMarker = true :=
    (List.mem_append.1 hk).elim (fun hk => (List.mem_filter.1 hk).2) fun hk => (List.mem_filter.1 hk).2
  refine k.marker_cases (fun hshape => ?_) (fun hshape => ?_) fun hnone => ?_
  · have ho := hopens k hmem
    rw [isOpening_ofStem_iff.2 ⟨hshape, hstem⟩] at ho
    cases ho
  · have hc := hcloses k hmem
    rw [isClosing_ofStem_iff.2 ⟨hshape, hstem⟩] at hc
    cases hc
  · rw [hmarker] at hnone
    cases hnone

theorem Settling.keepFrom (h : Settling s t before rest) (kept : Bool) :
    let out := RecordExport.keepFrom (m := Id) (.ofStem s) (fun _ => kept) before rest
    Orderly out ∧ ∀ k ∈ markers out, k ∈ markers t ∧ k.stem ≠ s := by
  have hwalk := walksBy_keepFrom (m := Id) (.ofStem s) fun _ => kept
  induction hn : rest.length using Nat.strong_induction_on generalizing before rest with
  | _ n ih =>
    cases hm : findBlock (.ofStem s) (tokenize rest) with
    | none =>
      rw [hwalk.ends hm]
      exact ⟨h.orderly, fun k hk => ⟨h.made k hk, h.ends hm k hk⟩⟩
    | some m =>
      have hlength := Block.length_ofMatch before hm
      rw [source_tokenize, hn] at hlength
      rw [hwalk.goes hm]
      refine ih _ ?_ (h.keep hm kept) rfl
      refine Nat.lt_of_le_of_lt ?_ hlength
      cases kept with
      | true => exact (List.length_append).le
      | false => exact Nat.le_add_left _ _

end Walk

/-- **A gate leaves no marker with its stem and makes none, and the text stays orderly**, whatever it
    decides. -/
theorem gate_orderly {t : Text} (h : Orderly t) (stem : String) (kept : Bool) :
    Orderly (gate stem kept t) ∧
      ∀ k ∈ markers (gate stem kept t), k ∈ markers t ∧ k.stem ≠ stem.toList := by
  have hstart : Settling stem.toList t [] t := by
    refine ⟨?_, h, fun k hk => ?_, fun k hk => hk⟩
    · rintro ⟨s, r, b, hs, hne, -⟩
      exact hne (List.suffix_nil.1 hs)
    · rw [markers_nil] at hk
      cases hk
  exact hstart.keepFrom kept

/-! ## 3. Gates for every stem -/

/-- Settle the blocks with each of the stems, one after the other. -/
def gates (decisions : List (String × Bool)) (t : Text) : Text :=
  decisions.foldl (fun t d => gate d.1 d.2 t) t

theorem gates_orderly {t : Text} (h : Orderly t) (decisions : List (String × Bool)) :
    Orderly (gates decisions t) ∧ ∀ k ∈ markers (gates decisions t),
      k ∈ markers t ∧ ∀ d ∈ decisions, k.stem ≠ d.1.toList := by
  induction decisions generalizing t with
  | nil => exact ⟨h, fun k hk => ⟨hk, fun d hd => absurd hd List.not_mem_nil⟩⟩
  | cons d decisions ih =>
    obtain ⟨hgate, hmarkers⟩ := gate_orderly h d.1 d.2
    obtain ⟨hrest, hleft⟩ := ih hgate
    refine ⟨hrest, fun k hk => ?_⟩
    obtain ⟨hin, hothers⟩ := hleft k hk
    obtain ⟨ht, hstem⟩ := hmarkers k hin
    exact ⟨ht, List.forall_mem_cons.2 ⟨hstem, hothers⟩⟩

/-- The stack of the check for a stem has what is open of the stem. -/
theorem pairing_of_unwind {ts : List Located} (opened : List Located)
    (hlength : opened.length = open_.count s) (h : unwind open_ (ts.map (·.1)) = some []) :
    ((BlockFamily.ofStem s).pairing opened ts).starts = [] ∧
      ((BlockFamily.ofStem s).pairing opened ts).ends = [] := by
  unfold BlockFamily.pairing
  induction ts generalizing open_ opened with
  | nil =>
    obtain rfl := Option.some.inj h
    obtain rfl := List.length_eq_zero_iff.1 hlength
    exact ⟨rfl, rfl⟩
  | cons t ts ih =>
    rw [List.map_cons, unwind_cons, Option.bind_eq_some_iff] at h
    obtain ⟨next, hnext, h⟩ := h
    refine t.1.marker_cases (fun hk => ?_) (fun hk => ?_) fun hk => ?_
    · rw [nestStep_of_start hk, Option.some.injEq] at hnext
      subst hnext
      by_cases hs : t.1.stem = s
      · rw [Pairing.ofMarkers_of_start (isOpening_ofStem_iff.2 ⟨hk, hs⟩)]
        refine ih _ ?_ h
        rw [hs, List.count_cons_self, List.length_cons, hlength]
      · obtain ⟨ho, hc⟩ := not_marker_ofStem_of_ne hs
        rw [Pairing.ofMarkers_of_other ho hc]
        exact ih _ (hlength.trans (List.count_cons_of_ne hs).symm) h
    · obtain rfl := (nestStep_of_end hk).1 hnext
      by_cases hs : t.1.stem = s
      · have hc := isClosing_ofStem_iff.2 ⟨hk, hs⟩
        rw [hs, List.count_cons_self] at hlength
        obtain ⟨o, opened, rfl⟩ := List.exists_cons_of_length_eq_add_one hlength
        rw [Pairing.ofMarkers_of_end_cons (BlockFamily.not_isOpening_of_isClosing hc) hc]
        exact ih _ (Nat.succ.inj hlength) h
      · obtain ⟨ho, hc⟩ := not_marker_ofStem_of_ne hs
        rw [Pairing.ofMarkers_of_other ho hc]
        exact ih _ (hlength.trans (List.count_cons_of_ne hs)) h
    · rw [nestStep_of_other hk, Option.some.injEq] at hnext
      subst hnext
      obtain ⟨ho, hc⟩ := not_claims_of_unmarked (f := .ofStem s) (isMarker_eq_false_iff.1 hk)
      rw [Pairing.ofMarkers_of_other ho hc]
      exact ih _ hlength h

/-- Nothing is wrong with the markers of nesting text. -/
theorem pairStems_of_nests {t : Text} (h : Nests t) : pairStems (locate t) = [] := by
  refine List.flatMap_eq_nil_iff.2 fun s _ => ?_
  have hopens : (fun k : Token => decide (k.shape = .blockStart) && decide (k.stem = s)) =
      (BlockFamily.ofStem s).isOpening := funext fun k => Bool.eq_iff_iff.2 (by
    rw [isOpening_ofStem_iff, Bool.and_eq_true, decide_eq_true_eq, decide_eq_true_eq])
  have hcloses : (fun k : Token => decide (k.shape = .blockEnd) && decide (k.stem = s)) =
      (BlockFamily.ofStem s).isClosing := funext fun k => Bool.eq_iff_iff.2 (by
    rw [isClosing_ofStem_iff, Bool.and_eq_true, decide_eq_true_eq, decide_eq_true_eq])
  have hunwind : unwind [] ((locate t).map (·.1)) = some [] := by
    rw [map_locate]
    exact h
  rw [hopens, hcloses]
  exact pairMarkers_eq_nil (pairing_of_unwind [] rfl hunwind)

/-- **Gates for every stem leave no marker.** In a text whose blocks nest, and in which no marker stands
    behind the beginning of a placeholder, the check finds nothing wrong with the markers; and however the
    blocks with each stem are decided, one stem after the other in any order, no marker is left. -/
theorem unmarked_gates {t : Text} (h : Orderly t) (decisions : List (String × Bool))
    (hall : ∀ k ∈ markers t, ∃ d ∈ decisions, k.stem = d.1.toList) :
    (∀ i ∈ validate [] t, ∃ s, i = .unterminated s) ∧ Unmarked (gates decisions t) := by
  constructor
  · intro i hi
    rcases mem_validate.1 hi with hi | hi | hi
    · cases hi
    · rw [show (pairFamilies [] (locate t)).2 = locate t from rfl, pairStems_of_nests h.nests] at hi
      cases hi
    · exact exists_of_mem_literalTokenIssues hi
  · refine unmarked_iff.2 (List.eq_nil_iff_forall_not_mem.2 fun k hk => ?_)
    obtain ⟨ht, hothers⟩ := (gates_orderly h decisions).2 k hk
    obtain ⟨d, hd, hstem⟩ := hall k ht
    exact hothers d hd hstem

/-- A block in a block, on lines of their own. -/
def nestedBlocks : Text :=
  "x\n".toList ++ (braced "A_Start".toList ++ ("\n  ".toList ++ (braced "B_Start".toList ++ ("y".toList ++
    (braced "B_End".toList ++ ("\n".toList ++ (braced "A_End".toList ++ "\n".toList)))))))

theorem unmarked_gates_nestedBlocks :
    (∀ i ∈ validate [] nestedBlocks, ∃ s, i = .unterminated s) ∧
      Unmarked (gates [("B", true), ("A", false)] nestedBlocks) := by
  refine unmarked_gates ⟨guarded_of_guardedFrom (by decide +kernel), ?_⟩ _ ?_
  · unfold Nests
    decide +kernel
  · decide +kernel

/-- Blocks with different stems that cross, and a marker that comes together where a block goes: the check
    finds nothing wrong with either text, and gates for every stem leave a marker. -/
theorem gates_leave_marker :
    let crossing := braced "A_Start".toList ++ (braced "B_Start".toList ++
      (braced "A_End".toList ++ braced "B_End".toList))
    let glued := '{' :: (braced "A_Start".toList ++ (braced "A_End".toList ++ "\x7bB_Start\x7d\x7d".toList))
    (validate [] crossing = [] ∧ stems (locate crossing) = ["A".toList, "B".toList] ∧
      ¬ Unmarked (gates [("A", false), ("B", false)] crossing)) ∧
      validate [] glued = [] ∧ stems (locate glued) = ["A".toList] ∧
        ¬ Unmarked (gates [("A", false)] glued) := by
  intro crossing glued
  have hcrossing : gates [("A", false), ("B", false)] crossing = braced "B_End".toList := by
    decide +kernel
  have hglued : gates [("A", false)] glued = braced "B_Start".toList := by decide +kernel
  rw [hcrossing, hglued]
  refine ⟨⟨validate_eq_nil_iff.2 ?_, ?_, fun h => ?_⟩, validate_eq_nil_iff.2 ?_, ?_, fun h => ?_⟩
  · decide +kernel
  · decide +kernel
  · exact (h (.placeholder "B_End".toList) (by decide +kernel)).2 (by decide +kernel)
  · decide +kernel
  · decide +kernel
  · exact (h (.placeholder "B_Start".toList) (by decide +kernel)).1 (by decide +kernel)

end RecordExport
