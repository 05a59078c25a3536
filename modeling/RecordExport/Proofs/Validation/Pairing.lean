import RecordExport.Proofs.Template.Pairs
import RecordExport.Proofs.Validation.Issues
/-!
# The check and the walk pair alike

The check of a template pairs the markers of a family with a stack over the whole text. The walk over blocks
looks for the end of a block with a counter, from one start marker after the other, and goes past a start
marker that it finds no end for. They agree on every text, however many start or end markers are left over.

* `balanced_of_findClose`: what stands in front of the end marker a search finds is balanced, and
  `BlockFamily.pairing_append_of_balanced`: there the stack ends where it began;
* `BlockFamily.mem_starts_of_findClose`: where the search finds nothing, the stack never closes the marker;
* `BlockWalk.selects_next`: **the walk stops at the leftmost start marker that the check does not report, and
  at the end marker that the check pairs it with**; it finds nothing where the check reports all.
-/

namespace RecordExport

variable {f : BlockFamily}

/-! ## 1. What a search finds -/

/-- A search for the end of several blocks ends the inner ones first. -/
theorem findClose_succ (depth : Nat) (ts : List Token) :
    findClose f (depth + 1) ts = (findClose f depth ts).bind fun c =>
      (findClose f 0 c.right).map fun m => { m with inner := c.inner ++ c.marker :: m.inner } := by
  induction ts generalizing depth with
  | nil => rfl
  | cons t ts ih =>
    -- a token that goes into the contents does so on both sides
    have hinto : ∀ d, ((findClose f (d + 1) ts).map fun m => { m with inner := t :: m.inner }) =
        (((findClose f d ts).map fun m => { m with inner := t :: m.inner }).bind fun c =>
          (findClose f 0 c.right).map fun m => { m with inner := c.inner ++ c.marker :: m.inner }) := by
      intro d
      rw [ih]
      cases findClose f d ts with
      | none => rfl
      | some c =>
        simp only [Option.bind_some, Option.map_some, Option.map_map]
        rfl
    by_cases ho : f.isOpening t = true
    · rw [findClose_of_opening ho, findClose_of_opening ho, hinto]
    · rw [Bool.not_eq_true] at ho
      by_cases hc : f.isClosing t = true
      · rw [findClose_of_closing_succ hc]
        cases depth with
        | zero => rw [findClose_of_closing hc, Option.bind_some]; rfl
        | succ d => rw [findClose_of_closing_succ hc, hinto]
      · rw [Bool.not_eq_true] at hc
        rw [findClose_of_other ho hc, findClose_of_other ho hc, hinto]

/-- **What stands in front of the end marker that a search finds is balanced.** -/
theorem balanced_of_findClose {ts : List Token} {m : CloseMatch} (h : findClose f 0 ts = some m) :
    Balanced f m.inner := by
  induction hn : ts.length using Nat.strong_induction_on generalizing ts m with
  | _ n ih =>
    cases ts with
    | nil => cases h
    | cons t ts =>
      by_cases ho : f.isOpening t = true
      · -- a block inside: its contents and what is behind it are shorter
        rw [findClose_of_opening ho, findClose_succ, Option.map_eq_some_iff] at h
        obtain ⟨m', hm', rfl⟩ := h
        obtain ⟨c, hc, hm'⟩ := Option.bind_eq_some_iff.1 hm'
        obtain ⟨m, hm, rfl⟩ := Option.map_eq_some_iff.1 hm'
        have htokens := congrArg List.length (tokens_findClose hc)
        simp only [List.length_append, List.length_cons] at htokens hn
        exact .block ho (ih _ (by omega) hc rfl) (isClosing_of_findClose hc) (ih _ (by omega) hm rfl)
      · rw [Bool.not_eq_true] at ho
        by_cases hc : f.isClosing t = true
        · rw [findClose_of_closing hc] at h
          obtain rfl := Option.some.inj h
          exact .nil
        · rw [Bool.not_eq_true] at hc
          rw [findClose_of_other ho hc, Option.map_eq_some_iff] at h
          obtain ⟨m, hm, rfl⟩ := h
          simp only [List.length_cons] at hn
          exact .other ho hc (ih _ (by omega) hm rfl)

/-- A match that begins at the first start marker a search finds the end for. -/
structure BlockMatch.IsFirst (f : BlockFamily) (m : BlockMatch) : Prop where
  opens : f.isOpening m.opening = true
  captures : f.opens.captures m.opening.name = some m.captures
  closed : findClose f 0 (m.inner ++ m.closing :: m.right) = some ⟨m.inner, m.closing, m.right⟩
  passed : ∀ l o r, m.left = l ++ o :: r → f.isOpening o = true →
    findClose f 0 (r ++ m.opening :: (m.inner ++ m.closing :: m.right)) = none

theorem isFirst_of_findBlock {ts : List Token} {m : BlockMatch} (h : findBlock f ts = some m) :
    m.IsFirst f := by
  induction ts generalizing m with
  | nil => cases h
  | cons t ts ih =>
    -- the token stands in front of the match
    have hskip : f.isOpening t = false ∨ findClose f 0 ts = none → m.IsFirst f := by
      intro hopen
      rw [findBlock_cons_of_open hopen] at h
      obtain ⟨m', hm', rfl⟩ := Option.map_eq_some_iff.1 h
      have hfirst := ih hm'
      refine ⟨hfirst.opens, hfirst.captures, hfirst.closed, fun l o r hl ho => ?_⟩
      cases l with
      | nil =>
        obtain ⟨rfl, rfl⟩ := List.cons.inj hl
        have hnone := hopen.resolve_left (by rw [ho]; exact Bool.false_ne_true.symm)
        rwa [(tokens_findBlock hm').1] at hnone
      | cons x l => exact hfirst.passed l o r (List.cons.inj hl).2 ho
    by_cases ho : f.isOpening t = true
    · cases hclose : findClose f 0 ts with
      | none => exact hskip (.inr hclose)
      | some c =>
        obtain ⟨cs, hcs, hfound⟩ := findBlock_cons_of_closed ho hclose
        obtain rfl := Option.some.inj (hfound.symm.trans h)
        refine ⟨ho, hcs, ?_, fun l o r hl => absurd hl (by simp)⟩
        rwa [tokens_findClose hclose] at hclose
    · exact hskip (.inl (Bool.eq_false_iff.2 ho))

/-- There is no block where the search finds no end for any start marker. -/
theorem findClose_of_findBlock_eq_none {ts : List Token} (h : findBlock f ts = none) {l r : List Token}
    {o : Token} (hts : ts = l ++ o :: r) (ho : f.isOpening o = true) : findClose f 0 r = none := by
  induction ts generalizing l with
  | nil => simp at hts
  | cons t ts ih =>
    have hnone : f.isOpening t = true → findClose f 0 ts = none := fun ht => by
      cases hclose : findClose f 0 ts with
      | none => rfl
      | some c =>
        obtain ⟨cs, -, hfound⟩ := findBlock_cons_of_closed ht hclose
        rw [hfound] at h
        cases h
    cases l with
    | nil =>
      obtain ⟨rfl, rfl⟩ := List.cons.inj hts
      exact hnone ho
    | cons x l =>
      have hopen : f.isOpening t = false ∨ findClose f 0 ts = none := by
        cases ht : f.isOpening t with
        | false => exact .inl rfl
        | true => exact .inr (hnone ht)
      rw [findBlock_cons_of_open hopen, Option.map_eq_none_iff] at h
      exact ih h (List.cons.inj hts).2

/-! ## 2. The stack -/

namespace BlockFamily

/-- The markers of the family, paired with a stack. -/
def pairing (f : BlockFamily) (open_ ts : List Located) : Pairing :=
  .ofMarkers f.isOpening f.isClosing open_ ts

end BlockFamily

/-- A pairing behind markers that made pairs and left end markers over. -/
def Pairing.behind (p : Pairing) (pairs : List (Located × Located)) (ends : List Located) : Pairing :=
  ⟨pairs ++ p.pairs, p.starts, ends ++ p.ends⟩

namespace BlockFamily

/-- The stack goes on behind a text with what was left open there. -/
theorem exists_pairing_append (f : BlockFamily) (open_ ls : List Located) :
    ∃ open' pairs ends, ∀ ts, f.pairing open_ (ls ++ ts) = (f.pairing open' ts).behind pairs ends := by
  unfold pairing
  induction ls generalizing open_ with
  | nil => exact ⟨open_, [], [], fun ts => rfl⟩
  | cons t ls ih =>
    induction open_, t using Pairing.ofMarkers_cases f.isOpening f.isClosing with
    | start open_ t hs =>
      obtain ⟨open', pairs, ends, h⟩ := ih (t :: open_)
      exact ⟨open', pairs, ends, fun ts => (Pairing.ofMarkers_of_start hs).trans (h ts)⟩
    | endNil t hs he =>
      obtain ⟨open', pairs, ends, h⟩ := ih []
      refine ⟨open', pairs, t :: ends, fun ts => (Pairing.ofMarkers_of_end_nil hs he).trans ?_⟩
      rw [List.append_eq, h]
      rfl
    | endCons o open_ t hs he =>
      obtain ⟨open', pairs, ends, h⟩ := ih open_
      refine ⟨open', (o, t) :: pairs, ends, fun ts => (Pairing.ofMarkers_of_end_cons hs he).trans ?_⟩
      rw [List.append_eq, h]
      rfl
    | other open_ t hs he =>
      obtain ⟨open', pairs, ends, h⟩ := ih open_
      exact ⟨open', pairs, ends, fun ts => (Pairing.ofMarkers_of_other hs he).trans (h ts)⟩

/-- **Behind what is balanced the stack is as it was.** -/
theorem pairing_append_of_balanced {ls : List Located} (h : Balanced f (ls.map (·.1)))
    (open_ ts : List Located) :
    f.pairing open_ (ls ++ ts) = (f.pairing open_ ts).behind (f.pairing [] ls).pairs [] := by
  unfold pairing
  generalize hls : ls.map (·.1) = tokens at h
  induction h generalizing ls open_ ts with
  | nil =>
    obtain rfl := List.map_eq_nil_iff.1 hls
    rfl
  | other ho hc _ ih =>
    obtain ⟨t, ls, rfl, rfl, hrest⟩ := List.map_eq_cons_iff.1 hls
    rw [List.cons_append, Pairing.ofMarkers_of_other ho hc, Pairing.ofMarkers_of_other ho hc]
    exact ih _ _ hrest
  | block ho _ hc _ ihi ihr =>
    obtain ⟨o, ls, rfl, rfl, hbody⟩ := List.map_eq_cons_iff.1 hls
    obtain ⟨inner, ls, rfl, hinner, hend⟩ := List.map_eq_append_iff.1 hbody
    obtain ⟨e, rest, rfl, rfl, hrest⟩ := List.map_eq_cons_iff.1 hend
    have hnot := f.not_isOpening_of_isClosing hc
    rw [List.cons_append, List.append_assoc, Pairing.ofMarkers_of_start ho,
      Pairing.ofMarkers_of_start ho, ihi _ _ hinner, ihi _ _ hinner, List.cons_append,
      Pairing.ofMarkers_of_end_cons hnot hc, Pairing.ofMarkers_of_end_cons hnot hc, ihr _ _ hrest]
    simp [Pairing.behind]

/-- Nothing is left over of what is balanced. -/
theorem pairing_of_balanced {ls : List Located} (h : Balanced f (ls.map (·.1))) :
    (f.pairing [] ls).starts = [] ∧ (f.pairing [] ls).ends = [] := by
  have happend := pairing_append_of_balanced h [] []
  rw [List.append_nil] at happend
  rw [happend]
  exact ⟨rfl, rfl⟩

/-- **Induction on tokens that leave markers open**: the search for their ends finds none, so no end is met that
    is not the end of a marker opened before it. -/
theorem induct_unclosed {motive : List Located → List Located → Prop} (nil : ∀ os, motive os [])
    (start : ∀ os t ts, f.isOpening t.1 = true → motive (t :: os) ts → motive os (t :: ts))
    (close : ∀ p os t ts, f.isOpening t.1 = false → f.isClosing t.1 = true → motive os ts →
      motive (p :: os) (t :: ts))
    (other : ∀ os t ts, f.isOpening t.1 = false → f.isClosing t.1 = false → motive os ts → motive os (t :: ts))
    (os : List Located) {ts : List Located} (h : findClose f os.length (ts.map (·.1)) = none) : motive os ts := by
  induction ts generalizing os with
  | nil => exact nil os
  | cons t ts ih =>
    rw [List.map_cons] at h
    by_cases ho : f.isOpening t.1 = true
    · rw [findClose_of_opening ho, Option.map_eq_none_iff] at h
      exact start os t ts ho (ih (t :: os) h)
    · rw [Bool.not_eq_true] at ho
      by_cases hc : f.isClosing t.1 = true
      · cases os with
        | nil =>
          rw [List.length_nil, findClose_of_closing hc] at h
          cases h
        | cons p os =>
          rw [List.length_cons, findClose_of_closing_succ hc, Option.map_eq_none_iff] at h
          exact close p os t ts ho hc (ih os h)
      · rw [Bool.not_eq_true] at hc
        rw [findClose_of_other ho hc, Option.map_eq_none_iff] at h
        exact other os t ts ho hc (ih os h)

/-- **Where the search for its end finds nothing the stack never closes a start marker.** -/
theorem mem_starts_of_findClose (os : List Located) {o : Located} {open_ ts : List Located}
    (h : findClose f os.length (ts.map (·.1)) = none) :
    o ∈ (f.pairing (os ++ o :: open_) ts).starts := by
  refine induct_unclosed (motive := fun os ts => o ∈ (f.pairing (os ++ o :: open_) ts).starts) ?_ ?_ ?_ ?_ os h
  all_goals unfold pairing
  · exact fun os => by simp [Pairing.ofMarkers]
  · intro os t ts ho ih
    rw [Pairing.ofMarkers_of_start ho]
    exact ih
  · intro p os t ts ho hc ih
    rw [List.cons_append, Pairing.ofMarkers_of_end_cons ho hc]
    exact ih
  · intro os t ts ho hc ih
    rw [Pairing.ofMarkers_of_other ho hc]
    exact ih

end BlockFamily

/-! ## 3. What is reported -/

section Reported

variable {t : Text} {x : Located}

/-- The issue of a marker that the family claims is one that its stack leaves over. -/
theorem mem_pairing_of_mem_validate (hx : x ∈ locate t) (hclaims : f.claims x.1 = true) {i : Issue}
    (hspan : i.span = x.2) (hi : i ∈ validate [f] t) (hmarker : ∀ s, i ≠ .unterminated s) :
    i ∈ (f.pairing [] (locate t)).issues := by
  rcases mem_validate.1 hi with hi | hi | hi
  · rw [pairFamilies, pairFamilies, List.append_nil, Pairing.pairMarkers_eq] at hi
    exact hi
  · obtain ⟨y, hy, hyspan⟩ := exists_of_mem_pairStems hi
    obtain ⟨hyt, hunclaimed⟩ := List.mem_filter.1 hy
    obtain rfl := eq_of_span_eq hx hyt (hspan.symm.trans hyspan)
    rw [hclaims] at hunclaimed
    cases hunclaimed
  · obtain ⟨s, rfl⟩ := exists_of_mem_literalTokenIssues hi
    exact absurd rfl (hmarker s)

theorem mem_validate_of_mem_pairing {i : Issue} (h : i ∈ (f.pairing [] (locate t)).issues) :
    i ∈ validate [f] t := by
  refine mem_validate.2 (.inl ?_)
  rw [pairFamilies, pairFamilies, List.append_nil, Pairing.pairMarkers_eq]
  exact h

theorem BlockFamily.claims_of_isOpening {k : Token} (h : f.isOpening k = true) : f.claims k = true := by
  rw [claims, h]
  rfl

theorem unmatchedStart_mem_validate_iff (hx : x ∈ locate t) (hclaims : f.claims x.1 = true) :
    .unmatchedStart x.1.name x.2 ∈ validate [f] t ↔ x ∈ (f.pairing [] (locate t)).starts := by
  constructor
  · intro h
    have hi := mem_pairing_of_mem_validate hx hclaims rfl h fun s hs => by cases hs
    rcases List.mem_append.1 hi with hi | hi
    · obtain ⟨y, -, hy⟩ := List.mem_map.1 hi
      cases hy
    · obtain ⟨y, hy, heq⟩ := List.mem_map.1 hi
      rcases Pairing.mem_of_mem_starts hy with hopen | ⟨hyt, -⟩
      · cases hopen
      · rwa [eq_of_span_eq hx hyt (congrArg Issue.span heq).symm]
  · intro h
    exact mem_validate_of_mem_pairing (List.mem_append_right _ (List.mem_map_of_mem h))

theorem unmatchedEnd_mem_validate_iff (hx : x ∈ locate t) (hclaims : f.claims x.1 = true) :
    .unmatchedEnd x.1.name x.2 ∈ validate [f] t ↔ x ∈ (f.pairing [] (locate t)).ends := by
  constructor
  · intro h
    have hi := mem_pairing_of_mem_validate hx hclaims rfl h fun s hs => by cases hs
    rcases List.mem_append.1 hi with hi | hi
    · obtain ⟨y, hy, heq⟩ := List.mem_map.1 hi
      rwa [eq_of_span_eq hx (Pairing.mem_of_mem_ends hy).1 (congrArg Issue.span heq).symm]
    · obtain ⟨y, -, hy⟩ := List.mem_map.1 hi
      cases hy
  · intro h
    exact mem_validate_of_mem_pairing (List.mem_append_left _ (List.mem_map_of_mem h))

/-- A start marker in a pair is not left over. -/
theorem not_mem_starts_of_mem_pairs {p : Located × Located}
    (h : p ∈ (f.pairing [] (locate t)).pairs) : p.1 ∉ (f.pairing [] (locate t)).starts := by
  intro hleft
  have hperm := Pairing.perm_starts f.isOpening f.isClosing [] (locate t)
  have hnodup := hperm.nodup_iff.2 ((nodup_locate t).filter _)
  exact (List.disjoint_of_nodup_append hnodup) (List.mem_map_of_mem h) hleft

/-- An end marker in a pair is not left over. -/
theorem not_mem_ends_of_mem_pairs {p : Located × Located}
    (h : p ∈ (f.pairing [] (locate t)).pairs) : p.2 ∉ (f.pairing [] (locate t)).ends := by
  intro hleft
  have hperm := Pairing.perm_ends f.isOpening f.isClosing [] (locate t)
  have hnodup := hperm.nodup_iff.2 ((nodup_locate t).filter _)
  exact (List.disjoint_of_nodup_append hnodup) (List.mem_map_of_mem h) hleft

end Reported

theorem claims_of_blockStart {f : BlockFamily} {k : Token} (h : k.shape = .blockStart) :
    f.isOpening k = f.opens.isMatch k.name ∧ f.isClosing k = false ∧
      f.claims k = f.opens.isMatch k.name := by
  unfold BlockFamily.claims BlockFamily.isOpening BlockFamily.isClosing
  rw [h]
  simp

theorem claims_of_blockEnd {f : BlockFamily} {k : Token} (h : k.shape = .blockEnd) :
    f.isOpening k = false ∧ f.isClosing k = f.closes.isMatch k.name ∧
      f.claims k = f.closes.isMatch k.name := by
  unfold BlockFamily.claims BlockFamily.isOpening BlockFamily.isClosing
  rw [h]
  simp

/-- Nothing is reported where nothing is left over. -/
theorem pairMarkers_eq_nil {f : BlockFamily} {ts : List Located}
    (h : (f.pairing [] ts).starts = [] ∧ (f.pairing [] ts).ends = []) :
    pairMarkers f.isOpening f.isClosing [] ts = [] := by
  unfold BlockFamily.pairing at h
  rw [Pairing.pairMarkers_eq, Pairing.issues, h.1, h.2]
  rfl

/-- What is balanced is not reported. -/
theorem pairMarkers_of_balanced {f : BlockFamily} {ts : List Located}
    (h : Balanced f (ts.map (·.1))) : pairMarkers f.isOpening f.isClosing [] ts = [] :=
  pairMarkers_eq_nil (BlockFamily.pairing_of_balanced h)

theorem pairFamilies_of_unclaimed {fs : List BlockFamily} {ts : List Located}
    (h : ∀ f ∈ fs, ∀ t ∈ ts, f.claims t.1 = false) : pairFamilies fs ts = ([], ts) := by
  induction fs with
  | nil => rfl
  | cons f fs ih =>
    have hnone : ∀ t ∈ ts, f.isOpening t.1 = false ∧ f.isClosing t.1 = false := fun t ht =>
      Bool.or_eq_false_iff.1 (h f List.mem_cons_self t ht)
    have hself : ts.filter (fun t => !f.claims t.1) = ts :=
      List.filter_eq_self.2 fun t ht => by rw [h f List.mem_cons_self t ht]; rfl
    have hpaired : pairMarkers f.isOpening f.isClosing [] ts = [] :=
      pairMarkers_of_balanced (balanced_of_not_marker fun t ht => by
        obtain ⟨x, hx, rfl⟩ := List.mem_map.1 ht
        exact hnone x hx)
    rw [pairFamilies, hself, hpaired, ih fun f hf => h f (List.mem_cons_of_mem _ hf)]
    rfl

/-! ## 4. What the walk selects -/

theorem Block.captures_ofMatch (before : Text) (m : BlockMatch) :
    (ofMatch before m).captures = m.captures := by
  unfold ofMatch
  dsimp only
  split <;> rfl

/-- **A block as the check sees it**: the tokens before its start marker, the marker, the tokens in it, its
    end marker and the tokens behind. -/
structure Block.Between (f : BlockFamily) (t : Text) (b : Block) (left : List Located) (o : Located)
    (inner : List Located) (e : Located) (right : List Located) : Prop where
  tokens : locate t = left ++ o :: (inner ++ e :: right)
  eq : b = .ofMatch [] ⟨b.captures, left.map (·.1), o.1, inner.map (·.1), e.1, right.map (·.1)⟩
  captures : f.opens.captures o.1.name = some b.captures
  opens : f.isOpening o.1 = true
  closes : f.isClosing e.1 = true
  /-- the start markers before it are reported -/
  passed : ∀ x ∈ left, f.isOpening x.1 = true → .unmatchedStart x.1.name x.2 ∈ validate [f] t
  /-- its own is not -/
  selected : .unmatchedStart o.1.name o.2 ∉ validate [f] t
  /-- the check pairs its two markers -/
  paired : (o, e) ∈ (f.pairing [] (locate t)).pairs
  /-- and reports no marker in it -/
  inside : ∀ x ∈ inner, f.claims x.1 = true → .unmatchedStart x.1.name x.2 ∉ validate [f] t ∧
    .unmatchedEnd x.1.name x.2 ∉ validate [f] t

/-- A start marker whose end a search does not find is reported. -/
theorem unmatchedStart_mem_of_findClose {t : Text} (left right : List Located) {o : Located}
    (ht : locate t = left ++ o :: right) (ho : f.isOpening o.1 = true)
    (h : findClose f 0 (right.map (·.1)) = none) : .unmatchedStart o.1.name o.2 ∈ validate [f] t := by
  have hmem : o ∈ locate t := ht ▸ List.mem_append_right _ List.mem_cons_self
  refine (unmatchedStart_mem_validate_iff hmem (f.claims_of_isOpening ho)).2 ?_
  obtain ⟨open', pairs, ends, hbehind⟩ := f.exists_pairing_append [] left
  have hstart : f.pairing open' (o :: right) = f.pairing (o :: open') right :=
    Pairing.ofMarkers_of_start ho
  rw [ht, hbehind, hstart]
  exact BlockFamily.mem_starts_of_findClose [] h

section Selected

variable {t : Text} {captures : List Text} {left inner right : List Located} {o e : Located}
  (ht : locate t = left ++ o :: (inner ++ e :: right))
  (h : BlockMatch.IsFirst f
    ⟨captures, left.map (·.1), o.1, inner.map (·.1), e.1, right.map (·.1)⟩)
include ht h

/-- The stack pairs the two markers, and the markers between them as it does by themselves. -/
theorem mem_pairs_of_isFirst {p : Located × Located}
    (hp : p = (o, e) ∨ p ∈ (f.pairing [] inner).pairs) : p ∈ (f.pairing [] (locate t)).pairs := by
  have hclosing : f.isClosing e.1 = true := isClosing_of_findClose h.closed
  obtain ⟨open', pairs, ends, hbehind⟩ := f.exists_pairing_append [] left
  have hstart : f.pairing open' (o :: (inner ++ e :: right)) =
      f.pairing (o :: open') (inner ++ e :: right) := Pairing.ofMarkers_of_start h.opens
  have hend : f.pairing (o :: open') (e :: right) = (f.pairing open' right).behind [(o, e)] [] :=
    Pairing.ofMarkers_of_end_cons (f.not_isOpening_of_isClosing hclosing) hclosing
  rw [ht, hbehind, hstart, BlockFamily.pairing_append_of_balanced (balanced_of_findClose h.closed), hend]
  refine List.mem_append_right _ ?_
  rcases hp with rfl | hp
  · exact List.mem_append_right _ List.mem_cons_self
  · exact List.mem_append_left _ hp

/-- A marker between the two is in a pair. -/
theorem mem_pairs_of_mem_inner {x : Located} (hx : x ∈ inner) (hclaims : f.claims x.1 = true) :
    (f.isOpening x.1 = true ∧ ∃ y, (x, y) ∈ (f.pairing [] (locate t)).pairs) ∨
      (f.isOpening x.1 = false ∧ ∃ y, (y, x) ∈ (f.pairing [] (locate t)).pairs) := by
  obtain ⟨hstarts, hends⟩ := BlockFamily.pairing_of_balanced (balanced_of_findClose h.closed)
  have hps := Pairing.perm_starts f.isOpening f.isClosing [] inner
  have hpe := Pairing.perm_ends f.isOpening f.isClosing [] inner
  unfold BlockFamily.pairing at hstarts hends
  rw [hstarts, List.append_nil] at hps
  rw [hends, List.append_nil] at hpe
  cases ho : f.isOpening x.1 with
  | true =>
    obtain ⟨⟨_, y⟩, hy, rfl⟩ := List.mem_map.1 (hps.mem_iff.2 (List.mem_filter.2 ⟨hx, ho⟩))
    exact .inl ⟨rfl, y, mem_pairs_of_isFirst ht h (.inr hy)⟩
  | false =>
    have hc : f.isClosing x.1 = true := by rwa [BlockFamily.claims, ho, Bool.false_or] at hclaims
    have hends : (!f.isOpening x.1 && f.isClosing x.1) = true := by
      rw [ho, hc]
      rfl
    obtain ⟨⟨y, _⟩, hy, rfl⟩ := List.mem_map.1 (hpe.mem_iff.2 (List.mem_filter.2 ⟨hx, hends⟩))
    exact .inr ⟨rfl, y, mem_pairs_of_isFirst ht h (.inr hy)⟩

theorem between_of_isFirst : (Block.ofMatch []
    ⟨captures, left.map (·.1), o.1, inner.map (·.1), e.1, right.map (·.1)⟩).Between f t left o inner e
      right := by
  have hpaired : (o, e) ∈ (f.pairing [] (locate t)).pairs := mem_pairs_of_isFirst ht h (.inl rfl)
  have hmem : o ∈ locate t := ht ▸ List.mem_append_right _ List.mem_cons_self
  refine ⟨ht, ?_, ?_, h.opens, isClosing_of_findClose h.closed, fun x hx ho => ?_, ?_, hpaired,
    fun x hx hclaims => ?_⟩
  · rw [Block.captures_ofMatch]
  · rw [Block.captures_ofMatch]
    exact h.captures
  · obtain ⟨l, r, rfl⟩ := List.append_of_mem hx
    have hnone := h.passed (l.map (·.1)) x.1 (r.map (·.1)) List.map_append ho
    refine unmatchedStart_mem_of_findClose l (r ++ o :: (inner ++ e :: right)) ?_ ho ?_
    · rw [ht, List.append_assoc]
      rfl
    · rw [List.map_append, List.map_cons, List.map_append]
      exact hnone
  · rw [unmatchedStart_mem_validate_iff hmem (f.claims_of_isOpening h.opens)]
    exact not_mem_starts_of_mem_pairs hpaired
  · have hxt : x ∈ locate t := by
      rw [ht]
      exact List.mem_append_right _ (List.mem_cons_of_mem _ (List.mem_append_left _ hx))
    rw [unmatchedStart_mem_validate_iff hxt hclaims, unmatchedEnd_mem_validate_iff hxt hclaims]
    rcases mem_pairs_of_mem_inner ht h hx hclaims with ⟨ho, y, hy⟩ | ⟨ho, y, hy⟩
    · refine ⟨not_mem_starts_of_mem_pairs hy, fun hends => ?_⟩
      rw [(Pairing.mem_of_mem_ends hends).2.1] at ho
      cases ho
    · refine ⟨fun hstarts => ?_, not_mem_ends_of_mem_pairs hy⟩
      rcases Pairing.mem_of_mem_starts hstarts with hopen | ⟨-, hopens⟩
      · cases hopen
      · rw [ho] at hopens
        cases hopens

end Selected

/-- **The walk over the blocks of a family pairs markers as the check does.** It finds no block just where
    the check reports every start marker. Else it stops at the leftmost start marker that is not reported, its
    block ends with the end marker that the check's stack pairs with it, and no marker in the block is
    reported. -/
theorem BlockWalk.selects_next (f : BlockFamily) (t : Text) :
    ((start f t).next.captures = none ↔
      ∀ o ∈ locate t, f.isOpening o.1 = true → .unmatchedStart o.1.name o.2 ∈ validate [f] t) ∧
    ∀ b, (start f t).next.current = some b →
      ∃ left o inner e right, b.Between f t left o inner e right := by
  have hselects : ∀ b, (start f t).next.current = some b →
      ∃ left o inner e right, b.Between f t left o inner e right := by
    intro b hb
    obtain ⟨m, hm, rfl⟩ := Option.map_eq_some_iff.1 hb
    have hfirst := isFirst_of_findBlock hm
    have htokens := (map_locate t).trans (tokens_findBlock hm).1
    obtain ⟨captures, _, _, _, _, _⟩ := m
    obtain ⟨left, _, ht, rfl, hbehind⟩ := List.map_eq_append_iff.1 htokens
    obtain ⟨o, _, rfl, rfl, hinside⟩ := List.map_eq_cons_iff.1 hbehind
    obtain ⟨inner, _, rfl, rfl, hend⟩ := List.map_eq_append_iff.1 hinside
    obtain ⟨e, right, rfl, rfl, rfl⟩ := List.map_eq_cons_iff.1 hend
    exact ⟨left, o, inner, e, right, between_of_isFirst ht hfirst⟩
  refine ⟨⟨fun hnone o ho hopens => ?_, fun hall => ?_⟩, hselects⟩
  · have hfind : findBlock f (tokenize t) = none :=
      Option.map_eq_none_iff.1 (Option.map_eq_none_iff.1 hnone)
    obtain ⟨l, r, ht⟩ := List.append_of_mem ho
    refine unmatchedStart_mem_of_findClose _ _ ht hopens
      (findClose_of_findBlock_eq_none hfind (l := l.map (·.1)) ?_ hopens)
    rw [← map_locate, ht, List.map_append, List.map_cons]
  · refine Option.map_eq_none_iff.2 ?_
    cases hcurrent : (start f t).next.current with
    | none => rfl
    | some b =>
      obtain ⟨left, o, inner, e, right, hb⟩ := hselects b hcurrent
      have hmem : o ∈ locate t := hb.tokens ▸ List.mem_append_right _ List.mem_cons_self
      exact absurd (hall o hmem hb.opens) hb.selected

end RecordExport
