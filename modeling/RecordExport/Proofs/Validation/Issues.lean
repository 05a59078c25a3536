import Mathlib.Data.List.Perm.Basic
import Mathlib.Data.List.Nodup
import RecordExport.Proofs.Template.Tokens
import RecordExport.Template.Validation
/-!
# What the check of a template reports

Issues are told by where they stand, so an issue of a marker names that marker and no other. Besides the
issues the stack of open start markers makes PAIRS, which the check does not report: each end marker with
the start marker it closes.

* `mem_validate`: an issue comes from a declared family, from the markers of a stem or from a literal;
* `pairwise_locate`, `eq_of_span_eq`: the tokens of a text stand one behind the other;
* `Pairing`: the pairs of the stack beside what it leaves over, and `pairMarkers_eq`: what it leaves over
  is what is reported;
* `Pairing.perm_starts`, `Pairing.perm_ends`: each marker is in a pair or left over, once;
* `exists_of_mem_pairMarkers`, `exists_of_mem_pairStems`, `exists_of_mem_literalTokenIssues`: whose issue
  an issue is.
-/

namespace RecordExport

/-! ## 1. The report -/

theorem mem_validate {fs : List BlockFamily} {t : Text} {i : Issue} :
    i ∈ validate fs t ↔ i ∈ (pairFamilies fs (locate t)).1 ∨ i ∈ pairStems (pairFamilies fs (locate t)).2 ∨
      i ∈ literalTokenIssues (locate t) := by
  unfold validate byPosition
  rw [List.mem_mergeSort, List.mem_append, List.mem_append, or_assoc]

/-- Nothing is wrong with a template if nothing is with its markers and its literals. -/
theorem validate_eq_nil_iff {fs : List BlockFamily} {t : Text} :
    validate fs t = [] ↔ (pairFamilies fs (locate t)).1 = [] ∧
      pairStems (pairFamilies fs (locate t)).2 = [] ∧ literalTokenIssues (locate t) = [] := by
  simp only [List.eq_nil_iff_forall_not_mem, mem_validate, not_or, forall_and]

/-! ## 2. Where tokens stand -/

theorem byteSize_pos {t : Text} (h : t ≠ []) : 0 < Text.byteSize t := by
  cases t with
  | nil => exact absurd rfl h
  | cons c t => exact Nat.add_pos_left c.utf8Size_pos _

theorem source_ne_nil_of_mem_tokenize {t : Text} {k : Token} (h : k ∈ tokenize t) : k.source ≠ [] := by
  have hjoin : ∀ c ts, (∀ k ∈ ts, Token.source k ≠ []) → ∀ k ∈ joinLiteral c ts, k.source ≠ [] := by
    intro c ts hts k hk
    unfold joinLiteral at hk
    split at hk
    · rcases List.mem_cons.1 hk with rfl | hk
      · exact List.cons_ne_nil _ _
      · exact hts k (List.mem_cons_of_mem _ hk)
    · rcases List.mem_cons.1 hk with rfl | hk
      · exact List.cons_ne_nil _ _
      · exact hts k hk
  fun_induction tokenize t generalizing k with
  | case1 => cases h
  | case2 c t body rest hcut ih =>
    rcases List.mem_cons.1 h with rfl | h
    · exact List.cons_ne_nil _ _
    · exact ih h
  | case3 c t hcut ih => exact hjoin c _ (fun k hk => ih hk) k h

theorem le_start_of_mem_spansFrom {pos : Nat} {ts : List Token} {a : Located}
    (h : a ∈ spansFrom pos ts) : pos ≤ a.2.start := by
  induction ts generalizing pos with
  | nil => cases h
  | cons k ts ih =>
    rcases List.mem_cons.1 h with rfl | h
    · exact Nat.le_refl _
    · exact Nat.le_trans (Nat.le_add_right _ _) (ih h)

theorem pairwise_spansFrom {pos : Nat} {ts : List Token} (h : ∀ k ∈ ts, k.source ≠ []) :
    (spansFrom pos ts).Pairwise fun a b => a.2.start < b.2.start := by
  induction ts generalizing pos with
  | nil => exact .nil
  | cons k ts ih =>
    refine .cons (fun b hb => ?_) (ih fun k hk => h k (List.mem_cons_of_mem _ hk))
    have hpos : 0 < k.byteSize := byteSize_pos (h k List.mem_cons_self)
    exact Nat.lt_of_lt_of_le (Nat.lt_add_of_pos_right hpos) (le_start_of_mem_spansFrom hb)

theorem map_locate (t : Text) : (locate t).map (·.1) = tokenize t := spansFrom_fst 0 _

/-- **The tokens of a text stand one behind the other.** -/
theorem pairwise_locate (t : Text) : (locate t).Pairwise fun a b => a.2.start < b.2.start :=
  pairwise_spansFrom fun _ => source_ne_nil_of_mem_tokenize

theorem nodup_starts_locate (t : Text) : ((locate t).map (·.2.start)).Nodup :=
  List.pairwise_map.2 ((pairwise_locate t).imp Nat.ne_of_lt)

theorem nodup_locate (t : Text) : (locate t).Nodup := (nodup_starts_locate t).of_map _

/-- A token is told by where it stands. -/
theorem eq_of_span_eq {t : Text} {a b : Located} (ha : a ∈ locate t) (hb : b ∈ locate t)
    (h : a.2 = b.2) : a = b :=
  List.inj_on_of_nodup_map (nodup_starts_locate t) ha hb (congrArg Span.start h)

/-! ## 3. Pairs -/

/-- What a stack of open start markers makes of the markers of one class. -/
structure Pairing where
  /-- an end marker with the start marker it closes -/
  pairs : List (Located × Located)
  /-- start markers that nothing closes -/
  starts : List Located
  /-- end markers that close nothing -/
  ends : List Located

namespace Pairing

/-- Pair the markers of one class, the start markers still open given, the latest first. -/
def ofMarkers (isStart isEnd : Token → Bool) : (open_ : List Located) → List Located → Pairing
  | open_, [] => ⟨[], open_.reverse, []⟩
  | open_, t :: ts =>
    if isStart t.1 then ofMarkers isStart isEnd (t :: open_) ts
    else if isEnd t.1 then
      match open_ with
      | [] =>
        let rest := ofMarkers isStart isEnd [] ts
        { rest with ends := t :: rest.ends }
      | o :: open_ =>
        let rest := ofMarkers isStart isEnd open_ ts
        { rest with pairs := (o, t) :: rest.pairs }
    else ofMarkers isStart isEnd open_ ts

/-- The issues of what is left over. -/
def issues (p : Pairing) : List Issue :=
  p.ends.map (fun t => .unmatchedEnd t.1.name t.2) ++ p.starts.map fun t => .unmatchedStart t.1.name t.2

variable {isStart isEnd : Token → Bool} {open_ ts : List Located} {t o : Located}

theorem ofMarkers_of_start (h : isStart t.1 = true) :
    ofMarkers isStart isEnd open_ (t :: ts) = ofMarkers isStart isEnd (t :: open_) ts := by
  rw [ofMarkers.eq_def]
  exact if_pos h

theorem ofMarkers_of_end_nil (hs : isStart t.1 = false) (he : isEnd t.1 = true) :
    ofMarkers isStart isEnd [] (t :: ts) =
      { ofMarkers isStart isEnd [] ts with ends := t :: (ofMarkers isStart isEnd [] ts).ends } := by
  rw [ofMarkers, if_neg (Bool.eq_false_iff.1 hs), if_pos he]

theorem ofMarkers_of_end_cons (hs : isStart t.1 = false) (he : isEnd t.1 = true) :
    ofMarkers isStart isEnd (o :: open_) (t :: ts) =
      { ofMarkers isStart isEnd open_ ts with
        pairs := (o, t) :: (ofMarkers isStart isEnd open_ ts).pairs } := by
  rw [ofMarkers, if_neg (Bool.eq_false_iff.1 hs), if_pos he]

theorem ofMarkers_of_other (hs : isStart t.1 = false) (he : isEnd t.1 = false) :
    ofMarkers isStart isEnd open_ (t :: ts) = ofMarkers isStart isEnd open_ ts := by
  rw [ofMarkers.eq_def]
  dsimp only
  rw [if_neg (Bool.eq_false_iff.1 hs), if_neg (Bool.eq_false_iff.1 he)]

/-- The four ways the stack goes on at a token. -/
theorem ofMarkers_cases (isStart isEnd : Token → Bool) {P : List Located → Located → Prop}
    (start : ∀ open_ t, isStart t.1 = true → P open_ t)
    (endNil : ∀ t, isStart t.1 = false → isEnd t.1 = true → P [] t)
    (endCons : ∀ o open_ t, isStart t.1 = false → isEnd t.1 = true → P (o :: open_) t)
    (other : ∀ open_ t, isStart t.1 = false → isEnd t.1 = false → P open_ t) (open_ : List Located)
    (t : Located) : P open_ t := by
  cases hs : isStart t.1 with
  | true => exact start open_ t hs
  | false =>
    cases he : isEnd t.1 with
    | false => exact other open_ t hs he
    | true =>
      cases open_ with
      | nil => exact endNil t hs he
      | cons o open_ => exact endCons o open_ t hs he

/-- A pass sees only what it takes for a marker. -/
theorem ofMarkers_filter {isStart' isEnd' : Token → Bool} {p : Located → Bool}
    (hin : ∀ x ∈ ts, p x = true → isStart x.1 = isStart' x.1 ∧ isEnd x.1 = isEnd' x.1)
    (hout : ∀ x ∈ ts, p x = false → isStart x.1 = false ∧ isEnd x.1 = false) (open_ : List Located) :
    ofMarkers isStart isEnd open_ ts = ofMarkers isStart' isEnd' open_ (ts.filter p) := by
  induction ts generalizing open_ with
  | nil => rfl
  | cons t ts ih =>
    have ih := ih (fun x hx => hin x (List.mem_cons_of_mem _ hx)) fun x hx => hout x (List.mem_cons_of_mem _ hx)
    cases hp : p t with
    | false =>
      obtain ⟨hs, he⟩ := hout t List.mem_cons_self hp
      rw [ofMarkers_of_other hs he, List.filter_cons_of_neg (Bool.eq_false_iff.1 hp), ih]
    | true =>
      obtain ⟨hs', he'⟩ := hin t List.mem_cons_self hp
      rw [List.filter_cons_of_pos hp]
      induction open_, t using ofMarkers_cases isStart isEnd with
      | start open_ t hs => rw [ofMarkers_of_start hs, ofMarkers_of_start (hs' ▸ hs), ih]
      | endNil t hs he => rw [ofMarkers_of_end_nil hs he, ofMarkers_of_end_nil (hs' ▸ hs) (he' ▸ he), ih]
      | endCons o open_ t hs he =>
        rw [ofMarkers_of_end_cons hs he, ofMarkers_of_end_cons (hs' ▸ hs) (he' ▸ he), ih]
      | other open_ t hs he => rw [ofMarkers_of_other hs he, ofMarkers_of_other (hs' ▸ hs) (he' ▸ he), ih]

/-- **What the stack leaves over is what is reported.** -/
theorem pairMarkers_eq (isStart isEnd : Token → Bool) (open_ ts : List Located) :
    pairMarkers isStart isEnd open_ ts = (ofMarkers isStart isEnd open_ ts).issues := by
  induction ts generalizing open_ with
  | nil => rfl
  | cons t ts ih =>
    induction open_, t using ofMarkers_cases isStart isEnd with
    | start open_ t hs =>
      rw [ofMarkers_of_start hs, ← ih, pairMarkers.eq_def]
      exact if_pos hs
    | endNil t hs he =>
      rw [ofMarkers_of_end_nil hs he, pairMarkers, if_neg (Bool.eq_false_iff.1 hs), if_pos he, ih]
      rfl
    | endCons o open_ t hs he =>
      rw [ofMarkers_of_end_cons hs he, pairMarkers, if_neg (Bool.eq_false_iff.1 hs), if_pos he, ih]
      rfl
    | other open_ t hs he =>
      rw [ofMarkers_of_other hs he, ← ih, pairMarkers.eq_def]
      dsimp only
      rw [if_neg (Bool.eq_false_iff.1 hs), if_neg (Bool.eq_false_iff.1 he)]

/-- **Each start marker is in a pair or left over, once.** -/
theorem perm_starts (isStart isEnd : Token → Bool) (open_ ts : List Located) :
    ((ofMarkers isStart isEnd open_ ts).pairs.map (·.1) ++ (ofMarkers isStart isEnd open_ ts).starts).Perm
      (open_ ++ ts.filter fun t => isStart t.1) := by
  induction ts generalizing open_ with
  | nil => simp [ofMarkers]
  | cons t ts ih =>
    induction open_, t using ofMarkers_cases isStart isEnd with
    | start open_ t hs =>
      rw [ofMarkers_of_start hs, List.filter_cons_of_pos (by simpa using hs)]
      exact (ih _).trans List.perm_middle.symm
    | endNil t hs he =>
      rw [ofMarkers_of_end_nil hs he, List.filter_cons_of_neg (by simpa using hs)]
      exact ih _
    | endCons o open_ t hs he =>
      rw [ofMarkers_of_end_cons hs he, List.filter_cons_of_neg (by simpa using hs)]
      exact (ih _).cons o
    | other open_ t hs he =>
      rw [ofMarkers_of_other hs he, List.filter_cons_of_neg (by simpa using hs)]
      exact ih _

/-- **Each end marker is in a pair or left over, once.** -/
theorem perm_ends (isStart isEnd : Token → Bool) (open_ ts : List Located) :
    ((ofMarkers isStart isEnd open_ ts).pairs.map (·.2) ++ (ofMarkers isStart isEnd open_ ts).ends).Perm
      (ts.filter fun t => !isStart t.1 && isEnd t.1) := by
  induction ts generalizing open_ with
  | nil => exact .nil
  | cons t ts ih =>
    induction open_, t using ofMarkers_cases isStart isEnd with
    | start open_ t hs =>
      rw [ofMarkers_of_start hs, List.filter_cons_of_neg (by rw [hs]; exact Bool.false_ne_true)]
      exact ih _
    | endNil t hs he =>
      rw [ofMarkers_of_end_nil hs he, List.filter_cons_of_pos (by rw [hs, he]; rfl)]
      exact List.perm_middle.trans ((ih _).cons t)
    | endCons o open_ t hs he =>
      rw [ofMarkers_of_end_cons hs he, List.filter_cons_of_pos (by rw [hs, he]; rfl)]
      exact (ih _).cons t
    | other open_ t hs he =>
      rw [ofMarkers_of_other hs he, List.filter_cons_of_neg (by rw [hs, he]; exact Bool.false_ne_true)]
      exact ih _

/-- What is left over was open before or is a marker met. -/
theorem mem_of_mem_starts {x : Located} (h : x ∈ (ofMarkers isStart isEnd open_ ts).starts) :
    x ∈ open_ ∨ (x ∈ ts ∧ isStart x.1 = true) := by
  have hmem := (perm_starts isStart isEnd open_ ts).mem_iff.1 (List.mem_append_right _ h)
  rcases List.mem_append.1 hmem with hmem | hmem
  · exact .inl hmem
  · exact .inr (List.mem_filter.1 hmem)

theorem mem_of_mem_ends {x : Located} (h : x ∈ (ofMarkers isStart isEnd open_ ts).ends) :
    x ∈ ts ∧ isStart x.1 = false ∧ isEnd x.1 = true := by
  have hmem := (perm_ends isStart isEnd open_ ts).mem_iff.1 (List.mem_append_right _ h)
  obtain ⟨hts, hends⟩ := List.mem_filter.1 hmem
  rw [Bool.and_eq_true, Bool.not_eq_true'] at hends
  exact ⟨hts, hends⟩

end Pairing

/-! ## 4. Whose issue it is -/

theorem exists_of_mem_pairMarkers {isStart isEnd : Token → Bool} {ts : List Located} {i : Issue}
    (h : i ∈ pairMarkers isStart isEnd [] ts) :
    ∃ x ∈ ts, (isStart x.1 = true ∧ i = .unmatchedStart x.1.name x.2) ∨
      (isStart x.1 = false ∧ isEnd x.1 = true ∧ i = .unmatchedEnd x.1.name x.2) := by
  rw [Pairing.pairMarkers_eq, Pairing.issues, List.mem_append, List.mem_map, List.mem_map] at h
  rcases h with ⟨x, hx, rfl⟩ | ⟨x, hx, rfl⟩
  · obtain ⟨hts, hs, he⟩ := Pairing.mem_of_mem_ends hx
    exact ⟨x, hts, .inr ⟨hs, he, rfl⟩⟩
  · rcases Pairing.mem_of_mem_starts hx with hopen | ⟨hts, hs⟩
    · cases hopen
    · exact ⟨x, hts, .inl ⟨hs, rfl⟩⟩

/-- An end marker is reported where no start marker of its family is left to the family. -/
theorem unmatchedEnd_mem_pairMarkers {isStart isEnd : Token → Bool} {ts : List Located}
    (h : ∀ t ∈ ts, isStart t.1 = false) {e : Located} (he : e ∈ ts) (hend : isEnd e.1 = true) :
    .unmatchedEnd e.1.name e.2 ∈ pairMarkers isStart isEnd [] ts := by
  have hstarts := Pairing.perm_starts isStart isEnd [] ts
  have hends := Pairing.perm_ends isStart isEnd [] ts
  have hnone : ts.filter (fun t => isStart t.1) = [] :=
    List.filter_eq_nil_iff.2 fun t ht => by rw [h t ht]; exact Bool.false_ne_true
  rw [hnone] at hstarts
  have hpairs : (Pairing.ofMarkers isStart isEnd [] ts).pairs = [] :=
    List.map_eq_nil_iff.1 (List.append_eq_nil_iff.1 hstarts.eq_nil).1
  rw [hpairs] at hends
  have hmem : e ∈ (Pairing.ofMarkers isStart isEnd [] ts).ends :=
    hends.mem_iff.2 (List.mem_filter.2 ⟨he, by rw [h e he, hend]; rfl⟩)
  rw [Pairing.pairMarkers_eq]
  exact List.mem_append_left _ (List.mem_map_of_mem hmem)

theorem exists_of_mem_pairStems {ts : List Located} {i : Issue} (h : i ∈ pairStems ts) :
    ∃ x ∈ ts, i.span = x.2 := by
  obtain ⟨s, -, hs⟩ := List.mem_flatMap.1 h
  obtain ⟨x, hx, ⟨-, rfl⟩ | ⟨-, -, rfl⟩⟩ := exists_of_mem_pairMarkers hs
  · exact ⟨x, hx, rfl⟩
  · exact ⟨x, hx, rfl⟩

/-- A literal is only found to be cut short. -/
theorem exists_of_mem_literalTokenIssues {ts : List Located} {i : Issue}
    (h : i ∈ literalTokenIssues ts) : ∃ s, i = .unterminated s := by
  obtain ⟨x, -, hi⟩ := List.mem_flatMap.1 h
  cases hx : x.1 with
  | placeholder b =>
    rw [hx] at hi
    cases hi
  | literal l =>
    rw [hx] at hi
    dsimp only at hi
    generalize x.2.start = pos at hi
    clear hx
    fun_induction literalIssues pos l with
    | case1 pos t others hopens ih =>
      rcases List.mem_cons.1 hi with rfl | hi
      · exact ⟨_, rfl⟩
      · exact ih hi
    | case2 pos t others hopens ih => exact ih hi
    | case3 pos c t hbrace ih => exact ih hi
    | case4 => cases hi

/-! ## 5. Families and stems -/

theorem pairFamilies_append (fs gs : List BlockFamily) (ts : List Located) :
    pairFamilies (fs ++ gs) ts =
      ((pairFamilies fs ts).1 ++ (pairFamilies gs (pairFamilies fs ts).2).1,
        (pairFamilies gs (pairFamilies fs ts).2).2) := by
  induction fs generalizing ts with
  | nil => rfl
  | cons f fs ih =>
    rw [List.cons_append, pairFamilies, pairFamilies, ih]
    simp only [List.append_assoc]

/-- Families get what the families before them do not claim. -/
theorem pairFamilies_snd (fs : List BlockFamily) (ts : List Located) :
    (pairFamilies fs ts).2 = ts.filter fun t => fs.all fun f => !f.claims t.1 := by
  induction fs generalizing ts with
  | nil => exact (List.filter_eq_self.2 fun _ _ => rfl).symm
  | cons f fs ih =>
    rw [pairFamilies, ih, List.filter_filter]
    exact List.filter_congr fun t _ => Bool.and_comm _ _

/-- The text has no start marker and no end marker. -/
def Unmarked (t : Text) : Prop := ∀ k ∈ tokenize t, k.shape ≠ .blockStart ∧ k.shape ≠ .blockEnd

theorem pairStems_of_unmarked {ls : List Located}
    (hls : ∀ t ∈ ls, t.1.shape ≠ .blockStart ∧ t.1.shape ≠ .blockEnd) : pairStems ls = [] := by
  have hstems : stems ls = [] := by
    have hnone : ls.filter (fun t => t.1.shape = .blockStart || t.1.shape = .blockEnd) = [] :=
      List.filter_eq_nil_iff.2 fun t ht => by simp [hls t ht]
    unfold stems
    rw [hnone]
    rfl
  unfold pairStems
  rw [hstems]
  rfl

/-! ## 6. Placeholders cut short -/

/-- A literal of the text reads as holding a placeholder cut short. -/
def CutShort (t : Text) : Prop := ∃ l, .literal l ∈ tokenize t ∧ literalIssues 0 l ≠ []

/-- Whether a literal has issues does not depend on where it begins. -/
theorem literalIssues_eq_nil_iff (pos pos' : Nat) (l : Text) :
    literalIssues pos l = [] ↔ literalIssues pos' l = [] := by
  fun_induction literalIssues pos l generalizing pos' with
  | case1 pos t others hopens ih =>
    rw [literalIssues, if_pos hopens]
    exact ⟨fun h => (List.cons_ne_nil _ _ h).elim, fun h => (List.cons_ne_nil _ _ h).elim⟩
  | case2 pos t others hopens ih =>
    rw [literalIssues, if_neg hopens]
    exact ih _
  | case3 pos c t hbrace ih =>
    rw [literalIssues]
    · exact ih _
    · exact hbrace
  | case4 => rfl

theorem literalTokenIssues_eq_nil_iff {t : Text} :
    literalTokenIssues (locate t) = [] ↔ ¬ CutShort t := by
  unfold literalTokenIssues CutShort
  rw [List.flatMap_eq_nil_iff, ← map_locate]
  constructor
  · rintro h ⟨l, hl, hissues⟩
    obtain ⟨x, hx, hxl⟩ := List.mem_map.1 hl
    have hnil := h x hx
    rw [hxl] at hnil
    exact hissues ((literalIssues_eq_nil_iff _ _ l).1 hnil)
  · intro h x hx
    cases hxl : x.1 with
    | placeholder b => rfl
    | literal l =>
      by_contra hne
      exact h ⟨l, hxl ▸ List.mem_map_of_mem hx, fun hnil => hne ((literalIssues_eq_nil_iff _ _ l).1 hnil)⟩

end RecordExport
