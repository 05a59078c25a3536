import Mathlib.Data.List.Perm.Basic
import Mathlib.Data.List.Nodup
import RecordExport.Proofs.Validation.Pairing
/-!
# The check reports what has no partner

The check goes through the text once for each declared family and once for each stem that is left, and puts the
issues in order at the end. What it reports can be told without that: each marker has a class, in each class an
end marker closes the latest start marker still open, and what is left over is reported.

* `markerClass`: the class of a marker, and `classPairing`: the markers of a class, paired;
* `markerIssues_eq`: the passes of the check, class by class;
* `nodup_starts_foundIssues`: **no two issues begin at the same place**, so the order they are found in, that of
  the stems in particular, does not matter;
* `reportsUnpaired_validationReport`: what is said of a template.
-/

namespace RecordExport

/-! ## 1. Classes -/

/-- The markers that pair with each other. -/
inductive MarkerClass where
  /-- those of a declared family, by its place among the families -/
  | family (i : Nat)
  /-- those with a stem that no family claims -/
  | stem (s : Text)
  deriving DecidableEq, Repr

/-- **The class of a marker**: the first family whose start markers have the name of this start marker, or whose
    end markers have the name of this end marker; if there is none, its stem. -/
def markerClass (fs : List BlockFamily) (k : Token) : Option MarkerClass :=
  match k.shape with
  | .blockStart => some (((fs.findIdx? fun f => f.opens.isMatch k.name).map .family).getD (.stem k.stem))
  | .blockEnd => some (((fs.findIdx? fun f => f.closes.isMatch k.name).map .family).getD (.stem k.stem))
  | _ => none

/-- The token opens a block of some family. -/
def Token.isStart (k : Token) : Bool := k.shape = .blockStart

/-- The token closes a block of some family. -/
def Token.isEnd (k : Token) : Bool := k.shape = .blockEnd

/-- The markers of a class in a text, each end marker paired with the latest start marker still open. -/
def classPairing (fs : List BlockFamily) (t : Text) (c : MarkerClass) : Pairing :=
  .ofMarkers Token.isStart Token.isEnd [] ((locate t).filter fun x => markerClass fs x.1 = some c)

section Classes

variable {fs : List BlockFamily} {k : Token} {i : Nat} {s : Text}

theorem markerClass_of_claims (h : k.isStart = true ∨ k.isEnd = true) :
    markerClass fs k = some (((fs.findIdx? (·.claims k)).map .family).getD (.stem k.stem)) := by
  unfold markerClass
  rcases h with h | h
  · have hk : k.shape = .blockStart := of_decide_eq_true h
    simp only [hk, (claims_of_blockStart hk).2.2]
  · have hk : k.shape = .blockEnd := of_decide_eq_true h
    simp only [hk, (claims_of_blockEnd hk).2.2]

theorem markerClass_of_unmarked (h : k.isStart = false ∧ k.isEnd = false) : markerClass fs k = none := by
  have hs : k.shape ≠ .blockStart := of_decide_eq_false h.1
  have he : k.shape ≠ .blockEnd := of_decide_eq_false h.2
  unfold markerClass
  split
  · rename_i hk
    exact absurd hk hs
  · rename_i hk
    exact absurd hk he
  · rfl

/-- A token is a marker or in no class. -/
theorem Token.isStart_or_isEnd (k : Token) :
    (k.isStart = true ∨ k.isEnd = true) ∨ (k.isStart = false ∧ k.isEnd = false) := by
  cases k.isStart with
  | true => exact .inl (.inl rfl)
  | false =>
    cases k.isEnd with
    | true => exact .inl (.inr rfl)
    | false => exact .inr ⟨rfl, rfl⟩

theorem claims_of_not_marker (h : k.isStart = false ∧ k.isEnd = false) (f : BlockFamily) : f.claims k = false :=
  Bool.or_eq_false_iff.2 (not_claims_of_unmarked ⟨of_decide_eq_false h.1, of_decide_eq_false h.2⟩)

/-- The class of a family are the markers that it claims and no family before it does. -/
theorem markerClass_eq_family_iff : markerClass fs k = some (.family i) ↔ fs.findIdx? (·.claims k) = some i := by
  rcases k.isStart_or_isEnd with hk | hk
  · rw [markerClass_of_claims hk]
    cases fs.findIdx? (·.claims k) with
    | none => simp
    | some j => simp
  · have hnone : fs.findIdx? (·.claims k) = none :=
      List.findIdx?_eq_none_iff.2 fun f _ => claims_of_not_marker hk f
    rw [markerClass_of_unmarked hk, hnone]
    simp

/-- The class of a stem are the markers with the stem that no family claims. -/
theorem markerClass_eq_stem_iff : markerClass fs k = some (.stem s) ↔
    (k.isStart = true ∨ k.isEnd = true) ∧ k.stem = s ∧ (fs.all fun f => !f.claims k) = true := by
  have hall : (fs.all fun f => !f.claims k) = true ↔ fs.findIdx? (·.claims k) = none := by
    rw [List.all_eq_true, List.findIdx?_eq_none_iff]
    simp only [Bool.not_eq_true']
  rw [hall]
  rcases k.isStart_or_isEnd with hk | hk
  · rw [markerClass_of_claims hk]
    cases fs.findIdx? (·.claims k) with
    | none => simp [hk]
    | some j => simp
  · rw [markerClass_of_unmarked hk]
    simp [hk]

end Classes

/-! ## 2. The passes of the check -/

theorem pairMarkers_family (f : BlockFamily) (ts : List Located) :
    pairMarkers f.isOpening f.isClosing [] ts =
      (Pairing.ofMarkers Token.isStart Token.isEnd [] (ts.filter fun x => f.claims x.1)).issues := by
  rw [Pairing.pairMarkers_eq]
  refine congrArg _ (Pairing.ofMarkers_filter (fun x _ hx => ?_) (fun x _ hx => ?_) [])
  · rcases Bool.or_eq_true_iff.1 hx with ho | hc
    · have hshape := (Bool.and_eq_true_iff.1 ho).1
      have hk : x.1.shape = .blockStart := of_decide_eq_true hshape
      rw [ho, (claims_of_blockStart hk).2.1, Token.isStart, Token.isEnd, hk]
      exact ⟨rfl, rfl⟩
    · have hshape := (Bool.and_eq_true_iff.1 hc).1
      have hk : x.1.shape = .blockEnd := of_decide_eq_true hshape
      rw [hc, (claims_of_blockEnd hk).1, Token.isStart, Token.isEnd, hk]
      exact ⟨rfl, rfl⟩
  · exact Bool.or_eq_false_iff.1 hx

/-- The pass of a family sees the markers that no family before it claims. -/
theorem pairFamilies_fst (fs : List BlockFamily) (ts : List Located) :
    (pairFamilies fs ts).1 = (List.range fs.length).flatMap fun i =>
      (Pairing.ofMarkers Token.isStart Token.isEnd []
        (ts.filter fun x => fs.findIdx? (·.claims x.1) = some i)).issues := by
  induction fs generalizing ts with
  | nil => rfl
  | cons f fs ih =>
    have hfirst : ∀ x : Located, ((f :: fs).findIdx? (·.claims x.1) = some 0) ↔ f.claims x.1 = true := by
      intro x
      rw [List.findIdx?_cons]
      split
      · rename_i h
        exact ⟨fun _ => h, fun _ => rfl⟩
      · rename_i h
        simp [h]
    have hlater : ∀ i, ∀ x : Located, ((f :: fs).findIdx? (·.claims x.1) = some (i + 1)) ↔
        fs.findIdx? (·.claims x.1) = some i ∧ f.claims x.1 = false := by
      intro i x
      rw [List.findIdx?_cons]
      split
      · rename_i h
        simp [h]
      · rename_i h
        simp [h]
    rw [pairFamilies, ih, pairMarkers_family, List.length_cons, List.range_succ_eq_map, List.flatMap_cons,
      List.flatMap_map]
    simp only [Nat.succ_eq_add_one, hfirst, hlater, List.filter_filter, Bool.decide_and, Bool.decide_eq_true,
      Bool.decide_eq_false]

theorem pairStems_eq (ts : List Located) :
    pairStems ts = (stems ts).flatMap fun s =>
      (Pairing.ofMarkers Token.isStart Token.isEnd []
        (ts.filter fun x => (x.1.isStart || x.1.isEnd) && x.1.stem = s)).issues := by
  unfold pairStems
  refine List.flatMap_congr fun s _ => ?_
  rw [Pairing.pairMarkers_eq]
  refine congrArg _ (Pairing.ofMarkers_filter (fun x _ hx => ?_) (fun x _ hx => ?_) [])
  · rw [(Bool.and_eq_true_iff.1 hx).2, Bool.and_true, Bool.and_true]
    exact ⟨rfl, rfl⟩
  · rcases Bool.and_eq_false_iff.1 hx with hmarker | hstem
    · obtain ⟨hs, he⟩ := Bool.or_eq_false_iff.1 hmarker
      exact ⟨Bool.and_eq_false_iff.2 (.inl hs), Bool.and_eq_false_iff.2 (.inl he)⟩
    · exact ⟨Bool.and_eq_false_iff.2 (.inr hstem), Bool.and_eq_false_iff.2 (.inr hstem)⟩

/-- The issues of a text as they are found: family by family, stem by stem and literal by literal. -/
def foundIssues (fs : List BlockFamily) (t : Text) : List Issue :=
  (pairFamilies fs (locate t)).1 ++ pairStems (pairFamilies fs (locate t)).2 ++ literalTokenIssues (locate t)

/-- The classes that are gone through. -/
def classes (fs : List BlockFamily) (t : Text) : List MarkerClass :=
  (List.range fs.length).map .family ++ (stems (pairFamilies fs (locate t)).2).map .stem

/-- **The check goes through the markers class by class.** -/
theorem markerIssues_eq (fs : List BlockFamily) (t : Text) :
    (pairFamilies fs (locate t)).1 ++ pairStems (pairFamilies fs (locate t)).2 =
      (classes fs t).flatMap fun c => (classPairing fs t c).issues := by
  unfold classes classPairing
  rw [List.flatMap_append, List.flatMap_map, List.flatMap_map, pairFamilies_fst, pairStems_eq, pairFamilies_snd]
  congr 1
  · refine List.flatMap_congr fun i _ => ?_
    simp only [markerClass_eq_family_iff]
  · refine List.flatMap_congr fun s _ => ?_
    rw [List.filter_filter]
    refine congrArg (fun ts => (Pairing.ofMarkers Token.isStart Token.isEnd [] ts).issues) ?_
    refine List.filter_congr fun x _ => Bool.eq_iff_iff.2 ?_
    simp only [markerClass_eq_stem_iff, Bool.and_eq_true, Bool.or_eq_true, decide_eq_true_eq, and_assoc]

/-- A marker without a partner is one of its class. -/
theorem mem_classPairing {fs : List BlockFamily} {t : Text} {c : MarkerClass} {x : Located} :
    (x ∈ (classPairing fs t c).ends → x ∈ locate t ∧ markerClass fs x.1 = some c ∧ x.1.isStart = false) ∧
      (x ∈ (classPairing fs t c).starts →
        x ∈ locate t ∧ markerClass fs x.1 = some c ∧ x.1.isStart = true) := by
  have hclass : x ∈ (locate t).filter (fun x => markerClass fs x.1 = some c) →
      x ∈ locate t ∧ markerClass fs x.1 = some c := fun h =>
    ⟨(List.mem_filter.1 h).1, of_decide_eq_true (List.mem_filter.1 h).2⟩
  constructor
  · intro h
    obtain ⟨hmem, hs, -⟩ := Pairing.mem_of_mem_ends h
    exact ⟨(hclass hmem).1, (hclass hmem).2, hs⟩
  · intro h
    rcases Pairing.mem_of_mem_starts h with hopen | ⟨hmem, hs⟩
    · cases hopen
    · exact ⟨(hclass hmem).1, (hclass hmem).2, hs⟩

/-- Every class with markers in the text is gone through. -/
theorem mem_classes {fs : List BlockFamily} {t : Text} {c : MarkerClass} {x : Located} (hx : x ∈ locate t)
    (h : markerClass fs x.1 = some c) : c ∈ classes fs t := by
  cases c with
  | family i =>
    obtain ⟨hi, -⟩ := List.findIdx?_eq_some_iff_getElem.1 (markerClass_eq_family_iff.1 h)
    exact List.mem_append_left _ (List.mem_map_of_mem (List.mem_range.2 hi))
  | stem s =>
    obtain ⟨hmarker, rfl, hclaims⟩ := markerClass_eq_stem_iff.1 h
    refine List.mem_append_right _ (List.mem_map_of_mem (List.mem_eraseDups.2 (List.mem_map.2 ⟨x, ?_, rfl⟩)))
    rw [pairFamilies_snd]
    refine List.mem_filter.2 ⟨List.mem_filter.2 ⟨hx, hclaims⟩, ?_⟩
    exact Bool.or_eq_true_iff.2 hmarker

/-- **What is left over in some class is what is found at the markers.** -/
theorem mem_foundIssues_iff {fs : List BlockFamily} {t : Text} {i : Issue} :
    i ∈ foundIssues fs t ↔
      (∃ c, ∃ x ∈ (classPairing fs t c).starts, i = .unmatchedStart x.1.name x.2) ∨
        (∃ c, ∃ x ∈ (classPairing fs t c).ends, i = .unmatchedEnd x.1.name x.2) ∨
          i ∈ literalTokenIssues (locate t) := by
  unfold foundIssues
  rw [markerIssues_eq, List.mem_append, List.mem_flatMap, ← or_assoc]
  refine or_congr ?_ Iff.rfl
  simp only [Pairing.issues, List.mem_append, List.mem_map]
  constructor
  · rintro ⟨c, -, ⟨x, hx, rfl⟩ | ⟨x, hx, rfl⟩⟩
    · exact .inr ⟨c, x, hx, rfl⟩
    · exact .inl ⟨c, x, hx, rfl⟩
  · rintro (⟨c, x, hx, rfl⟩ | ⟨c, x, hx, rfl⟩)
    · obtain ⟨hmem, hc, -⟩ := mem_classPairing.2 hx
      exact ⟨c, mem_classes hmem hc, .inr ⟨x, hx, rfl⟩⟩
    · obtain ⟨hmem, hc, -⟩ := mem_classPairing.1 hx
      exact ⟨c, mem_classes hmem hc, .inl ⟨x, hx, rfl⟩⟩

/-! ## 3. Where issues begin -/

theorem stop_of_mem_spansFrom {pos : Nat} {ks : List Token} {a : Located} (h : a ∈ spansFrom pos ks) :
    a.2.stop = a.2.start + a.1.byteSize := by
  induction ks generalizing pos with
  | nil => cases h
  | cons k ks ih =>
    rcases List.mem_cons.1 h with rfl | h
    · rfl
    · exact ih h

/-- **Each token of a text ends where the next one begins or before.** -/
theorem pairwise_stop_spansFrom (pos : Nat) (ks : List Token) :
    (spansFrom pos ks).Pairwise fun a b => a.2.stop ≤ b.2.start := by
  induction ks generalizing pos with
  | nil => exact .nil
  | cons k ks ih => exact .cons (fun b hb => le_start_of_mem_spansFrom hb) (ih _)

/-- A token that begins in another one is that. -/
theorem eq_of_start_within {t : Text} {a b : Located} (ha : a ∈ locate t) (hb : b ∈ locate t)
    (hle : b.2.start ≤ a.2.start) (hlt : a.2.start < b.2.stop) : a = b := by
  obtain ⟨ls, rs, hsplit⟩ := List.append_of_mem hb
  have hstops := pairwise_stop_spansFrom 0 (tokenize t)
  have hstarts := pairwise_locate t
  have hself : locate t = spansFrom 0 (tokenize t) := rfl
  rw [← hself, hsplit, List.pairwise_append, List.pairwise_cons] at hstops
  rw [hsplit, List.pairwise_append] at hstarts
  rw [hsplit] at ha
  rcases List.mem_append.1 ha with ha | ha
  · have hbefore := hstarts.2.2 a ha b List.mem_cons_self
    omega
  · rcases List.mem_cons.1 ha with heq | ha
    · exact heq
    · have hbehind := hstops.2.1.1 a ha
      omega

/-- The issues of a literal lie in it, one behind the other. -/
theorem literalIssues_within (pos : Nat) (l : Text) :
    (∀ i ∈ literalIssues pos l, pos ≤ i.span.start ∧ i.span.start < pos + Text.byteSize l) ∧
      (literalIssues pos l).Pairwise fun i j => i.span.start < j.span.start := by
  have hbrace : ('{' : Char).utf8Size = 1 := rfl
  fun_induction literalIssues pos l with
  | case1 pos t others hopens ih =>
    obtain ⟨hwithin, hpairwise⟩ := ih
    simp only [Text.byteSize_cons, hbrace]
    refine ⟨fun i hi => ?_, .cons (fun j hj => ?_) hpairwise⟩
    · rcases List.mem_cons.1 hi with rfl | hi
      · show pos ≤ pos ∧ pos < _
        omega
      · have hi := hwithin i hi
        omega
    · have hj := hwithin j hj
      show pos < _
      omega
  | case2 pos t others hopens ih =>
    obtain ⟨hwithin, hpairwise⟩ := ih
    simp only [Text.byteSize_cons, hbrace]
    refine ⟨fun i hi => ?_, hpairwise⟩
    have hi := hwithin i hi
    omega
  | case3 pos c t hne ih =>
    obtain ⟨hwithin, hpairwise⟩ := ih
    simp only [Text.byteSize_cons]
    refine ⟨fun i hi => ?_, hpairwise⟩
    have hi := hwithin i hi
    omega
  | case4 => exact ⟨fun i hi => (by cases hi), .nil⟩

/-- An issue of a literal token lies in it. -/
theorem literalTokenIssues_within {t : Text} {x : Located} {i : Issue} (hx : x ∈ locate t)
    (hi : i ∈ literalTokenIssues [x]) :
    x.1.isPlaceholder = false ∧ x.2.start ≤ i.span.start ∧ i.span.start < x.2.stop := by
  obtain ⟨y, hy, hfound⟩ := List.mem_flatMap.1 hi
  obtain rfl := List.mem_singleton.1 hy
  have hstop := stop_of_mem_spansFrom hx
  cases hk : y.1 with
  | placeholder b =>
    rw [hk] at hfound
    cases hfound
  | literal l =>
    rw [hk] at hfound hstop
    have hwithin := (literalIssues_within y.2.start l).1 i hfound
    exact ⟨rfl, hwithin.1, hstop ▸ hwithin.2⟩

/-- An issue of the literal tokens lies in one of them. -/
theorem exists_literal_of_mem {t : Text} {i : Issue} (h : i ∈ literalTokenIssues (locate t)) :
    ∃ x ∈ locate t, x.1.isPlaceholder = false ∧ x.2.start ≤ i.span.start ∧ i.span.start < x.2.stop := by
  obtain ⟨x, hx, hi⟩ := List.mem_flatMap.1 h
  exact ⟨x, hx, literalTokenIssues_within hx (List.mem_flatMap.2 ⟨x, List.mem_singleton_self x, hi⟩)⟩

theorem pairwise_literalTokenIssues (t : Text) :
    (literalTokenIssues (locate t)).Pairwise fun i j => i.span.start < j.span.start := by
  refine List.pairwise_flatMap.2 ⟨fun x _ => ?_, ?_⟩
  · split
    · exact (literalIssues_within _ _).2
    · exact .nil
  · refine (pairwise_stop_spansFrom 0 (tokenize t)).imp_of_mem fun {a b} ha hb hle i hi j hj => ?_
    have hi := literalTokenIssues_within ha (List.mem_flatMap.2 ⟨a, List.mem_singleton_self a, hi⟩)
    have hj := literalTokenIssues_within hb (List.mem_flatMap.2 ⟨b, List.mem_singleton_self b, hj⟩)
    exact (hi.2.2.trans_le hle).trans_le hj.2.1

theorem nodup_eraseDups {α : Type} [BEq α] [LawfulBEq α] (l : List α) : l.eraseDups.Nodup := by
  induction hn : l.length using Nat.strong_induction_on generalizing l with
  | _ n ih =>
    cases l with
    | nil => exact List.nodup_nil
    | cons a l =>
      have hlength := List.length_filter_le (fun b => !b == a) l
      simp only [List.length_cons] at hn
      rw [List.eraseDups_cons]
      refine List.nodup_cons.2 ⟨fun h => ?_, ih _ (by omega) _ rfl⟩
      simpa using (List.mem_filter.1 (List.mem_eraseDups.1 h)).2

theorem nodup_classes (fs : List BlockFamily) (t : Text) : (classes fs t).Nodup := by
  refine List.nodup_append.2 ⟨?_, ?_, ?_⟩
  · exact List.nodup_range.map fun i j h => MarkerClass.family.inj h
  · exact (nodup_eraseDups _).map fun s s' h => MarkerClass.stem.inj h
  · intro c hc d hd heq
    obtain ⟨i, -, rfl⟩ := List.mem_map.1 hc
    obtain ⟨s, -, rfl⟩ := List.mem_map.1 hd
    cases heq

/-- What is left over in a class begins at different places. -/
theorem nodup_starts_classPairing (fs : List BlockFamily) (t : Text) (c : MarkerClass) :
    ((classPairing fs t c).issues.map (·.span.start)).Nodup := by
  have hissues : (classPairing fs t c).issues.map (·.span.start) =
      ((classPairing fs t c).ends ++ (classPairing fs t c).starts).map (·.2.start) := by
    simp only [Pairing.issues, List.map_append, List.map_map]
    rfl
  have hnodup : ((locate t).filter fun x => markerClass fs x.1 = some c).Nodup := (nodup_locate t).filter _
  have hends := (Pairing.perm_ends Token.isStart Token.isEnd [] _).nodup_iff.2 (hnodup.filter _)
  have hstarts := (Pairing.perm_starts Token.isStart Token.isEnd [] _).nodup_iff.2 (hnodup.filter _)
  have hmem : ∀ x ∈ (classPairing fs t c).ends ++ (classPairing fs t c).starts, x ∈ locate t := by
    intro x hx
    rcases List.mem_append.1 hx with hx | hx
    · exact (mem_classPairing.1 hx).1
    · exact (mem_classPairing.2 hx).1
  rw [hissues]
  refine List.Nodup.map_on (fun x hx y hy heq => ?_) (List.nodup_append.2 ⟨?_, ?_, fun x hx y hy heq => ?_⟩)
  · exact List.inj_on_of_nodup_map (nodup_starts_locate t) (hmem x hx) (hmem y hy) heq
  · exact (List.nodup_append.1 hends).2.1
  · exact (List.nodup_append.1 hstarts).2.1
  · have hx := (mem_classPairing.1 hx).2.2
    rw [heq, (mem_classPairing.2 hy).2.2] at hx
    cases hx

/-- An issue of a class begins where a marker of the class does. -/
theorem exists_of_mem_classPairing {fs : List BlockFamily} {t : Text} {c : MarkerClass} {p : Nat}
    (h : p ∈ (classPairing fs t c).issues.map (·.span.start)) :
    ∃ x ∈ locate t, markerClass fs x.1 = some c ∧ x.2.start = p := by
  obtain ⟨i, hi, rfl⟩ := List.mem_map.1 h
  rcases List.mem_append.1 hi with hi | hi
  · obtain ⟨x, hx, rfl⟩ := List.mem_map.1 hi
    obtain ⟨hmem, hc, -⟩ := mem_classPairing.1 hx
    exact ⟨x, hmem, hc, rfl⟩
  · obtain ⟨x, hx, rfl⟩ := List.mem_map.1 hi
    obtain ⟨hmem, hc, -⟩ := mem_classPairing.2 hx
    exact ⟨x, hmem, hc, rfl⟩

/-- **No two issues begin at the same place.** -/
theorem nodup_starts_foundIssues (fs : List BlockFamily) (t : Text) :
    ((foundIssues fs t).map (·.span.start)).Nodup := by
  unfold foundIssues
  rw [markerIssues_eq, List.map_append, List.map_flatMap]
  refine List.nodup_append.2 ⟨List.nodup_flatMap.2 ⟨fun c _ => nodup_starts_classPairing fs t c, ?_⟩, ?_, ?_⟩
  · -- a place in two classes is a marker in both
    refine (nodup_classes fs t).imp fun {c d} hne p hc hd => hne ?_
    obtain ⟨x, hx, hxc, hxp⟩ := exists_of_mem_classPairing hc
    obtain ⟨y, hy, hyd, hyp⟩ := exists_of_mem_classPairing hd
    obtain rfl := List.inj_on_of_nodup_map (nodup_starts_locate t) hx hy (hxp.trans hyp.symm)
    exact Option.some.inj (hxc.symm.trans hyd)
  · exact List.pairwise_map.2 ((pairwise_literalTokenIssues t).imp Nat.ne_of_lt)
  · intro p hp q hq heq
    obtain ⟨c, -, hp⟩ := List.mem_flatMap.1 hp
    obtain ⟨x, hx, hxc, rfl⟩ := exists_of_mem_classPairing hp
    obtain ⟨i, hi, rfl⟩ := List.mem_map.1 hq
    obtain ⟨y, hy, hliteral, hle, hlt⟩ := exists_literal_of_mem hi
    obtain rfl := eq_of_start_within hx hy (heq ▸ hle) (heq ▸ hlt)
    cases hk : x.1 with
    | placeholder b =>
      rw [hk] at hliteral
      cases hliteral
    | literal l =>
      rw [hk] at hxc
      cases hxc

/-! ## 4. The report -/

/-- Putting issues in order goes by where they begin. -/
theorem pairwise_byPosition (is : List Issue) :
    (byPosition is).Pairwise fun a b => a.span.start ≤ b.span.start := by
  have hsorted : (byPosition is).Pairwise fun a b => decide (a.span.start ≤ b.span.start) = true :=
    List.pairwise_mergeSort (fun a b c hab hbc => by simp only [decide_eq_true_eq] at *; omega)
      (fun a b => by simp only [Bool.or_eq_true, decide_eq_true_eq]; omega) is
  exact hsorted.imp of_decide_eq_true

theorem perm_byPosition (is : List Issue) : (byPosition is).Perm is := List.mergeSort_perm is _

/-- Where all begin at different places it does not matter how they stood before. -/
theorem byPosition_eq_of_perm {is js : List Issue} (hnodup : (is.map (·.span.start)).Nodup) (h : js.Perm is) :
    byPosition js = byPosition is := by
  refine List.Perm.eq_of_pairwise (fun a b ha hb hab hba => ?_) (pairwise_byPosition js) (pairwise_byPosition is)
    ((perm_byPosition js).trans (h.trans (perm_byPosition is).symm))
  have ha := h.mem_iff.1 ((perm_byPosition js).mem_iff.1 ha)
  have hb := (perm_byPosition is).mem_iff.1 hb
  exact List.inj_on_of_nodup_map hnodup ha hb (Nat.le_antisymm hab hba)

/-- **What is said of a template**, given the declared families: its issues are the markers without a partner in
    their class and the placeholders cut short, and it is valid if it has none. -/
structure ReportsUnpaired (fs : List BlockFamily) (t : Text) (r : ValidationReport) : Prop where
  /-- a start marker is reported, by its name and its place, exactly if nothing closes it in its class -/
  starts : ∀ n s, .unmatchedStart n s ∈ r.issues ↔
    ∃ c, ∃ x ∈ (classPairing fs t c).starts, x.1.name = n ∧ x.2 = s
  /-- and an end marker exactly if it closes nothing -/
  ends : ∀ n s, .unmatchedEnd n s ∈ r.issues ↔
    ∃ c, ∃ x ∈ (classPairing fs t c).ends, x.1.name = n ∧ x.2 = s
  /-- each issue stands behind where the one before it begins, so none is reported twice -/
  ordered : r.issues.Pairwise fun a b => a.span.start < b.span.start
  /-- in whatever order issues are found, class by class or otherwise, they are reported in the same one -/
  settled : ∀ found, found.Perm (foundIssues fs t) → byPosition found = r.issues
  valid : r.valid = true ↔ r.issues = []

/-- **The check reports exactly the markers without a partner, each once and in order.** -/
theorem reportsUnpaired_validationReport (fs : List BlockFamily) (t : Text) :
    ReportsUnpaired fs t (validationReport fs t) := by
  have hissues : (validationReport fs t).issues = byPosition (foundIssues fs t) := rfl
  have hmem : ∀ i, i ∈ (validationReport fs t).issues ↔ i ∈ foundIssues fs t := fun i => by
    rw [hissues]
    exact (perm_byPosition _).mem_iff
  have hliteral : ∀ {i}, (∀ s, i ≠ .unterminated s) → i ∉ literalTokenIssues (locate t) := fun hne hi => by
    obtain ⟨s, hs⟩ := exists_of_mem_literalTokenIssues hi
    exact hne s hs
  have hnodup := nodup_starts_foundIssues fs t
  refine ⟨fun n s => ?_, fun n s => ?_, ?_, fun found hfound => ?_, ?_⟩
  · rw [hmem, mem_foundIssues_iff]
    constructor
    · rintro (⟨c, x, hx, heq⟩ | ⟨c, x, hx, heq⟩ | hi)
      · obtain ⟨rfl, rfl⟩ := Issue.unmatchedStart.inj heq
        exact ⟨c, x, hx, rfl, rfl⟩
      · cases heq
      · exact absurd hi (hliteral fun s hs => by cases hs)
    · rintro ⟨c, x, hx, rfl, rfl⟩
      exact .inl ⟨c, x, hx, rfl⟩
  · rw [hmem, mem_foundIssues_iff]
    constructor
    · rintro (⟨c, x, hx, heq⟩ | ⟨c, x, hx, heq⟩ | hi)
      · cases heq
      · obtain ⟨rfl, rfl⟩ := Issue.unmatchedEnd.inj heq
        exact ⟨c, x, hx, rfl, rfl⟩
      · exact absurd hi (hliteral fun s hs => by cases hs)
    · rintro ⟨c, x, hx, rfl, rfl⟩
      exact .inr (.inl ⟨c, x, hx, rfl⟩)
  · have hplaces := ((perm_byPosition (foundIssues fs t)).map (·.span.start)).nodup_iff.2 hnodup
    rw [hissues]
    exact ((pairwise_byPosition _).and (List.pairwise_map.1 hplaces)).imp fun h => Nat.lt_of_le_of_ne h.1 h.2
  · rw [hissues]
    exact byPosition_eq_of_perm hnodup hfound
  · exact List.isEmpty_iff

end RecordExport
