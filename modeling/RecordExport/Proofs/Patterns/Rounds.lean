import RecordExport.Proofs.Patterns.Ways
/-!
# Rounds of an expression

A repetition asks for so many ROUNDS of an expression, one behind the other. However it is put together, as copies,
as optional parts inside each other or as a loop, it takes what that many rounds take.

* `TakesRounds`: so many rounds, and `takes_rounds`: what a repetition takes;
* `simplifies_repeated`: a repetition may lose ways, since a round that takes no character is enough once, but it
  takes the same.
-/

namespace RecordExport

variable {u x v : Text} {e e' a b : NameExpr} {hs : List (Nat × Text)}

/-! ## 1. So many rounds -/

/-- **So many rounds of an expression**, one behind the other. -/
inductive TakesRounds (e : NameExpr) :
    (rounds : Nat) → (ahead taken behind : Text) → (held : List (Nat × Text)) → Prop
  | none {u v : Text} : TakesRounds e 0 u [] v []
  | more {n : Nat} {u x y v : Text} {hs ks : List (Nat × Text)} (round : Takes u e x (y ++ v) hs)
      (rest : TakesRounds e n (u ++ x) y v ks) : TakesRounds e (n + 1) u (x ++ y) v (hs ++ ks)

namespace TakesRounds

variable {n m : Nat}

theorem one_iff : TakesRounds e 1 u x v hs ↔ Takes u e x v hs := by
  constructor
  · intro h
    cases h with
    | more round rest =>
      cases rest
      rwa [List.append_nil, List.append_nil]
  · intro h
    have hround : Takes u e x ([] ++ v) hs := h
    have hone := TakesRounds.more hround (.none (e := e))
    rwa [List.append_nil, List.append_nil] at hone

theorem zero_iff : TakesRounds e 0 u x v hs ↔ x = [] ∧ hs = [] := by
  constructor
  · intro h
    cases h
    exact ⟨rfl, rfl⟩
  · rintro ⟨rfl, rfl⟩
    exact .none

/-- Rounds behind rounds. -/
theorem add_iff : TakesRounds e (n + m) u x v hs ↔
    ∃ y z ks ls, x = y ++ z ∧ hs = ks ++ ls ∧
      TakesRounds e n u y (z ++ v) ks ∧ TakesRounds e m (u ++ y) z v ls := by
  induction n generalizing u x hs with
  | zero =>
    rw [Nat.zero_add]
    constructor
    · intro h
      exact ⟨[], x, [], hs, rfl, rfl, .none, by rwa [List.append_nil]⟩
    · rintro ⟨y, z, ks, ls, rfl, rfl, first, rest⟩
      obtain ⟨rfl, rfl⟩ := zero_iff.1 first
      rwa [List.append_nil] at rest
  | succ n ih =>
    rw [Nat.add_right_comm]
    constructor
    · intro h
      cases h with
      | more round rest =>
        obtain ⟨z, w, ls, ms, rfl, rfl, second, rest⟩ := ih.1 rest
        refine ⟨_, w, _, ms, (List.append_assoc ..).symm, (List.append_assoc ..).symm, ?_, ?_⟩
        · exact .more (by rwa [List.append_assoc] at round) second
        · rwa [List.append_assoc] at rest
    · rintro ⟨y, z, ks, ls, rfl, rfl, first, rest⟩
      cases first with
      | more round second =>
        rw [List.append_assoc, List.append_assoc]
        refine .more (by rwa [List.append_assoc]) (ih.2 ⟨_, z, _, ls, rfl, rfl, second, ?_⟩)
        rwa [List.append_assoc]

theorem succ_iff : TakesRounds e (n + 1) u x v hs ↔
    ∃ y z ks ls, x = y ++ z ∧ hs = ks ++ ls ∧ Takes u e y (z ++ v) ks ∧ TakesRounds e n (u ++ y) z v ls := by
  rw [Nat.add_comm, add_iff]
  simp only [one_iff]

/-- Rounds of a simpler expression. -/
theorem of_simplifies (h : Simplifies e e') (ht : TakesRounds e n u x v hs) :
    ∃ ks, TakesRounds e' n u x v ks ∧ SameHeld ks hs := by
  induction ht with
  | none => exact ⟨[], .none, .refl []⟩
  | more round _ ih =>
    obtain ⟨ks, round, hsame⟩ := h.way round
    obtain ⟨ls, rest, hsame'⟩ := ih
    exact ⟨ks ++ ls, .more round rest, hsame.append hsame'⟩

theorem exists_of_simplifies (h : Simplifies e e') (ht : TakesRounds e' n u x v hs) :
    ∃ ks, TakesRounds e n u x v ks := by
  induction ht with
  | none => exact ⟨[], .none⟩
  | more round _ ih =>
    obtain ⟨ks, round⟩ := h.takes round
    obtain ⟨ls, rest⟩ := ih
    exact ⟨ks ++ ls, .more round rest⟩

end TakesRounds

/-- So many rounds are within the bounds. -/
def WithinBounds (least : Nat) (most : Option Nat) (n : Nat) : Prop := least ≤ n ∧ ∀ m ∈ most, n ≤ m

namespace NameExpr

variable {greedy : Bool} {least : Nat} {most : Option Nat}

theorem takes_many_iff : Takes u (.many greedy a) x v hs ↔ ∃ n, TakesRounds a (n + 1) u x v hs := by
  constructor
  · intro h
    generalize hm : NameExpr.many greedy a = m at h
    induction h with
    | lastRound round =>
      obtain ⟨rfl, rfl⟩ := NameExpr.many.inj hm
      exact ⟨0, TakesRounds.one_iff.2 round⟩
    | round round _ _ ih =>
      obtain ⟨rfl, rfl⟩ := NameExpr.many.inj hm
      obtain ⟨n, rest⟩ := ih rfl
      exact ⟨n + 1, .more round rest⟩
    | _ => cases hm
  · rintro ⟨n, h⟩
    induction n generalizing u x hs with
    | zero => exact .lastRound (TakesRounds.one_iff.1 h)
    | succ n ih =>
      cases h with
      | more round rest => exact .round round (ih rest)

theorem takes_times {n : Nat} : Takes u (a.times n) x v hs ↔ TakesRounds a n u x v hs := by
  fun_induction times a n generalizing u x hs with
  | case1 => rw [takes_word_iff, TakesRounds.zero_iff]
  | case2 => exact TakesRounds.one_iff.symm
  | case3 n ih => simp only [takes_seq_iff, TakesRounds.succ_iff (n := n + 1), ih]

theorem takes_upTo {n : Nat} : Takes u (a.upTo greedy n) x v hs ↔ ∃ k ≤ n, TakesRounds a k u x v hs := by
  have hsplit : ∀ {n : Nat} {u x hs}, (∃ k ≤ n + 1, TakesRounds a k u x v hs) ↔
      (x = [] ∧ hs = []) ∨ ∃ k ≤ n, TakesRounds a (k + 1) u x v hs := by
    intro n u x hs
    constructor
    · rintro ⟨k, hk, h⟩
      cases k with
      | zero => exact .inl (TakesRounds.zero_iff.1 h)
      | succ k => exact .inr ⟨k, Nat.le_of_succ_le_succ hk, h⟩
    · rintro (h | ⟨k, hk, h⟩)
      · exact ⟨0, Nat.zero_le _, TakesRounds.zero_iff.2 h⟩
      · exact ⟨k + 1, Nat.succ_le_succ hk, h⟩
  fun_induction upTo a greedy n generalizing u x hs with
  | case1 => simp [takes_word_iff, TakesRounds.zero_iff]
  | case2 => simp [hsplit, takes_optional_iff, TakesRounds.one_iff]
  | case3 n ih =>
    rw [hsplit, takes_optional_iff, takes_seq_iff]
    simp only [ih, TakesRounds.succ_iff]
    refine or_congr Iff.rfl ⟨?_, ?_⟩
    · rintro ⟨y, z, ks, ls, hx, hhs, first, k, hk, rest⟩
      exact ⟨k, hk, y, z, ks, ls, hx, hhs, first, rest⟩
    · rintro ⟨k, hk, y, z, ks, ls, hx, hhs, first, rest⟩
      exact ⟨y, z, ks, ls, hx, hhs, first, k, hk, rest⟩

theorem takes_many_iff_pos : Takes u (.many greedy a) x v hs ↔ ∃ n, 1 ≤ n ∧ TakesRounds a n u x v hs := by
  rw [takes_many_iff]
  constructor
  · rintro ⟨n, ht⟩
    exact ⟨n + 1, Nat.le_add_left 1 n, ht⟩
  · rintro ⟨n, hn, ht⟩
    refine ⟨n - 1, ?_⟩
    rwa [Nat.sub_add_cancel hn]

/-- So many rounds, and behind them what takes rounds as well. -/
theorem takes_times_seq {k : Nat} {p : Nat → Prop}
    (hb : ∀ {u x hs}, Takes u b x v hs ↔ ∃ m, p m ∧ TakesRounds a m u x v hs) :
    Takes u (.seq (a.times k) b) x v hs ↔ ∃ m, p m ∧ TakesRounds a (k + m) u x v hs := by
  simp only [takes_seq_iff, takes_times, hb, TakesRounds.add_iff]
  constructor
  · rintro ⟨y, z, ks, ls, hx, hhs, first, m, hm, rest⟩
    exact ⟨m, hm, y, z, ks, ls, hx, hhs, first, rest⟩
  · rintro ⟨m, hm, y, z, ks, ls, hx, hhs, first, rest⟩
    exact ⟨y, z, ks, ls, hx, hhs, first, m, hm, rest⟩

/-- **A repetition takes as many rounds as its bounds allow.** -/
theorem takes_rounds (h : ∀ m ∈ most, least ≤ m) : Takes u (a.rounds least most greedy) x v hs ↔
    ∃ n, WithinBounds least most n ∧ TakesRounds a n u x v hs := by
  unfold WithinBounds
  fun_cases rounds a least most greedy with
  | case1 =>
    have hupTo : Takes u (a.upTo greedy 1) x v hs ↔ ∃ k ≤ 1, TakesRounds a k u x v hs := takes_upTo
    simpa [upTo] using hupTo
  | case2 =>
    rw [takes_anyMany_iff, takes_many_iff, ← TakesRounds.zero_iff (e := a) (u := u) (v := v)]
    simpa using Nat.or_exists_add_one (p := fun n => TakesRounds a n u x v hs)
  | case3 => simpa using takes_many_iff_pos
  | case4 n =>
    rw [takes_whole_iff, takes_times_seq takes_many_iff_pos]
    constructor
    · rintro ⟨m, hm, ht⟩
      exact ⟨n + 1 + m, ⟨by omega, nofun⟩, ht⟩
    · rintro ⟨k, ⟨hk, -⟩, ht⟩
      refine ⟨k - (n + 1), by omega, ?_⟩
      rwa [Nat.add_sub_cancel' (by omega)]
  | case5 least m =>
    have hle : least ≤ m := h m rfl
    rw [takes_whole_iff, takes_times_seq takes_upTo]
    simp only [Option.mem_some_iff, forall_eq']
    constructor
    · rintro ⟨k, hk, ht⟩
      exact ⟨least + k, by omega, ht⟩
    · rintro ⟨n, ⟨hleast, hmost⟩, ht⟩
      refine ⟨n - least, by omega, ?_⟩
      rwa [Nat.add_sub_cancel' hleast]

theorem takes_bounded (h : ∀ m ∈ most, least ≤ m) : Takes u (a.bounded least most greedy) x v hs ↔
    ∃ n, WithinBounds least most n ∧ TakesRounds a n u x v hs := by
  unfold bounded
  split
  · next hzero =>
    subst hzero
    have hleast : least = 0 := Nat.le_zero.1 (h 0 rfl)
    simp [takes_word_iff, WithinBounds, hleast, TakesRounds.zero_iff]
  · split
    · next hone =>
      obtain ⟨rfl, rfl⟩ := hone
      have hbounds : ∀ n, WithinBounds 1 (some 1) n ↔ n = 1 := by
        intro n
        simp [WithinBounds]
        omega
      simp [hbounds, TakesRounds.one_iff]
    · exact takes_rounds h

/-! ## 2. A round that takes no character -/

theorem eq_nil_of_takesNone (hnone : e.takesNone = true) (h : Takes u e x v hs) : x = [] := by
  induction h with
  | word cs => exact List.isEmpty_iff.1 hnone
  | oneOf => cases hnone
  | place => rfl
  | seq _ _ iha ihb =>
    obtain ⟨ha, hb⟩ := Bool.and_eq_true_iff.1 hnone
    rw [iha ha, ihb hb]
    rfl
  | left _ ih => exact ih (Bool.and_eq_true_iff.1 hnone).1
  | right _ ih => exact ih (Bool.and_eq_true_iff.1 hnone).2
  | skip => rfl
  | once _ ih => exact ih hnone
  | lastRound _ ih => exact ih hnone
  | round _ _ iha ihb =>
    rw [iha hnone, ihb hnone]
    rfl
  | noRound => rfl
  | rounds _ ih => exact ih hnone
  | whole _ ih => exact ih hnone
  | group _ ih => exact ih hnone

/-- Several rounds that take no character are enough once. -/
theorem exists_round_of_takesNone {n : Nat} (hnone : e.takesNone = true) (h : TakesRounds e (n + 1) u x v hs) :
    ∃ ks, Takes u e x v ks := by
  induction n generalizing u x hs with
  | zero => exact ⟨hs, TakesRounds.one_iff.1 h⟩
  | succ n ih =>
    cases h with
    | more round rest =>
      obtain ⟨ks, rest⟩ := ih rest
      obtain rfl := eq_nil_of_takesNone hnone round
      rw [List.append_nil] at rest
      exact ⟨ks, rest⟩

/-- One round that takes no character can be gone again. -/
theorem exists_rounds_of_takesNone (hnone : e.takesNone = true) (h : Takes u e x v hs) (n : Nat) :
    ∃ ks, TakesRounds e (n + 1) u x v ks ∧ SameHeld ks hs := by
  obtain rfl := eq_nil_of_takesNone hnone h
  induction n with
  | zero => exact ⟨hs, TakesRounds.one_iff.2 h, .refl hs⟩
  | succ n ih =>
    obtain ⟨ks, rest, hsame⟩ := ih
    have hround : Takes u e [] ([] ++ v) hs := h
    rw [← List.append_nil u] at rest
    exact ⟨hs ++ ks, .more hround rest, .twice fun g => (hsame g).symm⟩

/-- The bounds with more than one round made one. -/
theorem withinBounds_few_iff (hbounds : ∀ m ∈ most, least ≤ m) {n : Nat} :
    WithinBounds (min least 1) (some (most.elim 1 (min · 1))) n ↔
      ∃ m, WithinBounds least most m ∧ n = min m 1 := by
  unfold WithinBounds
  constructor
  · rintro ⟨hleast, hmost⟩
    have hmost := hmost _ rfl
    refine ⟨max n least, ⟨Nat.le_max_right n least, fun m hm => ?_⟩, ?_⟩
    · obtain rfl := hm
      have hm : n ≤ min m 1 := hmost
      have hle := hbounds m rfl
      omega
    · have hone : n ≤ 1 := by
        cases most with
        | none => exact hmost
        | some m => exact Nat.le_trans hmost (Nat.min_le_right m 1)
      omega
  · rintro ⟨m, ⟨hleast, hmost⟩, rfl⟩
    refine ⟨by omega, ?_⟩
    rintro k ⟨⟩
    cases most with
    | none => exact Nat.min_le_right m 1
    | some k =>
      have hm := hmost k rfl
      show min m 1 ≤ min k 1
      omega

/-- Rounds of which fewer are enough. -/
theorem simplifies_few (hnone : e.takesNone = true) (hbounds : ∀ m ∈ most, least ≤ m) (greedy : Bool) :
    Simplifies (e.bounded (min least 1) (some (most.elim 1 (min · 1))) greedy) (e.rounds least most greedy) := by
  have hfewer : ∀ m ∈ some (most.elim 1 (min · 1)), min least 1 ≤ m := by
    have hleast : WithinBounds least most least := ⟨Nat.le_refl least, hbounds⟩
    exact ((withinBounds_few_iff hbounds).2 ⟨least, hleast, rfl⟩).2
  constructor
  · intro u x v hs ht
    obtain ⟨n, hn, ht⟩ := (takes_bounded hfewer).1 ht
    obtain ⟨m, hm, rfl⟩ := (withinBounds_few_iff hbounds).1 hn
    cases m with
    | zero => exact ⟨hs, (takes_rounds hbounds).2 ⟨0, hm, ht⟩, .refl hs⟩
    | succ m =>
      rw [Nat.min_eq_right (Nat.le_add_left 1 m)] at ht
      obtain ⟨ks, hrounds, hsame⟩ := exists_rounds_of_takesNone hnone (TakesRounds.one_iff.1 ht) m
      exact ⟨ks, (takes_rounds hbounds).2 ⟨m + 1, hm, hrounds⟩, hsame⟩
  · intro u x v hs ht
    obtain ⟨n, hn, ht⟩ := (takes_rounds hbounds).1 ht
    have hfew := (withinBounds_few_iff hbounds).2 ⟨n, hn, rfl⟩
    cases n with
    | zero => exact ⟨hs, (takes_bounded hfewer).2 ⟨0, hfew, ht⟩⟩
    | succ n =>
      obtain ⟨ks, hround⟩ := exists_round_of_takesNone hnone ht
      rw [Nat.min_eq_right (Nat.le_add_left 1 n)] at hfew
      exact ⟨ks, (takes_bounded hfewer).2 ⟨1, hfew, TakesRounds.one_iff.2 hround⟩⟩

/-- **A repetition as it is put together.** -/
theorem simplifies_repeated (hbounds : ∀ m ∈ most, least ≤ m) (h : Simplifies e e') (greedy : Bool) :
    Simplifies (e.repeated least most greedy) (e'.rounds least most greedy) := by
  have hcongr : Simplifies (e.rounds least most greedy) (e'.rounds least most greedy) := by
    constructor
    · intro u x v hs ht
      obtain ⟨n, hn, ht⟩ := (takes_rounds hbounds).1 ht
      obtain ⟨ks, ht, hsame⟩ := ht.of_simplifies h
      exact ⟨ks, (takes_rounds hbounds).2 ⟨n, hn, ht⟩, hsame⟩
    · intro u x v hs ht
      obtain ⟨n, hn, ht⟩ := (takes_rounds hbounds).1 ht
      obtain ⟨ks, ht⟩ := ht.exists_of_simplifies h
      exact ⟨ks, (takes_rounds hbounds).2 ⟨n, hn, ht⟩⟩
  refine .trans ?_ hcongr
  unfold repeated
  split
  · next hnone => exact simplifies_few hnone hbounds greedy
  · exact .of_iff fun {u x v hs} => (takes_bounded hbounds).trans (takes_rounds hbounds).symm

end NameExpr

end RecordExport
