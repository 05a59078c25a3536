import Mathlib.Data.Nat.Basic
import Mathlib.Order.Basic
import RecordExport.Proofs.Patterns.Rounds
/-!
# What holds of all parts of an expression

Rows, choices and repetitions are put together from parts, and neither lose one nor make one up, except that no
rounds at all leave nothing behind. So a property that is one of the parts is kept by putting them together, in both
directions.

* `ByParts`: such a property, with `row_iff`, `choice_iff` and `repeated_iff`;
* `NestsIn`: how groups are numbered, and `NameExpr.looksBack`: whether a place is tested for what stands before it.
-/

namespace RecordExport

variable {u x v : Text} {e a b : NameExpr} {hs : List (Nat × Text)}

/-! ## 1. Properties of the parts -/

/-- **A property that an expression has if all parts of it do**, as far as groups are not concerned. Words and sets
    have it. -/
structure ByParts (Q : NameExpr → Prop) : Prop where
  word : ∀ cs, Q (.word cs)
  oneOf : ∀ s, Q (.oneOf s)
  seq_iff : ∀ {a b}, Q (.seq a b) ↔ Q a ∧ Q b
  alt_iff : ∀ {a b}, Q (.alt a b) ↔ Q a ∧ Q b
  optional_iff : ∀ {greedy a}, Q (.optional greedy a) ↔ Q a
  many_iff : ∀ {greedy a}, Q (.many greedy a) ↔ Q a
  anyMany_iff : ∀ {greedy a}, Q (.anyMany greedy a) ↔ Q a
  whole_iff : ∀ {a}, Q (.whole a) ↔ Q a

namespace ByParts

open NameExpr

variable {Q : NameExpr → Prop} (h : ByParts Q) {es : List NameExpr}

include h

/-! ### Rows -/

theorem parts_iff : (∀ p ∈ e.parts, Q p) ↔ Q e := by
  induction e with
  | word cs =>
    refine ⟨fun _ => h.word cs, fun _ p hp => ?_⟩
    cases cs with
    | nil => cases hp
    | cons c cs =>
      obtain rfl := List.mem_singleton.1 hp
      exact h.word _
  | seq a b iha ihb =>
    show (∀ p ∈ a.parts ++ b.parts, Q p) ↔ _
    rw [List.forall_mem_append, iha, ihb, h.seq_iff]
  | _ => exact List.forall_mem_singleton

theorem ofParts_iff : Q (ofParts es) ↔ ∀ e ∈ es, Q e := by
  fun_induction ofParts es with
  | case1 => exact iff_of_true (h.word []) (List.forall_mem_nil _)
  | case2 e => exact List.forall_mem_singleton.symm
  | case3 e es _ ih => rw [h.seq_iff, ih, List.forall_mem_cons]

theorem consPart_iff : (∀ p ∈ consPart e es, Q p) ↔ ∀ p ∈ e :: es, Q p := by
  unfold consPart
  split
  · simp only [List.forall_mem_cons, h.word, true_and]
  · exact Iff.rfl

theorem foldr_consPart_iff : (∀ p ∈ es.foldr consPart [], Q p) ↔ ∀ p ∈ es, Q p := by
  induction es with
  | nil => exact Iff.rfl
  | cons e es ih => rw [List.foldr_cons, h.consPart_iff, List.forall_mem_cons, List.forall_mem_cons, ih]

omit h in
theorem flatMap_iff {f : NameExpr → List NameExpr} (hf : ∀ e, (∀ p ∈ f e, Q p) ↔ Q e) :
    (∀ p ∈ es.flatMap f, Q p) ↔ ∀ e ∈ es, Q e := by
  constructor
  · exact fun hall e he => (hf e).1 fun p hp => hall p (List.mem_flatMap.2 ⟨e, he, hp⟩)
  · intro hall p hp
    obtain ⟨e, he, hp⟩ := List.mem_flatMap.1 hp
    exact (hf e).2 (hall e he) p hp

/-- **A row has what all its expressions have.** -/
theorem row_iff : Q (row es) ↔ ∀ e ∈ es, Q e := by
  unfold row
  rw [h.ofParts_iff, h.foldr_consPart_iff, flatMap_iff fun _ => h.parts_iff]

theorem row_append_iff : Q (row (es ++ [e])) ↔ Q (row es) ∧ Q e := by
  rw [h.row_iff, List.forall_mem_append, List.forall_mem_singleton, ← h.row_iff]

/-! ### Choices -/

theorem sides_iff : (∀ s ∈ e.sides, Q s) ↔ Q e := by
  induction e with
  | alt a b iha ihb =>
    show (∀ s ∈ a.sides ++ b.sides, Q s) ↔ _
    rw [List.forall_mem_append, iha, ihb, h.alt_iff]
  | _ => exact List.forall_mem_singleton

theorem ofSides_iff : Q (ofSides es) ↔ ∀ e ∈ es, Q e := by
  fun_induction ofSides es with
  | case1 => exact iff_of_true (h.word []) (List.forall_mem_nil _)
  | case2 e => exact List.forall_mem_singleton.symm
  | case3 e es _ ih => rw [h.alt_iff, ih, List.forall_mem_cons]

/-- Sides that come to a set are words or sets. -/
theorem of_joinedSet? {s : CharSet} (hs : joinedSet? es = some s) : ∀ e ∈ es, Q e := by
  have hall : ∀ {α : Type} {f : NameExpr → Option α} {as : List α}, (∀ e a, f e = some a → Q e) →
      es.mapM f = some as → ∀ e ∈ es, Q e := by
    intro α f as hf hmap
    have hkept := (mapM_eq_some hmap).imp fun e a ha => And.intro (hf e a ha) trivial
    exact ((List.forall₂_and_left es as).1 hkept).1
  unfold joinedSet? at hs
  split at hs
  · next hchars => exact hall (fun e c hc => by rw [eq_word_of_char? hc]; exact h.word _) hchars
  · split at hs
    · next hsets => exact hall (fun e s hs => by rw [eq_oneOf_of_set? hs]; exact h.oneOf _) hsets
    · cases hs

theorem ofSet (s : CharSet) : Q (.ofSet s) := by
  unfold NameExpr.ofSet
  split
  · exact h.word _
  · exact h.oneOf _

theorem joinSides_iff : Q (joinSides es) ↔ ∀ e ∈ es, Q e := by
  unfold joinSides
  split
  · next s hs => exact iff_of_true (h.ofSet s) (h.of_joinedSet? hs)
  · exact h.ofSides_iff

/-- **A choice has what all its sides have.** -/
theorem choice_iff : Q (choice es) ↔ ∀ e ∈ es, Q e := by
  rw [← flatMap_iff fun _ => h.sides_iff]
  unfold choice
  dsimp only
  generalize es.flatMap sides = ss
  split
  · exact List.forall_mem_singleton.symm
  · exact h.joinSides_iff
  · rename_i ss _ _ _ hshared
    have hprefix : ∀ s ∈ ss, sharedParts (ss.map parts) ++
        s.parts.drop (sharedParts (ss.map parts)).length = s.parts := fun s hs =>
      List.prefix_iff_eq_append.1 (isPrefix_sharedParts (List.mem_map_of_mem hs))
    obtain ⟨s₀, hs₀⟩ : ∃ s, s ∈ ss := List.exists_mem_of_ne_nil ss fun hnil =>
      hshared (by rw [hnil]; rfl)
    generalize sharedParts (ss.map parts) = shared at hprefix
    have hside : ∀ s ∈ ss, (Q s ↔ (∀ p ∈ shared, Q p) ∧ Q (ofParts (s.parts.drop shared.length))) := by
      intro s hs
      rw [h.ofParts_iff, ← List.forall_mem_append, hprefix s hs, h.parts_iff]
    rw [h.row_iff, List.forall_mem_append, List.forall_mem_singleton, h.joinSides_iff,
      flatMap_iff fun _ => h.sides_iff, List.map_map, List.forall_mem_map]
    constructor
    · exact fun ⟨hall, hrests⟩ s hs => (hside s hs).2 ⟨hall, hrests s hs⟩
    · exact fun hall => ⟨((hside s₀ hs₀).1 (hall s₀ hs₀)).1, fun s hs => ((hside s hs).1 (hall s hs)).2⟩

theorem choice_append_iff : Q (choice (es ++ [e])) ↔ Q (choice es) ∧ Q e := by
  rw [h.choice_iff, List.forall_mem_append, List.forall_mem_singleton, ← h.choice_iff]

theorem choice_singleton_iff : Q (choice [e]) ↔ Q e := by
  rw [h.choice_iff, List.forall_mem_singleton]

/-! ### Repetitions -/

theorem times_iff (n : Nat) : Q (a.times n) ↔ n = 0 ∨ Q a := by
  fun_induction times a n with
  | case1 => exact iff_of_true (h.word []) (.inl rfl)
  | case2 => simp
  | case3 n ih => simp [h.seq_iff, ih]

theorem upTo_iff (greedy : Bool) (n : Nat) : Q (a.upTo greedy n) ↔ n = 0 ∨ Q a := by
  fun_induction upTo a greedy n with
  | case1 => exact iff_of_true (h.word []) (.inl rfl)
  | case2 => simp [h.optional_iff]
  | case3 n ih => simp [h.optional_iff, h.seq_iff, ih]

variable {least : Nat} {most : Option Nat} (hbounds : ∀ m ∈ most, least ≤ m)

include hbounds

/-- **Rounds have what the expression has**, unless there are none at all. -/
theorem rounds_iff (greedy : Bool) : Q (a.rounds least most greedy) ↔ most = some 0 ∨ Q a := by
  fun_cases rounds a least most greedy with
  | case1 => simp [h.optional_iff]
  | case2 => simp [h.anyMany_iff]
  | case3 => simp [h.many_iff]
  | case4 n => simp [h.whole_iff, h.seq_iff, h.times_iff, h.many_iff]
  | case5 least m =>
    have hle := hbounds m rfl
    rw [h.whole_iff, h.seq_iff, h.times_iff, h.upTo_iff, ← and_or_right, Option.some_inj]
    exact or_congr_left (by omega)

theorem bounded_iff (greedy : Bool) : Q (a.bounded least most greedy) ↔ most = some 0 ∨ Q a := by
  unfold bounded
  split
  · next hzero => exact iff_of_true (h.word []) (.inl hzero)
  · split
    · next hone => simp [hone.2]
    · exact h.rounds_iff hbounds greedy

theorem repeated_iff (greedy : Bool) : Q (a.repeated least most greedy) ↔ most = some 0 ∨ Q a := by
  unfold repeated
  split
  · rw [h.bounded_iff]
    · cases most with
      | none => simp
      | some m => simp
    · rintro m ⟨⟩
      cases most with
      | none => exact Nat.min_le_right least 1
      | some m =>
        have hle := hbounds m rfl
        simp only [Option.elim_some]
        omega
  · exact h.bounded_iff hbounds greedy

end ByParts

/-! ## 2. The numbers of groups -/

/-- The groups of an expression have numbers above one and up to another, and what is inside a group has greater
    numbers than it. -/
def NestsIn (lo hi : Nat) : NameExpr → Prop
  | .word _ | .oneOf _ | .place _ => True
  | .seq a b | .alt a b => NestsIn lo hi a ∧ NestsIn lo hi b
  | .optional _ a | .many _ a | .anyMany _ a | .whole a => NestsIn lo hi a
  | .group i a => lo < i ∧ i ≤ hi ∧ NestsIn i hi a

theorem byParts_nestsIn (lo hi : Nat) : ByParts (NestsIn lo hi) where
  word _ := trivial
  oneOf _ := trivial
  seq_iff := .rfl
  alt_iff := .rfl
  optional_iff := .rfl
  many_iff := .rfl
  anyMany_iff := .rfl
  whole_iff := .rfl

theorem lo_lt_of_takes {lo hi : Nat} (hn : NestsIn lo hi e)
    (h : Takes u e x v hs) : ∀ p ∈ hs, lo < p.1 := by
  induction h generalizing lo with
  | word | oneOf | place | skip | noRound => exact List.forall_mem_nil _
  | seq _ _ iha ihb => exact List.forall_mem_append.2 ⟨iha hn.1, ihb hn.2⟩
  | left _ ih => exact ih hn.1
  | right _ ih => exact ih hn.2
  | once _ ih | lastRound _ ih | rounds _ ih | whole _ ih => exact ih hn
  | round _ _ iha ihb => exact List.forall_mem_append.2 ⟨iha hn, ihb hn⟩
  | @group u x v i a hs _ ih =>
    obtain ⟨hlo, -, hinside⟩ := hn
    exact List.forall_mem_append.2 ⟨fun p hp => Nat.lt_trans hlo (ih hinside p hp), List.forall_mem_singleton.2 hlo⟩

theorem NestsIn.mono {lo hi lo' hi' : Nat} (h : NestsIn lo hi e) (hlo : lo' ≤ lo) (hhi : hi ≤ hi') :
    NestsIn lo' hi' e := by
  induction e generalizing lo lo' with
  | word | oneOf | place => trivial
  | seq a b iha ihb => exact ⟨iha h.1 hlo, ihb h.2 hlo⟩
  | alt a b iha ihb => exact ⟨iha h.1 hlo, ihb h.2 hlo⟩
  | optional greedy a ih => exact ih h hlo
  | many greedy a ih => exact ih h hlo
  | anyMany greedy a ih => exact ih h hlo
  | whole a ih => exact ih h hlo
  | group i a ih =>
    obtain ⟨hi, hle, hinside⟩ := h
    exact ⟨Nat.lt_of_le_of_lt hlo hi, Nat.le_trans hle hhi, ih hinside (Nat.le_refl i)⟩

/-- Whether the groups have numbers up to another, for any such number. -/
theorem byParts_lastGroup_le (n : Nat) : ByParts fun e => e.lastGroup ≤ n where
  word _ := Nat.zero_le n
  oneOf _ := Nat.zero_le n
  seq_iff := Nat.max_le
  alt_iff := Nat.max_le
  optional_iff := .rfl
  many_iff := .rfl
  anyMany_iff := .rfl
  whole_iff := .rfl

namespace NameExpr

variable {es : List NameExpr} {e' : NameExpr} {least : Nat} {most : Option Nat}

theorem lastGroup_row_append : (row (es ++ [e])).lastGroup = max (row es).lastGroup e.lastGroup :=
  eq_of_forall_ge_iff fun n => (byParts_lastGroup_le n).row_append_iff.trans Nat.max_le.symm

theorem lastGroup_choice_append : (choice (es ++ [e])).lastGroup = max (choice es).lastGroup e.lastGroup :=
  eq_of_forall_ge_iff fun n => (byParts_lastGroup_le n).choice_append_iff.trans Nat.max_le.symm

theorem lastGroup_choice_singleton : (choice [e]).lastGroup = e.lastGroup :=
  eq_of_forall_ge_iff fun n => (byParts_lastGroup_le n).choice_singleton_iff

/-- A repetition as it is put together has the groups of the rounds it asks for. -/
theorem lastGroup_repeated (hbounds : ∀ m ∈ most, least ≤ m) (h : e.lastGroup = e'.lastGroup) (greedy : Bool) :
    (e.repeated least most greedy).lastGroup = (e'.rounds least most greedy).lastGroup := by
  refine eq_of_forall_ge_iff fun n => ?_
  rw [(byParts_lastGroup_le n).repeated_iff hbounds, (byParts_lastGroup_le n).rounds_iff hbounds, h]

end NameExpr

/-! ## 3. Places -/

/-- Somewhere in an expression a place is tested for what stands before it. -/
def NameExpr.looksBack : NameExpr → Bool
  | .word _ | .oneOf _ => false
  | .place t => t.looksBack
  | .seq a b | .alt a b => a.looksBack || b.looksBack
  | .optional _ a | .many _ a | .anyMany _ a | .whole a | .group _ a => a.looksBack

/-- What does not look back takes the same behind any text. -/
theorem Takes.elsewhere (h : Takes u e x v hs) (he : e.looksBack = false) (u' : Text) : Takes u' e x v hs := by
  induction h generalizing u' with
  | word cs => exact .word cs
  | oneOf hc => exact .oneOf hc
  | place ht => exact .place (by rwa [PlaceTest.holds_of_not_looksBack he] at ht)
  | seq _ _ iha ihb =>
    obtain ⟨ha, hb⟩ := Bool.or_eq_false_iff.1 he
    exact .seq (iha ha u') (ihb hb _)
  | left _ ih => exact .left (ih (Bool.or_eq_false_iff.1 he).1 u')
  | right _ ih => exact .right (ih (Bool.or_eq_false_iff.1 he).2 u')
  | skip => exact .skip
  | once _ ih => exact .once (ih he u')
  | lastRound _ ih => exact .lastRound (ih he u')
  | round _ _ ih ihs => exact .round (ih he u') (ihs he _)
  | noRound => exact .noRound
  | rounds _ ih => exact .rounds (ih he u')
  | whole _ ih => exact .whole (ih he u')
  | group _ ih => exact .group (ih he u')

end RecordExport
