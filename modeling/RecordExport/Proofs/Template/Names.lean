import Mathlib.Data.List.DropRight
import RecordExport.Template.Pattern
import RecordExport.Text.Blank
/-!
# Names made of parts

A pattern made of parts captures as much as it can, the first part before the second. Whether it matches a
name at all does not depend on that: it does if the name can be spelled so in any way.

* `Spelled`: the text is the parts, one after the other;
* `isMatch_parts_iff`: a pattern made of parts matches what is spelled so;
* `Text.trimEnd_append`, `suffix_of_underscore`: how a name put together ends.
-/

namespace RecordExport

/-! ## 1. What parts spell -/

/-- The text can stand for the part. -/
def NamePart.Spells : NamePart → Text → Prop
  | .fixed s, t => t = s
  | .captured, t => '\n' ∉ t
  | .filled, t => t ≠ [] ∧ '\n' ∉ t

/-- The text is these parts, one after the other. -/
def Spelled : List NamePart → Text → Prop
  | [], t => t = []
  | p :: ps, t => ∃ a r, t = a ++ r ∧ p.Spells a ∧ Spelled ps r

variable {ps : List NamePart} {t : Text}

theorem spelled_fixed {s : Text} : Spelled (.fixed s :: ps) t ↔ ∃ r, t = s ++ r ∧ Spelled ps r := by
  constructor
  · rintro ⟨a, r, rfl, rfl, hr⟩
    exact ⟨r, rfl, hr⟩
  · rintro ⟨r, rfl, hr⟩
    exact ⟨s, r, rfl, rfl, hr⟩

theorem spelled_fixed_append {a b : Text} :
    Spelled (.fixed (a ++ b) :: ps) t ↔ Spelled (.fixed a :: .fixed b :: ps) t := by
  simp only [spelled_fixed]
  constructor
  · rintro ⟨r, rfl, hr⟩
    exact ⟨b ++ r, List.append_assoc a b r, r, rfl, hr⟩
  · rintro ⟨_, rfl, r, rfl, hr⟩
    exact ⟨r, (List.append_assoc a b r).symm, hr⟩

theorem feed_not_mem_cons {c : Char} {a : Text} : '\n' ∉ c :: a ↔ c ≠ '\n' ∧ '\n' ∉ a := by
  rw [List.mem_cons, not_or, ne_comm]

theorem suffix_of_spelled {s : Text} (h : Spelled (ps ++ [.fixed s]) t) : s <:+ t := by
  induction ps generalizing t with
  | nil =>
    obtain ⟨r, rfl, rfl⟩ := spelled_fixed.1 h
    exact ⟨[], (List.append_nil s).symm⟩
  | cons p ps ih =>
    obtain ⟨a, r, rfl, -, hr⟩ := h
    exact (ih hr).trans (List.suffix_append a r)

/-- There is a longest cut if there is any. -/
theorem isSome_cutLongest {β : Type} {answer : Text → Option β} :
    (cutLongest answer t).isSome = true ↔
      ∃ a r, t = a ++ r ∧ '\n' ∉ a ∧ (answer r).isSome = true := by
  induction t with
  | nil =>
    rw [cutLongest, Option.isSome_map]
    constructor
    · exact fun h => ⟨[], [], rfl, List.not_mem_nil, h⟩
    · rintro ⟨a, r, heq, -, hr⟩
      rwa [(List.append_eq_nil_iff.1 heq.symm).2] at hr
  | cons c t ih =>
    have hcut : (∃ a r, c :: t = a ++ r ∧ '\n' ∉ a ∧ (answer r).isSome = true) ↔
        (answer (c :: t)).isSome = true ∨ (c ≠ '\n' ∧ (cutLongest answer t).isSome = true) := by
      rw [ih]
      constructor
      · rintro ⟨a, r, heq, ha, hr⟩
        cases a with
        | nil =>
          obtain rfl := heq.symm
          exact .inl hr
        | cons d a =>
          obtain ⟨rfl, rfl⟩ := List.cons.inj heq
          obtain ⟨hc, ha⟩ := feed_not_mem_cons.1 ha
          exact .inr ⟨hc, a, r, rfl, ha, hr⟩
      · rintro (h | ⟨hc, a, r, rfl, ha, hr⟩)
        · exact ⟨[], c :: t, rfl, List.not_mem_nil, h⟩
        · exact ⟨c :: a, r, rfl, feed_not_mem_cons.2 ⟨hc, ha⟩, hr⟩
    rw [hcut, cutLongest]
    by_cases hc : c = '\n'
    · rw [if_pos hc, Option.isSome_map]
      exact ⟨.inl, fun h => h.elim id fun h => absurd hc h.1⟩
    · rw [if_neg hc]
      cases hrest : cutLongest answer t with
      | none =>
        rw [Option.isSome_map]
        exact ⟨.inl, fun h => h.elim id fun h => absurd h.2 Bool.false_ne_true⟩
      | some found => exact ⟨fun _ => .inr ⟨hc, rfl⟩, fun _ => rfl⟩

/-! ## 2. What patterns match -/

/-- **A pattern made of parts matches what is spelled so.** -/
theorem isMatch_parts_iff : (Pattern.parts ps).isMatch t = true ↔ Spelled ps t := by
  show (partCaptures ps t).isSome = true ↔ _
  induction ps generalizing t with
  | nil =>
    rw [partCaptures, Spelled]
    split
    · rename_i h
      exact ⟨fun _ => h, fun _ => rfl⟩
    · rename_i h
      exact ⟨fun hn => absurd hn Bool.false_ne_true, fun hn => absurd hn h⟩
  | cons p ps ih =>
    cases p with
    | fixed s =>
      rw [partCaptures, spelled_fixed]
      constructor
      · intro h
        obtain ⟨cs, hcs⟩ := Option.isSome_iff_exists.1 h
        obtain ⟨r, hr, hcaptures⟩ := Option.bind_eq_some_iff.1 hcs
        exact ⟨r, Text.eq_append_of_afterLeading? hr, ih.1 (Option.isSome_iff_exists.2 ⟨cs, hcaptures⟩)⟩
      · rintro ⟨r, rfl, hr⟩
        rw [Text.afterLeading?_append, Option.bind_some]
        exact ih.2 hr
    | captured =>
      rw [partCaptures, Option.isSome_map, isSome_cutLongest]
      exact exists_congr fun a => exists_congr fun r => and_congr_right fun _ => and_congr_right fun _ => ih
    | filled =>
      cases t with
      | nil =>
        refine ⟨fun h => absurd h Bool.false_ne_true, ?_⟩
        rintro ⟨a, r, heq, ⟨ha, -⟩, -⟩
        exact absurd (List.append_eq_nil_iff.1 heq.symm).1 ha
      | cons c t =>
        rw [partCaptures]
        by_cases hc : c = '\n'
        · rw [if_pos hc]
          refine ⟨fun h => absurd h Bool.false_ne_true, ?_⟩
          rintro ⟨a, r, heq, ⟨ha, hn⟩, -⟩
          obtain ⟨d, a, rfl⟩ := List.exists_cons_of_ne_nil ha
          exact absurd ((List.cons.inj heq).1.symm.trans hc) (feed_not_mem_cons.1 hn).1
        · rw [if_neg hc, Option.isSome_map, isSome_cutLongest]
          constructor
          · rintro ⟨a, r, rfl, ha, hr⟩
            exact ⟨c :: a, r, rfl, ⟨List.cons_ne_nil _ _, feed_not_mem_cons.2 ⟨hc, ha⟩⟩, ih.1 hr⟩
          · rintro ⟨a, r, heq, ⟨ha, hn⟩, hr⟩
            obtain ⟨d, a, rfl⟩ := List.exists_cons_of_ne_nil ha
            obtain ⟨-, rfl⟩ := List.cons.inj heq
            exact ⟨a, r, rfl, (feed_not_mem_cons.1 hn).2, ih.2 hr⟩

instance (ps : List NamePart) (t : Text) : Decidable (Spelled ps t) :=
  decidable_of_iff _ isMatch_parts_iff

/-- A name alone. -/
theorem isMatch_literal_iff {n : Text} : (Pattern.literal n).isMatch t = true ↔ t = n := by
  refine isMatch_parts_iff.trans (spelled_fixed.trans ⟨?_, ?_⟩)
  · rintro ⟨r, rfl, rfl⟩
    exact List.append_nil n
  · rintro rfl
    exact ⟨[], (List.append_nil t).symm, rfl⟩

/-! ## 3. The ends of names -/

namespace Text

variable {s t : Text}

theorem trimStart_append (hs : s ≠ []) (h : trimStart s = s) (t : Text) : trimStart (s ++ t) = s ++ t := by
  obtain ⟨c, s, rfl⟩ := List.exists_cons_of_ne_nil hs
  have hc : ¬ isBlank c = true := List.dropWhile_eq_self_iff.1 h (Nat.succ_pos _)
  exact List.dropWhile_cons_of_neg hc

theorem trimEnd_append (ht : t ≠ []) (h : trimEnd t = t) (s : Text) : trimEnd (s ++ t) = s ++ t := by
  have hlast := List.rdropWhile_eq_self_iff.1 (show t.rdropWhile isBlank = t from h) ht
  refine List.rdropWhile_eq_self_iff.2 fun hne => ?_
  rwa [List.getLast_append_of_ne_nil hne ht]

/-- What trimming leaves as it is has no blanks at its end. -/
theorem trimEnd_of_trim (h : trim t = t) : trimEnd t = t := by
  have hend : trimEnd (trimStart t) <+: trimStart t := List.rdropWhile_prefix _ _
  have hstart : trimStart t <:+ t := List.dropWhile_suffix _
  have hlength := hend.length_le
  rw [show trimEnd (trimStart t) = t from h] at hlength
  have heq : trimStart t = t := hstart.eq_of_length_le hlength
  have h : trimEnd (trimStart t) = t := h
  rwa [heq] at h

end Text

/-- An end that begins with the only underscore in it begins behind another. -/
theorem suffix_of_underscore {n r x : Text} (hr : '_' ∉ r) (h : '_' :: r <:+ x ++ '_' :: n) :
    '_' :: r <:+ '_' :: n := by
  rcases List.suffix_or_suffix_of_suffix h (List.suffix_append x _) with h | h
  · exact h
  · rcases List.suffix_cons_iff.1 h with heq | hin
    · exact heq ▸ List.suffix_refl ('_' :: n)
    · exact absurd (hin.subset List.mem_cons_self) hr

end RecordExport
