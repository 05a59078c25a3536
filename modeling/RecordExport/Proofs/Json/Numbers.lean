import Mathlib.Data.Nat.Digits.Defs
import Mathlib.Tactic.NormNum
import RecordExport.Json.Scan
/-!
# Numbers as they are written

Every number a record holds is written in decimal and read back by its digits. Reading also asks whether the
number is finite in double precision, although only its digits are taken: this file says that a number of at
most 64 bits is.

* `cutNumber_decimal`: the digits of a number are all that is read of it, and they give it back;
* `isFinite_of_lt`: a number of at most 64 bits is finite. Of the two roundings on the way each is bounded by
  the size of what is rounded (`isSome_nearestTo`, `nearestTo_one`).
-/

namespace RecordExport

/-! ## 1. Finite numbers -/

section Rounding

variable {num den : Nat}

theorem le_floorLog (num den : Nat) : (num.log2 : Int) - den.log2 - 1 ≤ floorLog num den := by
  simp only [floorLog]
  split <;> omega

theorem floorLog_le (num den : Nat) : floorLog num den ≤ num.log2 := by
  simp only [floorLog]
  split <;> omega

theorem roundQuotient_le (num den : Nat) : roundQuotient num den ≤ num + 1 := by
  have hdiv : num / den ≤ num := Nat.div_le_self num den
  have hmod : num / den % 2 < 2 := Nat.mod_lt _ (by omega)
  simp only [roundQuotient]
  split
  · omega
  · split
    · omega
    · omega

theorem log2_lt_of_lt {n k : Nat} (hk : 0 < k) (h : n < 2 ^ k) : n.log2 < k := by
  by_cases hn : n = 0
  · simpa [hn] using hk
  · exact (Nat.log2_lt hn).2 h

/-- A fraction whose numerator is far from the end of the range has a nearest number. -/
theorem isSome_nearestTo (den : Nat) (h : num < 2 ^ 200) : (nearestTo num den).isSome = true := by
  have hlog : num.log2 < 200 := log2_lt_of_lt (by omega) h
  have hfloor := floorLog_le num den
  simp only [nearestTo]
  split
  · rfl
  · rw [if_neg]
    · rfl
    · split <;> omega

/-- The number nearest to a whole number of at most 64 bits, and how large its two parts can be. -/
theorem nearestTo_one {n : Nat} (h : n < 2 ^ 64) :
    ∃ b, nearestTo n 1 = some b ∧ b.mantissa < 2 ^ 120 ∧ b.exponent ≤ 13 := by
  have hsome : (nearestTo n 1).isSome = true := isSome_nearestTo 1 (h.trans (by norm_num))
  obtain ⟨b, hb⟩ := Option.isSome_iff_exists.1 hsome
  refine ⟨b, hb, ?_⟩
  by_cases hn : n = 0
  · rw [nearestTo, if_pos hn] at hb
    obtain rfl := Option.some.inj hb
    exact ⟨by norm_num, by decide⟩
  · have hlog : n.log2 < 64 := log2_lt_of_lt (by omega) h
    have hle := floorLog_le n 1
    have hge := le_floorLog n 1
    have hone : Nat.log2 1 = 0 := by decide
    simp only [nearestTo, if_neg hn] at hb
    generalize he : max (floorLog n 1 - 52) (-1074) = e at hb
    -- the mantissa is at most one above the numerator, which is the number times at most 2 ^ 53
    have hm : (if e ≥ 0 then roundQuotient n (1 * Nat.pow 2 e.toNat)
        else roundQuotient (n * Nat.pow 2 (-e).toNat) 1) < 2 ^ 120 := by
      split
      · exact (roundQuotient_le n _).trans_lt (by omega)
      · refine (roundQuotient_le _ 1).trans_lt ?_
        have hpow : Nat.pow 2 (-e).toNat ≤ 2 ^ 53 := Nat.pow_le_pow_right (by omega) (by omega)
        have hmul := Nat.mul_le_mul h.le hpow
        omega
    generalize (if e ≥ 0 then roundQuotient n (1 * Nat.pow 2 e.toNat)
        else roundQuotient (n * Nat.pow 2 (-e).toNat) 1) = m at hb hm
    by_cases hfull : m = Nat.pow 2 53
    · simp only [if_pos hfull, if_neg (show ¬ e + 1 > 971 by omega)] at hb
      obtain rfl := Option.some.inj hb
      exact ⟨by norm_num, by show e + 1 ≤ 13; omega⟩
    · simp only [if_neg hfull, if_neg (show ¬ e > 971 by omega)] at hb
      obtain rfl := Option.some.inj hb
      exact ⟨hm, by show e ≤ 13; omega⟩

end Rounding

/-- **A number of at most 64 bits is finite.** -/
theorem isFinite_of_lt {n : Nat} (h : n < 2 ^ 64) : Json.Number.isFinite ⟨false, n, 0, true⟩ = true := by
  have hword : (Decimal.mk n 0).toWord = ⟨n, 0⟩ := by
    have hlt : n < Nat.pow 2 64 := h
    simp [Decimal.toWord, hlt]
  obtain ⟨b, hb, hmantissa, hexponent⟩ := nearestTo_one h
  have hunit : nearestTo (Nat.pow 10 (0 : Int).toNat) 1 = some ⟨2 ^ 52, -52⟩ := by decide
  simp only [Json.Number.isFinite, hword, hb, hunit]
  split
  · rfl
  · rw [if_neg (by omega)]
    show (Binary.times? b ⟨2 ^ 52, -52⟩).isSome = true
    simp only [Binary.times?]
    rw [if_neg (by omega)]
    exact isSome_nearestTo _ (by show b.mantissa * 2 ^ 52 < 2 ^ 200; omega)

/-! ## 2. Digits -/

namespace Json

theorem digitsValue_append (ds : Text) (c : Char) :
    digitsValue (ds ++ [c]) = digitsValue ds * 10 + (c.toNat - 48) := by
  simp [digitsValue]

theorem digitsValue_decimal (n : Nat) : digitsValue (decimal n) = n := by
  unfold decimal
  induction n using Nat.strong_induction_on with
  | _ n ih =>
    by_cases hn : n < 10
    · rw [Nat.toDigits_of_lt_base hn]
      simp [digitsValue, Nat.toNat_digitChar_sub_48_of_lt_ten hn]
    · rw [Nat.toDigits_of_base_le (by omega) (by omega), digitsValue_append, ih (n / 10) (by omega),
        Nat.toNat_digitChar_sub_48_of_lt_ten (Nat.mod_lt n (by omega))]
      omega

/-- A number's digits do not begin with a zero, unless zero is all there is. -/
theorem decimal_ne_zero_cons (n : Nat) (c : Char) (t : Text) : decimal n ≠ '0' :: c :: t := by
  unfold decimal
  induction n using Nat.strong_induction_on generalizing c t with
  | _ n ih =>
    by_cases hn : n < 10
    · rw [Nat.toDigits_of_lt_base hn]
      simp
    · rw [Nat.toDigits_of_base_le (by omega) (by omega)]
      intro h
      have hsmall := ih (n / 10) (by omega)
      cases hd : Nat.toDigits 10 (n / 10) with
      | nil => simp [Nat.toDigits_ne_nil] at hd
      | cons a ds =>
        rw [hd] at h hsmall
        cases ds with
        | nil =>
          -- the leading digit alone is a number from one to nine
          by_cases hlt : n / 10 < 10
          · rw [Nat.toDigits_of_lt_base hlt] at hd
            obtain ⟨rfl, -⟩ := List.cons.inj hd
            have hzero : (n / 10).digitChar = '0' := (List.cons.inj h).1
            have := Nat.digitChar_eq_zero.1 hzero
            omega
          · have hlength := congrArg List.length hd
            rw [Nat.toDigits_of_base_le (by omega) (by omega)] at hlength
            have : Nat.toDigits 10 (n / 10 / 10) ≠ [] := Nat.toDigits_ne_nil
            simp at hlength
        | cons b ds =>
          obtain ⟨rfl, -⟩ := List.cons.inj h
          exact hsmall b ds rfl

/-- A text that a number written in front of it does not run into. -/
def EndsNumber (t : Text) : Prop := ∀ c r, t = c :: r → c.isDigit = false ∧ c ≠ '.' ∧ c ≠ 'e' ∧ c ≠ 'E'

theorem cutDigits_decimal (n : Nat) {t : Text} (h : EndsNumber t) :
    cutDigits (decimal n ++ t) = (decimal n, t) := by
  have hdigits : ∀ c ∈ decimal n, c.isDigit = true := fun c hc =>
    Nat.isDigit_of_mem_toDigits (by omega) (by omega) hc
  have hrest : t.takeWhile Char.isDigit = [] ∧ t.dropWhile Char.isDigit = t := by
    cases t with
    | nil => exact ⟨rfl, rfl⟩
    | cons c r => simp [(h c r rfl).1]
  unfold cutDigits
  rw [List.takeWhile_append_of_pos hdigits, List.dropWhile_append_of_pos hdigits, hrest.1, hrest.2,
    List.append_nil]

/-- **A number in front of what does not belong to it is read by its digits.** -/
theorem cutNumber_decimal (n : Nat) {t : Text} (h : EndsNumber t) :
    cutNumber false (decimal n ++ t) = .ok (⟨false, n, 0, true⟩, t) := by
  have hfraction : cutFraction t = .ok (none, t) := by
    unfold cutFraction
    split
    · exact absurd rfl (h _ _ rfl).2.1
    · rfl
  have hexponent : cutExponent t = .ok (none, t) := by
    cases t with
    | nil => rfl
    | cons c r =>
      obtain ⟨-, -, he, hE⟩ := h c r rfl
      simp [cutExponent, he, hE]
  unfold cutNumber
  rw [cutDigits_decimal n h]
  split
  · rename_i heq
    exact absurd (Prod.mk.inj heq).1 Nat.toDigits_ne_nil
  · rename_i heq
    exact absurd (Prod.mk.inj heq).1 (decimal_ne_zero_cons n _ _)
  · rename_i heq
    obtain ⟨rfl, rfl⟩ := Prod.mk.inj heq
    simp [hfraction, hexponent, digitsValue_decimal]

end Json
end RecordExport
