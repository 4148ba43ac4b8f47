import Mathlib.Algebra.Order.Field.Power
import Mathlib.Data.Rat.Cast.Order
import Mathlib.Tactic.FieldSimp
import Mathlib.Tactic.Linarith
import Mathlib.Tactic.NormNum
import NovelScript.Proofs.Number.Decimals

/-!
# Where rounded decimals have their point

The point of a quotient is the least power of ten above it (`Decimal.pointOfRatio_le_iff`). Rounding
to some digits moves it up just where the quotient is no more than half a unit below a power of ten,
the tie going up to the even natural: `Decimal.point_rounded_le_iff`.
-/

set_option autoImplicit false

namespace NovelScript

/-! ## Rounding up to a power -/

theorem roundQuotient_bounds (num den : Nat) :
    num / den ≤ roundQuotient num den ∧ roundQuotient num den ≤ num / den + 1 := by
  rcases roundQuotient_cases num den with ⟨h, -⟩ | ⟨h, -⟩
  · omega
  · omega

/-- A quotient rounds below an even natural exactly when it is more than half a unit below it. -/
theorem roundQuotient_lt_iff {num den n : Nat} (hd : 0 < den) (hn : n % 2 = 0) :
    roundQuotient num den < n ↔ 2 * num + den < 2 * n * den := by
  have hcases := roundQuotient_cases num den
  have hodd := @roundQuotient_of_odd num den
  have hdiv := Nat.div_add_mod num den
  have hmod := Nat.mod_lt num hd
  generalize roundQuotient num den = q at *
  generalize num % den = r at *
  generalize num / den = low at *
  rw [Nat.mul_assoc]
  rcases Nat.lt_trichotomy (low + 1) n with h | h | h
  · have := Nat.mul_le_mul_right den (show low + 2 ≤ n from h)
    rw [Nat.add_mul, Nat.mul_comm low] at this
    omega
  · subst h
    rw [Nat.add_mul, Nat.mul_comm low]
    omega
  · have := Nat.mul_le_mul_right den (show n ≤ low by omega)
    rw [Nat.mul_comm low] at this
    omega

namespace Decimal

/-! ## Powers of ten -/

theorem inUnits_snd_pos (num : Nat) {den : Nat} (hd : 0 < den) (e : Int) :
    0 < (inUnits num den e).2 := by
  unfold inUnits
  split
  · exact Nat.mul_pos hd (Nat.pow_pos (by decide))
  · exact hd

/-- Counting in units of a power of ten divides by it. -/
theorem inUnits_div (num den : Nat) (e : Int) :
    ((inUnits num den e).1 : ℚ) / (inUnits num den e).2 = (num / den : ℚ) / 10 ^ e := by
  unfold inUnits
  split
  · obtain ⟨k, rfl⟩ := Int.eq_ofNat_of_zero_le (by assumption)
    simp [div_div]
  · obtain ⟨k, rfl⟩ := Int.exists_eq_neg_ofNat (a := e) (by omega)
    simp
    ring

theorem ten_zpow_natCast (n : Nat) : (10 : ℚ) ^ (n : Int) = (Nat.pow 10 n : Nat) := by
  simp

/-- A quotient lies below a power of ten as it does in naturals. -/
theorem div_lt_ten_zpow (num : Nat) {den : Nat} (hd : 0 < den) (n : Nat) :
    (num / den : ℚ) < 10 ^ (n : Int) ↔ num < Nat.pow 10 n * den := by
  rw [ten_zpow_natCast, div_lt_iff₀ (by exact_mod_cast hd)]
  exact_mod_cast Iff.rfl

theorem div_lt_ten_zpow_neg (num : Nat) {den : Nat} (hd : 0 < den) (n : Nat) :
    (num / den : ℚ) < 10 ^ (-(n : Int)) ↔ Nat.pow 10 n * num < den := by
  rw [zpow_neg, ten_zpow_natCast, div_lt_iff₀ (by exact_mod_cast hd), inv_mul_eq_div,
    lt_div_iff₀ (by exact_mod_cast Nat.pow_pos (by decide : 0 < 10)), mul_comm]
  exact_mod_cast Iff.rfl

theorem length_decimalDigits_pos {n : Nat} (h : n ≠ 0) : 0 < (decimalDigits n).length :=
  List.length_pos_of_ne_nil (decimalDigits_ne_nil h)

/-- **The point of a quotient** is the least power of ten above it. -/
theorem pointOfRatio_le_iff {num den : Nat} (hn : 0 < num) (hd : 0 < den) (k : Int) :
    pointOfRatio num den ≤ k ↔ (num / den : ℚ) < 10 ^ k := by
  have hpow : ∀ n, 0 < Nat.pow 10 n := fun n => Nat.pow_pos (by decide)
  rcases Int.eq_nat_or_neg k with ⟨n, rfl | rfl⟩
  · rw [div_lt_ten_zpow num hd, pointOfRatio]
    split
    · rw [Nat.cast_le, length_decimalDigits_le_iff, Nat.div_lt_iff_lt_mul hd]
    · rename_i hlt
      have hlen := length_decimalDigits_pos (Nat.div_pos (show num ≤ den - 1 by omega) hn).ne'
      have hle : den ≤ Nat.pow 10 n * den := Nat.le_mul_of_pos_left den (hpow n)
      constructor
      · intro
        omega
      · intro
        omega
  · rw [div_lt_ten_zpow_neg num hd, pointOfRatio]
    split
    · rename_i hle
      have hlen := length_decimalDigits_pos (Nat.div_pos hle hd).ne'
      have hle' : num ≤ Nat.pow 10 n * num := Nat.le_mul_of_pos_left num (hpow n)
      constructor
      · intro
        omega
      · intro
        omega
    · have hlen := length_decimalDigits_le_iff ((den - 1) / num) n
      rw [Nat.div_lt_iff_lt_mul hn] at hlen
      constructor
      · intro
        omega
      · intro
        omega

/-- In units of a power of ten, a quotient rounds below a greater power when it is more than half a
unit below it. -/
theorem roundQuotient_inUnits_lt_iff (num : Nat) {den count : Nat} (hd : 0 < den) (hc : 0 < count)
    (p : Int) :
    roundQuotient (inUnits num den (p - count)).1 (inUnits num den (p - count)).2 <
        Nat.pow 10 count ↔
      (num / den : ℚ) < 10 ^ p - 10 ^ (p - count) / 2 := by
  have hunits := inUnits_div num den (p - count)
  have hpos := inUnits_snd_pos num hd (p - count)
  generalize inUnits num den (p - count) = units at hunits hpos ⊢
  have hten : (0 : ℚ) < 10 ^ (p - count) := zpow_pos (by norm_num) _
  have heven : Nat.pow 10 count % 2 = 0 := by
    obtain ⟨n, rfl⟩ : ∃ n, count = n + 1 := ⟨count - 1, by omega⟩
    rw [Nat.pow_eq, pow_succ]
    omega
  have hpower : (10 : ℚ) ^ p = (Nat.pow 10 count : Nat) * 10 ^ (p - count) := by
    rw [← ten_zpow_natCast, ← zpow_add₀ (by norm_num), add_sub_cancel]
  have hvalue : (num / den : ℚ) = (units.1 : ℚ) / units.2 * 10 ^ (p - count) := by
    rw [hunits, div_mul_cancel₀ _ hten.ne']
  have hhalf : ((Nat.pow 10 count : Nat) : ℚ) * 10 ^ (p - count) - 10 ^ (p - count) / 2 =
      ((Nat.pow 10 count : Nat) - 1 / 2) * 10 ^ (p - count) := by
    ring
  rw [roundQuotient_lt_iff hpos heven, hvalue, hpower, hhalf, mul_lt_mul_iff_left₀ hten,
    div_lt_iff₀ (by exact_mod_cast hpos), ← Nat.cast_lt (α := ℚ)]
  push_cast
  constructor
  · intro
    linarith
  · intro
    linarith

section
variable {num den count : Nat} (hn : 0 < num) (hd : 0 < den)
include hn hd

/-- A quotient lies between its point and the power of ten below that. -/
theorem pointOfRatio_bounds :
    (10 : ℚ) ^ (pointOfRatio num den - 1) ≤ num / den ∧
      (num / den : ℚ) < 10 ^ pointOfRatio num den := by
  constructor
  · refine not_lt.1 fun h => ?_
    have := (pointOfRatio_le_iff hn hd _).2 h
    omega
  · exact (pointOfRatio_le_iff hn hd _).1 (Int.le_refl _)

/-- In units in which it has some digits before the point, a quotient has that many. -/
theorem inUnits_bounds (hc : 0 < count) :
    Nat.pow 10 (count - 1) ≤ (inUnits num den (pointOfRatio num den - count)).1 /
        (inUnits num den (pointOfRatio num den - count)).2 ∧
      (inUnits num den (pointOfRatio num den - count)).1 /
        (inUnits num den (pointOfRatio num den - count)).2 < Nat.pow 10 count := by
  obtain ⟨hlow, hhigh⟩ := pointOfRatio_bounds hn hd
  generalize pointOfRatio num den = p at hlow hhigh ⊢
  have hunits := inUnits_div num den (p - count)
  have hpos := inUnits_snd_pos num hd (p - count)
  generalize inUnits num den (p - count) = units at hunits hpos ⊢
  have hten : (0 : ℚ) < 10 ^ (p - count) := zpow_pos (by norm_num) _
  constructor
  · rw [Nat.le_div_iff_mul_le hpos, ← Nat.cast_le (α := ℚ), Nat.cast_mul, ← ten_zpow_natCast,
      ← le_div_iff₀ (by exact_mod_cast hpos), hunits, le_div_iff₀ hten, ← zpow_add₀ (by norm_num),
      show ((count - 1 : Nat) : Int) + (p - count) = p - 1 by omega]
    exact hlow
  · rw [Nat.div_lt_iff_lt_mul hpos, ← Nat.cast_lt (α := ℚ), Nat.cast_mul, ← ten_zpow_natCast,
      ← div_lt_iff₀ (by exact_mod_cast hpos), hunits, div_lt_iff₀ hten, ← zpow_add₀ (by norm_num),
      add_sub_cancel]
    exact hhigh

end

/-- A magnitude rounded to some digits can be written. -/
theorem isNormal_rounded {m : Magnitude} (count : Nat) (hm : m.significand ≠ 0)
    (hc : 0 < count) : (rounded count m).IsNormal := by
  have hn : 0 < m.units := Nat.mul_pos (Nat.pos_of_ne_zero hm) (Nat.two_pow_pos _)
  rw [rounded, ratio]
  -- The unit is too large to be formed.
  generalize 1074 = exponent
  obtain ⟨hle, -⟩ := inUnits_bounds hn (Nat.two_pow_pos exponent) hc
  have hround := (roundQuotient_bounds _ _).1.trans' hle
  have hpos : 0 < Nat.pow 10 (count - 1) := Nat.pow_pos (by decide)
  exact isNormal_ofNat (Nat.lt_of_lt_of_le hpos hround).ne' _

/-- **The point of a rounded magnitude** lies within a power of ten when the magnitude is more than
half a unit of the last digit below that power. -/
theorem point_rounded_le_iff {m : Magnitude} (count : Nat) (hm : m.significand ≠ 0)
    (hc : 0 < count) (k : Int) :
    (rounded count m).point ≤ k ↔
      (m.units / (Nat.pow 2 1074 : Nat) : ℚ) < 10 ^ k - 10 ^ (k - count) / 2 := by
  have hn : 0 < m.units := Nat.mul_pos (Nat.pos_of_ne_zero hm) (Nat.two_pow_pos _)
  rw [rounded, ratio]
  -- The unit is too large to be formed.
  generalize 1074 = exponent
  have hd : 0 < Nat.pow 2 exponent := Nat.two_pow_pos exponent
  generalize Nat.pow 2 exponent = den at hd ⊢
  generalize m.units = num at hn ⊢
  obtain ⟨hlow, hhigh⟩ := pointOfRatio_bounds hn hd
  obtain ⟨hle, hlt⟩ := inUnits_bounds hn hd hc
  have hround := roundQuotient_inUnits_lt_iff num hd hc (pointOfRatio num den)
  dsimp only [ofNat]
  generalize pointOfRatio num den = p at *
  have hcases := roundQuotient_bounds (inUnits num den (p - count)).1 (inUnits num den (p - count)).2
  generalize roundQuotient (inUnits num den (p - count)).1 (inUnits num den (p - count)).2 = n at *
  generalize (inUnits num den (p - count)).1 / (inUnits num den (p - count)).2 = low at *
  rcases lt_trichotomy p k with h | h | h
  · refine iff_of_true ?_ ?_
    · have hlen := (length_decimalDigits_le_iff n (count + 1)).2 (by
        rw [Nat.pow_eq] at hlt ⊢
        rw [pow_succ]
        omega)
      omega
    · have hpk : (10 : ℚ) ^ p ≤ 10 ^ (k - 1) := zpow_le_zpow_right₀ (by norm_num) (by omega)
      have hck : (10 : ℚ) ^ (k - count) ≤ 10 ^ (k - 1) :=
        zpow_le_zpow_right₀ (by norm_num) (by omega)
      have hk : (10 : ℚ) ^ k = 10 ^ (k - 1) * 10 := by
        rw [← zpow_add_one₀ (by norm_num), sub_add_cancel]
      have hpos : (0 : ℚ) < 10 ^ (k - 1) := zpow_pos (by norm_num) _
      linarith
  · subst h
    rw [← hround, ← length_decimalDigits_le_iff]
    omega
  · refine iff_of_false ?_ ?_
    · have hlen := (length_decimalDigits_le_iff n (count - 1)).not.2 (by omega)
      omega
    · have hkp : (10 : ℚ) ^ k ≤ 10 ^ (p - 1) := zpow_le_zpow_right₀ (by norm_num) (by omega)
      have hpos : (0 : ℚ) < 10 ^ (k - count) := zpow_pos (by norm_num) _
      linarith

end Decimal

/-! ## Six digits without an exponent -/

namespace Binary64

/-- Whether a number is written to six digits without a sign and without an exponent: it is zero, or
it lies from `9.999995e-05` up to but below `999999.5`. -/
def Moderate : Binary64 → Prop
  | finite false m => m.significand = 0 ∨
      9999995 * Nat.pow 2 1074 ≤ m.units * Nat.pow 10 11 ∧ 2 * m.units < 1999999 * Nat.pow 2 1074
  | _ => False

instance : DecidablePred Moderate
  | finite false _ => inferInstanceAs (Decidable (_ ∨ _ ∧ _))
  | finite true _ | infinite _ | nan => .isFalse id

end Binary64

theorem Decimal.point_rounded_six {m : Magnitude} (hm : m.significand ≠ 0) :
    (-3 ≤ (rounded 6 m).point ∧ (rounded 6 m).point ≤ 6) ↔
      9999995 * Nat.pow 2 1074 ≤ m.units * Nat.pow 10 11 ∧
        2 * m.units < 1999999 * Nat.pow 2 1074 := by
  have hlow := point_rounded_le_iff 6 hm (by decide) (-4)
  have hhigh := point_rounded_le_iff 6 hm (by decide) 6
  generalize 1074 = exponent at hlow hhigh ⊢
  have hden : 0 < Nat.pow 2 exponent := Nat.two_pow_pos exponent
  generalize Nat.pow 2 exponent = den at hden hlow hhigh ⊢
  have hden' : (0 : ℚ) < den := by exact_mod_cast hden
  rw [div_lt_iff₀ hden'] at hlow hhigh
  have hbelow : (rounded 6 m).point ≤ -4 ↔ m.units * Nat.pow 10 11 < 9999995 * den := by
    rw [hlow, ← Nat.cast_lt (α := ℚ)]
    norm_num
    constructor
    · intro
      linarith
    · intro
      linarith
  have habove : (rounded 6 m).point ≤ 6 ↔ 2 * m.units < 1999999 * den := by
    rw [hhigh, ← Nat.cast_lt (α := ℚ)]
    norm_num
    constructor
    · intro
      linarith
    · intro
      linarith
  rw [habove, ← Nat.not_lt, ← hbelow]
  omega

end NovelScript
