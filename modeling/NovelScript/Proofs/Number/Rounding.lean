import Mathlib.Algebra.Order.Ring.Nat
import Mathlib.Tactic.Ring
import NovelScript.Number.Binary64

/-!
# Rounding to double precision

A quotient is rounded for its value alone: `Magnitude.ofRatio?_congr` lets numerator and denominator
be scaled. `Magnitude.ofRatio?_units`: a magnitude is rounded to itself.
`Binary64.ofInt?_isSome_iff`: the integers that have a nearest double are those in range.
-/

set_option autoImplicit false

namespace NovelScript

/-! ## The nearest natural -/

theorem roundQuotient_mul (num den : Nat) {k : Nat} (hk : 0 < k) :
    roundQuotient (num * k) (den * k) = roundQuotient num den := by
  have hq : num * k / (den * k) = num / den := Nat.mul_div_mul_right _ _ hk
  have hr : num * k % (den * k) = num % den * k := Nat.mul_mod_mul_right ..
  simp only [roundQuotient, hq, hr, ← Nat.mul_assoc, Nat.mul_lt_mul_right hk]

theorem roundQuotient_mul_self (n : Nat) {den : Nat} (hd : 0 < den) :
    roundQuotient (n * den) den = n := by
  simp [roundQuotient, hd]

theorem roundQuotient_cases (num den : Nat) :
    (roundQuotient num den = num / den ∧ 2 * (num % den) ≤ den) ∨
      (roundQuotient num den = num / den + 1 ∧ den ≤ 2 * (num % den)) := by
  unfold roundQuotient
  dsimp only
  split
  · exact .inl ⟨rfl, by omega⟩
  · split
    · exact .inr ⟨rfl, by omega⟩
    · split
      · exact .inl ⟨rfl, by omega⟩
      · exact .inr ⟨rfl, by omega⟩

/-- Halfway above an odd natural, rounding goes up. -/
theorem roundQuotient_of_odd {num den : Nat} (ho : num / den % 2 = 1)
    (hr : den ≤ 2 * (num % den)) : roundQuotient num den = num / den + 1 := by
  have hlow : ¬2 * (num % den) < den := by omega
  simp [roundQuotient, hlow, ho]

namespace Magnitude

/-! ## The scale -/

/-- The scale that `ofRatio?` takes for a value of `x` units: with it the value has at most 53 bits
before the point, and no fewer unless the scale is zero. -/
theorem scale_bounds (x : Nat) :
    x < 2 ^ (x.log2 - 52 + 53) ∧ (x.log2 - 52 = 0 ∨ 2 ^ (x.log2 - 52 + 52) ≤ x) := by
  constructor
  · exact lt_of_lt_of_le Nat.lt_log2_self (Nat.pow_le_pow_right (by decide) (by omega))
  · by_cases h : x.log2 ≤ 52
    · exact .inl (by omega)
    · have hx : x ≠ 0 := by
        rintro rfl
        simp at h
      refine .inr (le_trans (Nat.pow_le_pow_right (by decide) ?_) (Nat.log2_self_le hx))
      omega

/-- The quotient at a scale that fits is a significand, but for a carry. -/
theorem quotient_bounds {num den s : Nat} (hlt : num / den < 2 ^ (s + 53))
    (hle : s = 0 ∨ 2 ^ (s + 52) ≤ num / den) :
    num / (den * 2 ^ s) < 2 ^ 53 ∧ (s = 0 ∨ 2 ^ 52 ≤ num / (den * 2 ^ s)) := by
  have hs : 0 < 2 ^ s := Nat.two_pow_pos s
  rw [← Nat.div_div_eq_div_mul]
  constructor
  · rw [Nat.div_lt_iff_lt_mul hs, ← pow_add, Nat.add_comm 53]
    exact hlt
  · refine hle.imp_right fun h => ?_
    rw [Nat.le_div_iff_mul_le hs, ← pow_add, Nat.add_comm 52]
    exact h

/-- What is rounded at a scale that fits is a magnitude up to the greatest scale. -/
theorem ofRounded?_isSome_iff {q s : Nat} (hs : s = 0 ∨ 2 ^ 52 ≤ q) :
    (ofRounded? q s).isSome ↔ (q < 2 ^ 53 ∧ s ≤ 2045) ∨ (q = 2 ^ 53 ∧ s ≤ 2044) := by
  unfold ofRounded?
  by_cases hc : IsCanonical q s
  · rw [dif_pos hc]
    obtain ⟨hlt, hle, -⟩ := hc
    simpa using Or.inl ⟨hlt, hle⟩
  · have hn : ¬(q < 2 ^ 53 ∧ s ≤ 2045) := fun h => hc ⟨h.1, h.2, hs⟩
    rw [dif_neg hc]
    by_cases hf : q = Nat.pow 2 53 ∧ IsCanonical (Nat.pow 2 52) (s + 1)
    · rw [dif_pos hf]
      obtain ⟨hq, -, hle, -⟩ := hf
      simpa using Or.inr ⟨hq, Nat.le_of_succ_le_succ hle⟩
    · have hn' : ¬(q = 2 ^ 53 ∧ s ≤ 2044) := fun h =>
        hf ⟨h.1, by decide, Nat.succ_le_succ h.2, .inr (Nat.le_refl _)⟩
      rw [dif_neg hf]
      simpa using And.intro (fun h => fun h' => hn ⟨h, h'⟩) fun h => fun h' => hn' ⟨h, h'⟩

/-! ## Magnitudes of quotients -/

theorem ofRounded?_self (m : Magnitude) : ofRounded? m.significand m.scale = some m := by
  rw [ofRounded?, dif_pos m.canonical]

theorem ofRatio?_mul (num den : Nat) {k : Nat} (hk : 0 < k) :
    ofRatio? (num * k) (den * k) = ofRatio? num den := by
  unfold ofRatio?
  generalize Nat.pow 2 1074 = unit
  simp only [Nat.mul_right_comm num k, Nat.mul_right_comm den k, Nat.mul_div_mul_right _ _ hk,
    roundQuotient_mul _ _ hk]

/-- **A quotient is rounded for its value.** -/
theorem ofRatio?_congr {num den num' den' : Nat} (hd : 0 < den) (hd' : 0 < den')
    (h : num * den' = num' * den) : ofRatio? num den = ofRatio? num' den' := by
  rw [← ofRatio?_mul num den hd', h, Nat.mul_comm den, ofRatio?_mul num' den' hd]

theorem eq_zero_of_significand (m : Magnitude) (h : m.significand = 0) : m = zero := by
  obtain ⟨significand, scale, hlt, hle, hs⟩ := m
  obtain rfl : significand = 0 := h
  have hscale : scale = 0 := hs.resolve_right (by decide)
  subst hscale
  rfl

/-- The scale of a magnitude is the one that is taken for its units. -/
theorem log2_units (m : Magnitude) : m.units.log2 - 52 = m.scale := by
  obtain ⟨hlt, -, hle⟩ := m.canonical
  rw [Nat.pow_eq] at hlt hle
  rw [units, Nat.pow_eq]
  rcases hle with h0 | hle
  · rw [h0, pow_zero, Nat.mul_one]
    rcases Nat.eq_zero_or_pos m.significand with h | h
    · rw [h]
      rfl
    · have hlog := (Nat.log2_lt h.ne').2 hlt
      omega
  · have hpow : 0 < 2 ^ m.scale := Nat.two_pow_pos _
    have hlow : 2 ^ (52 + m.scale) ≤ m.significand * 2 ^ m.scale := by
      rw [pow_add]
      exact Nat.mul_le_mul_right _ hle
    have hhigh : m.significand * 2 ^ m.scale < 2 ^ (52 + m.scale + 1) := by
      rw [show 52 + m.scale + 1 = 53 + m.scale by omega, pow_add]
      exact Nat.mul_lt_mul_of_pos_right hlt hpow
    have hne : m.significand * 2 ^ m.scale ≠ 0 := by
      have := Nat.two_pow_pos (52 + m.scale)
      omega
    rw [(Nat.log2_eq_iff hne).2 ⟨hlow, hhigh⟩, Nat.add_sub_cancel_left]

/-- **A magnitude is rounded to itself.** -/
theorem ofRatio?_units (m : Magnitude) : ofRatio? m.units (Nat.pow 2 1074) = some m := by
  unfold ofRatio?
  -- The unit is too large to be formed.
  generalize 1074 = k
  have hunit : 0 < Nat.pow 2 k := Nat.two_pow_pos k
  have hscale : 0 < Nat.pow 2 m.scale := Nat.two_pow_pos m.scale
  dsimp only
  rw [Nat.mul_div_cancel _ hunit, log2_units, Nat.mul_comm (Nat.pow 2 k),
    roundQuotient_mul _ _ hunit, units, roundQuotient_mul_self _ hscale, ofRounded?_self]

/-- **The range of magnitudes.** A quotient rounds past the greatest magnitude exactly from half a
step above that on, where the next significand would be the even one. -/
theorem ofRatio?_isSome_iff (num : Nat) {den : Nat} (hd : 0 < den) :
    (ofRatio? num den).isSome ↔
      num * Nat.pow 2 1074 < (2 ^ 54 - 1) * (den * Nat.pow 2 2044) := by
  unfold ofRatio?
  generalize num * Nat.pow 2 1074 = x
  generalize hk : 2044 = k
  obtain ⟨hlt, hle⟩ := scale_bounds (x / den)
  dsimp only
  generalize (x / den).log2 - 52 = s at hlt hle ⊢
  simp only [Nat.pow_eq]
  obtain ⟨hq, hq'⟩ := quotient_bounds hlt hle
  have hcases := roundQuotient_cases x (den * 2 ^ s)
  have hodd := @roundQuotient_of_odd x (den * 2 ^ s)
  have hdiv := Nat.div_add_mod x (den * 2 ^ s)
  have hmod := Nat.mod_lt x (Nat.mul_pos hd (Nat.two_pow_pos s))
  -- The value below, at and above the greatest scale.
  have below : s ≤ k → x < 2 ^ 53 * (den * 2 ^ k) := fun h => by
    have hpow : 2 ^ s ≤ 2 ^ k := Nat.pow_le_pow_right (by decide) h
    rw [Nat.div_lt_iff_lt_mul hd, pow_add, Nat.mul_comm (2 ^ s), Nat.mul_assoc,
      Nat.mul_comm (2 ^ s)] at hlt
    exact lt_of_lt_of_le hlt (Nat.mul_le_mul_left _ (Nat.mul_le_mul_left _ hpow))
  have top : s = k + 1 → den * 2 ^ s = 2 * (den * 2 ^ k) := fun h => by
    rw [h, pow_succ', Nat.mul_left_comm]
  have above : k + 2 ≤ s → 2 ^ 54 * (den * 2 ^ k) ≤ x := fun h => by
    have hpow : 2 ^ (54 + k) ≤ 2 ^ (s + 52) := Nat.pow_le_pow_right (by decide) (by omega)
    have hx := (Nat.le_div_iff_mul_le hd).1 (hle.resolve_left (by omega))
    rw [Nat.mul_left_comm, ← pow_add, Nat.mul_comm]
    exact le_trans (Nat.mul_le_mul_right _ hpow) hx
  have hpos : 0 < den * 2 ^ k := Nat.mul_pos hd (Nat.two_pow_pos k)
  rw [ofRounded?_isSome_iff (by omega)]
  generalize den * 2 ^ k = half at below top above hpos ⊢
  generalize roundQuotient x (den * 2 ^ s) = m at hcases hodd ⊢
  generalize x / (den * 2 ^ s) = q at *
  generalize x % (den * 2 ^ s) = r at *
  generalize den * 2 ^ s = step at *
  rcases Nat.lt_trichotomy s (k + 1) with h | h | h
  · have := below (by omega)
    omega
  · obtain rfl := top h
    rcases Nat.lt_or_ge (q + 1) (2 ^ 53) with h1 | h1
    · have := Nat.mul_le_mul_left half (show q ≤ 2 ^ 53 - 2 by omega)
      rw [Nat.mul_assoc] at hdiv
      omega
    · obtain rfl : q = 2 ^ 53 - 1 := by omega
      omega
  · have := above h
    omega

end Magnitude

namespace Binary64

/-- The integers that do not round past the greatest double. -/
def InRange (n : Int) : Prop := n.natAbs < 2 ^ 1024 - 2 ^ 970

instance (n : Int) : Decidable (InRange n) := inferInstanceAs (Decidable (_ < _))

/-- **The range of integers.** -/
theorem ofInt?_isSome_iff (n : Int) : (ofInt? n).isSome ↔ InRange n := by
  rw [ofInt?, Option.isSome_map, Magnitude.ofRatio?_isSome_iff _ Nat.one_pos, InRange]
  generalize n.natAbs = k
  generalize hu : 1074 = u
  generalize hv : 970 = v
  rw [show 2044 = v + u by omega, show 1024 = v + 54 by omega]
  have hbound : (2 ^ 54 - 1) * (1 * Nat.pow 2 (v + u)) = (2 ^ (v + 54) - 2 ^ v) * 2 ^ u := by
    rw [Nat.one_mul, Nat.pow_eq, pow_add, pow_add, ← Nat.mul_assoc, Nat.mul_comm _ (2 ^ v),
      Nat.mul_sub_one]
  rw [hbound, Nat.pow_eq, Nat.mul_lt_mul_right (Nat.two_pow_pos u)]

end Binary64

end NovelScript
