import Mathlib.Data.List.TakeWhile
import Mathlib.Data.Nat.Digits.Lemmas
import NovelScript.Number.Decimal
import NovelScript.Proofs.Number.Rounding

/-!
# Decimals that read back

Zeros in front of decimal digits, and zeros behind them that the exponent makes up for, leave the
value as it is (`Binary64.ofDecimal_replicate_append`, `Binary64.ofDecimal_append_replicate`). So
the digits that `Decimal.shortest` chooses for a magnitude read back as it, with either sign
(`Decimal.ofDecimal_shortest`).
-/

set_option autoImplicit false

namespace NovelScript

/-! ## Digits -/

theorem decimalDigits_go_eq : ∀ {fuel n : Nat}, n ≤ fuel → ∀ acc,
    decimalDigits.go fuel n acc = (Nat.digits 10 n).reverse ++ acc
  | 0, n, h, acc => by
    obtain rfl : n = 0 := by omega
    rfl
  | fuel + 1, n, h, acc => by
    rw [decimalDigits.go]
    split
    · rename_i hn
      rw [hn, Nat.digits_zero]
      rfl
    · rename_i hn
      rw [decimalDigits_go_eq (by omega), Nat.digits_eq_cons_digits_div (by decide) hn,
        List.reverse_cons, List.append_assoc]
      rfl

theorem decimalDigits_eq (n : Nat) : decimalDigits n = (Nat.digits 10 n).reverse := by
  rw [decimalDigits, decimalDigits_go_eq (Nat.le_refl n), List.append_nil]

theorem decimalDigits_ne_nil {n : Nat} (h : n ≠ 0) : decimalDigits n ≠ [] := by
  rw [decimalDigits_eq, ne_eq, List.reverse_eq_nil_iff]
  exact Nat.digits_ne_nil_iff_ne_zero.2 h

theorem lt_ten_of_mem_decimalDigits {n d : Nat} (h : d ∈ decimalDigits n) : d < 10 := by
  rw [decimalDigits_eq, List.mem_reverse] at h
  exact Nat.digits_lt_base (by decide) h

/-- The first digit is not zero. -/
theorem ne_zero_of_head?_decimalDigits {n d : Nat} (h : d ∈ (decimalDigits n).head?) : d ≠ 0 := by
  rw [decimalDigits_eq, List.head?_reverse] at h
  have hn : n ≠ 0 := by
    rintro rfl
    simp at h
  have hlast := Nat.getLast_digit_ne_zero 10 hn
  rw [List.getLast?_eq_some_getLast (Nat.digits_ne_nil_iff_ne_zero.2 hn)] at h
  cases h
  exact hlast

theorem length_decimalDigits_le_iff (n k : Nat) :
    (decimalDigits n).length ≤ k ↔ n < Nat.pow 10 k := by
  rw [decimalDigits_eq, List.length_reverse, Nat.digits_length_le_iff (by decide)]
  rfl

namespace DecimalStyle

theorem natText_eq_toDigits (n : Nat) : natText n = Nat.toDigits 10 n := by
  induction n using Nat.strongRecOn with
  | ind n ih =>
    have hdigit : ∀ d < 10, digitChar d = Nat.digitChar d := by decide
    have hsmall : ∀ d < 10, natText d = [Nat.digitChar d] := by decide
    rw [Nat.toDigits_eq_if (by decide)]
    split
    · rename_i hn
      exact hsmall n hn
    · rename_i hn
      have hdigits : decimalDigits n = decimalDigits (n / 10) ++ [n % 10] := by
        rw [decimalDigits_eq, decimalDigits_eq, Nat.digits_def' (by decide) (by omega),
          List.reverse_cons]
      rw [← ih (n / 10) (by omega), natText, natText, if_neg (by omega), if_neg (by omega),
        hdigits, List.map_append, List.map_singleton, hdigit _ (by omega)]

theorem ofList_natText (n : Nat) : String.ofList (natText n) = toString n := by
  rw [natText_eq_toDigits, Nat.toString_eq_ofList_toDigits]

theorem ofList_intText (n : Int) : String.ofList (intText n) = toString n := by
  cases n with
  | ofNat n =>
    rw [intText, if_neg (by simp)]
    exact ofList_natText n
  | negSucc n =>
    have htext : intText (.negSucc n) = '-' :: natText (n + 1) := if_pos (Int.negSucc_lt_zero n)
    rw [htext, String.ofList_cons, ofList_natText]
    rfl

end DecimalStyle

namespace Binary64

theorem ofDigits_eq (ds : List Nat) : ofDigits ds = Nat.ofDigits 10 ds.reverse := by
  rw [ofDigits, Nat.ofDigits_eq_foldr, List.foldr_reverse]
  simp [Nat.add_comm]

theorem ofDigits_decimalDigits (n : Nat) : ofDigits (decimalDigits n) = n := by
  rw [ofDigits_eq, decimalDigits_eq, List.reverse_reverse, Nat.ofDigits_digits]

theorem ofDigits_append_zero (ds : List Nat) : ofDigits (ds ++ [0]) = 10 * ofDigits ds := by
  simp [ofDigits]

theorem dropWhile_decimalDigits (n : Nat) :
    (decimalDigits n).dropWhile (· == 0) = decimalDigits n := by
  have hhead := @ne_zero_of_head?_decimalDigits n
  cases h : decimalDigits n with
  | nil => rfl
  | cons d ds =>
    rw [h] at hhead
    exact List.dropWhile_cons_of_neg (by simpa using hhead (d := d) rfl)

/-! ## Values of decimals -/

theorem ofDecimal_replicate_append (negative : Bool) (k : Nat) (ds : List Nat) (e : Int) :
    ofDecimal negative (List.replicate k 0 ++ ds) e = ofDecimal negative ds e := by
  have hdrop : (List.replicate k 0 ++ ds).dropWhile (· == 0) = ds.dropWhile (· == 0) :=
    List.dropWhile_append_of_pos fun d hd => by simp [List.eq_of_mem_replicate hd]
  unfold ofDecimal
  rw [hdrop]

theorem ofRatio_congr (negative : Bool) {num den num' den' : Nat} (hd : 0 < den) (hd' : 0 < den')
    (h : num * den' = num' * den) : ofRatio negative num den = ofRatio negative num' den' := by
  have hsame := Magnitude.ofRatio?_congr hd hd' h
  simp only [ofRatio, hsame]

/-- Ten times a number takes one from the exponent. -/
theorem ofRatio_ten_mul (negative : Bool) (n : Nat) (e : Int) :
    (if 0 ≤ e then ofRatio negative (10 * n * Nat.pow 10 e.toNat) 1
      else ofRatio negative (10 * n) (Nat.pow 10 e.natAbs)) =
    if 0 ≤ e + 1 then ofRatio negative (n * Nat.pow 10 (e + 1).toNat) 1
      else ofRatio negative n (Nat.pow 10 (e + 1).natAbs) := by
  simp only [Nat.pow_eq]
  rcases Int.lt_trichotomy e (-1) with h | rfl | h
  · have hpos : ∀ k, 0 < 10 ^ k := fun k => Nat.pow_pos (by decide)
    rw [if_neg (by omega), if_neg (by omega)]
    refine ofRatio_congr negative (hpos _) (hpos _) ?_
    rw [show e.natAbs = (e + 1).natAbs + 1 by omega, pow_succ]
    ring
  · exact ofRatio_congr negative (by decide) (by decide) (by simp [Nat.mul_comm])
  · rw [if_pos (by omega), if_pos (by omega), show (e + 1).toNat = e.toNat + 1 by omega, pow_succ]
    congr 1
    ring

/-- A zero at the end takes one from the exponent. -/
theorem ofDecimal_append_zero (negative : Bool) (ds : List Nat) (e : Int) :
    ofDecimal negative (ds ++ [0]) e = ofDecimal negative ds (e + 1) := by
  unfold ofDecimal
  rw [List.dropWhile_append]
  generalize ds.dropWhile (· == 0) = u
  cases u with
  | nil => simp
  | cons d u =>
    have hplaces : (((d :: u) ++ [0]).length : Int) + e = ((d :: u).length : Int) + (e + 1) := by
      simp
      omega
    simp only [List.isEmpty_cons, Bool.false_eq_true, if_false, hplaces, List.cons_ne_nil,
      List.append_eq_nil_iff, false_and, false_or, ofDigits_append_zero, ofRatio_ten_mul]

theorem ofDecimal_append_replicate (negative : Bool) (ds : List Nat) (e : Int) : ∀ k : Nat,
    ofDecimal negative (ds ++ List.replicate k 0) e = ofDecimal negative ds (e + k)
  | 0 => by simp
  | k + 1 => by
    rw [List.replicate_succ', ← List.append_assoc, ofDecimal_append_zero,
      ofDecimal_append_replicate negative ds _ k]
    congr 1
    omega

/-- The number with this sign. -/
def withSign (negative : Bool) : Binary64 → Binary64
  | finite _ m => finite negative m
  | infinite _ => infinite negative
  | nan => nan

theorem withSign_ofRatio (negative : Bool) (num den : Nat) :
    (ofRatio false num den).withSign negative = ofRatio negative num den := by
  unfold ofRatio
  cases Magnitude.ofRatio? num den <;> rfl

/-- The sign plays no part in how a decimal is rounded. -/
theorem withSign_ofDecimal (negative : Bool) (ds : List Nat) (e : Int) :
    (ofDecimal false ds e).withSign negative = ofDecimal negative ds e := by
  simp only [ofDecimal, apply_ite (withSign negative), withSign_ofRatio]
  rfl

end Binary64

namespace Decimal

open Binary64

/-! ## The digits that are chosen -/

/-- The value of a decimal. -/
def value (negative : Bool) (d : Decimal) : Binary64 :=
  ofDecimal negative d.digits (d.point - d.digits.length)

/-- A decimal that can be written: it has digits, and the first of them is not zero. -/
structure IsNormal (d : Decimal) : Prop where
  ne_nil : d.digits ≠ []
  head : ∀ c ∈ d.digits.head?, c ≠ 0
  lt_ten : ∀ c ∈ d.digits, c < 10

/-- The zeros at the end of a natural go to the exponent. -/
theorem digits_ofNat (n : Nat) (e : Int) : ∃ k : Nat,
    decimalDigits n = (ofNat n e).digits ++ List.replicate k 0 ∧
      (ofNat n e).point = (ofNat n e).digits.length + (e + k) := by
  have hsplit := List.takeWhile_append_dropWhile (p := (· == 0)) (l := (decimalDigits n).reverse)
  have hzeros : (decimalDigits n).reverse.takeWhile (· == 0) =
      List.replicate ((decimalDigits n).reverse.takeWhile (· == 0)).length 0 :=
    List.eq_replicate_of_mem fun d hd => by simpa using List.mem_takeWhile_imp hd
  generalize ((decimalDigits n).reverse.takeWhile (· == 0)).length = k at hzeros
  have hdigits : decimalDigits n = (ofNat n e).digits ++ List.replicate k 0 := by
    rw [← List.reverse_inj, ← hsplit, hzeros]
    simp [ofNat]
  refine ⟨k, hdigits, ?_⟩
  show ((decimalDigits n).length : Int) + e = _
  rw [hdigits, List.length_append, List.length_replicate]
  push_cast
  omega

theorem value_ofNat (negative : Bool) (n : Nat) (e : Int) :
    (ofNat n e).value negative = ofDecimal negative (decimalDigits n) e := by
  obtain ⟨k, hdigits, hpoint⟩ := digits_ofNat n e
  rw [value, hdigits, ofDecimal_append_replicate, hpoint]
  congr 1
  omega

theorem isNormal_ofNat {n : Nat} (hn : n ≠ 0) (e : Int) : (ofNat n e).IsNormal := by
  obtain ⟨k, hdigits, -⟩ := digits_ofNat n e
  have hhead := @ne_zero_of_head?_decimalDigits n
  have hne := decimalDigits_ne_nil hn
  have hlt := @lt_ten_of_mem_decimalDigits n
  rw [hdigits] at hhead hne hlt
  refine ⟨fun h => ?_, fun c hc => hhead ?_, fun c hc => hlt (List.mem_append_left _ hc)⟩
  · rw [h, List.nil_append] at hhead hne
    cases k with
    | zero => exact hne rfl
    | succ k => exact hhead (d := 0) rfl rfl
  · rw [Option.mem_def] at hc ⊢
    rw [List.head?_append, hc]
    rfl

theorem readsBack_iff {m : Magnitude} {n : Nat} {e : Int} :
    readsBack m n e = true ↔ ofDecimal false (decimalDigits n) e = .finite false m := by
  rw [readsBack, beq_iff_eq]

theorem ofCount?_eq_some {m : Magnitude} {count : Nat} {d : Decimal}
    (h : ofCount? m count = some d) :
    ∃ n e, d = ofNat n e ∧ readsBack m n e = true := by
  unfold ofCount? at h
  extract_lets value exponent units low nearest other at h
  clear_value nearest other exponent
  split at h
  · rename_i hr
    cases h
    exact ⟨nearest, exponent, rfl, hr⟩
  · split at h
    · rename_i hr
      cases h
      exact ⟨other, exponent, rfl, hr⟩
    · cases h

/-- Bounds for the number of digits of a magnitude in full, in units of `10 ^ -k`. -/
theorem length_exact {m : Magnitude} (hm : m.significand ≠ 0) (k low high : Nat) {s : Nat}
    (hs : m.scale ≤ s) (hlow : Nat.pow 10 low ≤ Nat.pow 5 k)
    (hhigh : Nat.pow 2 53 * Nat.pow 2 s * Nat.pow 5 k < Nat.pow 10 high) :
    low < (decimalDigits (m.units * Nat.pow 5 k)).length ∧
      (decimalDigits (m.units * Nat.pow 5 k)).length ≤ high := by
  have hpos : 1 ≤ m.units := Nat.mul_pos (Nat.pos_of_ne_zero hm) (Nat.two_pow_pos _)
  have hunits : m.units ≤ Nat.pow 2 53 * Nat.pow 2 s :=
    Nat.mul_le_mul m.canonical.1.le (Nat.pow_le_pow_right (by decide) hs)
  rw [← Nat.not_le, length_decimalDigits_le_iff, length_decimalDigits_le_iff, Nat.not_lt]
  constructor
  · exact le_trans hlow (Nat.le_mul_of_pos_left _ hpos)
  · exact lt_of_le_of_lt (Nat.mul_le_mul_right _ hunits) hhigh

/-- A magnitude in full reads back. -/
theorem readsBack_exact {m : Magnitude} (hm : m.significand ≠ 0) :
    readsBack m (m.units * Nat.pow 5 1074) (-1074) = true := by
  have hplaces := length_exact hm 1074 743 1404 m.canonical.2.1 (by decide +kernel)
    (by decide +kernel)
  have hself := Magnitude.ofRatio?_units m
  rw [readsBack_iff, show (-1074 : Int) = -((1074 : Nat) : Int) from rfl]
  -- The powers are too large to be formed.
  generalize hk : 1074 = k at hplaces hself ⊢
  have hvalue : Magnitude.ofRatio? (m.units * Nat.pow 5 k) (Nat.pow 10 k) = some m := by
    rw [← hself]
    refine Magnitude.ofRatio?_congr (Nat.pow_pos (by decide)) (Nat.two_pow_pos k) ?_
    simp only [Nat.pow_eq]
    rw [Nat.mul_assoc, ← mul_pow, show 5 * 2 = 10 from rfl]
  have hne : decimalDigits (m.units * Nat.pow 5 k) ≠ [] := by
    intro h
    rw [h] at hplaces
    cases hplaces.1
  rw [ofDecimal, dropWhile_decimalDigits, ofDigits_decimalDigits]
  rw [if_neg (by simp only [hne, false_or]; omega), if_neg (by omega), if_neg (by omega), ofRatio,
    Int.natAbs_neg, Int.natAbs_natCast, hvalue]
  rfl

/-- **The digits that are chosen** for a magnitude read back as it, with either sign. -/
theorem value_shortest {m : Magnitude} (hm : m.significand ≠ 0) (negative : Bool) :
    (shortest m).value negative = .finite negative m ∧ (shortest m).IsNormal := by
  have hsome : ∃ n e, shortest m = ofNat n e ∧ readsBack m n e = true := by
    unfold shortest
    cases h : (List.range' 1 17).findSome? (ofCount? m) with
    | none => exact ⟨_, _, rfl, readsBack_exact hm⟩
    | some d =>
      obtain ⟨count, -, hd⟩ := List.exists_of_findSome?_eq_some h
      exact ofCount?_eq_some hd
  obtain ⟨n, e, hd, hr⟩ := hsome
  have hread := readsBack_iff.1 hr
  have hn : n ≠ 0 := by
    rintro rfl
    have hzero : ofDecimal false (decimalDigits 0) e = .finite false .zero := by
      simp [ofDecimal, decimalDigits, decimalDigits.go]
    rw [hzero] at hread
    cases hread
    exact hm rfl
  rw [hd, value_ofNat, ← withSign_ofDecimal, hread]
  exact ⟨rfl, isNormal_ofNat hn e⟩

end Decimal

end NovelScript
