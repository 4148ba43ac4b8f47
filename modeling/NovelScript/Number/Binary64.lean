/-!
# Double-precision numbers

`Binary64` holds the values of the IEEE 754 format of 64 bits, with one NaN. A magnitude is a whole
number of units of `2 ^ -1074`, kept as a significand of at most 53 bits and a scale, in the one
form that has either scale zero or all 53 bits.

`ofRatio` rounds a quotient of naturals to the nearest value, a tie to the even significand and
what exceeds the greatest magnitude by half a step to infinity; `ofDecimal` reads decimal digits
with a power of ten, and `ofInt?` an integer that is in range. Powers are those of `Nat.pow`,
whatever algebra is in scope.
-/

set_option autoImplicit false

namespace NovelScript

/-- The one form of a magnitude: 53 bits, fewer only at scale zero. -/
def IsCanonical (significand scale : Nat) : Prop :=
  significand < Nat.pow 2 53 ∧ scale ≤ 2045 ∧ (scale = 0 ∨ Nat.pow 2 52 ≤ significand)

instance (significand scale : Nat) : Decidable (IsCanonical significand scale) :=
  inferInstanceAs (Decidable (_ ∧ _))

/-- The magnitude `significand * 2 ^ scale * 2 ^ -1074`. -/
structure Magnitude where
  significand : Nat
  scale : Nat
  canonical : IsCanonical significand scale
  deriving DecidableEq, Repr

/-- A value of the IEEE 754 format of 64 bits; all NaNs are one. -/
inductive Binary64 where
  | finite (negative : Bool) (magnitude : Magnitude)
  | infinite (negative : Bool)
  | nan
  deriving DecidableEq, Repr

/-- The quotient `num / den` rounded to the nearest natural, a tie to the even one. -/
def roundQuotient (num den : Nat) : Nat :=
  let q := num / den
  let r := num % den
  if 2 * r < den then q
  else if den < 2 * r then q + 1
  else if q % 2 = 0 then q
  else q + 1

namespace Magnitude

/-- The zero magnitude. -/
def zero : Magnitude :=
  ⟨0, 0, by decide⟩

/-- The magnitude in units of `2 ^ -1074`. -/
def units (m : Magnitude) : Nat :=
  m.significand * Nat.pow 2 m.scale

/-- The magnitude with this significand and scale once a full `2 ^ 53` is moved into the scale. -/
def ofRounded? (significand scale : Nat) : Option Magnitude :=
  if h : IsCanonical significand scale then some ⟨significand, scale, h⟩
  else if h : significand = Nat.pow 2 53 ∧ IsCanonical (Nat.pow 2 52) (scale + 1) then
    some ⟨Nat.pow 2 52, scale + 1, h.2⟩
  else none

/-- The magnitude nearest to `num / den`, if it does not round past the greatest one. -/
def ofRatio? (num den : Nat) : Option Magnitude :=
  let scaled := num * Nat.pow 2 1074
  let scale := (scaled / den).log2 - 52
  ofRounded? (roundQuotient scaled (den * Nat.pow 2 scale)) scale

end Magnitude

namespace Binary64

/-- Whether a value is zero, of either sign. -/
def isZero : Binary64 → Bool
  | finite _ m => m.significand = 0
  | _ => false

/-- The value nearest to `num / den` with the given sign. -/
def ofRatio (negative : Bool) (num den : Nat) : Binary64 :=
  (Magnitude.ofRatio? num den).elim (infinite negative) (finite negative)

/-- The natural that decimal digits denote. -/
def ofDigits (digits : List Nat) : Nat :=
  digits.foldl (fun n d => 10 * n + d) 0

/-- The value nearest to the decimal `digits * 10 ^ exponent`. Decimals of 330 places and more
beyond the point or before it are zero and infinity without the power being formed. -/
def ofDecimal (negative : Bool) (digits : List Nat) (exponent : Int) : Binary64 :=
  let digits := digits.dropWhile (· == 0)
  let places := digits.length + exponent
  if digits = [] ∨ places < -330 then finite negative .zero
  else if 330 < places then infinite negative
  else if 0 ≤ exponent then ofRatio negative (ofDigits digits * Nat.pow 10 exponent.toNat) 1
  else ofRatio negative (ofDigits digits) (Nat.pow 10 exponent.natAbs)

/-- The value nearest to an integer, unless that is out of range. -/
def ofInt? (n : Int) : Option Binary64 :=
  (Magnitude.ofRatio? n.natAbs 1).map (finite (n < 0))

end Binary64

end NovelScript
