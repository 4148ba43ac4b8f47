import NovelScript.Number.Binary64

/-!
# Decimal texts of double-precision numbers

A positive magnitude is written with the digits that `shortest` or `rounded` chooses. `shortest`
takes the fewest digits that read back as the same value, and of those the nearest; `rounded` takes
a fixed count of significant digits, a tie to the even one. A `DecimalStyle` then says where
positional notation ends, whether a whole number keeps a point, and how the special values are
spelt.
-/

set_option autoImplicit false

namespace NovelScript

/-- A decimal fraction `0.d₁d₂… * 10 ^ point`. -/
structure Decimal where
  digits : List Nat
  point : Int
  deriving DecidableEq, Repr

/-- The decimal digits of a natural, most significant first; zero has none. -/
def decimalDigits (n : Nat) : List Nat :=
  go n n []
where
  /-- Digits are split off at the low end while any are left. -/
  go : Nat → Nat → List Nat → List Nat
    | 0, _, acc => acc
    | fuel + 1, n, acc => if n = 0 then acc else go fuel (n / 10) (n % 10 :: acc)

namespace Decimal

/-- The decimal `n * 10 ^ exponent` without zeros at its end. -/
def ofNat (n : Nat) (exponent : Int) : Decimal :=
  let digits := decimalDigits n
  ⟨(digits.reverse.dropWhile (· == 0)).reverse, digits.length + exponent⟩

/-- The `point` of the positive quotient `num / den`: the least power of ten above it. -/
def pointOfRatio (num den : Nat) : Int :=
  if den ≤ num then (decimalDigits (num / den)).length
  else 1 - ((decimalDigits ((den - 1) / num)).length : Int)

/-- The quotient `num / den` counted in units of `10 ^ exponent`, as a quotient again. -/
def inUnits (num den : Nat) (exponent : Int) : Nat × Nat :=
  if 0 ≤ exponent then (num, den * Nat.pow 10 exponent.toNat)
  else (num * Nat.pow 10 exponent.natAbs, den)

/-- A magnitude as a quotient of naturals. -/
def ratio (m : Magnitude) : Nat × Nat :=
  (m.units, Nat.pow 2 1074)

/-- Whether `n * 10 ^ exponent` reads back as the magnitude. -/
def readsBack (m : Magnitude) (n : Nat) (exponent : Int) : Bool :=
  Binary64.ofDecimal false (decimalDigits n) exponent == .finite false m

/-- The nearest decimal of `count` digits that reads back as the magnitude, if there is one. Only
the two neighbours on that grid can be it; a tie goes to the even one. -/
def ofCount? (m : Magnitude) (count : Nat) : Option Decimal :=
  let value := ratio m
  let exponent := pointOfRatio value.1 value.2 - count
  let units := inUnits value.1 value.2 exponent
  let low := units.1 / units.2
  let nearest := roundQuotient units.1 units.2
  let other := if nearest = low then low + 1 else low
  if readsBack m nearest exponent then some (ofNat nearest exponent)
  else if readsBack m other exponent then some (ofNat other exponent)
  else none

/-- The digits of a magnitude in full. -/
def exact (m : Magnitude) : Decimal :=
  ofNat (m.units * Nat.pow 5 1074) (-1074)

/-- The decimal with the fewest digits that reads back as the magnitude; seventeen suffice. -/
def shortest (m : Magnitude) : Decimal :=
  ((List.range' 1 17).findSome? (ofCount? m)).getD (exact m)

/-- The magnitude rounded to `count` significant digits. -/
def rounded (count : Nat) (m : Magnitude) : Decimal :=
  let value := ratio m
  let exponent := pointOfRatio value.1 value.2 - count
  let units := inUnits value.1 value.2 exponent
  ofNat (roundQuotient units.1 units.2) exponent

end Decimal

/-- How a number is laid out once its digits are chosen. -/
structure DecimalStyle where
  /-- The digits that are written for a positive magnitude. -/
  choose : Magnitude → Decimal
  /-- The least decimal exponent that is written with an exponent mark. -/
  positionalBelow : Int
  /-- What follows a whole number in positional notation. -/
  wholeMark : List Char
  infinity : List Char
  nan : List Char

namespace DecimalStyle

/-- The character of a decimal digit. -/
def digitChar (d : Nat) : Char :=
  Char.ofNat ('0'.toNat + d)

/-- A natural in decimal notation. -/
def natText (n : Nat) : List Char :=
  if n = 0 then ['0'] else (decimalDigits n).map digitChar

/-- An integer in decimal notation. -/
def intText (n : Int) : List Char :=
  if n < 0 then '-' :: natText n.natAbs else natText n.natAbs

/-- An exponent with its mark, its sign and at least two digits. -/
def exponentText (e : Int) : List Char :=
  let digits := natText e.natAbs
  'e' :: (if e < 0 then '-' else '+') :: (if digits.length < 2 then '0' :: digits else digits)

/-- A positive decimal: exponents from -4 up to the style's bound are written positionally. -/
def decimalText (style : DecimalStyle) (d : Decimal) : List Char :=
  let digits := d.digits.map digitChar
  let e := d.point - 1
  if e < -4 ∨ style.positionalBelow ≤ e then
    match digits with
    | [] => []
    | [c] => c :: exponentText e
    | c :: rest => c :: '.' :: rest ++ exponentText e
  else if d.point ≤ 0 then
    '0' :: '.' :: List.replicate d.point.natAbs '0' ++ digits
  else
    let whole := d.point.toNat
    if digits.length ≤ whole then
      digits ++ List.replicate (whole - digits.length) '0' ++ style.wholeMark
    else digits.take whole ++ '.' :: digits.drop whole

/-- A magnitude without its sign. -/
def magnitudeText (style : DecimalStyle) (m : Magnitude) : List Char :=
  if m.significand = 0 then '0' :: style.wholeMark else style.decimalText (style.choose m)

/-- The text of a number in a style; a minus sign stands in front of negative zero, too. -/
def text (style : DecimalStyle) : Binary64 → List Char
  | .finite negative m =>
    if negative then '-' :: style.magnitudeText m else style.magnitudeText m
  | .infinite negative => if negative then '-' :: style.infinity else style.infinity
  | .nan => style.nan

/-- The shortest text that reads back: positional below `10 ^ 16`, whole numbers end in `.0`. -/
def full : DecimalStyle where
  choose := Decimal.shortest
  positionalBelow := 16
  wholeMark := ['.', '0']
  infinity := "inf".toList
  nan := "nan".toList

/-- The shortest text with the special values spelt as in JSON documents. -/
def json : DecimalStyle :=
  { full with infinity := "Infinity".toList, nan := "NaN".toList }

/-- Six significant digits: positional below a million, no zeros or point at the end. -/
def brief : DecimalStyle where
  choose := Decimal.rounded 6
  positionalBelow := 6
  wholeMark := []
  infinity := "inf".toList
  nan := "nan".toList

/-! ## Where the notations change -/

example : full.text (.ofDecimal false [1] 15) = "1000000000000000.0".toList := by decide +kernel

example : full.text (.ofDecimal false [1] 16) = "1e+16".toList := by decide +kernel

example : full.text (.ofDecimal true [1] (-5)) = "-1e-05".toList := by decide +kernel

example : full.text (.ofDecimal false [3] (-324)) = "5e-324".toList := by decide +kernel

example : full.text (.ofDecimal true [0] 0) = "-0.0".toList := by decide +kernel

example : brief.text (.ofDecimal false [9, 9, 9, 9, 9, 9, 5] (-1)) = "1e+06".toList := by
  decide +kernel

example : brief.text (.ofDecimal false [1, 2, 5] (-2)) = "1.25".toList := by decide +kernel

end DecimalStyle

end NovelScript
