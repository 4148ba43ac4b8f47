import NovelScript.Json.Printer
import NovelScript.Json.Reader
import NovelScript.Proofs.Number.Decimals

/-!
# Numbers in JSON texts

A numeral is read back where no character behind it could belong to it (`readNumber_append`). An
integer of at most `maxDigits` digits is written as one (`isNumber_intText`), and so is every finite
double (`isNumber_text`). The other way round, an integer that is read has no more digits than its
numeral (`readNumber_eq_ok`).
-/

set_option autoImplicit false

namespace NovelScript.Json

/-! ## Numerals -/

/-- A fraction with its point. -/
def fractionText : Option (List Char) → List Char
  | none => []
  | some digits => '.' :: digits

/-- An exponent with its mark and its sign. -/
def powerText : Option (Bool × List Char) → List Char
  | none => []
  | some (negative, digits) => 'e' :: (if negative then '-' else '+') :: digits

/-- The text of a numeral. -/
def Numeral.text (n : Numeral) : List Char :=
  (if n.negative then ['-'] else []) ++ n.whole ++ fractionText n.fraction ++ powerText n.exponent

/-- A piece of a numeral: some digits. -/
def IsDigits (s : List Char) : Prop := s ≠ [] ∧ ∀ c ∈ s, c.isDigit = true

/-- A numeral that a text can hold. -/
structure Numeral.WellFormed (n : Numeral) : Prop where
  whole : IsDigits n.whole
  /-- Only a single digit is zero in front. -/
  head : n.whole = ['0'] ∨ n.whole.head? ≠ some '0'
  fraction : ∀ digits ∈ n.fraction, IsDigits digits
  exponent : ∀ e ∈ n.exponent, IsDigits e.2

/-- Whether digits end before `s`. -/
def EndsDigits (s : List Char) : Prop := ∀ c ∈ s.head?, c.isDigit = false

/-- Whether a number ends before `s`. -/
def EndsNumber (s : List Char) : Prop :=
  ∀ c ∈ s.head?, c.isDigit = false ∧ c ≠ '.' ∧ c ≠ 'e' ∧ c ≠ 'E'

theorem takeDigits_append {ds r : List Char} (hd : ∀ c ∈ ds, c.isDigit = true)
    (hr : EndsDigits r) : takeDigits (ds ++ r) = (ds, r) := by
  unfold takeDigits
  rw [List.takeWhile_append_of_pos hd, List.dropWhile_append_of_pos hd]
  cases r with
  | nil => simp
  | cons c r =>
    have hc := hr c rfl
    simp [hc]

theorem readExponent_powerText {exponent : Option (Bool × List Char)}
    (h : ∀ e ∈ exponent, IsDigits e.2) {r : List Char} (hr : EndsNumber r) :
    readExponent (powerText exponent ++ r) = (exponent, r) := by
  cases exponent with
  | none =>
    cases r with
    | nil => rfl
    | cons c r =>
      obtain ⟨-, -, he, hE⟩ := hr c rfl
      simp [powerText, readExponent, he, hE]
  | some e =>
    obtain ⟨negative, ds⟩ := e
    obtain ⟨hne, hd⟩ := h _ rfl
    have htake := takeDigits_append hd fun c hc => (hr c hc).1
    cases negative <;> simp [powerText, readExponent, htake, hne]

/-- What follows a fraction neither goes on with it nor is one. -/
theorem head?_powerText (exponent : Option (Bool × List Char)) {r : List Char}
    (hr : EndsNumber r) :
    ∀ c ∈ (powerText exponent ++ r).head?, c.isDigit = false ∧ c ≠ '.' := by
  cases exponent with
  | none => exact fun c hc => ⟨(hr c hc).1, (hr c hc).2.1⟩
  | some e => simp [powerText]

theorem readFraction_fractionText {fraction : Option (List Char)}
    (h : ∀ digits ∈ fraction, IsDigits digits) {r : List Char}
    (hr : ∀ c ∈ r.head?, c.isDigit = false ∧ c ≠ '.') :
    readFraction (fractionText fraction ++ r) = (fraction, r) := by
  cases fraction with
  | none =>
    rw [fractionText, List.nil_append]
    unfold readFraction
    split
    · exact absurd rfl (hr '.' rfl).2
    · rfl
  | some ds =>
    obtain ⟨hne, hd⟩ := h ds rfl
    simp [fractionText, readFraction, takeDigits_append hd fun c hc => (hr c hc).1, hne]

theorem endsDigits_fractionText (fraction : Option (List Char)) {r : List Char}
    (hr : EndsDigits r) : EndsDigits (fractionText fraction ++ r) := by
  cases fraction with
  | none => exact hr
  | some ds => simp [fractionText, EndsDigits]

theorem readWhole?_text (negative : Bool) {ds r : List Char} (hd : IsDigits ds)
    (hh : ds = ['0'] ∨ ds.head? ≠ some '0') (hr : EndsDigits r) :
    readWhole? ((if negative then ['-'] else []) ++ ds ++ r) = some (negative, ds, r) := by
  have htake := takeDigits_append hd.2 hr
  obtain ⟨hne, hdigit⟩ := hd
  cases ds with
  | nil => exact absurd rfl hne
  | cons d ds =>
    have hd : d.isDigit = true := hdigit d (.head _)
    have hminus : d ≠ '-' := by
      rintro rfl
      cases hd
    rw [List.cons_append] at htake
    by_cases hz : d = '0'
    · subst hz
      obtain rfl : ds = [] := by simpa using hh
      cases negative <;> simp [readWhole?]
    · cases negative <;> simp [readWhole?, hminus, hd, htake]

/-- **A numeral is read as it was written**, where nothing behind it could belong to it. -/
theorem readNumeral?_text {n : Numeral} (h : n.WellFormed) {r : List Char} (hr : EndsNumber r) :
    readNumeral? (n.text ++ r) = some (n, r) := by
  have hafter := head?_powerText n.exponent hr
  have hwhole := readWhole?_text n.negative h.whole h.head
    (endsDigits_fractionText n.fraction fun c hc => (hafter c hc).1)
  rw [readNumeral?, Numeral.text, List.append_assoc, List.append_assoc, hwhole]
  simp only [readFraction_fractionText h.fraction hafter, readExponent_powerText h.exponent hr]

/-- Whether a text is a numeral for a value. -/
def IsNumber (s : List Char) (v : Json) : Prop :=
  ∃ n : Numeral, n.WellFormed ∧ s = n.text ∧ n.value = .ok v

theorem IsNumber.readNumber_append {s : List Char} {v : Json} (h : IsNumber s v) {r : List Char}
    (hr : EndsNumber r) : readNumber (s ++ r) = .ok (v, r) := by
  obtain ⟨n, hn, rfl, hv⟩ := h
  simp only [readNumber, readNumeral?_text hn hr, hv]

/-- A numeral begins with a digit, perhaps behind a sign. -/
theorem IsNumber.exists_digit {s : List Char} {v : Json} (h : IsNumber s v) :
    ∃ d r, d.isDigit = true ∧ (s = d :: r ∨ s = '-' :: d :: r) := by
  obtain ⟨⟨negative, whole, fraction, exponent⟩, hn, rfl, -⟩ := h
  obtain ⟨hne, hdigit⟩ := hn.whole
  cases whole with
  | nil => exact absurd rfl hne
  | cons d ds =>
    refine ⟨d, ds ++ fractionText fraction ++ powerText exponent, hdigit d (.head _), ?_⟩
    cases negative <;> simp [Numeral.text]

/-! ## Integers -/

open DecimalStyle Binary64

theorem isDigit_digitChar : ∀ {d : Nat}, d < 10 → (digitChar d).isDigit = true := by decide

theorem toNat_digitChar : ∀ {d : Nat}, d < 10 → (digitChar d).toNat - '0'.toNat = d := by decide

theorem digitChar_ne_zero : ∀ {d : Nat}, d < 10 → d ≠ 0 → digitChar d ≠ '0' := by decide

theorem digitValues_map {ds : List Nat} (h : ∀ d ∈ ds, d < 10) :
    digitValues (ds.map digitChar) = ds := by
  rw [digitValues, List.map_map]
  exact (List.map_congr_left fun d hd => toNat_digitChar (h d hd)).trans (List.map_id' ds)

theorem isDigits_map {ds : List Nat} (hne : ds ≠ []) (h : ∀ d ∈ ds, d < 10) :
    IsDigits (ds.map digitChar) := by
  refine ⟨by simpa using hne, fun c hc => ?_⟩
  obtain ⟨d, hd, rfl⟩ := List.mem_map.1 hc
  exact isDigit_digitChar (h d hd)

theorem head?_map_digitChar {ds : List Nat} (hhead : ∀ d ∈ ds.head?, d ≠ 0)
    (h : ∀ d ∈ ds, d < 10) : (ds.map digitChar).head? ≠ some '0' := by
  cases ds with
  | nil => simp
  | cons d ds => simpa using digitChar_ne_zero (h d (.head _)) (hhead d rfl)

/-- A natural is written as digits, of which only a single one is zero in front. -/
theorem isDigits_natText (n : Nat) :
    IsDigits (natText n) ∧ (natText n = ['0'] ∨ (natText n).head? ≠ some '0') ∧
      ofDigits (digitValues (natText n)) = n := by
  unfold natText
  split
  · rename_i hn
    subst hn
    exact ⟨by simp [IsDigits], .inl rfl, rfl⟩
  · rename_i hn
    have hlt := fun d (h : d ∈ decimalDigits n) => lt_ten_of_mem_decimalDigits h
    refine ⟨isDigits_map (decimalDigits_ne_nil hn) hlt, .inr (head?_map_digitChar ?_ hlt), ?_⟩
    · exact fun d hd => ne_zero_of_head?_decimalDigits hd
    · rw [digitValues_map hlt, ofDigits_decimalDigits]

/-- **An integer is written as a numeral**, if it has no more than the greatest number of
digits. -/
theorem isNumber_intText {n : Int} (hn : digitCount n ≤ maxDigits) :
    IsNumber (intText n) (.int n) := by
  obtain ⟨hdigits, hhead, hvalue⟩ := isDigits_natText n.natAbs
  refine ⟨⟨n < 0, natText n.natAbs, none, none⟩, ⟨hdigits, hhead, by simp, by simp⟩, ?_, ?_⟩
  · by_cases h : n < 0 <;> simp [intText, Numeral.text, fractionText, powerText, h]
  · rw [Numeral.value]
    dsimp only
    rw [if_neg (by unfold digitCount at hn; omega), hvalue]
    by_cases h : n < 0
    · simp only [h, decide_true, if_true]
      congr
      omega
    · simp only [h, decide_false, Bool.false_eq_true, if_false]
      congr
      omega

/-! ## Doubles -/

/-- The exponent that is written. -/
def powerValue : Option (Bool × List Char) → Int
  | none => 0
  | some (negative, digits) =>
    if negative then -(ofDigits (digitValues digits) : Int) else ofDigits (digitValues digits)

/-- Whether a text is a numeral for a double, with either sign in front of it. -/
def IsNumeralFor (s : List Char) (x : Bool → Binary64) : Prop :=
  ∃ whole fraction exponent, s = whole ++ fractionText fraction ++ powerText exponent ∧
    ∀ negative, (⟨negative, whole, fraction, exponent⟩ : Numeral).WellFormed ∧
      (⟨negative, whole, fraction, exponent⟩ : Numeral).value = .ok (.float (x negative))

/-- The value of a numeral with a fraction or an exponent. -/
theorem Numeral.value_eq_float (negative : Bool) (whole : List Char)
    {fraction : Option (List Char)} {exponent : Option (Bool × List Char)}
    (h : fraction ≠ none ∨ exponent ≠ none) :
    (⟨negative, whole, fraction, exponent⟩ : Numeral).value =
      .ok (.float (ofDecimal negative (digitValues (whole ++ fraction.getD []))
        (powerValue exponent - (fraction.getD []).length))) := by
  cases fraction with
  | none =>
    cases exponent with
    | none => simp at h
    | some e => rfl
  | some f => cases exponent <;> rfl

/-- An exponent is written with digits that denote it. -/
theorem exponentText_eq (e : Int) : ∃ digits, exponentText e = powerText (some (e < 0, digits)) ∧
    IsDigits digits ∧ powerValue (some (e < 0, digits)) = e := by
  obtain ⟨⟨hne, hdigit⟩, -, hvalue⟩ := isDigits_natText e.natAbs
  have hsign : ∀ digits, ofDigits (digitValues digits) = e.natAbs →
      powerValue (some (e < 0, digits)) = e := by
    intro digits h
    simp only [powerValue, h, decide_eq_true_eq]
    split <;> omega
  by_cases hlen : (natText e.natAbs).length < 2
  · refine ⟨'0' :: natText e.natAbs, by simp [exponentText, powerText, hlen], ⟨by simp, ?_⟩,
      hsign _ hvalue⟩
    exact List.forall_mem_cons.2 ⟨rfl, hdigit⟩
  · exact ⟨natText e.natAbs, by simp [exponentText, powerText, hlen], ⟨hne, hdigit⟩, hsign _ hvalue⟩

/-- A numeral denotes a decimal if it has its digits, perhaps with zeros around them, and an
exponent that makes up for those behind. -/
theorem isNumeralFor_of_digits {d : Decimal} (hlt : ∀ c ∈ d.digits, c < 10) {s : List Char}
    (whole : List Char) (fraction : Option (List Char)) (exponent : Option (Bool × List Char))
    (hs : s = whole ++ fractionText fraction ++ powerText exponent)
    (hwhole : IsDigits whole) (hhead : whole = ['0'] ∨ whole.head? ≠ some '0')
    (hfraction : ∀ f ∈ fraction, IsDigits f) (hexponent : ∀ e ∈ exponent, IsDigits e.2)
    (hfloat : fraction ≠ none ∨ exponent ≠ none) (k l : Nat)
    (hdigits : whole ++ fraction.getD [] =
      List.replicate k '0' ++ (d.digits.map digitChar ++ List.replicate l '0'))
    (hpower : powerValue exponent - (fraction.getD []).length = d.point - d.digits.length - l) :
    IsNumeralFor s fun negative => d.value negative := by
  refine ⟨whole, fraction, exponent, hs, fun negative =>
    ⟨⟨hwhole, hhead, hfraction, hexponent⟩, ?_⟩⟩
  have hvalues : digitValues (whole ++ fraction.getD []) =
      List.replicate k 0 ++ (d.digits ++ List.replicate l 0) := by
    have hmap := digitValues_map hlt
    unfold digitValues at hmap ⊢
    rw [hdigits, List.map_append, List.map_append, hmap, List.map_replicate, List.map_replicate]
    rfl
  rw [Numeral.value_eq_float negative whole hfloat, hvalues, ofDecimal_replicate_append,
    ofDecimal_append_replicate, hpower, Int.sub_add_cancel]
  rfl

theorem isDigits_append {a b : List Char} (ha : IsDigits a) (hb : ∀ c ∈ b, c.isDigit = true) :
    IsDigits (a ++ b) :=
  ⟨by simp [ha.1], fun c hc => (List.mem_append.1 hc).elim (ha.2 c) (hb c)⟩

theorem isDigit_of_mem_zeros {k : Nat} : ∀ c ∈ List.replicate k '0', c.isDigit = true := by
  intro c hc
  rw [List.eq_of_mem_replicate hc]
  rfl

theorem isDigits_zeros_append {k : Nat} {a : List Char} (ha : IsDigits a) :
    IsDigits (List.replicate k '0' ++ a) :=
  ⟨by simp [ha.1], fun c hc => (List.mem_append.1 hc).elim (isDigit_of_mem_zeros c) (ha.2 c)⟩

section
variable {d : Decimal} (hd : d.IsNormal)
include hd

/-- One digit before the point, and an exponent. -/
theorem isNumeralFor_scientific {c : Char} {rest : List Char}
    (h : d.digits.map digitChar = c :: rest) :
    IsNumeralFor (c :: (if rest = [] then [] else '.' :: rest) ++ exponentText (d.point - 1))
      fun negative => d.value negative := by
  obtain ⟨digits, htext, hexponent, hpower⟩ := exponentText_eq (d.point - 1)
  have hdigits := isDigits_map hd.ne_nil hd.lt_ten
  have hfirst := head?_map_digitChar hd.head hd.lt_ten
  have hlength : (d.digits.map digitChar).length = d.digits.length := List.length_map ..
  rw [h] at hdigits hfirst
  rw [h, List.length_cons] at hlength
  have hc : IsDigits [c] := ⟨by simp, by simpa using hdigits.2 c (.head _)⟩
  refine isNumeralFor_of_digits hd.lt_ten [c] (if rest = [] then none else some rest)
    (some (d.point - 1 < 0, digits)) ?_ hc (.inr hfirst) ?_ (by simpa using hexponent)
    (.inr (by simp)) 0 0 ?_ ?_
  · rw [htext]
    split <;> rfl
  · intro f hf
    split at hf
    · cases hf
    · rename_i hne
      cases hf
      exact ⟨hne, fun x hx => hdigits.2 x (.tail _ hx)⟩
  · rw [h]
    split <;> simp_all
  · rw [hpower]
    split
    · rename_i hrest
      rw [hrest, List.length_nil] at hlength
      simp only [Option.getD_none, List.length_nil]
      omega
    · rw [Option.getD_some]
      omega

/-- Zeros up to the first digit. -/
theorem isNumeralFor_below_one (hp : d.point ≤ 0) :
    IsNumeralFor ('0' :: '.' :: List.replicate d.point.natAbs '0' ++ d.digits.map digitChar)
      fun negative => d.value negative := by
  refine isNumeralFor_of_digits hd.lt_ten ['0']
    (some (List.replicate d.point.natAbs '0' ++ d.digits.map digitChar)) none
    (by simp [fractionText, powerText]) ⟨by simp, by simp⟩ (.inl rfl) ?_ (by simp)
    (.inl (by simp)) (d.point.natAbs + 1) 0 (by simp [List.replicate_succ]) ?_
  · rintro _ ⟨⟩
    exact isDigits_zeros_append (isDigits_map hd.ne_nil hd.lt_ten)
  · rw [Option.getD_some, List.length_append, List.length_replicate, List.length_map, powerValue]
    omega

/-- Zeros from the last digit up to the point, and one behind it. -/
theorem isNumeralFor_whole (hp : 0 < d.point) (hle : d.digits.length ≤ d.point.toNat) :
    IsNumeralFor (d.digits.map digitChar ++
      List.replicate (d.point.toNat - (d.digits.map digitChar).length) '0' ++ ['.', '0'])
      fun negative => d.value negative := by
  have hdigits := isDigits_map hd.ne_nil hd.lt_ten
  have hfirst := head?_map_digitChar hd.head hd.lt_ten
  refine isNumeralFor_of_digits hd.lt_ten (d.digits.map digitChar ++
      List.replicate (d.point.toNat - (d.digits.map digitChar).length) '0') (some ['0']) none
    (by simp [fractionText, powerText]) (isDigits_append hdigits isDigit_of_mem_zeros) (.inr ?_)
    (by simp [IsDigits]) (by simp) (.inl (by simp)) 0 (d.point.toNat - d.digits.length + 1) ?_ ?_
  · rwa [List.head?_append_of_ne_nil _ hdigits.1]
  · simp [List.replicate_succ']
  · simp only [powerValue, Option.getD_some, List.length_singleton]
    omega

/-- The point among the digits. -/
theorem isNumeralFor_mixed (hp : 0 < d.point) (hlt : d.point.toNat < d.digits.length) :
    IsNumeralFor ((d.digits.map digitChar).take d.point.toNat ++
      '.' :: (d.digits.map digitChar).drop d.point.toNat) fun negative => d.value negative := by
  obtain ⟨hne, hdigit⟩ := isDigits_map hd.ne_nil hd.lt_ten
  have hfirst := head?_map_digitChar hd.head hd.lt_ten
  have hlength : (d.digits.map digitChar).length = d.digits.length := List.length_map ..
  refine isNumeralFor_of_digits hd.lt_ten ((d.digits.map digitChar).take d.point.toNat)
    (some ((d.digits.map digitChar).drop d.point.toNat)) none (by simp [fractionText, powerText])
    ⟨?_, fun c hc => hdigit c (List.mem_of_mem_take hc)⟩ (.inr ?_) ?_ (by simp) (.inl (by simp))
    0 0 (by simp) ?_
  · rw [ne_eq, List.take_eq_nil_iff]
    simp only [hne, or_false]
    omega
  · rwa [List.head?_take, if_neg (by omega)]
  · rintro _ ⟨⟩
    refine ⟨?_, fun c hc => hdigit c (List.mem_of_mem_drop hc)⟩
    rw [ne_eq, List.drop_eq_nil_iff]
    omega
  · rw [Option.getD_some, List.length_drop, powerValue]
    omega

/-- **A decimal in any notation** is a numeral for its value. -/
theorem isNumeralFor_decimalText {style : DecimalStyle} (hstyle : style.wholeMark = ['.', '0']) :
    IsNumeralFor (style.decimalText d) fun negative => d.value negative := by
  have hlength : (d.digits.map digitChar).length = d.digits.length := List.length_map ..
  unfold decimalText
  dsimp only
  split
  · split
    · rename_i h
      exact absurd h (isDigits_map hd.ne_nil hd.lt_ten).1
    · rename_i c h
      exact isNumeralFor_scientific hd h
    · rename_i c rest hne h
      have := isNumeralFor_scientific hd h
      rwa [if_neg (by rintro rfl; exact hne rfl)] at this
  · split
    · exact isNumeralFor_below_one hd (by assumption)
    · split
      · rw [hstyle]
        exact isNumeralFor_whole hd (by omega) (by omega)
      · exact isNumeralFor_mixed hd (by omega) (by omega)

end

theorem json_choose : DecimalStyle.json.choose = Decimal.shortest := by
  simp only [DecimalStyle.json, DecimalStyle.full]

theorem json_wholeMark : DecimalStyle.json.wholeMark = ['.', '0'] := rfl

theorem isNumeralFor_magnitudeText (m : Magnitude) :
    IsNumeralFor (DecimalStyle.json.magnitudeText m) fun negative => .finite negative m := by
  rw [magnitudeText, json_choose, json_wholeMark]
  split
  · rename_i hm
    rw [m.eq_zero_of_significand hm]
    refine ⟨['0'], some ['0'], none, rfl, fun negative => ⟨⟨?_, .inl rfl, ?_, ?_⟩, ?_⟩⟩
    · simp [IsDigits]
    · simp [IsDigits]
    · simp
    · rw [Numeral.value_eq_float _ _ (.inl (by simp))]
      rfl
  · rename_i hm
    have hvalue : (fun negative => (Decimal.shortest m).value negative) =
        fun negative => .finite negative m :=
      funext fun negative => (Decimal.value_shortest hm negative).1
    rw [← hvalue]
    exact isNumeralFor_decimalText (Decimal.value_shortest hm false).2 json_wholeMark

/-- **A finite double is written as a numeral.** -/
theorem isNumber_text (negative : Bool) (m : Magnitude) :
    IsNumber (DecimalStyle.json.text (.finite negative m)) (.float (.finite negative m)) := by
  obtain ⟨whole, fraction, exponent, hs, hn⟩ := isNumeralFor_magnitudeText m
  obtain ⟨hwf, hvalue⟩ := hn negative
  refine ⟨⟨negative, whole, fraction, exponent⟩, hwf, ?_, hvalue⟩
  cases negative <;> simp [DecimalStyle.text, hs, Numeral.text]

/-! ## Integers that are read -/

theorem isDigit_of_readWhole? {s whole rest : List Char} {negative : Bool}
    (h : readWhole? s = some (negative, whole, rest)) : ∀ c ∈ whole, c.isDigit = true := by
  unfold readWhole? at h
  dsimp only at h
  split at h
  · cases h
    simp
  · split at h
    · cases h
      exact fun c hc => List.mem_takeWhile_imp hc
    · cases h
  · cases h

theorem value_lt_ten {c : Char} (h : c.isDigit = true) : c.toNat - '0'.toNat < 10 := by
  obtain ⟨-, hle⟩ := (by simpa [Char.isDigit] using h : _ ∧ _)
  have : c.toNat ≤ 57 := UInt32.le_iff_toNat_le.1 hle
  have : '0'.toNat = 48 := rfl
  omega

/-- An integer has no more digits than it is denoted with. -/
theorem length_natText_ofDigits_le {ds : List Nat} (h : ∀ d ∈ ds, d < 10)
    (hds : ds.length ≤ maxDigits) : (natText (ofDigits ds)).length ≤ maxDigits := by
  unfold natText
  split
  · decide
  · rw [List.length_map]
    refine le_trans ((length_decimalDigits_le_iff _ _).2 ?_) hds
    have := Nat.ofDigits_lt_base_pow_length (b := 10) (by decide)
      (by simpa using h : ∀ d ∈ ds.reverse, d < 10)
    rwa [← ofDigits_eq, List.length_reverse] at this

/-- A numeral denotes an integer that is no longer than its digits, or a double. -/
theorem Numeral.value_eq_ok {n : Numeral} {v : Json} (h : n.value = .ok v) :
    (∃ k : Int, v = .int k ∧ n.whole.length ≤ maxDigits ∧
      k.natAbs = ofDigits (digitValues n.whole)) ∨ ∃ x, v = .float x := by
  unfold Numeral.value at h
  split at h
  · split at h
    · cases h
    · cases h
      refine .inl ⟨_, rfl, by omega, ?_⟩
      split <;> omega
  · cases h
    exact .inr ⟨_, rfl⟩

/-- **An integer that is read** has no more than the greatest number of digits. -/
theorem readNumber_eq_ok {s r : List Char} {v : Json} (h : readNumber s = .ok (v, r)) :
    (∃ k, v = .int k ∧ digitCount k ≤ maxDigits) ∨ ∃ x, v = .float x := by
  unfold readNumber readNumeral? at h
  cases hwhole : readWhole? s with
  | none => simp [hwhole, stopAt] at h
  | some read =>
    obtain ⟨negative, whole, rest⟩ := read
    simp only [hwhole] at h
    split at h
    · rename_i v hv
      cases h
      obtain ⟨k, rfl, hlength, habs⟩ | hfloat := Numeral.value_eq_ok hv
      · refine .inl ⟨k, rfl, ?_⟩
        rw [digitCount, habs]
        refine length_natText_ofDigits_le ?_ (by simpa [digitValues] using hlength)
        intro d hd
        obtain ⟨c, hc, rfl⟩ := List.mem_map.1 hd
        exact value_lt_ten (isDigit_of_readWhole? hwhole c hc)
      · exact .inr hfloat
    · cases h

end NovelScript.Json
