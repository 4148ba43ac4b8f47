import NovelScript.Proofs.Json.Values

/-!
# Integers that are too long

Each reader goes on with a part of the text it was given (`ReadsIn`), and the only other thing that
stops it than a fault is an integer in that text of more than `maxDigits` digits. So a text without
so many digits in a row is read or has a fault (`hasDigits_of_ofText`).

Where such an integer comes first it does stop the reader, whatever comes after it
(`readNumber_digits`, `ofText_longInteger`).
-/

set_option autoImplicit false

namespace NovelScript.Json

variable {half : Nat → Char}

/-- Whether `n` digits stand in a row in `s`, which is more than an integer may have. -/
def HasDigits (n : Nat) (s : List Char) : Prop :=
  maxDigits < n ∧ ∃ ds, ds <:+: s ∧ (∀ c ∈ ds, c.isDigit = true) ∧ ds.length = n

theorem HasDigits.mono {n : Nat} {r s : List Char} (hr : r <:+ s) (h : HasDigits n r) :
    HasDigits n s := by
  obtain ⟨hn, ds, hds, hdigits⟩ := h
  exact ⟨hn, ds, hds.trans hr.isInfix, hdigits⟩

/-- What a reader of `s` may give: something with a part of `s` left, or the length of an integer in
`s` that is too long. -/
def ReadsIn {α : Type} (s : List Char) : Reading α → Prop
  | .ok (_, r) => r <:+ s
  | .error (.fault _ _) => True
  | .error (.longInteger n) => HasDigits n s

section
variable {α : Type} {r s : List Char} {x : Reading α}

theorem ReadsIn.mono (hr : r <:+ s) (h : ReadsIn r x) : ReadsIn s x := by
  match x, h with
  | .ok (_, _), h => exact h.trans hr
  | .error (.fault _ _), h => trivial
  | .error (.longInteger _), h => exact HasDigits.mono hr h

theorem ReadsIn.suffix {a : α} (h : ReadsIn s x) (hx : x = .ok (a, r)) : r <:+ s := by
  subst hx
  exact h

theorem ReadsIn.error {β : Type} {e : Stop} (h : ReadsIn s x) (hx : x = .error e) :
    ReadsIn s (.error e : Reading β) := by
  subst hx
  cases e <;> exact h

theorem ReadsIn.consChar {c : Char} {x : Reading (List Char)} (h : ReadsIn s x) :
    ReadsIn s (consChar c x) := by
  match x, h with
  | .ok (_, _), h => exact h
  | .error (.fault _ _), h => trivial
  | .error (.longInteger _), h => exact h

end

/-! ## Strings -/

theorem readsIn_readChars (half : Nat → Char) (s : List Char) : ReadsIn s (readChars half s) := by
  fun_induction readChars half s
  case case2 rest => exact List.suffix_cons '"' rest
  case case6 ih | case7 ih | case8 ih | case10 ih | case13 ih =>
    refine (ih.mono ?_).consChar
    simp [List.suffix_cons_iff]
  all_goals trivial

theorem readsIn_readString (half : Nat → Char) (s : List Char) : ReadsIn s (readString half s) := by
  have h := readsIn_readChars half s
  unfold readString
  split
  · exact h.suffix (by assumption)
  · trivial
  · exact h.error (by assumption)

/-! ## Numbers -/

theorem readFraction_suffix (s : List Char) : (readFraction s).2 <:+ s := by
  unfold readFraction
  split
  · dsimp only
    split
    · exact List.suffix_rfl
    · exact (List.dropWhile_suffix _).trans (List.suffix_cons _ _)
  · exact List.suffix_rfl

theorem readExponent_suffix (s : List Char) : (readExponent s).2 <:+ s := by
  unfold readExponent
  split
  · rename_i c r
    split
    · split
      rename_i r' hsign
      have hr : r' <:+ r := by
        split at hsign <;> cases hsign
        · exact List.suffix_cons _ _
        · exact List.suffix_cons _ _
        · exact List.suffix_rfl
      dsimp only [takeDigits]
      split
      · exact List.suffix_rfl
      · exact ((List.dropWhile_suffix _).trans hr).trans (List.suffix_cons c r)
    · exact List.suffix_rfl
  · exact List.suffix_rfl

/-- The digits of a number stand in the text, before what is left of it. -/
theorem readWhole?_suffix {s whole rest : List Char} {negative : Bool}
    (h : readWhole? s = some (negative, whole, rest)) : whole ++ rest <:+ s := by
  unfold readWhole? at h
  split at h
  rename_i s' hsign
  have hs : s' <:+ s := by
    split at hsign <;> cases hsign
    · exact List.suffix_cons _ _
    · exact List.suffix_rfl
  have hwhole : whole ++ rest = s' := by
    split at h
    · cases h
      rfl
    · split at h
      · cases h
        exact List.takeWhile_append_dropWhile
      · cases h
    · cases h
  rwa [hwhole]

theorem readNumeral?_suffix {s r : List Char} {n : Numeral} (h : readNumeral? s = some (n, r)) :
    r <:+ s ∧ n.whole <:+: s ∧ ∀ c ∈ n.whole, c.isDigit = true := by
  unfold readNumeral? at h
  split at h
  · cases h
  · rename_i negative whole rest hwhole
    have hs := readWhole?_suffix hwhole
    cases h
    refine ⟨?_, (List.prefix_append whole rest).isInfix.trans hs.isInfix,
      isDigit_of_readWhole? hwhole⟩
    exact ((readExponent_suffix _).trans (readFraction_suffix rest)).trans
      ((List.suffix_append whole rest).trans hs)

theorem Numeral.value_eq_error {n : Numeral} {e : Stop} (h : n.value = .error e) :
    e = .longInteger n.whole.length ∧ maxDigits < n.whole.length := by
  unfold Numeral.value at h
  split at h
  · split at h
    · cases h
      exact ⟨rfl, by assumption⟩
    · cases h
  · cases h

theorem readsIn_readNumber (s : List Char) : ReadsIn s (readNumber s) := by
  unfold readNumber
  split
  · trivial
  · rename_i n rest hn
    obtain ⟨hr, hwhole, hdigits⟩ := readNumeral?_suffix hn
    split
    · exact hr
    · rename_i e he
      obtain ⟨rfl, hlong⟩ := Numeral.value_eq_error he
      exact ⟨hlong, n.whole, hwhole, hdigits, rfl⟩

/-! ## Values -/

theorem afterWord?_suffix : ∀ {word s r : List Char}, afterWord? word s = some r → r <:+ s
  | [], _, _, h => by
    cases h
    exact List.suffix_rfl
  | _ :: _, [], _, h => nomatch h
  | w :: ws, c :: s, r, h => by
    unfold afterWord? at h
    split at h
    · exact (afterWord?_suffix h).trans (List.suffix_cons c s)
    · cases h

theorem readConstant?_suffix {s r : List Char} {v : Json} (h : readConstant? s = some (v, r)) :
    r <:+ s := by
  obtain ⟨⟨word, v'⟩, -, heq⟩ := List.exists_of_findSome?_eq_some h
  obtain ⟨r', hr', hpair⟩ := Option.map_eq_some_iff.1 heq
  cases hpair
  exact afterWord?_suffix hr'

theorem skipSpace_suffix (s : List Char) : skipSpace s <:+ s :=
  List.dropWhile_suffix _

theorem suffix_of_skipSpace {c : Char} {s r : List Char} (h : skipSpace s = c :: r) : r <:+ s := by
  have hs := skipSpace_suffix s
  rw [h] at hs
  exact (List.suffix_cons c r).trans hs

theorem readsIn_readKey (half : Nat → Char) (s : List Char) : ReadsIn s (readKey half s) := by
  unfold readKey
  split
  · rename_i rest
    have h := (readsIn_readString half rest).mono (List.suffix_cons '"' rest)
    split
    · exact h.error (by assumption)
    · rename_i hread
      split
      · rename_i hcolon
        exact (skipSpace_suffix _).trans ((suffix_of_skipSpace hcolon).trans (h.suffix hread))
      · trivial
  · trivial

/-- The readers of values, items and members stay in the text. -/
theorem readsIn_read (half : Nat → Char) : ∀ (fuel : Nat) (s : List Char),
    ReadsIn s (readValue half fuel s) ∧ ReadsIn s (readItems half fuel s) ∧
      ReadsIn s (readMembers half fuel s)
  | 0, s => ⟨trivial, trivial, trivial⟩
  | fuel + 1, s => by
    have hvalue := fun s => (readsIn_read half fuel s).1
    have hitems := fun s => (readsIn_read half fuel s).2.1
    have hmembers := fun s => (readsIn_read half fuel s).2.2
    refine ⟨?_, ?_, ?_⟩
    · unfold readValue
      split
      · -- a string
        rename_i rest
        have h := (readsIn_readString half rest).mono (List.suffix_cons '"' rest)
        split
        · exact h.suffix (by assumption)
        · exact h.error (by assumption)
      · -- an array
        rename_i rest
        have hrest := List.suffix_cons '[' rest
        split
        · rename_i hclose
          exact (suffix_of_skipSpace hclose).trans hrest
        · have h := (hitems _).mono ((skipSpace_suffix rest).trans hrest)
          split
          · exact h.suffix (by assumption)
          · exact h.error (by assumption)
      · -- an object
        rename_i rest
        have hrest := List.suffix_cons '{' rest
        split
        · rename_i hclose
          exact (suffix_of_skipSpace hclose).trans hrest
        · have h := (hmembers _).mono ((skipSpace_suffix rest).trans hrest)
          split
          · exact h.suffix (by assumption)
          · exact h.error (by assumption)
      · split
        · exact readConstant?_suffix (by assumption)
        · exact readsIn_readNumber _
    · unfold readItems
      have h := hvalue s
      split
      · exact h.error (by assumption)
      · rename_i hread
        have hrest := h.suffix hread
        split
        · rename_i hclose
          exact (suffix_of_skipSpace hclose).trans hrest
        · rename_i hcomma
          have h' := (hitems _).mono
            (((skipSpace_suffix _).trans (suffix_of_skipSpace hcomma)).trans hrest)
          split
          · exact h'.suffix (by assumption)
          · exact h'.error (by assumption)
        · trivial
    · unfold readMembers
      have hkey := readsIn_readKey half s
      split
      · exact hkey.error (by assumption)
      · rename_i hread
        have h := (hvalue _).mono (hkey.suffix hread)
        split
        · exact h.error (by assumption)
        · rename_i hread
          have hrest := h.suffix hread
          split
          · rename_i hclose
            exact (suffix_of_skipSpace hclose).trans hrest
          · rename_i hcomma
            have h' := (hmembers _).mono
              (((skipSpace_suffix _).trans (suffix_of_skipSpace hcomma)).trans hrest)
            split
            · exact h'.suffix (by assumption)
            · exact h'.error (by assumption)
          · trivial

/-- **An integer that stops the reader** stands in the text with all its digits. -/
theorem hasDigits_of_ofText {text : String} {n : Nat}
    (h : ofText text half = .error (.longInteger n)) : HasDigits n text.toList := by
  have hread : readText half text.toList = .error (.longInteger n) := by
    unfold ofText at h
    dsimp only at h
    split at h
    · cases h
    · cases h
    · cases h
      assumption
  unfold readText at hread
  split at hread
  · cases hread
  · have hvalue := ((readsIn_read half (2 * text.toList.length + 2) _).1).mono
      (skipSpace_suffix text.toList)
    split at hread
    · cases hread
      exact hvalue.error (β := Json) (by assumption)
    · split at hread <;> cases hread

/-! ## Texts that are not read -/

/-- Digits beyond the greatest number, of which the first is not zero, are not read. -/
theorem readNumber_digits {ds r : List Char} (hd : IsDigits ds) (hhead : ds.head? ≠ some '0')
    (hlong : maxDigits < ds.length) (hr : EndsNumber r) :
    readNumber (ds ++ r) = .error (.longInteger ds.length) := by
  have hread := readNumeral?_text (n := ⟨false, ds, none, none⟩)
    ⟨hd, .inr hhead, by simp, by simp⟩ hr
  have hvalue : Numeral.value ⟨false, ds, none, none⟩ = .error (.longInteger ds.length) := by
    rw [Numeral.value]
    dsimp only
    rw [if_pos hlong]
  have htext : Numeral.text ⟨false, ds, none, none⟩ ++ r = ds ++ r := by
    simp [Numeral.text, fractionText, powerText]
  rw [htext] at hread
  simp only [readNumber, hread, hvalue]

theorem maxDigits_lt_digitCount {n : Nat} (h : Nat.pow 10 maxDigits ≤ n) :
    maxDigits < digitCount n := by
  have hlength : maxDigits < (decimalDigits n).length := by
    rw [← Nat.not_le, length_decimalDigits_le_iff, Nat.not_lt]
    exact h
  have hn : n ≠ 0 := by
    rintro rfl
    exact absurd hlength (Nat.not_lt_zero _)
  rwa [digitCount, Int.natAbs_natCast, DecimalStyle.natText, if_neg hn, List.length_map]

/-- The text of a natural that is too long is not read as a value. -/
theorem readValue_longInteger {n : Nat} (hn : maxDigits < digitCount n) (fuel : Nat) {r : List Char}
    (hr : EndsNumber r) :
    readValue half (fuel + 1) (DecimalStyle.intText n ++ r) =
      .error (.longInteger (digitCount n)) := by
  obtain ⟨hdigits, hhead, -⟩ := isDigits_natText n
  have htext : DecimalStyle.intText n = DecimalStyle.natText n := by
    rw [DecimalStyle.intText, if_neg (by omega), Int.natAbs_natCast]
  rw [digitCount, Int.natAbs_natCast] at hn ⊢
  have hlong : (DecimalStyle.natText n).head? ≠ some '0' := by
    refine hhead.resolve_left fun hzero => ?_
    rw [hzero] at hn
    exact absurd hn (by decide)
  rw [htext, ← readNumber_digits hdigits hlong hn hr]
  obtain ⟨hne, hdigit⟩ := hdigits
  obtain ⟨d, t, hcons⟩ := List.exists_cons_of_ne_nil hne
  rw [hcons] at hdigit ⊢
  exact readValue_eq_readNumber (hdigit d (.head t)) fuel (.inl rfl)

theorem readValue_members_error {fuel : Nat} {b s : List Char} {e : Stop}
    (hb : ∀ c ∈ b, isSpace c = true) (hs : StartsValue s) (h : readMembers half fuel s = .error e) :
    readValue half (fuel + 1) ('{' :: (b ++ s)) = .error e := by
  rw [readValue, hs.skipSpace hb]
  obtain ⟨c, t, rfl, hc⟩ := hs
  split
  · rename_i heq
    cases heq
    exact absurd rfl (not_start hc).2.2.1
  · rw [h]

/-- **An object that starts with an integer that is too long** is not read, whatever else is in
it. -/
theorem ofText_longInteger {key : String} {n : Nat} (hn : maxDigits < digitCount n)
    (rest : List (String × Json)) :
    ofText (obj ((key, int n) :: rest)).pretty half = .error (.longInteger (digitCount n)) := by
  have hl := Layout.blank_pretty
  let s := DecimalStyle.intText n ++
    (membersText .pretty 1 rest ++ (Layout.pretty.newLine 0 ++ ['}']))
  have hend : EndsValue (Layout.pretty.newLine 0 ++ ['}']) :=
    (endsValue_cons (by decide) []).append (hl.newLine 0)
  have hs : StartsValue s := by
    obtain ⟨⟨hne, hdigit⟩, -⟩ := isDigits_natText n
    obtain ⟨d, t, hcons⟩ := List.exists_cons_of_ne_nil hne
    refine StartsValue.append ⟨d, t, ?_, .inl (hdigit d ?_)⟩ _
    · rw [DecimalStyle.intText, if_neg (by omega), Int.natAbs_natCast, hcons]
    · rw [hcons]
      exact .head t
  have htext : (obj ((key, int n) :: rest)).pretty.toList =
      '{' :: (Layout.pretty.newLine 1 ++ (stringText key ++ ([':', ' '] ++ s))) := by
    simp only [pretty, String.toList_ofList, text, s, List.cons_append, List.append_assoc]
  have hread : ∀ fuel, readValue half (fuel + 3) (obj ((key, int n) :: rest)).pretty.toList =
      .error (.longInteger (digitCount n)) := by
    intro fuel
    rw [htext]
    refine readValue_members_error (hl.newLine 1) ((startsValue_stringText key).append _) ?_
    have hvalue : readValue half (fuel + 1) s = .error (.longInteger (digitCount n)) :=
      readValue_longInteger hn fuel (endsValue_membersText hl 1 rest hend).endsNumber
    simp only [readMembers, readKey_text half key hs, hvalue]
  have hreadText : readText half (obj ((key, int n) :: rest)).pretty.toList =
      .error (.longInteger (digitCount n)) := by
    have hspace : skipSpace (obj ((key, int n) :: rest)).pretty.toList =
        (obj ((key, int n) :: rest)).pretty.toList := by
      rw [htext]
      exact skipSpace_cons rfl _
    unfold readText
    split
    · rename_i heq
      rw [htext] at heq
      cases heq
    · have hlength : 3 ≤ 2 * (obj ((key, int n) :: rest)).pretty.toList.length + 2 := by
        rw [htext, List.length_cons]
        omega
      obtain ⟨fuel, hfuel⟩ := Nat.exists_eq_add_of_le' hlength
      rw [hspace, hfuel, hread]
  simp only [ofText, hreadText]

end NovelScript.Json
