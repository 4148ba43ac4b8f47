import NovelScript.Json.Printer
import NovelScript.Json.Reader

/-!
# Strings in JSON texts

Each character of a string is written so that it is read back, whatever follows it
(`readChars_escapedChar`), and so is the string up to its closing quote (`readString_stringText`).
A control character without a short escape is written as a single UTF-16 unit, which is no half of
a surrogate pair.
-/

set_option autoImplicit false

namespace NovelScript.Json

variable {half : Nat → Char}

/-- The four digits of a control character are read as its unit. -/
theorem hexUnit?_hexDigits : ∀ u < 0x20,
    hexUnit? (Text.hexDigit (u / 16 / 16 / 16 % 16)) (Text.hexDigit (u / 16 / 16 % 16))
      (Text.hexDigit (u / 16 % 16)) (Text.hexDigit (u % 16)) = some u := by
  decide +kernel

/-- A unit below the surrogates stands for itself, whatever unit follows it. -/
theorem readChars_unit {a b c d : Char} {u : Nat} (hu : hexUnit? a b c d = some u)
    (hlow : u < 0x20) {rest : List Char} (hne : rest ≠ []) :
    readChars half ('\\' :: 'u' :: a :: b :: c :: d :: rest) =
      consChar (Char.ofNat u) (readChars half rest) := by
  have hchar : unitChar half u = Char.ofNat u := by
    simp only [unitChar, Bool.and_eq_true, decide_eq_true_eq]
    rw [if_neg (by omega)]
  have hpair : ∀ unit : Option Nat, unit.bind (pairChar? u) = none := by
    rintro (_ | low)
    · rfl
    simp only [Option.bind_some, pairChar?, Bool.and_eq_true, decide_eq_true_eq]
    rw [if_neg (by omega)]
  rw [← hchar, readChars.eq_def]
  simp only [hu, hpair]
  split
  · exact absurd rfl hne
  · rfl
  · rfl

/-- A short escape stands for its character. -/
theorem readChars_short {e c : Char} (h : shortEscape? e = some c) (rest : List Char) :
    readChars half ('\\' :: e :: rest) = consChar c (readChars half rest) := by
  unfold shortEscape? at h
  split at h <;> cases h <;> simp [readChars, shortEscape?]

/-- A character that needs no escape stands for itself. -/
theorem readChars_plain {c : Char} (hquote : c ≠ '"') (hslash : c ≠ '\\') (hlow : ¬c.toNat < 0x20)
    (rest : List Char) : readChars half (c :: rest) = consChar c (readChars half rest) := by
  rw [readChars, if_neg hlow]
  · exact hquote
  all_goals
    intros
    exact hslash (by assumption)

/-- **A character is read as it was written**, where the string goes on or is closed. -/
theorem readChars_escapedChar (c : Char) {rest : List Char} (hne : rest ≠ []) :
    readChars half (escapedChar c ++ rest) = consChar c (readChars half rest) := by
  unfold escapedChar
  split
  · rename_i h
    rcases (by simpa using h : c = '"' ∨ c = '\\') with rfl | rfl <;>
      exact readChars_short rfl rest
  rename_i hplain
  repeat
    split
    · subst c
      exact readChars_short rfl rest
  split
  · rename_i hlow
    rw [List.cons_append, List.cons_append]
    exact (readChars_unit (hexUnit?_hexDigits c.toNat hlow) hlow hne).trans
      (by rw [Char.ofNat_toNat])
  · rename_i hlow
    obtain ⟨hquote, hslash⟩ : c ≠ '"' ∧ c ≠ '\\' := by simpa using hplain
    exact readChars_plain hquote hslash hlow rest

theorem readChars_escaped (s rest : List Char) :
    readChars half (s.flatMap escapedChar ++ '"' :: rest) = .ok (s, rest) := by
  induction s with
  | nil => simp [readChars]
  | cons c s ih =>
    rw [List.flatMap_cons, List.append_assoc, readChars_escapedChar c (by simp), ih, consChar]

/-- **A string is read as it was written**, behind its opening quote. -/
theorem readString_stringText (half : Nat → Char) (s : String) (rest : List Char) :
    ∃ body, stringText s ++ rest = '"' :: body ∧ readString half body = .ok (s, rest) := by
  refine ⟨s.toList.flatMap escapedChar ++ '"' :: rest, by simp [stringText], ?_⟩
  rw [readString, readChars_escaped]
  simp

end NovelScript.Json
