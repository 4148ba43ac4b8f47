import NovelScript.Text.WordTable

/-!
# Word characters and decimal digits

A word is made of letters and numbers of any script and of underscores. `digitValue?` reads a
decimal digit of any script.
-/

set_option autoImplicit false

namespace NovelScript.Text

/-- Whether `n` lies in one of the closed ranges. -/
def inRanges (ranges : List (Nat × Nat)) (n : Nat) : Bool :=
  ranges.any fun r => r.1 ≤ n && n ≤ r.2

/-- Letters, numbers and the underscore; marks and symbols are none. -/
def isWord (c : Char) : Bool :=
  c.isAlphanum || c == '_' || (0x80 ≤ c.toNat && inRanges wordRanges c.toNat)

/-- The value of a decimal digit of any script. -/
def digitValue? (c : Char) : Option Nat :=
  if c.isDigit then some (c.toNat - '0'.toNat)
  else if c.toNat < 0x80 then none
  else
    (digitZeros.find? fun z => z ≤ c.toNat && c.toNat < z + 10).map (c.toNat - ·)

/-- Whether a word ends where `rest` follows it. -/
def atWordEnd (rest : List Char) : Bool :=
  match rest with
  | [] => true
  | c :: _ => !isWord c

/-- What follows `word` in `s`, if `s` starts with it. -/
def after? (word : List Char) (s : List Char) : Option (List Char) :=
  match word, s with
  | [], s => some s
  | _ :: _, [] => none
  | w :: ws, c :: r => if w = c then after? ws r else none

/-- Whether `s` starts with `word` and the word ends there. -/
def startsWithWord (word : List Char) (s : List Char) : Bool :=
  match after? word s with
  | some rest => atWordEnd rest
  | none => false

/-! ## Samples: letters and numbers are word characters, marks, symbols and blanks are not -/

example : ['a', '7', '_', 'é', '日', '²', 'Ⅷ'].all isWord = true := by decide +kernel

example : ['-', '.', '\u0301', '€', '🎉', ' ', '\u00a0'].any isWord = false := by decide +kernel

example : ['7', '٣', '９', '²', 'x'].map digitValue? = [some 7, some 3, some 9, none, none] := by
  decide +kernel

end NovelScript.Text
