import NovelScript.Text.Word
import NovelScript.Text.HiddenTable

/-!
# Quoted text in messages

`quoted` writes a text between quotes as messages show names and paths: in single quotes, or in
double quotes when the text holds a single quote and no double one. Backslashes, the quote in use
and every character without a printed form are escaped.
-/

set_option autoImplicit false

namespace NovelScript.Text

/-- Whether a character has a printed form; of the separators only the space has. -/
def isPrintable (c : Char) : Bool :=
  0x20 ≤ c.toNat && (c.toNat < 0x7F || !inRanges hiddenRanges c.toNat)

/-- The hexadecimal digit of a value below sixteen, in lower case. -/
def hexDigit (n : Nat) : Char :=
  if n < 10 then Char.ofNat ('0'.toNat + n) else Char.ofNat ('a'.toNat + (n - 10))

/-- The last `width` hexadecimal digits of `n`. -/
def hexDigits : (width : Nat) → (n : Nat) → List Char
  | 0, _ => []
  | w + 1, n => hexDigits w (n / 16) ++ [hexDigit (n % 16)]

/-- How a character is written between the quotes `q`. -/
def quotedChar (q c : Char) : List Char :=
  if c = q || c = '\\' then ['\\', c]
  else if c = '\n' then ['\\', 'n']
  else if c = '\r' then ['\\', 'r']
  else if c = '\t' then ['\\', 't']
  else if isPrintable c then [c]
  else if c.toNat ≤ 0xFF then '\\' :: 'x' :: hexDigits 2 c.toNat
  else if c.toNat ≤ 0xFFFF then '\\' :: 'u' :: hexDigits 4 c.toNat
  else '\\' :: 'U' :: hexDigits 8 c.toNat

def quoted (s : List Char) : List Char :=
  let q := if s.contains '\'' && !s.contains '"' then '"' else '\''
  q :: s.flatMap (quotedChar q) ++ [q]

/-! ## Samples -/

example : quoted "it's".toList = "\"it's\"".toList := by decide +kernel

example : quoted "'\"".toList = "'\\'\"'".toList := by decide +kernel

example : quoted "a\n\u00ad\u2028".toList = "'a\\n\\xad\\u2028'".toList := by decide +kernel

end NovelScript.Text
