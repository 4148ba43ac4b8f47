import NovelScript.Text.Blank

/-!
# Lines

`lines` cuts a text at every line break; the pair CR LF is one break, and a break at the end opens
no further line. `unifyBreaks` writes each of CR LF, CR and LF as LF, which is how text files are
read.
-/

set_option autoImplicit false

namespace NovelScript.Text

/-- The characters that end a line. -/
def isLineBreak (c : Char) : Bool :=
  let n := c.toNat
  (0x0A ≤ n && n ≤ 0x0D) || (0x1C ≤ n && n ≤ 0x1E) || n == 0x85 || n == 0x2028 || n == 0x2029

/-- The lines of a text without their breaks. -/
def lines : List Char → List (List Char)
  | [] => []
  | '\r' :: '\n' :: r => [] :: lines r
  | c :: r => if isLineBreak c then [] :: lines r else consFirst c (lines r)

/-- Writes every CR LF and every CR as LF. -/
def unifyBreaks : List Char → List Char
  | [] => []
  | '\r' :: '\n' :: r => '\n' :: unifyBreaks r
  | c :: r => (if c = '\r' then '\n' else c) :: unifyBreaks r

/-! ## Samples -/

example : lines "a\r\n\nb\n".toList = ["a".toList, [], "b".toList] := by decide

example : lines "a\u2028b\x1fc".toList = ["a".toList, "b\x1fc".toList] := by decide

example : unifyBreaks "a\r\r\nb".toList = "a\n\nb".toList := by decide

end NovelScript.Text
