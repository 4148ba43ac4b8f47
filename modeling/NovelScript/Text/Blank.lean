/-!
# Blanks, trimming and words

`isBlank` is the class of characters that separate words and make up indentation. `trim` removes
blanks at both ends, `cutAt` cuts a text at every character of a class, `words` are the maximal runs
without a blank, and `indent` counts the blanks a line starts with.
-/

set_option autoImplicit false

namespace NovelScript.Text

/-- Unicode white space, with the four information separators U+001C to U+001F. -/
def isBlank (c : Char) : Bool :=
  let n := c.toNat
  (0x09 ≤ n && n ≤ 0x0D) || (0x1C ≤ n && n ≤ 0x20) || n == 0x85 || n == 0xA0 || n == 0x1680 ||
    (0x2000 ≤ n && n ≤ 0x200A) || n == 0x2028 || n == 0x2029 || n == 0x202F || n == 0x205F ||
    n == 0x3000

def trimStart (s : List Char) : List Char :=
  s.dropWhile isBlank

def trimEnd (s : List Char) : List Char :=
  (s.reverse.dropWhile isBlank).reverse

def trim (s : List Char) : List Char :=
  trimEnd (trimStart s)

/-- The number of blanks that `s` starts with. -/
def indent (s : List Char) : Nat :=
  (s.takeWhile isBlank).length

/-- Puts `c` in front of the first piece, which it opens if there is none. -/
def consFirst (c : Char) : List (List Char) → List (List Char)
  | [] => [[c]]
  | w :: ws => (c :: w) :: ws

/-- The pieces between the characters that `p` holds of; there is always one more than those. -/
def cutAt (p : Char → Bool) : List Char → List (List Char)
  | [] => [[]]
  | c :: r => if p c then [] :: cutAt p r else consFirst c (cutAt p r)

/-- The maximal runs of `s` without a blank, in order. -/
def words (s : List Char) : List (List Char) :=
  (cutAt isBlank s).filter (· ≠ [])

/-- The pieces in one line, with `glue` between them. -/
def join (glue : List Char) : List (List Char) → List Char
  | [] => []
  | [w] => w
  | w :: ws => w ++ glue ++ join glue ws

/-! ## Samples -/

example : words " a \u3000 bc\t".toList = ["a".toList, "bc".toList] := by decide

example : cutAt (· == ',') "a,,b".toList = ["a".toList, [], "b".toList] := by decide

end NovelScript.Text
