/-!
# Similar words

The similarity of two words is twice the number of their matching characters over the sum of their
lengths. Matching takes the longest common piece, the earliest one of several, and goes on in what
stands before it and behind it. Words are similar from six tenths on.
-/

set_option autoImplicit false

namespace NovelScript.Command

/-- The length of the common beginning. -/
def commonStart : List Char → List Char → Nat
  | a :: as, b :: bs => if a = b then commonStart as bs + 1 else 0
  | _, _ => 0

/-- A common piece: where it starts in each word, and its length. -/
structure Common where
  left : Nat
  right : Nat
  length : Nat
  deriving DecidableEq, Repr

/-- The longest common piece that starts with the first character of `as`. -/
def longestHere (i : Nat) (as : List Char) : (j : Nat) → List Char → Common → Common
  | _, [], best => best
  | j, b :: bs, best =>
    let n := commonStart as (b :: bs)
    longestHere i as (j + 1) bs (if best.length < n then ⟨i, j, n⟩ else best)

/-- The longest common piece, the earliest one in `as` and then in `bs`. -/
def longest (bs : List Char) : (i : Nat) → List Char → Common → Common
  | _, [], best => best
  | i, a :: as, best => longest bs (i + 1) as (longestHere i (a :: as) 0 bs best)

/-- The number of matching characters. Every piece found shortens what is left, so `fuel` may be
the length of a word and one more. -/
def matching : (fuel : Nat) → List Char → List Char → Nat
  | 0, _, _ => 0
  | fuel + 1, as, bs =>
    let c := longest bs 0 as ⟨0, 0, 0⟩
    if c.length = 0 then 0
    else
      c.length + matching fuel (as.take c.left) (bs.take c.right) +
        matching fuel (as.drop (c.left + c.length)) (bs.drop (c.right + c.length))

/-- Whether two words are alike in six tenths of their characters. -/
def areSimilar (a b : String) : Bool :=
  let as := a.toList
  let bs := b.toList
  3 * (as.length + bs.length) ≤ 10 * matching (as.length + 1) as bs

/-! ## Samples -/

example : areSimilar "--format" "--form" = true := by decide +kernel

example : areSimilar "--help" "--nope" = false := by decide +kernel

end NovelScript.Command
