/-!
# Coloured output

A `Painter` puts a text into a style. The one that terminals know (`Painter.ansi`) does so by escape
sequences that switch the style on and off. Where no style is wanted, `plain` removes every such
sequence, whoever wrote it.
-/

set_option autoImplicit false

namespace NovelScript.Command

inductive Colour where
  | red | yellow
  deriving DecidableEq, Repr

/-- What a text looks like. -/
structure Style where
  colour : Option Colour := none
  bold : Bool := false
  dim : Bool := false

/-- A way to put texts into styles, which keeps the text. -/
structure Painter where
  paint : Style → String → String
  keeps : ∀ style text, text.toList <:+: (paint style text).toList

/-- The sequence with this number. -/
def escapeSequence (number : String) : String :=
  "\x1b[" ++ number ++ "m"

def Colour.number : Colour → String
  | red => "31"
  | yellow => "33"

/-- A text in a style; the style ends with the text. -/
def Style.apply (style : Style) (text : String) : String :=
  ((style.colour.map fun c => escapeSequence c.number).getD "") ++
    (if style.bold then escapeSequence "1" else "") ++
    (if style.dim then escapeSequence "2" else "") ++ text ++ escapeSequence "0"

def Painter.ansi : Painter where
  paint := Style.apply
  keeps style text := by
    simp only [Style.apply, String.toList_append, List.append_assoc]
    exact (List.prefix_append _ _).isInfix.trans
      ((List.suffix_append _ _).trans
        ((List.suffix_append _ _).trans (List.suffix_append _ _))).isInfix

/-- The length of the escape sequence that a text starts with: escape, a bracket, digits and the
marks `;` and `?`, and a letter. It is zero if there is none. -/
def sequenceLength (s : List Char) : Nat :=
  match s with
  | '\x1b' :: '[' :: r =>
    let numbers := r.takeWhile fun c => c.isDigit || c == ';' || c == '?'
    match r.drop numbers.length with
    | c :: _ => if c.isAlpha then numbers.length + 3 else 0
    | [] => 0
  | _ => 0

/-- A text without its escape sequences; the first `skip` characters are left out. -/
def plainFrom (skip : Nat) : List Char → List Char
  | [] => []
  | c :: r =>
    match skip with
    | n + 1 => plainFrom n r
    | 0 =>
      match sequenceLength (c :: r) with
      | n + 1 => plainFrom n r
      | 0 => c :: plainFrom 0 r

def plain (text : String) : String :=
  String.ofList (plainFrom 0 text.toList)

/-! ## Samples -/

example : plain (Style.apply { colour := some .red, bold := true } "x") = "x" := by decide

example : plain "\x1b[9x" = "" ∧ plain "\x1b[9" = "\x1b[9" := by decide

end NovelScript.Command
