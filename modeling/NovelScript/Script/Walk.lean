import NovelScript.Script.Basic

/-!
# Walking through a script

`Script.walk` lists every element once, with the number of the top-level element that holds it:
an element comes before those in its choices, and these come in the order of the choices.
-/

set_option autoImplicit false

namespace NovelScript

mutual

/-- The elements inside an element. -/
def Element.inner : Element → List Element
  | .statement .. => []
  | .menu _ choices => innerOfChoices choices

def innerOfChoices : List Choice → List Element
  | [] => []
  | ⟨_, _, _, actions⟩ :: rest => withInner actions ++ innerOfChoices rest

/-- Elements, each before those inside it. -/
def withInner : List Element → List Element
  | [] => []
  | e :: rest => e :: e.inner ++ withInner rest

end

/-- Top-level elements with their numbers, from `n` on. -/
def walkFrom (n : Nat) : List Element → List (Nat × Element)
  | [] => []
  | e :: rest => (e :: e.inner).map (n, ·) ++ walkFrom (n + 1) rest

/-- Every element of the script with its line: the number of its top-level element. -/
def Script.walk (s : Script) : List (Nat × Element) :=
  walkFrom 1 s.elements

end NovelScript
