import NovelScript.Check.Issue
import NovelScript.Script.Walk

/-!
# Content of elements

The checks that look at one element at a time: a speaker is the narrator or one of the cast, a line
of text is not empty, a menu offers at least two choices, and the name of a variable is an
identifier in ASCII.
-/

set_option autoImplicit false

namespace NovelScript.Check

/-- The speaker who needs no definition. -/
def narrator : String := "narrator"

/-- A finding for each element that `find` objects to, in the order of the walk. -/
def issuesOf (find : Element → Option Finding) (walk : List (Nat × Element)) : List Issue :=
  walk.filterMap fun (line, e) => (find e).map (.found line e.id ·)

def speakerFinding (cast : List String) : Element → Option Finding
  | .statement _ (.dialogue _ (some name)) =>
    if name = "" || name = narrator || cast.contains name then none
    else some (.undefinedSpeaker name)
  | _ => none

def dialogueFinding : Element → Option Finding
  | .statement _ (.dialogue content _) => if content = "" then some .emptyDialogue else none
  | _ => none

def menuFinding : Element → Option Finding
  | .menu _ [] => some .noChoices
  | .menu _ [_] => some .oneChoice
  | _ => none

/-- A letter or underscore, then letters, digits and underscores, all of ASCII. -/
def isIdentifier (name : List Char) : Bool :=
  match name with
  | [] => false
  | c :: rest => (c.isAlpha || c == '_') && rest.all fun d => d.isAlphanum || d == '_'

def variableFinding : Element → Option Finding
  | .statement _ (.assign name _) =>
    if isIdentifier name.toList then none else some (.invalidVariable name)
  | _ => none

end NovelScript.Check
