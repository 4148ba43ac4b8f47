import NovelScript.Check.Content
import NovelScript.Check.Labels

/-!
# Validating a script

`Script.validate` runs the chosen checks and lists their issues, check by check in the order of
`Check.all` and not in the order in which they are named. A name that no check has is refused.
-/

set_option autoImplicit false

namespace NovelScript

/-- The issues that one check finds. -/
def Check.run (c : Check) (s : Script) : List Issue :=
  match c with
  | labels => labelIssues s.walk
  | characters => issuesOf (speakerFinding (s.characters.map (·.id))) s.walk
  | dialogue => issuesOf dialogueFinding s.walk
  | menus => issuesOf menuFinding s.walk
  | assignments => issuesOf variableFinding s.walk

/-- The names that no check has, each once and in order of their characters. -/
structure UnknownChecks where
  names : List String
  deriving DecidableEq, Repr

namespace UnknownChecks

def message (u : UnknownChecks) : String :=
  "Unknown check(s): " ++ String.intercalate ", " u.names

end UnknownChecks

/-- The names of `names` that no check has. -/
def unknownNames (names : List String) : List String :=
  ((names.filter fun n => (Check.ofName? n).isNone).eraseDups).mergeSort fun a b => !decide (b < a)

/-- What is reported when a script was validated. -/
def validatedRecord (issues checks : Nat) : Log.Record :=
  ⟨.debug, Log.loggerOf "validator", "Validation complete: " ++ countText issues ++
    " issue(s) from " ++ countText checks ++ " check(s)"⟩

namespace Script

/-- The issues that the named checks find. -/
def validate (s : Script) (names : List String) : Except UnknownChecks (List Issue) :=
  let unknown := unknownNames names
  if unknown = [] then
    .ok ((Check.all.filter fun c => names.contains c.name).flatMap (·.run s))
  else .error ⟨unknown⟩

/-- The issues that all checks find. -/
def issues (s : Script) : List Issue :=
  Check.all.flatMap (·.run s)

end Script

end NovelScript
