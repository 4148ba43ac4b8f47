import NovelScript.Json.Basic
import NovelScript.Log.Record

/-!
# Issues

An issue is a finding and where it was made: the id of an element and the number of the top-level
element that holds it. The finding says how severe the issue is, which check made it, and how it is
worded.
-/

set_option autoImplicit false

namespace NovelScript

/-- Severities, from the worst on. -/
inductive Severity where
  | error | warning
  deriving DecidableEq, Repr

namespace Severity

def all : List Severity := [error, warning]

def name : Severity → String
  | error => "error"
  | warning => "warning"

/-- The name in headings. -/
def title : Severity → String
  | error => "ERROR"
  | warning => "WARNING"

/-- The rank, zero for the worst. -/
def rank : Severity → Nat
  | error => 0
  | warning => 1

end Severity

/-- The checks of a script. -/
inductive Check where
  | labels | characters | dialogue | menus | assignments
  deriving DecidableEq, Repr

namespace Check

/-- All checks in the order in which they report. -/
def all : List Check := [labels, characters, dialogue, menus, assignments]

/-- The name by which a check is chosen. -/
def name : Check → String
  | labels => "Labels"
  | characters => "Characters"
  | dialogue => "Dialogue"
  | menus => "Menus"
  | assignments => "Variables"

/-- The name by which an issue refers to its check. -/
def tag : Check → String
  | labels => "labels"
  | characters => "characters"
  | dialogue => "dialogue"
  | menus => "menus"
  | assignments => "variables"

/-- The check of a name. -/
def ofName? (name : String) : Option Check :=
  all.find? (·.name = name)

end Check

/-- Where a script goes on. -/
inductive Transfer where
  | jump | call
  deriving DecidableEq, Repr

def Transfer.name : Transfer → String
  | jump => "jump"
  | call => "call"

/-- The label at which a script starts. -/
def entryLabel : String := "start"

/-- What is wrong. -/
inductive Finding where
  | duplicateLabel (name : String)
  | undefinedTarget (transfer : Transfer) (target : String)
  | unusedLabel (name : String)
  | missingEntry
  | undefinedSpeaker (name : String)
  | emptyDialogue
  | noChoices
  | oneChoice
  | invalidVariable (name : String)
  deriving DecidableEq, Repr

namespace Finding

def severity : Finding → Severity
  | duplicateLabel _ => .error
  | undefinedTarget .. => .error
  | unusedLabel _ => .warning
  | missingEntry => .warning
  | undefinedSpeaker _ => .warning
  | emptyDialogue => .warning
  | noChoices => .error
  | oneChoice => .warning
  | invalidVariable _ => .error

def check : Finding → Check
  | duplicateLabel _ => .labels
  | undefinedTarget .. => .labels
  | unusedLabel _ => .labels
  | missingEntry => .labels
  | undefinedSpeaker _ => .characters
  | emptyDialogue => .dialogue
  | noChoices => .menus
  | oneChoice => .menus
  | invalidVariable _ => .assignments

def message : Finding → String
  | duplicateLabel name => "duplicate label definition: " ++ name
  | undefinedTarget transfer target => transfer.name ++ " to undefined label: " ++ target
  | unusedLabel name => "unused label: " ++ name
  | missingEntry => "missing " ++ entryLabel ++ " label (entry point)"
  | undefinedSpeaker name => "undefined character: " ++ name
  | emptyDialogue => "empty dialogue"
  | noChoices => "menu has no choices"
  | oneChoice => "menu has only one choice"
  | invalidVariable name => "invalid variable name: " ++ name

end Finding

/-- A finding at an element, or about the whole script. -/
structure Issue where
  finding : Finding
  elementId : Option String
  line : Option Nat
  deriving DecidableEq, Repr

namespace Issue

/-- A finding at an element of a walk. -/
def found (line : Nat) (id : String) (finding : Finding) : Issue :=
  ⟨finding, some id, some line⟩

def severity (i : Issue) : Severity := i.finding.severity

def check (i : Issue) : Check := i.finding.check

def message (i : Issue) : String := i.finding.message

def toJson (i : Issue) : Json :=
  .obj [("severity", .str i.severity.name), ("check", .str i.check.tag),
    ("message", .str i.message), ("element_id", (i.elementId.map Json.str).getD .null),
    ("line", (i.line.map fun (n : Nat) => Json.int n).getD .null)]

/-- How many issues are errors and how many are warnings. -/
def counts (issues : List Issue) : Nat × Nat :=
  let errors := issues.countP (·.severity = .error)
  (errors, issues.length - errors)

/-- A number of things, in the plural unless there is one. -/
def countOf (n : Nat) (thing : String) : String :=
  countText n ++ " " ++ thing ++ if n = 1 then "" else "s"

/-- The issues in one line. -/
def summary (issues : List Issue) : String :=
  let (errors, warnings) := counts issues
  if errors = 0 && warnings = 0 then "Script is valid"
  else
    String.intercalate ", "
      ((if errors = 0 then [] else [countOf errors "error"]) ++
        (if warnings = 0 then [] else [countOf warnings "warning"]))

end Issue

end NovelScript
