import NovelScript.Check.Issue
import NovelScript.Command.Style
import NovelScript.Json.Printer
import NovelScript.Text.Blank

/-!
# Reports of issues

The text report counts the issues of each severity and then lists them, the errors before the
warnings and each group in the order of the check; the JSON report lists them as they are.
-/

set_option autoImplicit false

namespace NovelScript.Command

def severityColour : Severity → Colour
  | .error => .red
  | .warning => .yellow

/-- The issues of a severity, in order. -/
def issuesOf (severity : Severity) (issues : List Issue) : List Issue :=
  issues.filter (·.severity = severity)

variable (painter : Painter)

/-- How many issues each severity has. -/
def countLine (issues : List Issue) : String :=
  String.intercalate ", " <| Severity.all.filterMap fun severity =>
    let count := (issuesOf severity issues).length
    if count = 0 then none
    else
      let text := countText count ++ " " ++ severity.name
      some (painter.paint { colour := some (severityColour severity) } text)

/-- Where an issue was found: the line and, if there is one, the id of the element. -/
def placeText (line : Nat) (id : Option String) : String :=
  let text := "#" ++ countText line ++ " " ++ id.getD ""
  String.ofList (Text.trimEnd text.toList)

def issueLine (i : Issue) : String :=
  let faint : Style := { dim := true }
  let tag := painter.paint faint ("[" ++ i.check.tag ++ "]")
  match i.line with
  | some line =>
    "  " ++ painter.paint faint (placeText line i.elementId) ++ "  " ++ i.message ++ "  " ++ tag
  | none => "  " ++ i.message ++ "  " ++ tag

/-- The heading of a group, filled up to sixty characters. -/
def groupHeading (severity : Severity) (count : Nat) : String :=
  let title := "-- " ++ severity.title ++ " (" ++ countText count ++ ") "
  painter.paint { colour := some (severityColour severity), bold := true } title ++
    String.ofList (List.replicate (60 - title.length) '-')

/-- The lines of the issues of a severity. -/
def groupLines (severity : Severity) (issues : List Issue) : List String :=
  match issuesOf severity issues with
  | [] => []
  | group => "" :: groupHeading painter severity group.length :: group.map (issueLine painter)

/-- The lines of the text report of at least one issue. -/
def reportLines (issues : List Issue) : List String :=
  "=== Script Validation Results ===" :: countLine painter issues ::
    Severity.all.flatMap fun severity => groupLines painter severity issues

/-- The JSON report. -/
def reportJson (issues : List Issue) : String :=
  Json.pretty (.arr (issues.map (·.toJson)))

end NovelScript.Command
