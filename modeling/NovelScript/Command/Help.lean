import NovelScript.Command.Options

/-!
# The commands and their help

The name of the program, its commands with the options each of them has, and the help texts.
-/

set_option autoImplicit false

namespace NovelScript.Command

def programName : String := "renpy-transcoder"

/-- The commands of the program. -/
inductive CommandName where
  | parse | generate | validate
  deriving DecidableEq, Repr

namespace CommandName

def all : List CommandName := [parse, generate, validate]

def text : CommandName → String
  | parse => "parse"
  | generate => "generate"
  | validate => "validate"

def ofText? (text : String) : Option CommandName :=
  all.find? (·.text = text)

end CommandName

/-- What the options stand for. -/
inductive OptionKey where
  | help | verbose | output | checks | format | strict
  deriving DecidableEq, Repr

/-- The program itself, or one of its commands. -/
inductive Scope where
  | program
  | command (name : CommandName)
  deriving DecidableEq, Repr

namespace Scope

def helpOption : OptionRule OptionKey := { key := .help, words := ["help"] }

def outputOption : OptionRule OptionKey :=
  { key := .output, letters := ['o'], words := ["output"], takesValue := true }

/-- The options; those of the program stand before the command. -/
def rules : Scope → Rules OptionKey
  | program =>
    { options := [{ key := .verbose, letters := ['v'], words := ["verbose"] }, helpOption]
      anywhere := false }
  | command .parse => { options := [outputOption, helpOption], anywhere := true }
  | command .generate => { options := [outputOption, helpOption], anywhere := true }
  | command .validate =>
    { options :=
        [{ key := .checks, words := ["checks"], takesValue := true },
          { key := .format, words := ["format"], takesValue := true },
          { key := .strict, words := ["strict"] }, helpOption]
      anywhere := true }

/-- How the program is called. -/
def path : Scope → String
  | program => programName
  | command name => programName ++ " " ++ name.text

/-- What may follow the call. -/
def operands : Scope → String
  | program => "[OPTIONS] COMMAND [ARGS]..."
  | command .parse => "[OPTIONS] SCRIPT_PATH"
  | command .generate => "[OPTIONS] DOCUMENT_PATH"
  | command .validate => "[OPTIONS] [PATH]"

def usage (s : Scope) : String :=
  "Usage: " ++ s.path ++ " " ++ s.operands ++ "\n"

/-- What the help says below the usage. -/
def helpLines : Scope → List String
  | program =>
    ["  Convert between Ren'Py script text and JSON documents, and validate them.",
      "",
      "Options:",
      "  -v, --verbose  Enable debug logging (lists skipped script lines).",
      "  --help         Show this message and exit.",
      "",
      "Commands:",
      "  generate  Generate Ren'Py script text from a JSON DOCUMENT_PATH.",
      "  parse     Parse a .rpy SCRIPT_PATH into a JSON document.",
      "  validate  Validate a .rpy script or JSON document at PATH."]
  | command .parse =>
    ["  Parse a .rpy SCRIPT_PATH into a JSON document.",
      "",
      "Options:",
      "  -o, --output FILE  Write the JSON document here.",
      "  --help             Show this message and exit."]
  | command .generate =>
    ["  Generate Ren'Py script text from a JSON DOCUMENT_PATH.",
      "",
      "Options:",
      "  -o, --output FILE  Write the .rpy script here.",
      "  --help             Show this message and exit."]
  | command .validate =>
    ["  Validate a .rpy script or JSON document at PATH.",
      "",
      "  PATH defaults to the last script parsed or validated.",
      "",
      "Options:",
      "  --checks TEXT         Comma-separated check names (default: all enabled).",
      "                        Available: Labels, Characters, Dialogue, Menus,",
      "                        Variables",
      "  --format [text|json]  Output format (default: from settings, else text).",
      "  --strict              Exit with status 1 on warnings too.",
      "  --help                Show this message and exit."]

def help (s : Scope) : String :=
  s.usage ++ "\n" ++ String.join (s.helpLines.map (· ++ "\n"))

/-- What is shown for a wrong command line. -/
def errorText (s : Scope) (e : UsageError) : String :=
  (if e.showsUsage then
    s.usage ++ "Try '" ++ s.path ++ " --help' for help.\n\n"
  else "") ++ "Error: " ++ e.message ++ "\n"

end Scope

end NovelScript.Command
