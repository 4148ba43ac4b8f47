import NovelScript.Command.Help
import NovelScript.Command.Run

/-!
# Reading command lines

`readLine` reads a command line by the options of the program and of its commands. The first thing
that is wrong ends the run with an error of the command line, and so does a help text that is asked
for.
-/

set_option autoImplicit false

namespace NovelScript.Command

namespace Asked

/-- Ends with an error of the command line. -/
def misuse (scope : Scope) (e : UsageError) : Asked :=
  .ended (.status 2) [.err (scope.errorText e)]

/-- Ends with the help text. -/
def help (scope : Scope) : Asked :=
  .ended (.status 0) [.out scope.help]

end Asked

/-! ## Checking the words -/

/-- Why a command does not start. -/
inductive Fault where
  | usage (e : UsageError)
  | failure (e : ScriptFile.LoadFailure)

/-- Ends because the command does not start. -/
def Fault.asked (scope : Scope) : Fault → Asked
  | usage e => .misuse scope e
  | failure e => .ended (.failure e) []

/-- Checks the path that is the value of `name`; it must not be that of a directory. -/
def checkPath (d : Disk) (mustExist : Bool) (name path : String) : Except Fault Unit :=
  let refuse := fun (reason : String) =>
    (.error (.usage (.invalidValue name ("File " ++ quotedName path ++ reason))) :
      Except Fault Unit)
  match d.findTyped path with
  | .error e => .error (.failure (.file e))
  | .ok (some .directory) => refuse " is a directory."
  | .ok (some (.file _)) => .ok ()
  | .ok none => if mustExist then refuse " does not exist." else .ok ()

/-- Checks that there are no further arguments. -/
def checkRest (arguments : List String) : Except Fault Unit :=
  if arguments = [] then .ok () else .error (.usage (.unexpectedArguments arguments))

/-- Checks the output, the one argument, and that there are no further ones, in this order. -/
def readConversion (d : Disk) (argumentName : String) (words : Words OptionKey) :
    Except Fault Conversion := do
  let output := words.value? .output
  if let some path := output then checkPath d false "'--output' / '-o'" path
  match words.arguments with
  | [] => .error (.usage (.missingArgument argumentName))
  | path :: rest => do
    checkPath d true ("'" ++ argumentName ++ "'") path
    checkRest rest
    return ⟨path, output⟩

def checkFormat (format : String) : Except Fault Unit :=
  if Settings.outputFormats.contains format then .ok ()
  else
    let choices := String.intercalate ", " (Settings.outputFormats.map quotedName)
    .error (.usage (.invalidValue "'--format'"
      (quotedName format ++ " is not one of " ++ choices ++ ".")))

/-- Checks the format, the path, and that there are no further arguments, in this order. -/
def readValidation (d : Disk) (words : Words OptionKey) : Except Fault Validation := do
  let format := words.value? .format
  if let some format := format then checkFormat format
  match words.arguments with
  | [] => .ok ()
  | path :: rest => do
    checkPath d false "'[PATH]'" path
    checkRest rest
  return ⟨words.arguments.head?, words.value? .checks, format, words.has .strict⟩

/-- What the words behind the name of a command ask for. -/
def CommandName.readWords (d : Disk) (words : Words OptionKey) :
    CommandName → Except Fault Request
  | parse => (readConversion d "SCRIPT_PATH" words).map .parse
  | generate => (readConversion d "DOCUMENT_PATH" words).map .generate
  | validate => (readValidation d words).map .validate

/-! ## Reading the line -/

/-- Reads what stands behind the name of a command. -/
def readCommand (d : Disk) (name : CommandName) (line : List String) : Asked :=
  let scope := Scope.command name
  match scope.rules.split line with
  | .error e => .misuse scope e
  | .ok words =>
    if words.has .help then .help scope
    else
      match name.readWords d words with
      | .error f => f.asked scope
      | .ok r => .request r

/-- What comes of a word that names no command. One that begins like an option is first read as
one. -/
def readUnknown (name : String) (line : List String) : Asked :=
  let scope := Scope.program
  let unknown := Asked.misuse scope (.noSuchCommand name)
  match name.toList with
  | [] => unknown
  | c :: _ =>
    if Text.isWord c && c ≠ '_' then unknown
    else
      match scope.rules.split (name :: line) with
      | .error e => .misuse scope e
      | .ok words => if words.has .help then .help scope else unknown

/-- Reads a command line. -/
def readLine : LineReader := fun d line =>
  let scope := Scope.program
  if line = [] then (.quiet, .ended (.status 2) [.err scope.help])
  else
    match scope.rules.split line with
    | .error e => (.quiet, .misuse scope e)
    | .ok words =>
      let verbosity := if words.has .verbose then .verbose else .quiet
      if words.has .help then (verbosity, .help scope)
      else
        match words.arguments with
        | [] => (verbosity, .misuse scope .missingCommand)
        | name :: rest =>
          match CommandName.ofText? name with
          | some command => (verbosity, readCommand d command rest)
          | none => (verbosity, readUnknown name rest)

/-- The paths that a command line names: arguments, and values of the output option. -/
def pathsOf (line : List String) : List String :=
  match Scope.program.rules.split line with
  | .error _ => []
  | .ok words =>
    match words.arguments with
    | [] => []
    | name :: rest =>
      match CommandName.ofText? name with
      | none => []
      | some command =>
        match (Scope.command command).rules.split rest with
        | .error _ => []
        | .ok words => words.arguments ++ (words.value? .output).toList

end NovelScript.Command
