import NovelScript.Check.Validate
import NovelScript.Command.Report
import NovelScript.Files.ScriptFile
import NovelScript.Log.Logging
import NovelScript.Settings
import NovelScript.Text.Halves
import NovelScript.Text.Word

/-!
# Running a command

`run` takes a command line and a disk and gives the exit status, what is written to the terminal in
order, and the disk afterwards. How the line is read is up to a `LineReader`, which ends the run or
makes a `Request`: `parse` turns a script into a document, `generate` a document into a script, and
`validate` reports what is wrong with either. The last script that `parse` or `validate` worked on
is remembered in the settings, once it was read and the names of the checks were known.

A text with half a surrogate pair cannot be written, and ends the run where it should be
(`Outcome.written`).
-/

set_option autoImplicit false

namespace NovelScript.Command

open Text (Halves)

/-! ## What a run gives -/

/-- Something that is written to the terminal. -/
inductive Emission where
  | out (text : String)
  | err (text : String)
  | log (record : Log.Record)
  deriving Repr

/-- How a run ends. -/
inductive Exit where
  | status (code : Nat)
  /-- Something that no command reports as an error goes wrong. -/
  | failure (e : ScriptFile.LoadFailure)
  /-- A text is not written, because it holds half a surrogate pair. -/
  | unencodable (text : String)

structure Outcome where
  exit : Exit
  emissions : List Emission
  disk : Disk

/-- What a run finds: the directory of its settings, a mark for the name of a draft, what stands for
halves of surrogate pairs, and how texts are put into styles. -/
structure Setting where
  directory : FilePath
  mark : String
  halves : Halves := .first
  painter : Painter := .ansi

/-- What stands for a half that is read. -/
abbrev Setting.half (setting : Setting) : Nat → Char := setting.halves.char

/-- The characters of a file, those that a JSON text has as escapes included. -/
def charactersOf (content : List UInt8) : List Char :=
  let text := ScriptFile.textOfContent content
  text.toList ++ match Json.ofText text with
    | .ok v => v.pretty.toList
    | .error _ => []

/-- Halves that stand apart from what is in a command line and on a disk. -/
def freeHalves (d : Disk) (line : List String) : Halves :=
  .apartFrom <| line.flatMap String.toList ++ d.nodes.flatMap fun (place, node) =>
    place.flatMap String.toList ++ match node with
      | .directory => []
      | .file content => charactersOf content

/-- Whether something can be written. On standard error, halves are written as escapes. -/
def Emission.isWritable (halves : Halves) : Emission → Bool
  | .out text => halves.encodes text
  | _ => true

namespace Outcome

/-- The outcome with something written before it. -/
def after (o : Outcome) (earlier : List Emission) : Outcome :=
  { o with emissions := earlier ++ o.emissions }

/-- What is left of an outcome when it is written: it ends with the first text that cannot be. By
then the disk has changed. -/
def written (halves : Halves) (o : Outcome) : Outcome :=
  match o.emissions.dropWhile (·.isWritable halves) with
  | .out text :: _ => ⟨.unencodable text, o.emissions.takeWhile (·.isWritable halves), o.disk⟩
  | _ => o

def logs (records : List Log.Record) : List Emission :=
  records.map .log

def outLine (text : String) : Emission :=
  .out (text ++ "\n")

def errLine (text : String) : Emission :=
  .err (text ++ "\n")

/-- Ends with an error message. -/
def refuse (d : Disk) (message : String) : Outcome :=
  ⟨.status 2, [errLine ("Error: " ++ message)], d⟩

/-- Ends with a failure that is not reported. -/
def fail (d : Disk) (e : ScriptFile.LoadFailure) : Outcome :=
  ⟨.failure e, [], d⟩

end Outcome

open Outcome

/-! ## Parts of commands -/

/-- Reads the script at a path and goes on with it, or ends the run. -/
def withScript (setting : Setting) (d : Disk) (path : String) (go : Script → Outcome) : Outcome :=
  match ScriptFile.load d (.ofText path) setting.half with
  | .ok loaded => (go loaded.script).after (logs loaded.records)
  | .error e => if e.isExpected then refuse d e.message else fail d e

/-- The place of a path as a path from the root. -/
def resolvedPath (d : Disk) (path : String) : String :=
  (FilePath.fromRoot (d.resolve (.ofText path))).text

/-- Stores settings. A draft whose text cannot be encoded is cleared away again. -/
def Setting.store (setting : Setting) (d : Disk) (s : Settings) : Disk × List Log.Record :=
  if setting.halves.encodes s.values.toJson.pretty then
    Settings.save d setting.directory setting.mark s
  else
    let saving : Settings.Saving := ⟨setting.directory, setting.mark, s.values⟩
    let failed := Settings.warning "Unexpected error saving settings"
    match saving.performAll (fun _ => none) [.makeDirectory, .createDraft] d with
    | (d, .error e) => (d, [Settings.saveWarning e])
    | (d, .ok ()) => ((saving.perform none .removeDraft d).1, [failed])

/-- Remembers a path as that of the last script. -/
def rememberPath (setting : Setting) (d : Disk) (path : String) : Disk × List Log.Record :=
  let (settings, loadRecords) := Settings.load d setting.directory setting.half
  let (d, saveRecords) := setting.store d { settings with lastScriptPath := resolvedPath d path }
  (d, loadRecords ++ saveRecords)

/-- Writes a text to the output file, or to the terminal if there is none. A file is emptied before
the text turns out to hold half a surrogate pair. -/
def deliver (setting : Setting) (d : Disk) (text : String) (output : Option String) : Outcome :=
  match output.filter (· ≠ "") with
  | none => ⟨.status 0, [.out text], d⟩
  | some path =>
    let encodes := setting.halves.encodes text
    match d.write (.ofText path) (if encodes then Text.Utf8.encode text.toList else []) with
    | .ok d =>
      if encodes then ⟨.status 0, [errLine ("Wrote " ++ path)], d⟩ else ⟨.unencodable text, [], d⟩
    | .error e =>
      if e.isRefusal then refuse d ("cannot write " ++ path ++ ": " ++ e.message)
      else fail d (.file e)

/-! ## Commands -/

/-- What a conversion is asked for. -/
structure Conversion where
  path : String
  output : Option String

def runParse (setting : Setting) (d : Disk) (c : Conversion) : Outcome :=
  withScript setting d c.path fun s =>
    let (d, records) := rememberPath setting d c.path
    (deliver setting d (ScriptFile.text true s) c.output).after (logs records)

def runGenerate (setting : Setting) (d : Disk) (c : Conversion) : Outcome :=
  withScript setting d c.path fun s => deliver setting d (ScriptFile.text false s) c.output

/-- What `validate` is asked for. -/
structure Validation where
  path : Option String
  /-- The names of checks in one text, between commas. -/
  checks : Option String
  format : Option String
  strict : Bool

/-- The checks that are asked for; without any, those that the settings leave on. -/
def Validation.checkNames (v : Validation) (settings : Settings) : List String :=
  match v.checks.filter (· ≠ "") with
  | some names =>
    (Text.cutAt (· == ',') names.toList).map fun name => String.ofList (Text.trim name)
  | none => settings.enabledAmong (Check.all.map (·.name))

/-- The format that is asked for, or else that of the settings. -/
def Validation.formatOr (v : Validation) (settings : Settings) : String :=
  (v.format.filter (· ≠ "")).getD settings.outputFormat

/-- The report of a validation. -/
def report (painter : Painter) (format : String) (issues : List Issue) : List Emission :=
  if format = "json" then [outLine (reportJson issues)]
  else if issues = [] then [outLine "No issues found."]
  else
    (reportLines painter issues).map outLine ++ [errLine ("\n" ++ Issue.summary issues ++ ".")]

/-- The status of a validation: errors count always, warnings if they are asked to. -/
def validationStatus (strict : Bool) (issues : List Issue) : Nat :=
  if issues.any fun i => i.severity = .error then 1
  else if issues ≠ [] && strict then 1
  else 0

/-- Validates the script at a path. -/
def validateAt (setting : Setting) (settings : Settings) (d : Disk) (v : Validation)
    (path : String) : Outcome :=
  match d.isFile (.ofText path) with
  | .error e => fail d (.file e)
  | .ok false => refuse d ("file not found: " ++ path)
  | .ok true =>
    let names := v.checkNames settings
    withScript setting d path fun s =>
      match s.validate names with
      | .error e => refuse d e.message
      | .ok issues =>
        let (d, records) := rememberPath setting d path
        ⟨.status (validationStatus (v.strict || settings.failOnWarnings) issues),
          .log (validatedRecord issues.length names.length) :: logs records ++
            report setting.painter (v.formatOr settings) issues, d⟩

def runValidate (setting : Setting) (d : Disk) (v : Validation) : Outcome :=
  let (settings, records) := Settings.load d setting.directory setting.half
  let outcome := match v.path with
    | some path => validateAt setting settings d v path
    | none =>
      if settings.lastScriptPath = "" then
        refuse d "no PATH given and no previous script to validate."
      else validateAt setting settings d v settings.lastScriptPath
  outcome.after (logs records)

/-! ## Running -/

/-- A command with what it is asked for. -/
inductive Request where
  | parse (c : Conversion)
  | generate (c : Conversion)
  | validate (v : Validation)

/-- What comes of a request. -/
def Request.run (setting : Setting) (d : Disk) : Request → Outcome
  | parse c => runParse setting d c
  | generate c => runGenerate setting d c
  | validate v => runValidate setting d v

/-- What comes of reading a command line: a request, or the end of the run. -/
inductive Asked where
  | request (r : Request)
  | ended (exit : Exit) (emissions : List Emission)

def Asked.run (setting : Setting) (d : Disk) : Asked → Outcome
  | request r => r.run setting d
  | ended exit emissions => ⟨exit, emissions, d⟩

/-- A way to read command lines. Whether a path is that of a file may depend on the disk. Besides
what is asked for, the reader gives whether all log records are. -/
abbrev LineReader := Disk → List String → Log.Verbosity × Asked

/-- How a command line runs. -/
def run (reader : LineReader) (setting : Setting) (d : Disk) (line : List String) : Outcome :=
  ((reader d line).2.run setting d).written setting.halves

/-! ## What is shown -/

/-- What an emission shows on standard output. -/
def Emission.outText (coloured : Bool) : Emission → String
  | .out text => if coloured then text else plain text
  | _ => ""

/-- What an emission shows on standard error at a time of day; log records are not coloured. -/
def Emission.errText (halves : Halves) (coloured : Bool) (logging : Log.Logging) (time : String)
    (e : Emission) : String :=
  halves.escaped <| match e with
    | .out _ => ""
    | .err text => if coloured then text else plain text
    | .log r => logging.errorText time r

/-- The number that a run exits with. -/
def Exit.code : Exit → Nat
  | .status code => code
  | .failure _ => 1
  | .unencodable _ => 1

/-- What is wrong where no command reports an error. -/
def Exit.complaint? (halves : Halves) (coloured : Bool) : Exit → Option String
  | .status _ => none
  | .failure e => some e.message
  | .unencodable text => some (halves.complaint (if coloured then text else plain text))

/-- The logging of a run: standard error alone. -/
def loggingOf (verbosity : Log.Verbosity) : Log.Logging :=
  (Log.Logging.configure {} {} verbosity none).1

end NovelScript.Command
