import NovelScript.Files.Disk
import NovelScript.Json.Printer
import NovelScript.Json.Reader
import NovelScript.Log.Record
import NovelScript.Text.Lines
import NovelScript.Text.Utf8

/-!
# Settings

What the program remembers between runs, in a JSON file in its own directory. `Settings.load` takes
each field from the value under its own key if that has the right form, and the default otherwise;
a file that cannot be read gives the defaults and a warning.

`Settings.save` writes a new file beside the old one and then puts it in its place, in steps
(`SaveStep`) each of which may fail, also when it is half done; then the new file is cleared away.
What is written are `Settings.Values`, whose fields may be of any form; those of settings have the
right one.
-/

set_option autoImplicit false

namespace NovelScript

structure Settings where
  /-- Which checks are switched on or off by name. -/
  checkToggles : List (String × Bool) := []
  outputFormat : String := "text"
  /-- The script of the last run, or nothing. -/
  lastScriptPath : String := ""
  failOnWarnings : Bool := false
  deriving DecidableEq, Repr

namespace Settings

/-- The formats of a report. -/
def outputFormats : List String := ["text", "json"]

/-- The directory of the program's settings among those of all programs. -/
def directoryName : String := "renpy-transcoder"

/-- The settings file in its directory. -/
def file (directory : FilePath) : FilePath :=
  directory.child "settings.json"

/-- Whether a check is on: it is unless it is switched off. -/
def isEnabled (s : Settings) (name : String) : Bool :=
  ((s.checkToggles.find? fun t => t.1 = name).map (·.2)).getD true

/-- The names that are not switched off. -/
def enabledAmong (s : Settings) (names : List String) : List String :=
  names.filter s.isEnabled

/-! ## Values of any form -/

/-- The fields of settings with values of any form. -/
structure Values where
  checkToggles : Json := .obj []
  outputFormat : Json := .str "text"
  lastScriptPath : Json := .str ""
  failOnWarnings : Json := .bool false

/-- The values of the fields. -/
def values (s : Settings) : Values where
  checkToggles := .obj (s.checkToggles.map fun t => (t.1, .bool t.2))
  outputFormat := .str s.outputFormat
  lastScriptPath := .str s.lastScriptPath
  failOnWarnings := .bool s.failOnWarnings

namespace Values

/-- Whether a check is on: it is unless its toggle does not hold. Only an object has toggles. -/
def isEnabled? (v : Values) (name : String) : Option Bool :=
  match v.checkToggles with
  | .obj toggles => some (((Json.find? name toggles).map (·.holds)).getD true)
  | _ => none

/-- The names that are not switched off. -/
def enabledAmong? (v : Values) : List String → Option (List String)
  | [] => some []
  | name :: rest => do
    let on ← v.isEnabled? name
    let others ← v.enabledAmong? rest
    return if on then name :: others else others

def toJson (v : Values) : Json :=
  .obj [("check_toggles", v.checkToggles), ("output_format", v.outputFormat),
    ("last_script_path", v.lastScriptPath), ("fail_on_warnings", v.failOnWarnings)]

/-- The content of the settings file. -/
def content (v : Values) : List UInt8 :=
  Text.Utf8.encode v.toJson.pretty.toList

end Values

/-! ## Reading -/

def warning (message : String) : Log.Record :=
  ⟨.warning, Log.loggerOf "settings", message⟩

/-- The members that are truth values. -/
def togglesOf (members : List (String × Json)) : List (String × Bool) :=
  members.filterMap fun
    | (name, .bool on) => some (name, on)
    | _ => none

/-- The settings among the members of an object. -/
def ofMembers (members : List (String × Json)) : Settings where
  checkToggles := match Json.find? "check_toggles" members with
    | some (.obj toggles) => togglesOf toggles
    | _ => []
  outputFormat := match Json.find? "output_format" members with
    | some (.str format) => if outputFormats.contains format then format else "text"
    | _ => "text"
  lastScriptPath := match Json.find? "last_script_path" members with
    | some (.str path) => path
    | _ => ""
  failOnWarnings := match Json.find? "fail_on_warnings" members with
    | some (.bool fail) => fail
    | _ => false

/-- What is reported about the members of an object. -/
def memberWarnings (members : List (String × Json)) : List Log.Record :=
  match Json.find? "output_format" members with
  | some (.str format) =>
    if outputFormats.contains format then []
    else [warning ("Ignoring unknown output format in settings: " ++ format)]
  | _ => []

/-- The settings in the content of a file. -/
def ofContent (file : FilePath) (content : List UInt8) (half : Nat → Char := Json.replaced) :
    Settings × List Log.Record :=
  let unexpected := [warning "Unexpected error loading settings"]
  match Text.Utf8.decode? content with
  | none => ({}, unexpected)
  | some text =>
    match Json.ofText (String.ofList (Text.unifyBreaks text)) half with
    | .error (.fault ..) =>
      ({}, [warning ("Settings file is corrupted, using defaults: " ++ file.text)])
    | .error (.longInteger _) => ({}, unexpected)
    | .ok (.obj members) => (ofMembers members, memberWarnings members)
    | .ok _ => ({}, [warning "Settings file has invalid format, using defaults"])

/-- The settings that are stored in a directory. -/
def load (d : Disk) (directory : FilePath) (half : Nat → Char := Json.replaced) :
    Settings × List Log.Record :=
  let unread := fun (e : FileError) =>
    (({}, [warning ("Cannot read settings file: " ++ e.message)]) : Settings × List Log.Record)
  match d.find (file directory) with
  | .error e => unread e
  | .ok none => ({}, [])
  | .ok (some _) =>
    match d.read (file directory) with
    | .error e => unread e
    | .ok content => ofContent (file directory) content half

/-! ## Writing -/

/-- The file that is written before it takes the place of the settings file. -/
def draft (directory : FilePath) (mark : String) : FilePath :=
  directory.child (".settings-" ++ mark ++ ".tmp")

/-- The steps of saving, any of which the system may refuse. -/
inductive SaveStep where
  | makeDirectory | createDraft | writeDraft | replace
  /-- Clears a draft away that does not get into its place. -/
  | removeDraft
  deriving DecidableEq, Repr

/-- What may come between: a step is refused when a part of it is done. -/
structure Mishap where
  refusal : Refusal
  /-- How many directories are made by then, or bytes written. -/
  done : Nat := 0

/-- What is to be saved, and where. `mark` makes the name of the draft a new one. -/
structure Saving where
  directory : FilePath
  mark : String
  values : Values

namespace Saving

variable (w : Saving)

def draft : FilePath := Settings.draft w.directory w.mark

def target : FilePath := file w.directory

/-- What a step makes of a disk that does not rule it out. -/
def effect (d : Disk) : SaveStep → Except FileError Disk
  | .makeDirectory => d.makeDirectories w.directory
  | .createDraft => d.write w.draft []
  | .writeDraft => d.write w.draft w.values.content
  | .replace => d.replace w.draft w.target
  | .removeDraft => .ok (d.remove (d.resolve w.draft))

/-- What a step makes of a disk when only a part of it is done. Directories are made from the root
on; a draft is created, moved and removed in one piece. -/
def partEffect (done : Nat) (d : Disk) : SaveStep → Disk
  | .makeDirectory =>
    match d.makeDirectories w.directory with
    | .ok _ => d.addDirectories ((Disk.above (d.resolve w.directory)).take done)
    | .error _ => d
  | .writeDraft =>
    match d.write w.draft (w.values.content.take done) with
    | .ok d => d
    | .error _ => d
  | _ => d

/-- The failure of a step that is refused. -/
def failure (refusal : Refusal) : SaveStep → FileError
  | .makeDirectory => .refused refusal w.directory.text none
  | .replace => .refused refusal w.draft.text (some w.target.text)
  | _ => .refused refusal w.draft.text none

/-- Takes a step. The disk is given back in any case, as the step leaves it. -/
def perform (mishap : Option Mishap) (step : SaveStep) (d : Disk) :
    Disk × Except FileError Unit :=
  match mishap with
  | none =>
    match w.effect d step with
    | .ok d => (d, .ok ())
    | .error e => (d, .error e)
  | some m => (w.partEffect m.done d step, .error (w.failure m.refusal step))

/-- Takes steps in turn, up to the first that fails. -/
def performAll (mishaps : SaveStep → Option Mishap) :
    List SaveStep → Disk → Disk × Except FileError Unit
  | [], d => (d, .ok ())
  | step :: rest, d =>
    match w.perform (mishaps step) step d with
    | (d, .ok ()) => performAll mishaps rest d
    | (d, .error e) => (d, .error e)

/-- Puts the settings file in place by way of a draft. A draft that does not get there is removed;
if that is refused too, the first failure is still the one that counts. -/
def store (mishaps : SaveStep → Option Mishap) (d : Disk) : Disk × Except FileError Unit :=
  match w.performAll mishaps [.makeDirectory, .createDraft] d with
  | (d, .error e) => (d, .error e)
  | (d, .ok ()) =>
    match w.performAll mishaps [.writeDraft, .replace] d with
    | (d, .error e) => ((w.perform (mishaps .removeDraft) .removeDraft d).1, .error e)
    | (d, .ok ()) => (d, .ok ())

end Saving

/-- What is reported when the settings are not stored. -/
def saveWarning (e : FileError) : Log.Record :=
  if e.isRefusal then warning ("Failed to save settings: " ++ e.message)
  else warning "Unexpected error saving settings"

/-- Stores the values and reports a failure. -/
def saveWith (mishaps : SaveStep → Option Mishap) (d : Disk) (directory : FilePath)
    (mark : String) (v : Values) : Disk × List Log.Record :=
  match Saving.store ⟨directory, mark, v⟩ mishaps d with
  | (d, .ok ()) => (d, [])
  | (d, .error e) => (d, [saveWarning e])

/-- Stores the values where nothing comes between; only the tree of the disk may rule it out. -/
def Values.save (d : Disk) (directory : FilePath) (mark : String) (v : Values) :
    Disk × List Log.Record :=
  saveWith (fun _ => none) d directory mark v

/-- Stores the settings. -/
def save (d : Disk) (directory : FilePath) (mark : String) (s : Settings) :
    Disk × List Log.Record :=
  s.values.save d directory mark

end Settings

end NovelScript
