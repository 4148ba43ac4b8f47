import NovelScript.Files.Disk
import NovelScript.Log.Record
import NovelScript.Text.Utf8

/-!
# Logging

Records of the program's own logger and of those below it go to the handlers that
`Logging.configure` attaches: one for standard error and, if asked for, one for a log file. The
handlers are attached once; a later setup only moves the level. A record is written where its level
is at least that of the logger and that of the handler, one line each.

A logger stands below another by its name, which goes on with a dot (`isOwn`). Without any handler,
and for loggers of others, a record from level warning on is shown on standard error as its bare
message.
-/

set_option autoImplicit false

namespace NovelScript

namespace Log

/-- How much is asked for. -/
inductive Verbosity where
  | quiet | normal | verbose
  deriving DecidableEq, Repr

def Verbosity.level : Verbosity → Level
  | quiet => .warning
  | normal => .info
  | verbose => .debug

inductive Target where
  | standardError
  | file (path : FilePath)
  deriving DecidableEq, Repr

structure Handler where
  target : Target
  level : Level
  deriving DecidableEq, Repr

/-- The level of the program's logger, unless it is not set, its handlers, and the names of the
loggers that were used. -/
structure Logging where
  level : Option Level := none
  handlers : List Handler := []
  used : List String := []
  deriving DecidableEq, Repr

/-- The name of a level that may not be set. -/
def levelName (level : Option Level) : String :=
  (level.map (·.name)).getD "NOTSET"

/-- Whether a name, read from its end, leads up to the program's own logger. The next logger above
is the one with the longest name that ends before a dot and is in use or the program's own. The
character before a dot is no dot to stop at: of two dots in a row only the second one counts. -/
def leadsToRoot (used : List String) : List Char → Bool
  | [] => false
  | [_] => false
  | c :: d :: rest =>
    if c = '.' then
      let above := String.ofList (d :: rest).reverse
      if above = rootName then true
      else if used.contains above then leadsToRoot used (d :: rest)
      else leadsToRoot used rest
    else leadsToRoot used (d :: rest)

/-- Whether a logger is the program's own or below it. -/
def isOwn (used : List String) (logger : String) : Bool :=
  logger = rootName || leadsToRoot used logger.toList.reverse

/-- Whether a level reaches another. -/
def reaches (level least : Level) : Bool :=
  least.weight ≤ level.weight

/-- A level name in a column of five characters. -/
def levelColumn (level : Level) : String :=
  level.name ++ String.ofList (List.replicate (5 - level.name.length) ' ')

/-- The line of a record. -/
def line (time : String) (r : Record) : String :=
  time ++ " " ++ levelColumn r.level ++ " " ++ r.logger ++ ": " ++ r.message ++ "\n"

namespace Logging

/-- Attaches the handlers, or moves the level of those that are there. The log file is opened at
once, as an empty file if it is new; if that fails no handler is attached. -/
def configure (l : Logging) (d : Disk) (verbosity : Verbosity) (logFile : Option String) :
    Logging × Except FileError Disk :=
  let level := verbosity.level
  let moved : Logging :=
    { l with level := some level, handlers := l.handlers.map ({ · with level := level }) }
  if l.handlers ≠ [] then (moved, .ok d)
  else
    let console : Handler := ⟨.standardError, level⟩
    match logFile with
    | none => ({ moved with handlers := [console] }, .ok d)
    | some name =>
      if name = "" then ({ moved with handlers := [console] }, .ok d)
      else
        let path := FilePath.normal d.home (.ofText name)
        let attached := { moved with handlers := [console, ⟨.file path, level⟩] }
        match d.read path with
        | .ok _ => (attached, .ok d)
        | .error _ =>
          match d.write path [] with
          | .ok d => (attached, .ok d)
          | .error e => (moved, .error e)

/-- Where a record is written. -/
def targets (l : Logging) (r : Record) : List Target :=
  if isOwn l.used r.logger && reaches r.level (l.level.getD .warning) then
    (l.handlers.filter fun h => reaches r.level h.level).map (·.target)
  else []

/-- What a record shows on standard error. -/
def errorText (l : Logging) (time : String) (r : Record) : String :=
  if isOwn l.used r.logger && l.handlers ≠ [] then
    if (l.targets r).contains .standardError then line time r else ""
  else if reaches r.level (if isOwn l.used r.logger then l.level.getD .warning else .warning) &&
      reaches r.level .warning then r.message ++ "\n"
  else ""

/-- Adds a text at the end of a file. -/
def append (d : Disk) (path : FilePath) (text : String) : Disk :=
  let before := match d.read path with
    | .ok content => content
    | .error _ => []
  match d.write path (before ++ Text.Utf8.encode text.toList) with
  | .ok d => d
  | .error _ => d

/-- Writes a record to the log files among its targets. -/
def writeFiles (l : Logging) (d : Disk) (time : String) (r : Record) : Disk :=
  (l.targets r).foldl (fun d target =>
    match target with
    | .file path => append d path (line time r)
    | .standardError => d) d

/-- Takes a record from its logger, which is in use from then on: the log files are written, and
the text is what standard error shows. -/
def emit (l : Logging) (d : Disk) (time : String) (r : Record) : Logging × Disk × String :=
  let l := { l with used := r.logger :: l.used }
  (l, l.writeFiles d time r, l.errorText time r)

end Logging

/-! ## Samples -/

example : ["renpy_transcoder.parser", "renpy_transcoder..x", "renpy_transcoder...x",
      "renpy_transcoders"].map (isOwn []) = [true, false, true, false] := by decide +kernel

example : isOwn ["renpy_transcoder."] "renpy_transcoder..x" = true := by decide +kernel

end Log

end NovelScript
