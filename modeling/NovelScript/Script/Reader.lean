import NovelScript.Log.Record
import NovelScript.Script.IdSource
import NovelScript.Script.Line
import NovelScript.Text.Lines

/-!
# Reading scripts

A `Reader` is fed the lines of a script one at a time. Outside a menu each line stands for itself.
The head of a menu opens it, and every line indented deeper belongs to it: heads of choices, and
text below the head of its choice. The first line that is not deeper closes the menu, which then
becomes an element. Lines that say nothing are counted and reported.

`Reader.finish` closes an open menu; `Reader.readText` reads a whole text with the ids of a caller,
and `Script.ofText` with the usual ones.
-/

set_option autoImplicit false

namespace NovelScript

/-- A line as it stands in its text: its number, its indentation, and what is written there. -/
structure SourceLine where
  number : Int
  indent : Nat
  text : List Char
  deriving DecidableEq, Repr

namespace SourceLine

def ofRaw (number : Int) (raw : List Char) : SourceLine :=
  ⟨number, Text.indent raw, Text.trim raw⟩

/-- Whether the line is blank or a comment. -/
def isIgnored (line : SourceLine) : Bool :=
  line.text.isEmpty || line.text.head? == some '#'

end SourceLine

/-- Where a reader stands. -/
inductive Reader.Phase where
  | idle
  /-- In the menu at this indentation, before its first choice. -/
  | menu (indent : Nat)
  /-- In the last choice of the menu at `indent`; the head of that choice is at `choiceIndent`. -/
  | choice (indent : Nat) (earlier : List Choice) (choiceIndent : Nat) (current : Choice)

/-- What a reader reports. -/
inductive Reader.Event where
  | skipped (line : Int) (label : Option String) (text : List Char)
  | dropped (lines : Nat)
  | parsed (characters elements : Nat)
  deriving DecidableEq, Repr

/-- What was read so far. -/
structure Reader (σ : Type) where
  /-- The state of the ids. -/
  ids : σ
  phase : Reader.Phase := .idle
  characters : List Character := []
  elements : List Element := []
  /-- The last label that was read. -/
  label : Option String := none
  skipped : Nat := 0
  events : List Reader.Event := []

namespace Reader

/-! ## Phases and events -/

namespace Phase

/-- The choices of the open menu. -/
def choices : Phase → List Choice
  | idle => []
  | menu _ => []
  | choice _ earlier _ current => earlier ++ [current]

/-- The indentation of the open menu. -/
def menuIndent? : Phase → Option Nat
  | idle => none
  | menu indent => some indent
  | choice indent .. => some indent

/-- The indentation of the open choice. -/
def choiceIndent? : Phase → Option Nat
  | choice _ _ indent _ => some indent
  | _ => none

end Phase

namespace Event

def message : Event → String
  | skipped line label text =>
    "Line " ++ String.ofList (DecimalStyle.intText line) ++ " (label " ++ label.getD "-" ++
      "): unrecognized, skipped: " ++ String.ofList text
  | dropped lines => "Dropped " ++ countText lines ++ " unrecognized line(s)"
  | parsed characters elements =>
    "Parsed " ++ countText characters ++ " character(s) and " ++ countText elements ++
      " element(s)"

def record (e : Event) : Log.Record :=
  ⟨.debug, Log.loggerOf "parser", e.message⟩

end Event

/-! ## Steps -/

variable {σ : Type}

/-- A reader that has read nothing. -/
def start (ids : σ) : Reader σ :=
  { ids := ids }

/-- Adds a statement, with a new id. -/
def emit (source : IdSource σ) (r : Reader σ) (s : Statement) : Reader σ :=
  let (id, ids) := source.next r.ids "element"
  { r with ids := ids, elements := r.elements ++ [.statement id s] }

/-- Reports a line that says nothing. -/
def skip (r : Reader σ) (line : SourceLine) : Reader σ :=
  { r with
    skipped := r.skipped + 1
    events := r.events ++ [.skipped line.number r.label line.text] }

/-- Makes the open menu an element; its id comes after those of its contents. -/
def close (source : IdSource σ) (r : Reader σ) : Reader σ :=
  match r.phase with
  | .idle => r
  | phase =>
    let (id, ids) := source.next r.ids "element"
    { r with
      ids := ids
      phase := .idle
      elements := r.elements ++ [.menu id phase.choices] }

/-- Opens a choice of the menu at `indent` behind the choices before it. -/
def openChoice (source : IdSource σ) (r : Reader σ) (indent : Nat) (earlier : List Choice)
    (choiceIndent : Nat) (head : String × Option String) : Reader σ :=
  let (id, ids) := source.next r.ids "choice"
  { r with
    ids := ids
    phase := .choice indent earlier choiceIndent ⟨id, head.1, head.2, []⟩ }

/-- Adds a line of text to the open choice. -/
def addAction (source : IdSource σ) (r : Reader σ) (indent : Nat) (earlier : List Choice)
    (choiceIndent : Nat) (current : Choice) (s : Statement) : Reader σ :=
  let (id, ids) := source.next r.ids "element"
  let current := { current with actions := current.actions ++ [.statement id s] }
  { r with ids := ids, phase := .choice indent earlier choiceIndent current }

/-- Reads a line of its own. -/
def stepPlain (source : IdSource σ) (r : Reader σ) (line : SourceLine) : Reader σ :=
  match Line.read? line.text with
  | none => r.skip line
  | some (.define c) => { r with characters := r.characters ++ [c] }
  | some .menu => { r with phase := .menu line.indent }
  | some (.statement (.label name)) => { r.emit source (.label name) with label := some name }
  | some (.statement s) => r.emit source s

/-- Reads a line of a menu before its first choice. -/
def stepMenu (source : IdSource σ) (r : Reader σ) (indent : Nat) (line : SourceLine) : Reader σ :=
  match Line.readChoice? line.text with
  | some head => r.openChoice source indent [] line.indent head
  | none => r.skip line

/-- Reads a line of a menu behind the head of a choice. A further head opens the next choice unless
it is indented deeper; text that is indented deeper belongs to the choice. -/
def stepChoice (source : IdSource σ) (r : Reader σ) (indent : Nat) (earlier : List Choice)
    (choiceIndent : Nat) (current : Choice) (line : SourceLine) : Reader σ :=
  if line.indent ≤ choiceIndent then
    match Line.readChoice? line.text with
    | some head => r.openChoice source indent (earlier ++ [current]) line.indent head
    | none => r.skip line
  else
    match Line.readAction? line.text with
    | some s => r.addAction source indent earlier choiceIndent current s
    | none => r.skip line

/-- Reads a line that is neither blank nor a comment. -/
def step (source : IdSource σ) (r : Reader σ) (line : SourceLine) : Reader σ :=
  match r.phase with
  | .idle => r.stepPlain source line
  | .menu indent =>
    if indent < line.indent then r.stepMenu source indent line
    else (r.close source).stepPlain source line
  | .choice indent earlier choiceIndent current =>
    if indent < line.indent then
      r.stepChoice source indent earlier choiceIndent current line
    else (r.close source).stepPlain source line

/-- Reads any line. -/
def readLine (source : IdSource σ) (r : Reader σ) (line : SourceLine) : Reader σ :=
  if line.isIgnored then r else r.step source line

/-- Reads a line as it is written. -/
def readRaw (source : IdSource σ) (r : Reader σ) (number : Int) (raw : String) : Reader σ :=
  r.readLine source (.ofRaw number raw.toList)

/-- Reads lines in order. -/
def readLines (source : IdSource σ) (r : Reader σ) (lines : List SourceLine) : Reader σ :=
  lines.foldl (readLine source) r

/-- Closes an open menu and reports the totals. -/
def finish (source : IdSource σ) (r : Reader σ) : Reader σ :=
  let r := r.close source
  let dropped := if r.skipped = 0 then [] else [Event.dropped r.skipped]
  { r with
    events := r.events ++ dropped ++ [.parsed r.characters.length r.elements.length] }

/-- The script that was read; a text lists no assets. -/
def script (r : Reader σ) : Script :=
  { characters := r.characters, elements := r.elements }

end Reader

/-- The lines of a text, numbered from one. -/
def sourceLines (text : List Char) : List SourceLine :=
  (Text.lines text).zipIdx.map fun (raw, i) => .ofRaw (i + 1) raw

/-- Reads a whole text, with ids from `source`. -/
def Reader.ofText {σ : Type} (source : IdSource σ) (ids : σ) (text : String) : Reader σ :=
  ((Reader.start ids).readLines source (sourceLines text.toList)).finish source

/-- Reads a whole text, with the ids of a factory if there is one that counts as true. -/
def Reader.readText (factory : Option IdFactory) (text : String) :
    Reader (IdFactory.orUsual factory).State :=
  .ofText (IdFactory.orUsual factory).source (IdFactory.orUsual factory).state text

/-- The state of a factory that a text was read with; one that counts as false is not asked. -/
def IdFactory.stateBehind (f : IdFactory) (text : String) : f.State :=
  if f.counts f.state then (Reader.ofText f.source f.state text).ids else f.state

/-- The factory that a text was read with. -/
def IdFactory.behind (f : IdFactory) (text : String) : IdFactory :=
  { f with state := f.stateBehind text }

/-- The script of a text, with the usual ids. -/
def Script.ofText (text : String) : Script :=
  (Reader.readText none text).script

end NovelScript
