import NovelScript.Document.Decode
import NovelScript.Document.Encode
import NovelScript.Files.Disk
import NovelScript.Script.Reader
import NovelScript.Script.Writer
import NovelScript.Text.Lines
import NovelScript.Text.Utf8

/-!
# Scripts in files

A file whose suffix is `.json`, in any letters, holds a document, and any other file holds a script
as text. Files are read as UTF-8 with a mark in place of what is none, and all line breaks are read
as LF; a file is written with a line break at its end.
-/

set_option autoImplicit false

namespace NovelScript

namespace ScriptFile

/-- Whether a path names a document. -/
def holdsDocument (p : FilePath) : Bool :=
  p.suffix.toList.map Char.toLower == ".json".toList

/-- Why a file does not give a script. -/
inductive LoadFailure where
  | file (error : FileError)
  | document (error : Document.LoadError)

namespace LoadFailure

def message : LoadFailure → String
  | file e => e.message
  | document e => e.message

/-- Whether the fault lies in the file or its document as such; a path with a null character and a
number that is out of range or too long are faults of their own. -/
def isExpected : LoadFailure → Bool
  | file e => e.isRefusal
  | document e => e.isDocumentFault

end LoadFailure

/-- A script with what was reported when it was read. -/
structure Loaded where
  script : Script
  records : List Log.Record

def logger : String := Log.loggerOf "project"

def loadedRecord (name : String) (s : Script) : Log.Record :=
  ⟨.info, logger, "Loaded " ++ name ++ ": " ++ countText s.characters.length ++
    " character(s), " ++ countText s.elements.length ++ " element(s)"⟩

def savedRecord (name : String) : Log.Record :=
  ⟨.info, logger, "Saved " ++ name⟩

/-- The text of a file's content. -/
def textOfContent (content : List UInt8) : String :=
  String.ofList (Text.unifyBreaks (Text.Utf8.decodeLossy content))

/-- The script that a text holds. -/
def readText (asDocument : Bool) (text : String) (half : Nat → Char := Json.replaced) :
    Except Document.LoadError Loaded :=
  if asDocument then
    match Script.ofDocument text half with
    | .ok s => .ok ⟨s, [Document.loadedRecord s]⟩
    | .error e => .error e
  else
    let r := Reader.readText none text
    .ok ⟨r.script, r.events.map (·.record)⟩

/-- The script in a file. -/
def load (d : Disk) (p : FilePath) (half : Nat → Char := Json.replaced) :
    Except LoadFailure Loaded :=
  match d.read p with
  | .error e => .error (.file e)
  | .ok content =>
    match readText (holdsDocument p) (textOfContent content) half with
    | .error e => .error (.document e)
    | .ok l => .ok { l with records := l.records ++ [loadedRecord p.lastName l.script] }

/-- A script as the text of a file. -/
def text (asDocument : Bool) (s : Script) : String :=
  (if asDocument then s.toDocument else s.toText) ++ "\n"

/-- The disk behind a script that was written, with what was reported. -/
structure Saved where
  disk : Disk
  records : List Log.Record

/-- Writes a script to a file. -/
def save (d : Disk) (p : FilePath) (s : Script) : Except FileError Saved :=
  match d.write p (Text.Utf8.encode (text (holdsDocument p) s).toList) with
  | .error e => .error e
  | .ok d => .ok ⟨d, [savedRecord p.lastName]⟩

end ScriptFile

end NovelScript
