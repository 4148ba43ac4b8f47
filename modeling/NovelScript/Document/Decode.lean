import NovelScript.Json.Printer
import NovelScript.Json.Reader
import NovelScript.Log.Record
import NovelScript.Script.Basic

/-!
# Reading documents

`Script.ofJson` reads the document of a script. A field that is absent or null has its default;
keys that the format does not name are passed over. The first value that breaks the format is
reported by its `Path` and a `Cause`: the lists of the document come first, then the assets, the
cast and the elements in order, and in each object its id, its type and its fields in order.

`Script.ofDocument` reads the text of a document.
-/

set_option autoImplicit false

namespace NovelScript

namespace Document

/-! ## What may be wrong -/

/-- A step into a value. -/
inductive Step where
  | key (name : String)
  | index (i : Nat)
  deriving DecidableEq, Repr

/-- The way to a value from a named start. -/
structure Path where
  start : String
  steps : List Step := []
  deriving DecidableEq, Repr

namespace Path

def key (path : Path) (name : String) : Path :=
  { path with steps := path.steps ++ [.key name] }

def index (path : Path) (i : Nat) : Path :=
  { path with steps := path.steps ++ [.index i] }

def stepText : Step → String
  | .key name => "." ++ name
  | .index i => "[" ++ countText i ++ "]"

def text (path : Path) : String :=
  path.steps.foldl (fun s step => s ++ stepText step) path.start

end Path

/-- Why a value breaks the format. -/
inductive Cause where
  | wrongKind (expected : List Json.Kind) (found : Json.Kind)
  | missing (key : String)
  /-- The type, as it is shown, names no kind of elements. -/
  | unknownType (shown : String)
  /-- A truth value stands where a number is expected. -/
  | notNumber
  deriving Repr

def Cause.message : Cause → String
  | .wrongKind expected found =>
    "expected " ++ String.intercalate "/" (expected.map (·.name)) ++ ", got " ++ found.name
  | .missing key => "missing '" ++ key ++ "'"
  | .unknownType shown => "unknown element type " ++ shown
  | .notNumber => "expected number, got bool"

/-- Why a value is not read. -/
inductive DecodeError where
  | invalid (path : Path) (cause : Cause)
  /-- A duration is an integer beyond the greatest number. -/
  | outOfRange
  /-- A value that is to be kept or shown as text has an integer too long for that. -/
  | unwritable
  deriving Repr

abbrev Decoded (α : Type) := Except DecodeError α

/-! ## Values -/

def wrongKind {α : Type} (path : Path) (expected : List Json.Kind) (found : Json) : Decoded α :=
  .error (.invalid path (.wrongKind expected found.kind))

def asString (path : Path) : Json → Decoded String
  | .str s => .ok s
  | v => wrongKind path [.str] v

def asList (path : Path) : Json → Decoded (List Json)
  | .arr items => .ok items
  | v => wrongKind path [.arr] v

def asObject (path : Path) : Json → Decoded (List (String × Json))
  | .obj members => .ok members
  | v => wrongKind path [.obj] v

abbrev Members := List (String × Json)

/-- The value of a key that must be there. -/
def required (path : Path) (members : Members) (key : String) : Decoded Json :=
  match Json.find? key members with
  | some v => .ok v
  | none => .error (.invalid path (.missing key))

/-- The string of a key, if it is there and not null. -/
def string? (path : Path) (members : Members) (key : String) : Decoded (Option String) :=
  match Json.find? key members with
  | none => .ok none
  | some .null => .ok none
  | some v => some <$> asString (path.key key) v

/-- The string of a key, or its default where there is none. -/
def stringOr (default : String) (path : Path) (members : Members) (key : String) :
    Decoded String :=
  return (← string? path members key).getD default

/-- The list of a key; only where the key is absent it is empty. -/
def listOrEmpty (path : Path) (members : Members) (key : String) : Decoded (List Json) :=
  match Json.find? key members with
  | none => .ok []
  | some v => asList path v

/-- The string of a key; only where the key is absent it is empty. -/
def stringOrEmpty (path : Path) (members : Members) (key : String) : Decoded String :=
  match Json.find? key members with
  | none => .ok ""
  | some v => asString (path.key key) v

/-- The members under a key; only where the key is absent there are none. -/
def objectOrEmpty (path : Path) (members : Members) (key : String) : Decoded Members :=
  match Json.find? key members with
  | none => .ok []
  | some v => asObject path v

/-- A number of seconds, unless it is null. -/
def asSeconds? (path : Path) : Json → Decoded (Option Binary64)
  | .null => .ok none
  | .float x => .ok (some x)
  | .int n => (Binary64.ofInt? n).elim (.error .outOfRange) fun x => .ok (some x)
  | .bool _ => .error (.invalid path .notNumber)
  | v => wrongKind path [.int, .float] v

/-- The number of seconds of a pause. -/
def seconds? (path : Path) (members : Members) (key : String) : Decoded (Option Binary64) :=
  match Json.find? key members with
  | none => .ok none
  | some v => asSeconds? (path.key key) v

/-- A value as the text of an expression: a string is that text itself. -/
def expressionText : Json → Option String
  | .str s => some s
  | .arr items => (Json.arr items).compact
  | .obj members => (Json.obj members).compact
  | v => v.literal

/-- The text of an expression; it is empty where there is none. -/
def expression (members : Members) (key : String) : Decoded String :=
  match Json.find? key members with
  | none => .ok ""
  | some .null => .ok ""
  | some v => (expressionText v).elim (.error .unwritable) .ok

/-! ## Elements -/

def decodeCharacter (path : Path) (v : Json) : Decoded Character := do
  let members ← asObject path v
  let id ← required path members "id"
  let name ← required path members "name"
  let id ← asString (path.key "id") id
  let name ← asString (path.key "name") name
  let color ← string? path members "color"
  return ⟨id, name, color⟩

/-- The statement of a kind, from the members of its object. -/
def decodeStatement (path : Path) (members : Members) : StatementKind → Decoded Statement
  | .dialogue => do
    let content ← stringOr "" path members "content"
    return .dialogue content (← string? path members "character")
  | .scene => do
    let image ← stringOr "" path members "image"
    return .scene image (← string? path members "transition")
  | .showImage => do
    let image ← stringOr "" path members "image"
    let position ← stringOr defaultPosition path members "position"
    return .showImage image position (← string? path members "transition")
  | .hideImage => do
    let image ← stringOr "" path members "image"
    return .hideImage image (← string? path members "transition")
  | .label => return .label (← stringOr "" path members "label")
  | .jump => return .jump (← stringOr "" path members "label")
  | .call => return .call (← stringOr "" path members "label")
  | .play => do
    let channel ← stringOr defaultChannel path members "channel"
    return .play channel (← stringOr "" path members "audio")
  | .stop => return .stop (← stringOr defaultChannel path members "channel")
  | .pause => return .pause (← seconds? path members "duration")
  | .assign => do
    let name ← stringOr "" path members "variable"
    return .assign name (← expression members "value")
  | .condition => return .condition (← stringOr "" path members "condition")
  | .code => return .code (← stringOr "" path members "code")
  | .goBack => return .goBack

/-- Reports a type that names no kind. -/
def unknownType {α : Type} (path : Path) (found : Json) : Decoded α :=
  found.literal.elim (.error .unwritable) fun shown => .error (.invalid path (.unknownType shown))

/-- The kind of an element, by its type. -/
def decodeKind (path : Path) (members : Members) : Decoded ElementKind :=
  let found := (Json.find? "type" members).getD .null
  match found with
  | .str name => (ElementKind.ofName? name).elim (unknownType (path.key "type") found) .ok
  | _ => unknownType (path.key "type") found

mutual

def decodeElement (path : Path) : Json → Decoded Element
  | .obj members => do
    let id ← required path members "id"
    let kind ← decodeKind path members
    let id ← asString (path.key "id") id
    match kind with
    | .statement kind => return .statement id (← decodeStatement path members kind)
    | .menu => return .menu id (← decodeMenuChoices (path.key "choices") members)
  | v => wrongKind path [.obj] v

/-- The elements of a list, from index `i` on. -/
def decodeElements (path : Path) (i : Nat) : List Json → Decoded (List Element)
  | [] => .ok []
  | v :: rest => do
    let e ← decodeElement (path.index i) v
    return e :: (← decodeElements path (i + 1) rest)

/-- The choices among the members of a menu. -/
def decodeMenuChoices (path : Path) : Members → Decoded (List Choice)
  | [] => .ok []
  | (k, v) :: rest => if k = "choices" then decodeChoiceList path v else decodeMenuChoices path rest

def decodeChoiceList (path : Path) : Json → Decoded (List Choice)
  | .null => .ok []
  | .arr items => decodeChoices path 0 items
  | v => wrongKind path [.arr] v

/-- The choices of a list, from index `i` on. -/
def decodeChoices (path : Path) (i : Nat) : List Json → Decoded (List Choice)
  | [] => .ok []
  | v :: rest => do
    let c ← decodeChoice (path.index i) v
    return c :: (← decodeChoices path (i + 1) rest)

def decodeChoice (path : Path) : Json → Decoded Choice
  | .obj members => do
    let id ← required path members "id"
    let _ ← listOrEmpty (path.key "actions") members "actions"
    let id ← asString (path.key "id") id
    let text ← stringOrEmpty path members "text"
    let condition ← string? path members "condition"
    return ⟨id, text, condition, ← decodeActions (path.key "actions") members⟩
  | v => wrongKind path [.obj] v

/-- The actions among the members of a choice. -/
def decodeActions (path : Path) : Members → Decoded (List Element)
  | [] => .ok []
  | (k, v) :: rest => if k = "actions" then decodeActionList path v else decodeActions path rest

def decodeActionList (path : Path) : Json → Decoded (List Element)
  | .arr items => decodeElements path 0 items
  | v => wrongKind path [.arr] v

end

/-! ## Scripts -/

/-- The characters of a list, from index `i` on. -/
def decodeCharacters (i : Nat) : List Json → Decoded (List Character)
  | [] => .ok []
  | v :: rest => do
    let c ← decodeCharacter (Path.index ⟨"characters", []⟩ i) v
    return c :: (← decodeCharacters (i + 1) rest)

def decodeAssets (members : Members) : Decoded Assets := do
  let list := fun key => listOrEmpty (Path.key ⟨"assets", []⟩ key) members key
  return { images := ← list "images", audio := ← list "audio", backgrounds := ← list "backgrounds" }

def decodeScript (v : Json) : Decoded Script := do
  let members ← asObject ⟨"document", []⟩ v
  let characterList ← listOrEmpty ⟨"characters", []⟩ members "characters"
  let elementList ← listOrEmpty ⟨"elements", []⟩ members "elements"
  let assetMembers ← objectOrEmpty ⟨"assets", []⟩ members "assets"
  let assets ← decodeAssets assetMembers
  let characters ← decodeCharacters 0 characterList
  let elements ← decodeElements ⟨"elements", []⟩ 0 elementList
  return { characters, elements, assets }

/-- What is reported when a document was read. -/
def loadedRecord (s : Script) : Log.Record :=
  ⟨.debug, Log.loggerOf "codec", "Loaded document: " ++ countText s.characters.length ++
    " character(s), " ++ countText s.elements.length ++ " element(s)"⟩

/-- Why the text of a document is not read. -/
inductive LoadError where
  | notJson (what : Json.Fault) (position : Json.Position)
  | longInteger (digits : Nat)
  | invalid (path : Path) (cause : Cause)
  | outOfRange
  | unwritable
  deriving Repr

namespace LoadError

/-- What is said of an integer that is too long, with or without its length. -/
def limitText : String :=
  "Exceeds the limit (" ++ countText Json.maxDigits ++ " digits) for integer string conversion"

/-- How the limit is raised. -/
def adviceText : String :=
  "; use sys.set_int_max_str_digits() to increase the limit"

def message : LoadError → String
  | notJson what position =>
    "Invalid JSON document: " ++ what.message ++ ": line " ++ countText position.line ++
      " column " ++ countText position.column ++ " (char " ++ countText position.offset ++ ")"
  | longInteger digits =>
    limitText ++ ": value has " ++ countText digits ++ " digits" ++ adviceText
  | unwritable => limitText ++ adviceText
  | invalid path cause => path.text ++ ": " ++ cause.message
  | outOfRange => "int too large to convert to float"

/-- Whether the text does not hold a document; a number that is out of range or too long is a fault
of its own. -/
def isDocumentFault : LoadError → Bool
  | notJson .. => true
  | invalid .. => true
  | longInteger _ | outOfRange | unwritable => false

def ofDecode : DecodeError → LoadError
  | .invalid path cause => invalid path cause
  | .outOfRange => outOfRange
  | .unwritable => unwritable

end LoadError

end Document

namespace Script

/-- The script of a document. -/
def ofJson (v : Json) : Document.Decoded Script :=
  Document.decodeScript v

/-- The script of a document's text. -/
def ofDocument (text : String) (half : Nat → Char := Json.replaced) :
    Except Document.LoadError Script :=
  match Json.ofText text half with
  | .error (.fault what position) => .error (.notJson what position)
  | .error (.longInteger digits) => .error (.longInteger digits)
  | .ok v =>
    match ofJson v with
    | .ok s => .ok s
    | .error e => .error (.ofDecode e)

end Script

end NovelScript
