import NovelScript.Json.Basic

/-!
# Scripts of a visual novel

A script has a cast, a list of elements in order of play, and a catalogue of assets. An element is
one `Statement` or a menu; a menu offers choices, and each choice holds the elements that follow
when it is taken. The `Kind` of an element is what documents call its type.
-/

set_option autoImplicit false

namespace NovelScript

/-- A member of the cast: the word that scripts use, the name that is shown, and its colour. -/
structure Character where
  id : String
  name : String
  color : Option String := none
  deriving DecidableEq, Repr

/-- What an element other than a menu does. -/
inductive Statement where
  /-- A line of text; without a speaker it is narration. -/
  | dialogue (content : String) (speaker : Option String)
  | scene (image : String) (transition : Option String)
  | showImage (image : String) (position : String) (transition : Option String)
  | hideImage (image : String) (transition : Option String)
  | label (name : String)
  | jump (target : String)
  | call (target : String)
  | play (channel : String) (audio : String)
  | stop (channel : String)
  /-- A pause of some seconds, or until the player goes on. -/
  | pause (seconds : Option Binary64)
  /-- The value is the text of an expression; it is not evaluated. -/
  | assign (name : String) (value : String)
  | condition (test : String)
  | code (text : String)
  | goBack
  deriving DecidableEq, Repr

mutual

/-- A step of the play. Elements are told apart by their ids. -/
inductive Element where
  | statement (id : String) (content : Statement)
  | menu (id : String) (choices : List Choice)

/-- An option of a menu; without a condition it is always offered. -/
structure Choice where
  id : String
  text : String
  condition : Option String
  actions : List Element

end

instance : Inhabited Element := ⟨.menu "" []⟩

/-- The catalogue of assets; its entries are kept as they are. -/
structure Assets where
  images : List Json := []
  audio : List Json := []
  backgrounds : List Json := []
  deriving Inhabited

structure Script where
  characters : List Character := []
  elements : List Element := []
  assets : Assets := {}
  deriving Inhabited

/-! ## Vocabulary -/

/-- The places of the stage. -/
def positions : List String := ["left", "center", "right", "truecenter"]

/-- Where an image is shown when no place is given. -/
def defaultPosition : String := "center"

/-- The audio channels. -/
def channels : List String := ["music", "sound", "voice"]

/-- The channel of a sound when none is given. -/
def defaultChannel : String := "music"

/-! ## Kinds of elements -/

/-- The kinds of statements. -/
inductive StatementKind where
  | dialogue | scene | showImage | hideImage | label | jump | call | play | stop | pause | assign
  | condition | code | goBack
  deriving DecidableEq, Repr

/-- The kinds of elements. -/
inductive ElementKind where
  | menu
  | statement (kind : StatementKind)
  deriving DecidableEq, Repr

namespace StatementKind

/-- The type that documents give an element of this kind. -/
def name : StatementKind → String
  | dialogue => "dialogue"
  | scene => "scene"
  | showImage => "show"
  | hideImage => "hide"
  | label => "label"
  | jump => "jump"
  | call => "call"
  | play => "play"
  | stop => "stop"
  | pause => "pause"
  | assign => "variable"
  | condition => "condition"
  | code => "code"
  | goBack => "return"

/-- The fields of an element of this kind besides its id. -/
def fields : StatementKind → List String
  | dialogue => ["content", "character"]
  | scene => ["image", "transition"]
  | showImage => ["image", "position", "transition"]
  | hideImage => ["image", "transition"]
  | label => ["label"]
  | jump => ["label"]
  | call => ["label"]
  | play => ["channel", "audio"]
  | stop => ["channel"]
  | pause => ["duration"]
  | assign => ["variable", "value"]
  | condition => ["condition"]
  | code => ["code"]
  | goBack => []

end StatementKind

namespace ElementKind

/-- All kinds, in the order of the format's description. -/
def all : List ElementKind :=
  [.statement .dialogue, .statement .scene, .statement .showImage, .statement .hideImage, .menu,
    .statement .label, .statement .jump, .statement .call, .statement .play, .statement .stop,
    .statement .pause, .statement .assign, .statement .condition, .statement .code,
    .statement .goBack]

def name : ElementKind → String
  | menu => "menu"
  | statement kind => kind.name

/-- The kind that a type names. -/
def ofName? (name : String) : Option ElementKind :=
  all.find? (·.name = name)

/-- The fields of an element of this kind, its id first. -/
def fields : ElementKind → List String
  | menu => ["id", "choices"]
  | statement kind => "id" :: kind.fields

end ElementKind

def Statement.kind : Statement → StatementKind
  | dialogue .. => .dialogue
  | scene .. => .scene
  | showImage .. => .showImage
  | hideImage .. => .hideImage
  | label .. => .label
  | jump .. => .jump
  | call .. => .call
  | play .. => .play
  | stop .. => .stop
  | pause .. => .pause
  | assign .. => .assign
  | condition .. => .condition
  | code .. => .code
  | goBack => .goBack

namespace Element

def id : Element → String
  | statement id _ => id
  | menu id _ => id

def kind : Element → ElementKind
  | statement _ s => .statement s.kind
  | menu .. => .menu

end Element

end NovelScript
