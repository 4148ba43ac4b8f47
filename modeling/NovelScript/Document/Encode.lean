import NovelScript.Json.Printer
import NovelScript.Script.Basic

/-!
# Scripts as documents

A document is the JSON form of a script. An element is an object with its id, its type and its
fields in the order of its kind; a field without a value is left out. `Script.toDocument` is the
text of the document.
-/

set_option autoImplicit false

namespace NovelScript

/-- A field that is left out when it has no value. -/
def optionalField (key : String) : Option String → List (String × Json)
  | none => []
  | some value => [(key, .str value)]

def Character.toJson (c : Character) : Json :=
  .obj ([("id", .str c.id), ("name", .str c.name)] ++ optionalField "color" c.color)

/-- The fields of a statement besides id and type. -/
def Statement.toMembers : Statement → List (String × Json)
  | dialogue content speaker => ("content", .str content) :: optionalField "character" speaker
  | scene image transition => ("image", .str image) :: optionalField "transition" transition
  | showImage image position transition =>
    ("image", .str image) :: ("position", .str position) :: optionalField "transition" transition
  | hideImage image transition => ("image", .str image) :: optionalField "transition" transition
  | label name => [("label", .str name)]
  | jump target => [("label", .str target)]
  | call target => [("label", .str target)]
  | play channel audio => [("channel", .str channel), ("audio", .str audio)]
  | stop channel => [("channel", .str channel)]
  | pause none => []
  | pause (some seconds) => [("duration", .float seconds)]
  | assign name value => [("variable", .str name), ("value", .str value)]
  | condition test => [("condition", .str test)]
  | code text => [("code", .str text)]
  | goBack => []

mutual

def Element.toJson : Element → Json
  | .statement id s => .obj (("id", .str id) :: ("type", .str s.kind.name) :: s.toMembers)
  | .menu id choices =>
    .obj [("id", .str id), ("type", .str ElementKind.menu.name),
      ("choices", .arr (choicesToJson choices))]

def choicesToJson : List Choice → List Json
  | [] => []
  | ⟨id, text, condition, actions⟩ :: rest =>
    .obj ([("id", .str id), ("text", .str text)] ++ optionalField "condition" condition ++
      [("actions", .arr (elementsToJson actions))]) :: choicesToJson rest

def elementsToJson : List Element → List Json
  | [] => []
  | e :: rest => e.toJson :: elementsToJson rest

end

def Assets.toJson (a : Assets) : Json :=
  .obj [("images", .arr a.images), ("audio", .arr a.audio), ("backgrounds", .arr a.backgrounds)]

namespace Script

/-- The document of a script. -/
def toJson (s : Script) : Json :=
  .obj [("characters", .arr (s.characters.map Character.toJson)),
    ("elements", .arr (elementsToJson s.elements)), ("assets", s.assets.toJson)]

/-- The text of the document. -/
def toDocument (s : Script) : String :=
  s.toJson.pretty

end Script

end NovelScript
