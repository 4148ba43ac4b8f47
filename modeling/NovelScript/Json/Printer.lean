import NovelScript.Json.Basic
import NovelScript.Text.Blank
import NovelScript.Text.Quoted

/-!
# JSON texts

Two layouts of one notation: `pretty` puts each item on a line of its own, two spaces deeper than
its container, and `compact` keeps the value on one line. Only quotes, backslashes and characters
below U+0020 are escaped. `literal` is the notation in which messages show a value. A value with an
integer of more than `maxDigits` digits has neither form of one line.
-/

set_option autoImplicit false

namespace NovelScript.Json

/-! ## Strings -/

/-- How a character is written inside a JSON string. -/
def escapedChar (c : Char) : List Char :=
  if c = '"' || c = '\\' then ['\\', c]
  else if c = '\n' then ['\\', 'n']
  else if c = '\r' then ['\\', 'r']
  else if c = '\t' then ['\\', 't']
  else if c = '\x08' then ['\\', 'b']
  else if c = '\x0c' then ['\\', 'f']
  else if c.toNat < 0x20 then '\\' :: 'u' :: Text.hexDigits 4 c.toNat
  else [c]

/-- A JSON string with its quotes. -/
def stringText (s : String) : List Char :=
  '"' :: s.toList.flatMap escapedChar ++ ['"']

/-! ## Values -/

/-- What stands between the parts of a container. -/
structure Layout where
  /-- Follows every item but the last. -/
  separator : List Char
  /-- Stands before an item or a closing bracket at this depth. -/
  newLine : Nat → List Char

/-- One line, with a space after each comma. -/
def Layout.compact : Layout where
  separator := [',', ' ']
  newLine _ := []

/-- A line for each item, two spaces for each level. -/
def Layout.pretty : Layout where
  separator := [',']
  newLine depth := '\n' :: List.replicate (2 * depth) ' '

mutual

/-- The text of a value that starts at the given depth. -/
def text (layout : Layout) (depth : Nat) : Json → List Char
  | null => "null".toList
  | bool true => "true".toList
  | bool false => "false".toList
  | int n => DecimalStyle.intText n
  | float x => DecimalStyle.json.text x
  | str s => stringText s
  | arr [] => ['[', ']']
  | arr (v :: rest) =>
    '[' :: layout.newLine (depth + 1) ++ text layout (depth + 1) v ++
      itemsText layout (depth + 1) rest ++ layout.newLine depth ++ [']']
  | obj [] => ['{', '}']
  | obj ((k, v) :: rest) =>
    '{' :: layout.newLine (depth + 1) ++ stringText k ++ [':', ' '] ++ text layout (depth + 1) v ++
      membersText layout (depth + 1) rest ++ layout.newLine depth ++ ['}']

/-- The items after the first, each behind a separator. -/
def itemsText (layout : Layout) (depth : Nat) : List Json → List Char
  | [] => []
  | v :: rest =>
    layout.separator ++ layout.newLine depth ++ text layout depth v ++ itemsText layout depth rest

/-- The members after the first, each behind a separator. -/
def membersText (layout : Layout) (depth : Nat) : List (String × Json) → List Char
  | [] => []
  | (k, v) :: rest =>
    layout.separator ++ layout.newLine depth ++ stringText k ++ [':', ' '] ++ text layout depth v ++
      membersText layout depth rest

end

/-- The value over several lines. -/
def pretty (v : Json) : String :=
  String.ofList (text .pretty 0 v)

/-- The value on one line, unless an integer in it is too long. -/
def compact (v : Json) : Option String :=
  if v.ShortIntegers then some (String.ofList (text .compact 0 v)) else none

/-! ## Literals -/

mutual

/-- The text of a value as messages show it. -/
def literalText : Json → List Char
  | null => "None".toList
  | bool true => "True".toList
  | bool false => "False".toList
  | int n => DecimalStyle.intText n
  | float x => DecimalStyle.full.text x
  | str s => Text.quoted s.toList
  | arr [] => ['[', ']']
  | arr (v :: rest) => '[' :: literalText v ++ itemsLiteralText rest ++ [']']
  | obj [] => ['{', '}']
  | obj ((k, v) :: rest) =>
    '{' :: Text.quoted k.toList ++ [':', ' '] ++ literalText v ++ membersLiteralText rest ++ ['}']

/-- The items after the first. -/
def itemsLiteralText : List Json → List Char
  | [] => []
  | v :: rest => ',' :: ' ' :: literalText v ++ itemsLiteralText rest

/-- The members after the first. -/
def membersLiteralText : List (String × Json) → List Char
  | [] => []
  | (k, v) :: rest =>
    ',' :: ' ' :: Text.quoted k.toList ++ [':', ' '] ++ literalText v ++ membersLiteralText rest

end

/-- The value as messages show it, unless an integer in it is too long. -/
def literal (v : Json) : Option String :=
  if v.ShortIntegers then some (String.ofList v.literalText) else none

end NovelScript.Json
