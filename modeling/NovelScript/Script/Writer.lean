import NovelScript.Number.Decimal
import NovelScript.Script.Line
import NovelScript.Script.Quoted

/-!
# Writing scripts

`Script.toText` writes a script as text, a statement on a line. Labels start in the first column
and what follows is indented below them, up to the next return. A menu keeps only the lines of text
in its choices, and conditions are left out: neither has another form in the text.
-/

set_option autoImplicit false

namespace NovelScript

/-! ## Pieces -/

/-- A text between double quotes. -/
def quotedText (s : String) : List Char :=
  '"' :: Quoted.escape s.toList ++ ['"']

/-- `word` and its value between blanks, if there is one. -/
def clauseText (word : String) : Option String → List Char
  | none => []
  | some value => if value = "" then [] else ' ' :: word.toList ++ ' ' :: value.toList

/-- A line of text with its speaker. -/
def dialogueText (content : String) (speaker : Option String) : List Char :=
  match speaker with
  | none => quotedText content
  | some name => if name = "" then quotedText content else name.toList ++ ' ' :: quotedText content

/-- Four blanks for each level. -/
def levelText (level : Nat) : List Char :=
  List.replicate (4 * level) ' '

/-! ## Lines -/

def Character.line (c : Character) : List Char :=
  let color := match c.color with
    | none => []
    | some color => if color = "" then [] else ", color=\"".toList ++ color.toList ++ ['"']
  "define ".toList ++ c.id.toList ++ " = Character(".toList ++ quotedText c.name ++ color ++ [')']

/-- The line of a statement; a condition has none. -/
def Statement.line? : Statement → Option (List Char)
  | dialogue content speaker => some (dialogueText content speaker)
  | scene image transition =>
    some ("scene ".toList ++ image.toList ++ clauseText "with" transition)
  | showImage image position transition =>
    let place := if position = defaultPosition then [] else clauseText "at" (some position)
    some ("show ".toList ++ image.toList ++ place ++ clauseText "with" transition)
  | hideImage image transition =>
    some ("hide ".toList ++ image.toList ++ clauseText "with" transition)
  | label name => some ("label ".toList ++ name.toList ++ [':'])
  | jump target => some ("jump ".toList ++ target.toList)
  | call target => some ("call ".toList ++ target.toList)
  | play channel audio =>
    some ("play ".toList ++ channel.toList ++ " \"".toList ++ audio.toList ++ ['"'])
  | stop channel => some ("stop ".toList ++ channel.toList)
  | pause none => some "pause".toList
  | pause (some seconds) => some ("pause ".toList ++ DecimalStyle.brief.text seconds)
  | assign name value =>
    some (Text.trimEnd ("$ ".toList ++ name.toList ++ " = ".toList ++ value.toList))
  | condition _ => none
  | code text => some ("$ ".toList ++ text.toList)
  | goBack => some "return".toList

/-- The head of a choice. -/
def Choice.headText (c : Choice) : List Char :=
  quotedText c.text ++ clauseText "if" c.condition ++ [':']

/-- The line of an element inside a choice; only text has one. -/
def Element.actionLine? : Element → Option (List Char)
  | .statement _ (.dialogue content speaker) => some (dialogueText content speaker)
  | _ => none

/-- The lines of a menu that stands at a level. -/
def menuLines (level : Nat) (choices : List Choice) : List (List Char) :=
  (levelText level ++ "menu:".toList) :: choices.flatMap fun c =>
    (levelText (level + 1) ++ c.headText) ::
      c.actions.filterMap fun a => a.actionLine?.map (levelText (level + 2) ++ ·)

/-- The lines of elements from a level on: a label sets the level to one, a return to zero. -/
def elementLines : (level : Nat) → List Element → List (List Char)
  | _, [] => []
  | level, .menu _ choices :: rest => menuLines level choices ++ elementLines level rest
  | level, .statement _ s :: rest =>
    match s with
    | .label _ => s.line?.toList ++ elementLines 1 rest
    | .goBack => (s.line?.map (levelText level ++ ·)).toList ++ elementLines 0 rest
    | s => (s.line?.map (levelText level ++ ·)).toList ++ elementLines level rest

namespace Script

/-- The cast, an empty line behind it if there is a cast, and the elements. -/
def textLines (s : Script) : List (List Char) :=
  s.characters.map Character.line ++ (if s.characters = [] then [] else [[]]) ++
    elementLines 0 s.elements

/-- The script as text; there is no line break at its end. -/
def toText (s : Script) : String :=
  String.ofList (Text.join ['\n'] s.textLines)

end Script

end NovelScript
