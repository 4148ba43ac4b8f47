import NovelScript.Script.Basic
import NovelScript.Script.Quoted
import NovelScript.Text.Blank
import NovelScript.Text.Word

/-!
# What a line of a script says

`Line.read?` reads a line without its indentation as a definition of a character, the head of a
menu, or a statement. Each form is a word and what may follow it; most forms leave what stands
behind them unread. The forms are tried in order and the first that applies is taken; a line of no
form says nothing. Inside a menu, `readChoice?` reads the head of a choice and `readSpeech?` a line
of text.

A line is cut from its text and trimmed, so it holds no line break. The forms are defined for any
characters, and then no piece of an image, a sound or an expression goes beyond an LF.
-/

set_option autoImplicit false

namespace NovelScript

open Text

/-- What a line says. -/
inductive Line where
  | define (character : Character)
  | menu
  | statement (content : Statement)
  deriving DecidableEq, Repr

namespace Line

/-! ## Pieces -/

/-- The word that `s` starts with, and what follows it. -/
def splitWord? (s : List Char) : Option (List Char × List Char) :=
  let word := s.takeWhile isWord
  if word = [] then none else some (word, s.dropWhile isWord)

/-- What follows the blanks that `s` starts with; at least one is needed. -/
def afterBlanks? (s : List Char) : Option (List Char) :=
  match s with
  | c :: r => if isBlank c then some (trimStart r) else none
  | [] => none

/-- What follows `word` and the blanks behind it. -/
def afterKeyword? (word : String) (s : List Char) : Option (List Char) :=
  (after? word.toList s).bind afterBlanks?

/-- What follows blanks, if any, and the character `c`. -/
def afterSign? (c : Char) (s : List Char) : Option (List Char) :=
  match trimStart s with
  | d :: r => if d = c then some r else none
  | [] => none

/-- The quote that `s` starts with, and what follows it. -/
def splitQuote? (s : List Char) : Option (Char × List Char) :=
  match s with
  | c :: r => if c = '"' || c = '\'' then some (c, r) else none
  | [] => none

/-- The part of `s` before the first LF. -/
def upToBreak (s : List Char) : List Char :=
  s.takeWhile (· != '\n')

/-! ## Images -/

/-- The words that end the name of an image and say more about it. -/
def clauseWords : List String :=
  ["at", "with", "behind", "onlayer", "zorder", "as"]

def isClauseWord (word : List Char) : Bool :=
  clauseWords.contains (String.ofList word)

/-- The clauses in a list of words: a clause word takes the next word, and any other word is passed
over. -/
def clauses : List (List Char) → List (List Char × List Char)
  | [] => []
  | [_] => []
  | k :: v :: rest => if isClauseWord k then (k, v) :: clauses rest else clauses (v :: rest)
termination_by structural words => words

/-- An image and what its clauses say. -/
structure ImageSpec where
  image : String
  position : Option String
  transition : Option String
  deriving DecidableEq, Repr

/-- The value of the first clause with this word. -/
def clause? (word : String) (found : List (List Char × List Char)) : Option String :=
  (found.find? fun kv => String.ofList kv.1 = word).map fun kv => String.ofList kv.2

/-- Reads the words of an image and its clauses; colons at the end do not count. -/
def readImage (s : List Char) : ImageSpec :=
  let words := words (s.reverse.dropWhile (· == ':')).reverse
  let found := clauses (words.dropWhile (!isClauseWord ·))
  { image := String.ofList (join [' '] (words.takeWhile (!isClauseWord ·)))
    position := clause? "at" found
    transition := clause? "with" found }

/-- The image that follows a keyword; there must be one. -/
def image? (s : List Char) : Option ImageSpec :=
  let spec := readImage (upToBreak s)
  if spec.image = "" then none else some spec

/-- What follows `show` or `hide`. Directly behind the keyword and one blank the word `screen` is
refused; behind further blanks it is read as an image, from the last blank that is no LF. -/
def afterImageKeyword? (word : String) (s : List Char) : Option (List Char) := do
  let gap ← after? word.toList s
  let rest ← afterBlanks? gap
  if startsWithWord "screen".toList rest then
    let blanks := (gap.takeWhile isBlank).drop 1
    match blanks.reverse.dropWhile (· == '\n') with
    | last :: _ =>
      if blanks.getLast? = some last then some (last :: rest) else some [last]
    | [] => none
  else some rest

/-! ## Numbers -/

/-- A decimal numeral without sign or exponent, in the digits of any script: some digits, perhaps a
point, and a digit at the end. -/
def readSeconds? (s : List Char) : Option Binary64 := do
  let isDigit := fun c => (digitValue? c).isSome
  let whole := s.takeWhile isDigit
  match s.dropWhile isDigit with
  | [] =>
    if whole = [] then none
    else some (.ofDecimal false (whole.filterMap digitValue?) 0)
  | c :: fraction =>
    if c = '.' && fraction ≠ [] && fraction.all isDigit then
      some (.ofDecimal false ((whole ++ fraction).filterMap digitValue?) (-fraction.length))
    else none

/-! ## The forms -/

/-- `define id = Character("name", …)`: the colour is that of the first `color=` option. The
options end at the last closing parenthesis. -/
def readDefine? (s : List Char) : Option Line := do
  let s ← afterKeyword? "define" s
  let (id, s) ← splitWord? s
  let s ← afterSign? '=' s
  let s ← after? "Character".toList (trimStart s)
  let s ← afterSign? '(' s
  let (quote, s) ← splitQuote? (trimStart s)
  let (name, s) ← Quoted.split? quote s
  let options := ((upToBreak s).reverse.dropWhile (· != ')')).drop 1
  if (upToBreak s).contains ')' then
    some (define
      { id := String.ofList id
        name := String.ofList (Quoted.unescape name)
        color := (color? none options.reverse).map String.ofList })
  else none
where
  /-- The value of the option at the start of `s`. -/
  colorHere? (s : List Char) : Option (List Char) := do
    let s ← after? "color".toList s
    let s ← afterSign? '=' s
    let (quote, s) ← splitQuote? (trimStart s)
    let (value, _) ← Quoted.splitPlain? quote s
    return value
  /-- The value of the first option that starts a word, where `before` precedes `s`. -/
  color? (before : Option Char) : List Char → Option (List Char)
    | [] => none
    | c :: r =>
      if (before.map isWord).getD false then color? (some c) r
      else
        match colorHere? (c :: r) with
        | some value => some value
        | none => color? (some c) r

/-- `label name:`, with or without more behind it. -/
def readLabel? (s : List Char) : Option Line := do
  let s ← afterKeyword? "label" s
  let (name, s) ← splitWord? s
  let _ ← afterSign? ':' s
  return statement (.label (String.ofList name))

def readScene? (s : List Char) : Option Line := do
  let spec ← image? (← afterKeyword? "scene" s)
  return statement (.scene spec.image spec.transition)

def readShow? (s : List Char) : Option Line := do
  let spec ← image? (← afterImageKeyword? "show" s)
  return statement (.showImage spec.image (spec.position.getD defaultPosition) spec.transition)

def readHide? (s : List Char) : Option Line := do
  let spec ← image? (← afterImageKeyword? "hide" s)
  return statement (.hideImage spec.image spec.transition)

/-- `play channel "file"`. -/
def readPlay? (s : List Char) : Option Line := do
  let s ← afterKeyword? "play" s
  let (channel, s) ← splitWord? s
  let (quote, s) ← splitQuote? (← afterBlanks? s)
  let (audio, _) ← Quoted.splitPlain? quote s
  return statement (.play (String.ofList channel) (String.ofList audio))

def readStop? (s : List Char) : Option Line := do
  let (channel, _) ← splitWord? (← afterKeyword? "stop" s)
  return statement (.stop (String.ofList channel))

/-- `pause`, alone or with its seconds. -/
def readPause? (s : List Char) : Option Line := do
  match ← after? "pause".toList s with
  | [] => return statement (.pause none)
  | rest => return statement (.pause (some (← readSeconds? (← afterBlanks? rest))))

def readMenu? (s : List Char) : Option Line := do
  let rest ← afterSign? ':' (← after? "menu".toList s)
  if trimStart rest = [] then some menu else none

/-- `$ name = value`; a comparison is none. -/
def readAssign? (s : List Char) : Option Line := do
  let s ← after? ['$'] s
  let (name, s) ← splitWord? (trimStart s)
  let value ← afterSign? '=' s
  if value.head? = some '=' then none
  else
    let value := trim (upToBreak (trimStart value))
    return statement (.assign (String.ofList name) (String.ofList value))

/-- `$ code`. -/
def readCode? (s : List Char) : Option Line := do
  let code := upToBreak (trimStart (← after? ['$'] s))
  if code = [] then none else some (statement (.code (String.ofList (trim code))))

/-- The label that follows a keyword; the words in `reserved` are none. -/
def target? (keyword : String) (reserved : List String) (s : List Char) : Option String := do
  let s ← afterKeyword? keyword s
  if reserved.any fun word => startsWithWord word.toList s then none
  else return String.ofList (← splitWord? s).1

def readJump? (s : List Char) : Option Line := do
  return statement (.jump (← target? "jump" ["expression"] s))

def readCall? (s : List Char) : Option Line := do
  return statement (.call (← target? "call" ["expression", "screen"] s))

def readReturn? (s : List Char) : Option Line :=
  if s = "return".toList then some (statement .goBack) else none

/-! ## Text -/

/-- The words that begin a statement and are never speakers. -/
def keywords : List String :=
  ["jump", "call", "return", "scene", "show", "hide", "with", "play", "stop", "queue", "voice",
    "define", "default", "init", "python", "label", "menu", "if", "elif", "else", "while", "pass",
    "image", "transform", "screen", "style", "translate", "pause", "window", "extend"]

def isKeyword (word : List Char) : Bool :=
  keywords.contains (String.ofList word)

/-- The text in double quotes that `s` starts with. -/
def quotedText? (s : List Char) : Option (List Char × List Char) := do
  Quoted.split? '"' (← after? ['"'] s)

/-- A line of text: a speaker who is no keyword and quoted text, or quoted text alone. -/
def readSpeech? (s : List Char) : Option Statement :=
  match splitWord? s with
  | some (speaker, rest) => do
    let (text, _) ← quotedText? (← afterBlanks? rest)
    if isKeyword speaker then none
    else
      return .dialogue (String.ofList (Quoted.unescape text)) (some (String.ofList speaker))
  | none => do
    let (text, _) ← quotedText? s
    return .dialogue (String.ofList (Quoted.unescape text)) none

/-- The first form that the line has. -/
def read? (s : List Char) : Option Line :=
  readDefine? s <|> readLabel? s <|> readScene? s <|> readShow? s <|> readHide? s <|>
    readPlay? s <|> readStop? s <|> readPause? s <|> readMenu? s <|> readAssign? s <|>
    readCode? s <|> readJump? s <|> readCall? s <|> readReturn? s <|>
    (readSpeech? s).map statement

/-! ## Choices -/

/-- What stands between the closing quote of a choice and the colon at its end: nothing, or `if` and
a condition. Of blanks alone the last one that is no LF is the condition, if two stand there. -/
def readCondition? (s : List Char) : Option (Option (List Char)) :=
  if trimStart s = [] then some none
  else do
    let gap ← after? "if".toList (← afterBlanks? s)
    let test ← afterBlanks? gap
    if test = [] then
      match (gap.drop 1).reverse.find? (· ≠ '\n') with
      | some c => some (some [c])
      | none => none
    else
      let test := trimEnd test
      if test.contains '\n' then none else some (some test)

/-- The head of a choice: quoted text, perhaps `if` and a condition, and a colon at the end. -/
def readChoice? (s : List Char) : Option (String × Option String) := do
  let (text, rest) ← quotedText? s
  match rest.reverse with
  | [] => none
  | c :: before =>
    if c = ':' then
      let test ← readCondition? before.reverse
      return (String.ofList (Quoted.unescape text), test.map String.ofList)
    else none

/-- The text of a line inside a choice. A line that ends in a colon opens a block and is none. -/
def readAction? (s : List Char) : Option Statement :=
  if s.getLast? = some ':' then none else readSpeech? s

/-! ## Samples -/

example : read? "show eileen happy at left with fade:".toList =
    some (statement (.showImage "eileen happy" "left" (some "fade"))) := by decide

example : read? "show screen map".toList = none := by decide

example : read? "$ x == 1".toList = some (statement (.code "x == 1")) := by decide

example : read? "define e = Character('E', color=\"#fff\")".toList =
    some (define ⟨"e", "E", some "#fff"⟩) := by decide

example : readChoice? "\"Go\" if a and b :".toList = some ("Go", some "a and b") := by decide

end Line

end NovelScript
