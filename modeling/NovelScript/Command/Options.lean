import NovelScript.Command.Similar
import NovelScript.Log.Record
import NovelScript.Text.Quoted

/-!
# Options and arguments

An option has names and may take a value; a name is a dash and a letter or two dashes and a word.
Letters can stand together behind one dash, a value can follow its option directly or as the next
word, and behind `--` no word is an option. `Syntax.split` sorts the words of a command line into
the options that were given, in order, and the arguments.

The first word that does not fit is reported as a `UsageError`.
-/

set_option autoImplicit false

namespace NovelScript.Command

/-- What a command knows about one of its options. -/
structure OptionRule (κ : Type) where
  /-- What the option stands for. -/
  key : κ
  /-- Its letters, without the dash. -/
  letters : List Char := []
  /-- Its words, without the dashes. -/
  words : List String := []
  takesValue : Bool := false

/-- What is wrong with a command line. -/
inductive UsageError where
  | noSuchOption (name : String) (similar : List String)
  | needsValue (name : String)
  | takesNoValue (name : String)
  | missingArgument (name : String)
  | invalidValue (name : String) (reason : String)
  | unexpectedArguments (arguments : List String)
  | missingCommand
  | noSuchCommand (name : String)
  deriving DecidableEq, Repr

/-- A text between quotes. -/
def quotedName (name : String) : String :=
  String.ofList (Text.quoted name.toList)

namespace UsageError

def message : UsageError → String
  | noSuchOption name [] => "No such option: " ++ name
  | noSuchOption name [other] => "No such option: " ++ name ++ " Did you mean " ++ other ++ "?"
  | noSuchOption name others =>
    "No such option: " ++ name ++ " (Possible options: " ++ String.intercalate ", " others ++ ")"
  | needsValue name => "Option " ++ quotedName name ++ " requires an argument."
  | takesNoValue name => "Option " ++ quotedName name ++ " does not take a value."
  | missingArgument name => "Missing argument '" ++ name ++ "'."
  | invalidValue name reason => "Invalid value for " ++ name ++ ": " ++ reason
  | unexpectedArguments [argument] => "Got unexpected extra argument (" ++ argument ++ ")"
  | unexpectedArguments arguments =>
    "Got unexpected extra arguments (" ++ String.intercalate " " arguments ++ ")"
  | missingCommand => "Missing command."
  | noSuchCommand name => "No such command " ++ quotedName name ++ "."

/-- Whether the usage of the command is shown with the error. An option that is used in the wrong
way is reported without it. -/
def showsUsage : UsageError → Bool
  | needsValue _ => false
  | takesNoValue _ => false
  | _ => true

end UsageError

/-- The options of a command, and whether they may stand behind its arguments. -/
structure Rules (κ : Type) where
  options : List (OptionRule κ)
  anywhere : Bool

/-- An option with its value, which is empty if it takes none. -/
structure Given (κ : Type) where
  key : κ
  value : String

/-- What a word stands for: options, the last of which may still need its value. -/
structure Reading (κ : Type) where
  given : List (Given κ)
  /-- The option that takes the next word, and its name there. -/
  pending : Option (κ × String) := none

/-- The parts of a command line. -/
structure Words (κ : Type) where
  given : List (Given κ)
  arguments : List String

namespace Rules

variable {κ : Type}

/-- The words of all options, with their dashes. -/
def allWords (r : Rules κ) : List String :=
  r.options.flatMap fun o => o.words.map ("--" ++ ·)

/-- Reads letters behind a dash. -/
def readLetters (r : Rules κ) : List Char → Except UsageError (Reading κ)
  | [] => .ok ⟨[], none⟩
  | c :: rest =>
    let name := String.ofList ['-', c]
    match r.options.find? fun o => o.letters.contains c with
    | none => .error (.noSuchOption name [])
    | some o =>
      if o.takesValue then
        if rest = [] then .ok ⟨[], some (o.key, name)⟩
        else .ok ⟨[⟨o.key, String.ofList rest⟩], none⟩
      else
        match r.readLetters rest with
        | .error e => .error e
        | .ok more => .ok { more with given := ⟨o.key, ""⟩ :: more.given }

/-- Reads a word behind two dashes, perhaps with a value behind an equals sign. -/
def readWord (r : Rules κ) (word : List Char) : Except UsageError (Reading κ) :=
  let stem := String.ofList (word.takeWhile (· != '='))
  let name := "--" ++ stem
  let value := (word.dropWhile (· != '=')).drop 1
  let hasValue := word.contains '='
  match r.options.find? fun o => o.words.contains stem with
  | none =>
    let similar := r.allWords.filter fun w => areSimilar w name
    .error (.noSuchOption name ((similar.mergeSort fun a b => !decide (b < a)).take 3))
  | some o =>
    if o.takesValue then
      if hasValue then .ok ⟨[⟨o.key, String.ofList value⟩], none⟩ else .ok ⟨[], some (o.key, name)⟩
    else if hasValue then .error (.takesNoValue name)
    else .ok ⟨[⟨o.key, ""⟩], none⟩

/-- Sorts the words of a command line. -/
def split (r : Rules κ) : List String → Except UsageError (Words κ)
  | [] => .ok ⟨[], []⟩
  | word :: rest =>
    if word = "--" then .ok ⟨[], rest⟩
    else
      let reading? := match word.toList with
        | '-' :: '-' :: body => some (r.readWord body)
        | '-' :: c :: letters => some (r.readLetters (c :: letters))
        | _ => none
      match reading? with
      | none =>
        if r.anywhere then
          match r.split rest with
          | .error e => .error e
          | .ok words => .ok { words with arguments := word :: words.arguments }
        else .ok ⟨[], word :: rest⟩
      | some (.error e) => .error e
      | some (.ok reading) =>
        match reading.pending, rest with
        | none, rest =>
          match r.split rest with
          | .error e => .error e
          | .ok words => .ok { words with given := reading.given ++ words.given }
        | some (_, name), [] => .error (.needsValue name)
        | some (key, _), value :: rest =>
          match r.split rest with
          | .error e => .error e
          | .ok words => .ok { words with given := reading.given ++ ⟨key, value⟩ :: words.given }

end Rules

namespace Words

variable {κ : Type} [DecidableEq κ]

def has (w : Words κ) (key : κ) : Bool :=
  w.given.any fun g => g.key = key

/-- The value of an option that was given, the last one if there are several. -/
def value? (w : Words κ) (key : κ) : Option String :=
  (w.given.reverse.find? fun g => g.key = key).map (·.value)

end Words

end NovelScript.Command
