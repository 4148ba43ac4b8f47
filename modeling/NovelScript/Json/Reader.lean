import NovelScript.Json.Basic

/-!
# Reading JSON texts

`ofText` reads one value, with blanks around it, from a whole text. Beyond the standard it takes the
numbers `NaN`, `Infinity` and `-Infinity`. It stops at the first fault and says where: a position
is the number of characters before it, and `Fault.message` is the text that names the fault.

An integer of more than `maxDigits` digits is refused where it stands (`ReadError.longInteger`).

An escape can name half of a surrogate pair without the other half, which is no character. `half`
says what character stands for it; unless something else is chosen, all halves are `replaced`.
-/

set_option autoImplicit false

namespace NovelScript.Json

/-- What a text has in place of JSON. -/
inductive Fault where
  | value
  | name
  | colon
  | comma
  | openString
  | controlCharacter
  | escape
  | unicodeEscape
  | extraData
  | byteOrderMark
  deriving DecidableEq, Repr

/-- The words for a fault. -/
def Fault.message : Fault → String
  | .value => "Expecting value"
  | .name => "Expecting property name enclosed in double quotes"
  | .colon => "Expecting ':' delimiter"
  | .comma => "Expecting ',' delimiter"
  | .openString => "Unterminated string starting at"
  | .controlCharacter => "Invalid control character at"
  | .escape => "Invalid \\escape"
  | .unicodeEscape => "Invalid \\uXXXX escape"
  | .extraData => "Extra data"
  | .byteOrderMark => "Unexpected UTF-8 BOM (decode using utf-8-sig)"

/-- Why reading stopped, and how many characters of the text were left there. -/
inductive Stop where
  | fault (what : Fault) (left : Nat)
  | longInteger (digits : Nat)
  deriving DecidableEq, Repr

/-- What is read, with the characters after it. -/
abbrev Reading (α : Type) := Except Stop (α × List Char)

/-- Stops for a fault where `s` is left. -/
def stopAt {α : Type} (what : Fault) (s : List Char) : Except Stop α :=
  .error (.fault what s.length)

/-- The blanks of JSON. -/
def isSpace (c : Char) : Bool :=
  c == ' ' || c == '\t' || c == '\n' || c == '\r'

def skipSpace (s : List Char) : List Char :=
  s.dropWhile isSpace

/-! ## Strings -/

/-- The value of a hexadecimal digit. -/
def hexValue? (c : Char) : Option Nat :=
  if c.isDigit then some (c.toNat - '0'.toNat)
  else if 'a' ≤ c && c ≤ 'f' then some (c.toNat - 'a'.toNat + 10)
  else if 'A' ≤ c && c ≤ 'F' then some (c.toNat - 'A'.toNat + 10)
  else none

/-- The value of four hexadecimal digits. -/
def hexUnit? (a b c d : Char) : Option Nat := do
  let a ← hexValue? a
  let b ← hexValue? b
  let c ← hexValue? c
  let d ← hexValue? d
  return ((a * 16 + b) * 16 + c) * 16 + d

/-- The character that follows a backslash in a short escape. -/
def shortEscape? : Char → Option Char
  | '"' => some '"'
  | '\\' => some '\\'
  | '/' => some '/'
  | 'b' => some '\x08'
  | 'f' => some '\x0c'
  | 'n' => some '\n'
  | 'r' => some '\r'
  | 't' => some '\t'
  | _ => none

/-- The character that is shown where there is none. -/
def replaced : Nat → Char := fun _ => '\ufffd'

/-- The character of a UTF-16 unit; a surrogate that stands alone has none of its own. -/
def unitChar (half : Nat → Char) (u : Nat) : Char :=
  if 0xD800 ≤ u && u ≤ 0xDFFF then half u else Char.ofNat u

/-- The character of two UTF-16 units, if they are a surrogate pair. -/
def pairChar? (high low : Nat) : Option Char :=
  if 0xD800 ≤ high && high ≤ 0xDBFF && 0xDC00 ≤ low && low ≤ 0xDFFF then
    some (Char.ofNat (0x10000 + (high - 0xD800) * 0x400 + (low - 0xDC00)))
  else none

/-- Puts a character in front of what is read. -/
def consChar (c : Char) : Reading (List Char) → Reading (List Char)
  | .ok (cs, rest) => .ok (c :: cs, rest)
  | .error e => .error e

/-- The characters of a string up to its closing quote. The first of two escaped units is read
together with the second if they are a pair. -/
def readChars (half : Nat → Char) : List Char → Reading (List Char)
  | [] => stopAt .openString []
  | '"' :: rest => .ok ([], rest)
  | '\\' :: [] => stopAt .openString []
  | '\\' :: 'u' :: a :: b :: c :: d :: rest =>
    match hexUnit? a b c d with
    | none => stopAt .unicodeEscape ('u' :: a :: b :: c :: d :: rest)
    | some u =>
      match rest with
      | [] => stopAt .unicodeEscape ['u', a, b, c, d]
      | '\\' :: 'u' :: e :: f :: g :: h :: next :: rest' =>
        match (hexUnit? e f g h).bind (pairChar? u) with
        | some p => consChar p (readChars half (next :: rest'))
        | none => consChar (unitChar half u)
            (readChars half ('\\' :: 'u' :: e :: f :: g :: h :: next :: rest'))
      | x :: rest => consChar (unitChar half u) (readChars half (x :: rest))
  | '\\' :: 'u' :: rest => stopAt .unicodeEscape ('u' :: rest)
  | '\\' :: e :: rest =>
    match shortEscape? e with
    | some c => consChar c (readChars half rest)
    | none => stopAt .escape ('\\' :: e :: rest)
  | c :: rest =>
    if c.toNat < 0x20 then stopAt .controlCharacter (c :: rest)
    else consChar c (readChars half rest)
termination_by structural s => s

/-- A string whose opening quote was read; `rest` follows that quote. A string that is not closed is
reported there. -/
def readString (half : Nat → Char) (rest : List Char) : Reading String :=
  match readChars half rest with
  | .ok (cs, rest) => .ok (String.ofList cs, rest)
  | .error (.fault .openString _) => stopAt .openString ('"' :: rest)
  | .error e => .error e

/-! ## Numbers -/

/-- The parts of a number: sign, whole digits, and fraction and exponent if there are any. -/
structure Numeral where
  negative : Bool
  whole : List Char
  fraction : Option (List Char)
  exponent : Option (Bool × List Char)
  deriving DecidableEq, Repr

/-- The values of decimal digits. -/
def digitValues (s : List Char) : List Nat :=
  s.map fun c => c.toNat - '0'.toNat

/-- The digits that `s` starts with, and what follows them. -/
def takeDigits (s : List Char) : List Char × List Char :=
  (s.takeWhile Char.isDigit, s.dropWhile Char.isDigit)

/-- A sign and whole digits, of which only a single one may be zero in front. -/
def readWhole? (s : List Char) : Option (Bool × List Char × List Char) :=
  let (negative, s) := match s with
    | '-' :: r => (true, r)
    | _ => (false, s)
  match s with
  | '0' :: r => some (negative, ['0'], r)
  | c :: _ => if c.isDigit then some (negative, takeDigits s) else none
  | [] => none

/-- A fraction, if a point and a digit follow. -/
def readFraction (s : List Char) : Option (List Char) × List Char :=
  match s with
  | '.' :: r =>
    let (digits, rest) := takeDigits r
    if digits = [] then (none, s) else (some digits, rest)
  | _ => (none, s)

/-- An exponent, if its mark, perhaps a sign, and a digit follow. -/
def readExponent (s : List Char) : Option (Bool × List Char) × List Char :=
  match s with
  | c :: r =>
    if c = 'e' || c = 'E' then
      let (negative, r) := match r with
        | '-' :: r => (true, r)
        | '+' :: r => (false, r)
        | _ => (false, r)
      let (digits, rest) := takeDigits r
      if digits = [] then (none, s) else (some (negative, digits), rest)
    else (none, s)
  | [] => (none, s)

def readNumeral? (s : List Char) : Option (Numeral × List Char) :=
  match readWhole? s with
  | none => none
  | some (negative, whole, rest) =>
    let (fraction, rest) := readFraction rest
    let (exponent, rest) := readExponent rest
    some (⟨negative, whole, fraction, exponent⟩, rest)

/-- The number that a numeral denotes. -/
def Numeral.value (n : Numeral) : Except Stop Json :=
  match n.fraction, n.exponent with
  | none, none =>
    if maxDigits < n.whole.length then .error (.longInteger n.whole.length)
    else
      let k : Int := Binary64.ofDigits (digitValues n.whole)
      .ok (int (if n.negative then -k else k))
  | fraction, exponent =>
    let fraction := fraction.getD []
    let power : Int := match exponent with
      | none => 0
      | some (negative, digits) =>
        let k : Int := Binary64.ofDigits (digitValues digits)
        if negative then -k else k
    .ok (float (Binary64.ofDecimal n.negative (digitValues (n.whole ++ fraction))
      (power - fraction.length)))

def readNumber (s : List Char) : Reading Json :=
  match readNumeral? s with
  | none => stopAt .value s
  | some (n, rest) =>
    match n.value with
    | .ok v => .ok (v, rest)
    | .error e => .error e

/-! ## Values -/

/-- The words that are values. -/
def constants : List (List Char × Json) :=
  [("null".toList, null), ("true".toList, bool true), ("false".toList, bool false),
    ("NaN".toList, float .nan), ("Infinity".toList, float (.infinite false)),
    ("-Infinity".toList, float (.infinite true))]

/-- What follows `word` in `s`, if `s` starts with it. -/
def afterWord? : (word s : List Char) → Option (List Char)
  | [], s => some s
  | _ :: _, [] => none
  | w :: ws, c :: r => if w = c then afterWord? ws r else none

/-- A value that is a word. -/
def readConstant? (s : List Char) : Option (Json × List Char) :=
  constants.findSome? fun (word, v) => (afterWord? word s).map (v, ·)

/-- A key, its colon and the blanks around it. -/
def readKey (half : Nat → Char) (s : List Char) : Reading String :=
  match s with
  | '"' :: rest =>
    match readString half rest with
    | .error e => .error e
    | .ok (key, rest) =>
      match skipSpace rest with
      | ':' :: rest => .ok (key, skipSpace rest)
      | rest => stopAt .colon rest
  | s => stopAt .name s

mutual

/-- The value that `s` starts with. The first argument bounds the nesting and the length of what is
read; it is never used up when it exceeds twice the length of `s`. -/
def readValue (half : Nat → Char) : Nat → List Char → Reading Json
  | 0, s => stopAt .value s
  | fuel + 1, s =>
    match s with
    | '"' :: rest =>
      match readString half rest with
      | .ok (text, rest) => .ok (str text, rest)
      | .error e => .error e
    | '[' :: rest =>
      match skipSpace rest with
      | ']' :: rest => .ok (arr [], rest)
      | rest =>
        match readItems half fuel rest with
        | .ok (items, rest) => .ok (arr items, rest)
        | .error e => .error e
    | '{' :: rest =>
      match skipSpace rest with
      | '}' :: rest => .ok (obj [], rest)
      | rest =>
        match readMembers half fuel rest with
        | .ok (members, rest) => .ok (obj (ofMembers members), rest)
        | .error e => .error e
    | s =>
      match readConstant? s with
      | some r => .ok r
      | none => readNumber s

/-- The items from the first one on, and the closing bracket. -/
def readItems (half : Nat → Char) : Nat → List Char → Reading (List Json)
  | 0, s => stopAt .value s
  | fuel + 1, s =>
    match readValue half fuel s with
    | .error e => .error e
    | .ok (v, rest) =>
      match skipSpace rest with
      | ']' :: rest => .ok ([v], rest)
      | ',' :: rest =>
        match readItems half fuel (skipSpace rest) with
        | .ok (vs, rest) => .ok (v :: vs, rest)
        | .error e => .error e
      | rest => stopAt .comma rest

/-- The members from the first one on, and the closing brace. -/
def readMembers (half : Nat → Char) : Nat → List Char → Reading (List (String × Json))
  | 0, s => stopAt .name s
  | fuel + 1, s =>
    match readKey half s with
    | .error e => .error e
    | .ok (key, rest) =>
      match readValue half fuel rest with
      | .error e => .error e
      | .ok (v, rest) =>
        match skipSpace rest with
        | '}' :: rest => .ok ([(key, v)], rest)
        | ',' :: rest =>
          match readMembers half fuel (skipSpace rest) with
          | .ok (ms, rest) => .ok ((key, v) :: ms, rest)
          | .error e => .error e
        | rest => stopAt .comma rest

end

/-- The value of a whole text. -/
def readText (half : Nat → Char) (s : List Char) : Except Stop Json :=
  match s with
  | '\ufeff' :: _ => stopAt .byteOrderMark s
  | _ =>
    match readValue half (2 * s.length + 2) (skipSpace s) with
    | .error e => .error e
    | .ok (v, rest) =>
      match skipSpace rest with
      | [] => .ok v
      | rest => stopAt .extraData rest

/-! ## Whole texts -/

/-- A place in a text: line and column from one, and the number of characters before it. -/
structure Position where
  line : Nat
  column : Nat
  offset : Nat
  deriving DecidableEq, Repr

/-- The place behind the first `offset` characters; only LF ends a line. -/
def Position.ofOffset (s : List Char) (offset : Nat) : Position :=
  let before := s.take offset
  ⟨before.count '\n' + 1, (before.reverse.takeWhile (· != '\n')).length + 1, offset⟩

/-- Why a text is not read. -/
inductive ReadError where
  | fault (what : Fault) (position : Position)
  | longInteger (digits : Nat)
  deriving DecidableEq, Repr

/-- Reads a text as one value. -/
def ofText (text : String) (half : Nat → Char := replaced) : Except ReadError Json :=
  let s := text.toList
  match readText half s with
  | .ok v => .ok v
  | .error (.fault what left) => .error (.fault what (.ofOffset s (s.length - left)))
  | .error (.longInteger digits) => .error (.longInteger digits)

/-! ## Samples: where a text is refused -/

example : (match ofText "[1,]" with | .error e => some e | .ok _ => none) =
    some (.fault .value ⟨1, 4, 3⟩) := by decide +kernel

example : (match ofText "\x7b\"a\":1,\n\x7d" with | .error e => some e | .ok _ => none) =
    some (.fault .name ⟨2, 1, 8⟩) := by decide +kernel

end NovelScript.Json
