/-!
# UTF-8

`encode` writes characters as bytes. `decode` reads bytes as characters and reports each maximal
part that begins a character and cannot be continued as one `none`; `decodeLossy` puts U+FFFD in
its place and `decode?` refuses the whole.
-/

set_option autoImplicit false

namespace NovelScript.Text.Utf8

def encode (s : List Char) : List UInt8 :=
  s.flatMap String.utf8EncodeChar

/-- A character of which some bytes are read: how many are owed, the bounds of the next one, and
the bits so far. -/
structure Opened where
  owed : Nat
  low : Nat
  high : Nat
  bits : Nat
  deriving DecidableEq, Repr

/-- What a byte does between characters. -/
inductive Lead where
  | char (c : Char)
  | opens (o : Opened)
  | invalid
  deriving Repr

/-- Only the shortest form of a character is one, and a surrogate has none: the lead byte bounds
the byte after it. -/
def lead (b : Nat) : Lead :=
  if b < 0x80 then .char (Char.ofNat b)
  else if b < 0xC2 then .invalid
  else if b < 0xE0 then .opens ⟨1, 0x80, 0xBF, b - 0xC0⟩
  else if b < 0xF0 then
    .opens ⟨2, if b = 0xE0 then 0xA0 else 0x80, if b = 0xED then 0x9F else 0xBF, b - 0xE0⟩
  else if b < 0xF5 then
    .opens ⟨3, if b = 0xF0 then 0x90 else 0x80, if b = 0xF4 then 0x8F else 0xBF, b - 0xF0⟩
  else .invalid

mutual

/-- Reads on between characters. -/
def decode : List UInt8 → List (Option Char)
  | [] => []
  | b :: r =>
    match lead b.toNat with
    | .char c => some c :: decode r
    | .opens o => decodeOpened o r
    | .invalid => none :: decode r

/-- Reads on inside a character. -/
def decodeOpened (o : Opened) : List UInt8 → List (Option Char)
  | [] => [none]
  | b :: r =>
    if o.low ≤ b.toNat && b.toNat ≤ o.high then
      let bits := o.bits * 0x40 + (b.toNat - 0x80)
      if o.owed ≤ 1 then some (Char.ofNat bits) :: decode r
      else decodeOpened ⟨o.owed - 1, 0x80, 0xBF, bits⟩ r
    else
      match lead b.toNat with
      | .char c => none :: some c :: decode r
      | .opens o => none :: decodeOpened o r
      | .invalid => none :: none :: decode r

end

/-- The characters, with U+FFFD in place of each invalid part. -/
def decodeLossy (bytes : List UInt8) : List Char :=
  (decode bytes).map (·.getD '\ufffd')

/-- The characters, if no part is invalid. -/
def decode? (bytes : List UInt8) : Option (List Char) :=
  (decode bytes).mapM id

/-! ## Samples: a part that begins a character and breaks off is one fault -/

example : decode [0x61, 0xE2, 0x82, 0x62] = [some 'a', none, some 'b'] := by decide

example : decode [0xED, 0xA0, 0x80] = [none, none, none] := by decide

example : decode (encode ['é', '日', '🎉']) = [some 'é', some '日', some '🎉'] := by decide

end NovelScript.Text.Utf8
