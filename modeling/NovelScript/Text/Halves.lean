import NovelScript.Log.Record
import NovelScript.Text.Quoted

/-!
# Halves of surrogate pairs

An escape can name half of a surrogate pair without the other half. That is no character, and UTF-8
has no bytes for it, but a text may hold it until it is written. Here a character that is used for
nothing else stands for each half (`Halves`), so that texts that hold one are known (`encodes`).
-/

set_option autoImplicit false

namespace NovelScript.Text

/-- The characters that stand for halves. -/
structure Halves where
  /-- What stands for the half with this UTF-16 unit. -/
  char : Nat → Char
  /-- The half that a character stands for. -/
  unit? : Char → Option Nat
  unit?_char : ∀ u, 0xD800 ≤ u → u ≤ 0xDFFF → unit? (char u) = some u

namespace Halves

/-- The first character of a block; so many blocks fill the two planes for private use. -/
def blockStart (block : Fin 64) : Nat :=
  0xF0000 + 0x800 * block

theorem toNat_ofNat_blockStart (block : Fin 64) {i : Nat} (hi : i < 0x800) :
    (Char.ofNat (blockStart block + i)).toNat = blockStart block + i := by
  have hblock := block.isLt
  have hvalid : (blockStart block + i).isValidChar := by
    refine .inr ⟨?_, ?_⟩ <;> simp only [blockStart] <;> omega
  rw [Char.ofNat, dif_pos hvalid]
  rfl

/-- The halves as a block of characters. -/
def ofBlock (block : Fin 64) : Halves where
  char u := Char.ofNat (blockStart block + (u - 0xD800))
  unit? c :=
    if blockStart block ≤ c.toNat ∧ c.toNat < blockStart block + 0x800 then
      some (c.toNat - blockStart block + 0xD800)
    else none
  unit?_char u hlow hhigh := by
    rw [toNat_ofNat_blockStart block (by omega), if_pos (by omega), Option.some_inj]
    omega

/-- The halves as the first block. -/
def first : Halves := ofBlock ⟨0, by decide⟩

/-- The halves as a block of which no character is used. -/
def apartFrom (used : List Char) : Halves :=
  let free := (List.finRange 64).find? fun block =>
    used.all fun c => ((ofBlock block).unit? c).isNone
  (free.map ofBlock).getD first

variable (h : Halves)

/-- Whether a text can be written as UTF-8. -/
def encodes (text : String) : Bool :=
  text.toList.all fun c => (h.unit? c).isNone

/-- A text with a half cannot be written. -/
theorem encodes_eq_false {u : Nat} (hlow : 0xD800 ≤ u) (hhigh : u ≤ 0xDFFF) {text : String}
    (hmem : h.char u ∈ text.toList) : h.encodes text = false := by
  rw [encodes, List.all_eq_false]
  refine ⟨_, hmem, ?_⟩
  rw [h.unit?_char u hlow hhigh, Option.isNone_some]
  exact Bool.false_ne_true

/-- What is said of a text that cannot be written: where its first halves in a row are. -/
def complaint (text : String) : String :=
  let before := text.toList.takeWhile fun c => (h.unit? c).isNone
  let behind := (text.toList.drop before.length).map h.unit?
  let units := (behind.takeWhile Option.isSome).filterMap id
  let place := match units with
    | [u] => " '\\u" ++ String.ofList (hexDigits 4 u) ++ "' in position " ++ countText before.length
    | _ => "s in position " ++ countText before.length ++ "-" ++
      countText (before.length + units.length - 1)
  "'utf-8' codec can't encode character" ++ place ++ ": surrogates not allowed"

/-- A text with the halves in it written as escapes. -/
def escaped (text : String) : String :=
  String.ofList <| text.toList.flatMap fun c =>
    match h.unit? c with
    | some u => '\\' :: 'u' :: hexDigits 4 u
    | none => [c]

end Halves

end NovelScript.Text
