import NovelScript.Text.Utf8

/-!
# Reading back UTF-8

`decode` reads the bytes of a character as that character and goes on behind them
(`decode_utf8EncodeChar`), so it reads an encoded text as it was and finds no fault in it
(`decode_encode`).
-/

set_option autoImplicit false

namespace NovelScript.Text.Utf8

variable {o : Opened} {owed low high bits b v : Nat} {r : List UInt8}

/-! ## Bytes -/

theorem toNat_ofNat (h : b < 256) : (UInt8.ofNat b).toNat = b :=
  UInt8.toNat_ofNat_of_lt' h

theorem decode_char {c : Char} (hb : b < 256) (h : lead b = .char c) :
    decode (.ofNat b :: r) = some c :: decode r := by
  simp only [decode, toNat_ofNat hb, h]

theorem decode_opens (hb : b < 256) (h : lead b = .opens o) :
    decode (.ofNat b :: r) = decodeOpened o r := by
  simp only [decode, toNat_ofNat hb, h]

/-- A byte within the bounds adds six bits, and more are owed. -/
theorem decodeOpened_more (hlow : low ≤ v % 64 + 128) (hhigh : v % 64 + 128 ≤ high) :
    decodeOpened ⟨owed + 2, low, high, bits⟩ (.ofNat (v % 64 + 128) :: r) =
      decodeOpened ⟨owed + 1, 0x80, 0xBF, bits * 64 + v % 64⟩ r := by
  have howed : ¬ owed + 2 ≤ 1 := by omega
  have hb : (UInt8.ofNat (v % 64 + 128)).toNat = v % 64 + 128 := toNat_ofNat (by omega)
  simp only [decodeOpened, hb, hlow, hhigh, howed, decide_true, Bool.and_true, if_true, if_false,
    Nat.add_sub_cancel, Nat.add_one_sub_one]

/-- The last byte within the bounds completes a character. -/
theorem decodeOpened_last (hlow : low ≤ v % 64 + 128) (hhigh : v % 64 + 128 ≤ high) :
    decodeOpened ⟨1, low, high, bits⟩ (.ofNat (v % 64 + 128) :: r) =
      some (Char.ofNat (bits * 64 + v % 64)) :: decode r := by
  have hb : (UInt8.ofNat (v % 64 + 128)).toNat = v % 64 + 128 := toNat_ofNat (by omega)
  simp only [decodeOpened, hb, hlow, hhigh, decide_true, Bool.and_true, if_true, Nat.le_refl,
    Nat.add_sub_cancel]

theorem lead_one (h : v < 128) : lead v = .char (Char.ofNat v) := by
  rw [lead, if_pos h]

theorem lead_two (hlow : 2 ≤ v) (hhigh : v < 32) : lead (v + 192) = .opens ⟨1, 0x80, 0xBF, v⟩ := by
  rw [lead, if_neg (by omega), if_neg (by omega), if_pos (by omega), Nat.add_sub_cancel]

theorem lead_three (h : v < 16) : lead (v + 224) =
    .opens ⟨2, if v = 0 then 0xA0 else 0x80, if v = 13 then 0x9F else 0xBF, v⟩ := by
  rw [lead, if_neg (by omega), if_neg (by omega), if_neg (by omega), if_pos (by omega),
    Nat.add_sub_cancel]
  simp only [Nat.add_eq_right, Nat.reduceEqDiff]

theorem lead_four (h : v < 5) : lead (v + 240) =
    .opens ⟨3, if v = 0 then 0x90 else 0x80, if v = 4 then 0x8F else 0xBF, v⟩ := by
  rw [lead, if_neg (by omega), if_neg (by omega), if_neg (by omega), if_neg (by omega),
    if_pos (by omega), Nat.add_sub_cancel]
  simp only [Nat.add_eq_right, Nat.reduceEqDiff]

/-! ## Characters of one byte to four -/

theorem decode_one (h : v < 128) : decode (.ofNat v :: r) = some (Char.ofNat v) :: decode r :=
  decode_char (by omega) (lead_one h)

theorem decode_two (hlow : 128 ≤ v) (hhigh : v < 2048) :
    decode (.ofNat (v / 64 % 32 + 192) :: .ofNat (v % 64 + 128) :: r) =
      some (Char.ofNat v) :: decode r := by
  have hbits : v / 64 % 32 * 64 + v % 64 = v := by omega
  rw [decode_opens (by omega) (lead_two (by omega) (by omega)),
    decodeOpened_last (by omega) (by omega), hbits]

theorem decode_three (hlow : 2048 ≤ v) (hhigh : v < 65536) (hv : v < 0xD800 ∨ 0xDFFF < v) :
    decode (.ofNat (v / 4096 % 16 + 224) :: .ofNat (v / 64 % 64 + 128) ::
      .ofNat (v % 64 + 128) :: r) = some (Char.ofNat v) :: decode r := by
  have hbits : (v / 4096 % 16 * 64 + v / 64 % 64) * 64 + v % 64 = v := by omega
  rw [decode_opens (by omega) (lead_three (by omega)),
    decodeOpened_more (by split <;> omega)
      (by split <;> omega),
    decodeOpened_last (by omega) (by omega), hbits]

theorem decode_four (hlow : 65536 ≤ v) (hhigh : v < 0x110000) :
    decode (.ofNat (v / 262144 % 8 + 240) :: .ofNat (v / 4096 % 64 + 128) ::
      .ofNat (v / 64 % 64 + 128) :: .ofNat (v % 64 + 128) :: r) =
      some (Char.ofNat v) :: decode r := by
  have hbits : ((v / 262144 % 8 * 64 + v / 4096 % 64) * 64 + v / 64 % 64) * 64 + v % 64 = v := by
    omega
  rw [decode_opens (by omega) (lead_four (by omega)),
    decodeOpened_more (by split <;> omega)
      (by split <;> omega),
    decodeOpened_more (by omega) (by omega),
    decodeOpened_last (by omega) (by omega), hbits]

/-- The bytes of a character are read as that character. -/
theorem decode_utf8EncodeChar (c : Char) (r : List UInt8) :
    decode (String.utf8EncodeChar c ++ r) = some c :: decode r := by
  have hc : Char.ofNat c.val.toNat = c := Char.ofNat_toNat c
  have hvalid : c.val.toNat < 0xD800 ∨ 0xDFFF < c.val.toNat ∧ c.val.toNat < 0x110000 := c.valid
  simp only [String.utf8EncodeChar]
  generalize c.val.toNat = v at hc hvalid
  rw [← hc]
  split
  · exact decode_one (by omega)
  split
  · exact decode_two (by omega) (by omega)
  split
  · exact decode_three (by omega) (by omega) (by omega)
  · exact decode_four (by omega) (by omega)

/-! ## Texts -/

theorem decode_encode (s : List Char) : decode (encode s) = s.map some := by
  induction s with
  | nil => rfl
  | cons c s ih => rw [encode, List.flatMap_cons, decode_utf8EncodeChar, ← encode, ih, List.map_cons]

theorem decodeLossy_encode (s : List Char) : decodeLossy (encode s) = s := by
  rw [decodeLossy, decode_encode, List.map_map]
  exact List.map_id s

theorem decode?_encode (s : List Char) : decode? (encode s) = some s := by
  rw [decode?, decode_encode]
  induction s with
  | nil => rfl
  | cons c s ih => simp [ih]

end NovelScript.Text.Utf8
