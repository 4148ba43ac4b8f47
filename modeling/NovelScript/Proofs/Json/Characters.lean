import NovelScript.Proofs.Json.Numerals

/-!
# The characters of JSON texts

A string is written without the characters below U+0020, and the other values have no use for them.
So those that are in a text come from its layout (`forall_mem_text`), and a text over several lines
has no line break but LF (`ne_return_of_mem_pretty`).
-/

set_option autoImplicit false

namespace NovelScript.Json

open DecimalStyle

theorem le_toNat_of_all {s : List Char} (h : (s.all fun c => decide (0x20 ≤ c.toNat)) = true) :
    ∀ c ∈ s, 0x20 ≤ c.toNat :=
  fun c hc => of_decide_eq_true (List.all_eq_true.1 h c hc)

/-! ## Strings -/

theorem le_toNat_of_mem_hexDigits (width n : Nat) :
    ∀ c ∈ Text.hexDigits width n, 0x20 ≤ c.toNat := by
  have hdigit : ∀ d < 16, 0x20 ≤ (Text.hexDigit d).toNat := by decide
  induction width generalizing n with
  | zero => simp [Text.hexDigits]
  | succ width ih =>
    refine List.forall_mem_append.2 ⟨ih (n / 16), ?_⟩
    simpa using hdigit (n % 16) (Nat.mod_lt n (by decide))

theorem le_toNat_of_mem_escapedChar (c : Char) : ∀ d ∈ escapedChar c, 0x20 ≤ d.toNat := by
  unfold escapedChar
  split
  · rename_i h
    rcases (by simpa using h : c = '"' ∨ c = '\\') with rfl | rfl <;>
      exact le_toNat_of_all (by decide)
  repeat
    split
    · exact le_toNat_of_all (by decide)
  split
  · exact List.forall_mem_cons.2 ⟨by decide,
      List.forall_mem_cons.2 ⟨by decide, le_toNat_of_mem_hexDigits 4 c.toNat⟩⟩
  · rename_i h
    simpa using h

theorem le_toNat_of_mem_stringText (s : String) : ∀ c ∈ stringText s, 0x20 ≤ c.toNat := by
  refine List.forall_mem_cons.2 ⟨by decide, List.forall_mem_append.2 ⟨?_, le_toNat_of_all (by decide)⟩⟩
  intro d hd
  obtain ⟨c, -, hd⟩ := List.mem_flatMap.1 hd
  exact le_toNat_of_mem_escapedChar c d hd

/-! ## Numbers -/

theorem le_toNat_of_isDigit {c : Char} (h : c.isDigit = true) : 0x20 ≤ c.toNat := by
  obtain ⟨hle, -⟩ : 48 ≤ c.val ∧ c.val ≤ 57 := by simpa [Char.isDigit] using h
  exact Nat.le_trans (by decide) (UInt32.le_iff_toNat_le.1 hle)

theorem le_toNat_of_mem_digits {s : List Char} (h : IsDigits s) : ∀ c ∈ s, 0x20 ≤ c.toNat :=
  fun c hc => le_toNat_of_isDigit (h.2 c hc)

theorem le_toNat_of_mem_intText (n : Int) : ∀ c ∈ intText n, 0x20 ≤ c.toNat := by
  have hdigits := le_toNat_of_mem_digits (isDigits_natText n.natAbs).1
  unfold intText
  split
  · exact List.forall_mem_cons.2 ⟨by decide, hdigits⟩
  · exact hdigits

theorem Numeral.WellFormed.le_toNat_of_mem_text {n : Numeral} (h : n.WellFormed) :
    ∀ c ∈ n.text, 0x20 ≤ c.toNat := by
  obtain ⟨negative, whole, fraction, exponent⟩ := n
  have hsign : ∀ c ∈ (if negative then ['-'] else []), 0x20 ≤ c.toNat := by
    cases negative <;> exact le_toNat_of_all (by decide)
  have hfraction : ∀ c ∈ fractionText fraction, 0x20 ≤ c.toNat := by
    cases fraction with
    | none => exact nofun
    | some f =>
      exact List.forall_mem_cons.2 ⟨by decide, le_toNat_of_mem_digits (h.fraction f rfl)⟩
  have hexponent : ∀ c ∈ powerText exponent, 0x20 ≤ c.toNat := by
    cases exponent with
    | none => exact nofun
    | some e =>
      refine List.forall_mem_cons.2 ⟨by decide, List.forall_mem_cons.2 ⟨?_,
        le_toNat_of_mem_digits (h.exponent e rfl)⟩⟩
      split <;> decide
  exact List.forall_mem_append.2 ⟨List.forall_mem_append.2 ⟨List.forall_mem_append.2
    ⟨hsign, le_toNat_of_mem_digits h.whole⟩, hfraction⟩, hexponent⟩

theorem le_toNat_of_mem_doubleText (x : Binary64) :
    ∀ c ∈ DecimalStyle.json.text x, 0x20 ≤ c.toNat := by
  cases x with
  | finite negative m =>
    obtain ⟨n, hn, htext, -⟩ := isNumber_text negative m
    rw [htext]
    exact hn.le_toNat_of_mem_text
  | infinite negative => cases negative <;> exact le_toNat_of_all (by decide)
  | nan => exact le_toNat_of_all (by decide)

/-! ## Values -/

/-- Whether a condition holds of the characters from U+0020 on and of those of a layout. -/
structure Layout.Within (layout : Layout) (P : Char → Prop) : Prop where
  visible : ∀ {c : Char}, 0x20 ≤ c.toNat → P c
  separator : ∀ c ∈ layout.separator, P c
  newLine : ∀ depth, ∀ c ∈ layout.newLine depth, P c

section
variable {P : Char → Prop} {layout : Layout} (hl : layout.Within P)
include hl

theorem Layout.Within.stringText (s : String) : ∀ c ∈ stringText s, P c :=
  fun c hc => hl.visible (le_toNat_of_mem_stringText s c hc)

mutual

/-- **The characters of a text** are not below U+0020, or its layout puts them there. -/
theorem forall_mem_text : ∀ (v : Json) (depth : Nat), ∀ c ∈ text layout depth v, P c
  | .null, _ | .bool true, _ | .bool false, _ | .arr [], _ | .obj [], _ => by
    simp only [text]
    exact fun c hc => hl.visible (le_toNat_of_all (by decide) c hc)
  | .int n, _ => fun c hc => hl.visible (le_toNat_of_mem_intText n c hc)
  | .float x, _ => fun c hc => hl.visible (le_toNat_of_mem_doubleText x c hc)
  | .str s, _ => hl.stringText s
  | .arr (v :: rest), depth => by
    have hopen : P '[' ∧ P ']' := ⟨hl.visible (by decide), hl.visible (by decide)⟩
    have hvalue := forall_mem_text v (depth + 1)
    have hrest := forall_mem_itemsText rest (depth + 1)
    simp only [text, List.forall_mem_append, List.forall_mem_cons]
    exact ⟨⟨⟨⟨⟨hopen.1, hl.newLine _⟩, hvalue⟩, hrest⟩, hl.newLine _⟩, hopen.2, nofun⟩
  | .obj ((k, v) :: rest), depth => by
    have hopen : P '{' ∧ P '}' := ⟨hl.visible (by decide), hl.visible (by decide)⟩
    have hcolon : P ':' ∧ P ' ' := ⟨hl.visible (by decide), hl.visible (by decide)⟩
    have hvalue := forall_mem_text v (depth + 1)
    have hrest := forall_mem_membersText rest (depth + 1)
    simp only [text, List.forall_mem_append, List.forall_mem_cons]
    exact ⟨⟨⟨⟨⟨⟨⟨hopen.1, hl.newLine _⟩, hl.stringText k⟩, hcolon.1, hcolon.2, nofun⟩, hvalue⟩,
      hrest⟩, hl.newLine _⟩, hopen.2, nofun⟩

theorem forall_mem_itemsText : ∀ (items : List Json) (depth : Nat),
    ∀ c ∈ itemsText layout depth items, P c
  | [], _ => nofun
  | v :: rest, depth => by
    have hvalue := forall_mem_text v depth
    have hrest := forall_mem_itemsText rest depth
    simp only [itemsText, List.forall_mem_append]
    exact ⟨⟨⟨hl.separator, hl.newLine _⟩, hvalue⟩, hrest⟩

theorem forall_mem_membersText : ∀ (members : List (String × Json)) (depth : Nat),
    ∀ c ∈ membersText layout depth members, P c
  | [], _ => nofun
  | (k, v) :: rest, depth => by
    have hcolon : P ':' ∧ P ' ' := ⟨hl.visible (by decide), hl.visible (by decide)⟩
    have hvalue := forall_mem_text v depth
    have hrest := forall_mem_membersText rest depth
    simp only [membersText, List.forall_mem_append, List.forall_mem_cons]
    exact ⟨⟨⟨⟨⟨hl.separator, hl.newLine _⟩, hl.stringText k⟩, hcolon.1, hcolon.2, nofun⟩, hvalue⟩,
      hrest⟩

end

end

theorem within_pretty : Layout.pretty.Within (· ≠ '\r') where
  visible := by
    rintro _ h rfl
    exact absurd h (by decide)
  separator c hc := by
    rw [List.mem_singleton.1 hc]
    decide
  newLine depth := List.forall_mem_cons.2
    ⟨by decide, fun c hc => by simp [List.eq_of_mem_replicate hc]⟩

/-- A text over several lines has no line break but LF. -/
theorem ne_return_of_mem_pretty (v : Json) : ∀ c ∈ v.pretty.toList, c ≠ '\r' := by
  rw [pretty, String.toList_ofList]
  exact forall_mem_text within_pretty v 0

end NovelScript.Json
