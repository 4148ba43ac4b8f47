import NovelScript.Proofs.Document.Accepts
import NovelScript.Proofs.Json.Literals

/-!
# Values that documents assign

Any value may be assigned, and the script keeps the text of an expression for it. A string is that
text itself. Another value is written as a literal, if it is a scalar; a container is written as in
documents, where the constants have words of their own. So the text denotes the value unless a
constant stands inside a container (`decodeElement_assign`).
-/

set_option autoImplicit false

namespace NovelScript.Document

/-- In a container every constant is a part apart from the container itself. -/
theorem forall_isConstant_iff {v : Json} (hv : v.isConstant = false) :
    (∀ w ∈ v.parts, w.isConstant = true → w = v) ↔ ∀ w ∈ v.parts, w.isConstant = false := by
  constructor
  · intro h w hw
    by_contra hc
    have hconstant : w.isConstant = true := by simpa using hc
    rw [h w hw hconstant, hv] at hconstant
    cases hconstant
  · intro h w hw hc
    rw [h w hw] at hc
    cases hc

/-- **The text of a value that is no string** is a literal of it unless a constant stands inside a
container. -/
theorem denotes_expressionText_iff {v : Json} {text : String} (hs : ∀ t, v ≠ .str t)
    (hr : v.Readable) (hf : v.Finite) (htext : expressionText v = some text) :
    Json.Denotes text v ↔ ∀ w ∈ v.parts, w.isConstant = true → w = v := by
  -- a scalar is its only part
  have hscalar : v.kind ∉ [.str, .arr, .obj] → v.parts = [v] → v.literal = some text →
      (Json.Denotes text v ↔ ∀ w ∈ v.parts, w.isConstant = true → w = v) := by
    intro hkind hparts hliteral
    rw [hparts]
    exact iff_of_true (Json.denotes_literal hkind hr hf hliteral) (by simp)
  cases v with
  | null | bool _ | int _ | float _ => exact hscalar (by simp [Json.kind]) rfl htext
  | str t => exact absurd rfl (hs t)
  | arr _ | obj _ => rw [forall_isConstant_iff rfl, Json.denotes_compact_iff hr hf htext]

/-- **The value that an object assigns** is kept as the text of an expression. A value that is no
string and holds no infinity and no NaN is denoted by that text, unless null or a truth value stands
inside a container in it. -/
theorem decodeElement_assign (path : Path) {members : Members} {id : String} {v : Json}
    (hid : Json.find? "id" members = some (.str id))
    (htype : Json.find? "type" members = some (.str StatementKind.assign.name))
    (hname : Field (OrNull IsString) members "variable")
    (hvalue : Json.find? "value" members = some v) (hnull : v ≠ .null) (hs : ∀ t, v ≠ .str t)
    (hr : v.Readable) (hf : v.Finite) :
    ∃ name text, decodeElement path (.obj members) = .ok (.statement id (.assign name text)) ∧
      (Json.Denotes text v ↔ ∀ w ∈ v.parts, w.isConstant = true → w = v) := by
  obtain ⟨name, hread⟩ :=
    (stringOr_decides (Q := True) path members "variable" "").exists_ok hname trivial trivial
  obtain ⟨text, htext⟩ : ∃ text, expressionText v = some text :=
    Option.ne_none_iff_exists'.1 fun hnone => (expressionText_eq_none_iff v).1 hnone hr.2
  have hkind : decodeKind path members = .ok (.statement .assign) :=
    decodeKind_of_find? path members htype
  have hexpression : expression members "value" = .ok text := by
    rw [expression, hvalue]
    split
    · contradiction
    · rename_i heq
      cases heq
      exact absurd rfl hnull
    · rename_i heq
      cases heq
      rw [htext]
      rfl
  refine ⟨name, text, ?_, denotes_expressionText_iff hs hr hf htext⟩
  rw [decodeElement, required, hid, hkind]
  simp only [bind, Except.bind, asString, decodeStatement, hread, hexpression, pure, Except.pure]

/-- A container with strings that need escapes, an empty object, an integer and the number 0.5. -/
def inventory : Json :=
  .obj [("the \"bag\"", .arr [.int (-3), .str "it's\\\n", .obj [],
    .float (.finite false ⟨Nat.pow 2 52, 1021, by decide⟩)])]

/-- An object that assigns a value. -/
def assigning (v : Json) : Members :=
  [("type", .str "variable"), ("value", v), ("variable", .str "flags"), ("id", .str "1")]

theorem decodeElement_assign_inventory :
    inventory.Readable ∧ inventory.Finite ∧
      ∃ name text, decodeElement ⟨"element", []⟩ (.obj (assigning inventory)) =
        .ok (.statement "1" (.assign name text)) ∧ Json.Denotes text inventory := by
  have hr : inventory.Readable := by
    refine ⟨by simp [inventory, Json.DistinctKeys, Json.DistinctKeysMembers,
      Json.DistinctKeysItems], ?_⟩
    simp only [inventory, Json.ShortIntegers, Json.ShortIntegersMembers, Json.ShortIntegersItems,
      and_true]
    decide
  have hf : inventory.Finite := by
    intro x hx
    simp only [inventory, Json.parts, Json.membersParts, Json.itemsParts, List.mem_cons,
      List.mem_append, reduceCtorEq, List.not_mem_nil, or_false, false_or, Json.float.injEq] at hx
    exact ⟨_, _, hx⟩
  obtain ⟨name, text, hread, hiff⟩ := decodeElement_assign ⟨"element", []⟩
    (rfl : Json.find? "id" (assigning inventory) = some (.str "1")) rfl
    ((field_iff_of_some rfl).2 (.value ⟨"flags", rfl⟩)) rfl (by simp [inventory])
    (by simp [inventory]) hr hf
  refine ⟨hr, hf, name, text, hread, hiff.2 ?_⟩
  simp [inventory, Json.parts, Json.membersParts, Json.itemsParts, Json.isConstant]

/-- Two constants in an array. -/
def flags : Json :=
  .arr [.bool true, .null]

/-- Inside an array the constants are kept as words of documents, which are no literals. -/
theorem not_forall_decodeElement_assign :
    ¬∀ (path : Path) (members : Members) (id : String) (v : Json),
      Json.find? "id" members = some (.str id) →
      Json.find? "type" members = some (.str StatementKind.assign.name) →
      Field (OrNull IsString) members "variable" → Json.find? "value" members = some v →
      v ≠ .null → (∀ t, v ≠ .str t) → v.Readable → v.Finite →
      ∃ name text, decodeElement path (.obj members) = .ok (.statement id (.assign name text)) ∧
        Json.Denotes text v := by
  intro h
  have hread : decodeElement ⟨"element", []⟩ (.obj (assigning flags)) =
      .ok (.statement "1" (.assign "flags" (String.ofList (flags.text .compact 0)))) := rfl
  obtain ⟨name, text, htext, hdenotes⟩ := h ⟨"element", []⟩ (assigning flags) "1" flags
    rfl rfl ((field_iff_of_some rfl).2 (.value ⟨"flags", rfl⟩)) rfl (by simp [flags])
    (by simp [flags]) ⟨⟨trivial, trivial, trivial⟩, trivial, trivial, trivial⟩
    (by simp [flags, Json.Finite, Json.parts, Json.itemsParts])
  rw [hread] at htext
  cases htext
  have hliteral := hdenotes.2
  rw [String.toList_ofList] at hliteral
  exact absurd hliteral (by decide)

end NovelScript.Document
