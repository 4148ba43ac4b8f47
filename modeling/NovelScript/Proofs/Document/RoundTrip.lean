import NovelScript.Document.Encode
import NovelScript.Proofs.Document.Schema
import NovelScript.Proofs.Json.Readable

/-!
# Scripts read back from documents

Each element that is written has a value in every field of its type, so its kind is found again and
no default is filled in; the members of a script have distinct keys, so its text is read back, too.
`Script.document_roundTrip` puts the two together.
-/

set_option autoImplicit false

namespace NovelScript

namespace Document

/-! ## Elements -/

theorem decodeCharacter_toJson (path : Path) (c : Character) :
    decodeCharacter path c.toJson = .ok c := by
  obtain ⟨id, name, color⟩ := c
  cases color <;> rfl

theorem decodeCharacters_toJson : ∀ (cs : List Character) (i : Nat),
    decodeCharacters i (cs.map Character.toJson) = .ok cs
  | [], _ => rfl
  | c :: cs, i => by
    rw [List.map_cons, decodeCharacters, decodeCharacter_toJson, decodeCharacters_toJson cs]
    rfl

/-- Each statement has a value in every field of its kind, so no default is filled in. -/
theorem decodeStatement_toMembers (path : Path) (id : String) (s : Statement) :
    decodeStatement path (("id", .str id) :: ("type", .str s.kind.name) :: s.toMembers) s.kind =
      .ok s := by
  cases s with
  | dialogue content speaker => cases speaker <;> rfl
  | scene image transition => cases transition <;> rfl
  | showImage image position transition => cases transition <;> rfl
  | hideImage image transition => cases transition <;> rfl
  | pause seconds => cases seconds <;> rfl
  | _ => rfl

/-- The kind of an object that has one in second place. -/
theorem decodeKind_name (path : Path) (id : String) (kind : ElementKind) (members : Members) :
    decodeKind path (("id", .str id) :: ("type", .str kind.name) :: members) = .ok kind := by
  simp [decodeKind, Json.find?, ElementKind.ofName?_name]

mutual

theorem decodeElement_toJson : ∀ (e : Element) (path : Path), decodeElement path e.toJson = .ok e
  | .statement id s, path => by
    have hkind := decodeKind_name path id (.statement s.kind) s.toMembers
    have hstatement := decodeStatement_toMembers path id s
    rw [ElementKind.name] at hkind
    rw [Element.toJson, decodeElement, hkind]
    exact congrArg (Except.map (Element.statement id)) hstatement
  | .menu id choices, path => by
    have hchoices : decodeMenuChoices (path.key "choices") [("id", .str id),
        ("type", .str ElementKind.menu.name), ("choices", .arr (choicesToJson choices))] =
        .ok choices := decodeChoices_toJson choices (path.key "choices") 0
    rw [Element.toJson, decodeElement, decodeKind_name, hchoices]
    rfl

theorem decodeElements_toJson : ∀ (es : List Element) (path : Path) (i : Nat),
    decodeElements path i (elementsToJson es) = .ok es
  | [], _, _ => rfl
  | e :: es, path, i => by
    rw [elementsToJson, decodeElements, decodeElement_toJson e, decodeElements_toJson es]
    rfl

theorem decodeChoices_toJson : ∀ (cs : List Choice) (path : Path) (i : Nat),
    decodeChoices path i (choicesToJson cs) = .ok cs
  | [], _, _ => rfl
  | ⟨id, text, condition, actions⟩ :: cs, path, i => by
    have hactions := decodeElements_toJson actions ((path.index i).key "actions") 0
    rw [choicesToJson, decodeChoices, decodeChoices_toJson cs]
    have hchoice : decodeChoice (path.index i) (.obj ([("id", .str id), ("text", .str text)] ++
        optionalField "condition" condition ++ [("actions", .arr (elementsToJson actions))])) =
        .ok ⟨id, text, condition, actions⟩ := by
      cases condition <;> exact congrArg (Except.map (Choice.mk id text _)) hactions
    rw [hchoice]
    rfl

end

theorem decodeScript_toJson (s : Script) : decodeScript s.toJson = .ok s := by
  have hread : decodeScript s.toJson = (do
      let characters ← decodeCharacters 0 (s.characters.map Character.toJson)
      let elements ← decodeElements ⟨"elements", []⟩ 0 (elementsToJson s.elements)
      return ⟨characters, elements, s.assets⟩) := rfl
  rw [hread, decodeCharacters_toJson, decodeElements_toJson]
  rfl

/-! ## The text of a document -/

open Json (Readable readable_arr readable_obj readable_str readable_float)

theorem readable_character (c : Character) : c.toJson.Readable := by
  obtain ⟨id, name, color⟩ := c
  cases color <;> simp [Character.toJson, optionalField, readable_obj, readable_str]

theorem readable_statement (id : String) (s : Statement) :
    (Element.statement id s).toJson.Readable := by
  rw [Element.toJson]
  cases s with
  | dialogue content option | scene image option | showImage image position option
  | hideImage image option =>
    cases option <;> simp [Statement.toMembers, optionalField, readable_obj, readable_str]
  | pause seconds =>
    cases seconds <;> simp [Statement.toMembers, readable_obj, readable_str, readable_float]
  | _ => simp [Statement.toMembers, readable_obj, readable_str]

mutual

theorem readable_element : ∀ e : Element, e.toJson.Readable
  | .statement id s => readable_statement id s
  | .menu id choices => by
    have hchoices := readable_choices choices
    simpa [Element.toJson, readable_obj, readable_str, readable_arr] using hchoices

theorem readable_elements : ∀ es : List Element, ∀ v ∈ elementsToJson es, v.Readable
  | [] => by simp [elementsToJson]
  | e :: es => List.forall_mem_cons.2 ⟨readable_element e, readable_elements es⟩

theorem readable_choices : ∀ cs : List Choice, ∀ v ∈ choicesToJson cs, v.Readable
  | [] => by simp [choicesToJson]
  | ⟨id, text, condition, actions⟩ :: cs => by
    have hactions := readable_elements actions
    refine List.forall_mem_cons.2 ⟨?_, readable_choices cs⟩
    cases condition <;>
      simpa [optionalField, readable_obj, readable_str, readable_arr] using hactions

end

end Document

/-- All entries of the catalogue. -/
def Assets.entries (a : Assets) : List Json :=
  a.images ++ a.audio ++ a.backgrounds

namespace Script

/-- A document is read back from its text if the assets are. -/
theorem readable_toJson {s : Script} (h : ∀ v ∈ s.assets.entries, v.Readable) :
    s.toJson.Readable := by
  obtain ⟨characters, elements, images, audio, backgrounds⟩ := s
  simp only [Assets.entries, List.mem_append, or_imp, forall_and] at h
  have hcharacters : ∀ c ∈ characters, c.toJson.Readable :=
    fun c _ => Document.readable_character c
  have helements := Document.readable_elements elements
  simpa [toJson, Assets.toJson, Json.readable_obj, Json.readable_arr] using
    ⟨hcharacters, helements, h.1.1, h.1.2, h.2⟩

/-- A script is read back from the text of its document, whatever blanks follow it, if its assets
are. -/
theorem ofDocument_toDocument_append {s : Script} (h : ∀ v ∈ s.assets.entries, v.Readable)
    {b : String} (hb : ∀ c ∈ b.toList, Json.isSpace c = true) :
    ofDocument (s.toDocument ++ b) = .ok s := by
  have htext : Json.ofText (s.toDocument ++ b) = .ok s.toJson :=
    (readable_toJson h).ofText_pretty_append hb
  have hscript : ofJson s.toJson = .ok s := Document.decodeScript_toJson s
  simp only [ofDocument, htext, hscript]

theorem ofDocument_toDocument {s : Script} (h : ∀ v ∈ s.assets.entries, v.Readable) :
    ofDocument s.toDocument = .ok s := by
  have hscript := ofDocument_toDocument_append h (b := "") (by simp)
  rwa [String.append_empty] at hscript

/-- **Reading a document undoes writing it**, for every script: all of the cast, the elements, their
choices and actions to any depth, the ids and the assets come back in their order. Through the text
that holds where each asset is a value that some text denotes: one that has a key twice or an
integer of more than `Json.maxDigits` digits stands in no text. -/
theorem document_roundTrip (s : Script) : ofJson s.toJson = .ok s ∧
    ((∀ v ∈ s.assets.entries, ∃ text, Json.ofText text = .ok v) →
      ofDocument s.toDocument = .ok s) :=
  ⟨Document.decodeScript_toJson s,
    fun h => ofDocument_toDocument fun v hv => (Json.readable_iff v).2 (h v hv)⟩

/-- A menu in a menu, values of each type, empty texts, and assets of each kind of value. -/
def nested : Script where
  characters := [⟨"e", "Eve \"\u2028\"", some ""⟩, ⟨"", "null", none⟩]
  elements := [
    .menu "1" [
      ⟨"2", "\\u0041", some "", [
        .menu "3" [⟨"4", "", none, [.statement "5" (.pause (some .nan)), .menu "6" []]⟩],
        .statement "7" (.pause (some (.ofDecimal false [1, 2, 5] (-2))))]⟩,
      ⟨"8", "\x00", none, []⟩],
    .statement "1" (.assign "x" "null"),
    .statement "9" (.dialogue "" (some "")),
    .statement "10" .goBack]
  assets := {
    images := [.null, .obj [("a", .arr [.int (-12), .float (.infinite true)]), ("", .bool true)]]
    backgrounds := [.str "bg"] }

theorem document_roundTrip_nested :
    (∀ v ∈ nested.assets.entries, ∃ text, Json.ofText text = .ok v) ∧
      ofJson nested.toJson = .ok nested ∧ ofDocument nested.toDocument = .ok nested := by
  have h : ∀ v ∈ nested.assets.entries, ∃ text, Json.ofText text = .ok v := by
    intro v hv
    rw [← Json.readable_iff]
    simp only [nested, Assets.entries, List.append_nil, List.cons_append, List.nil_append,
      List.mem_cons, List.not_mem_nil, or_false] at hv
    obtain rfl | rfl | rfl := hv
    · exact ⟨trivial, trivial⟩
    · have hn : Json.digitCount (-12) ≤ Json.maxDigits := by decide
      simpa [Json.Readable, Json.DistinctKeys, Json.DistinctKeysItems, Json.DistinctKeysMembers,
        Json.ShortIntegers, Json.ShortIntegersItems, Json.ShortIntegersMembers] using hn
    · exact Json.readable_str "bg"
  exact ⟨h, (document_roundTrip nested).1, (document_roundTrip nested).2 h⟩

end Script

end NovelScript
