import Mathlib.Data.List.Forall2
import NovelScript.Proofs.Document.Accepts
import NovelScript.Proofs.Document.RoundTrip

/-!
# Documents read and written again

What is read from a document and written again is its normal form (`NormalForm`): the same
characters, elements, choices and actions in their order, and in each object its declared fields
with the values that stood there. A field that had no value has its default, or is left out where
there is none. Nothing else is lost, and the normal form is read as the same script
(`Script.normalForm_toJson`).
-/

set_option autoImplicit false

namespace NovelScript

namespace Document

/-! ## Values of fields -/

/-- A value, unless it is null. -/
def present? : Json → Option Json
  | .null => none
  | v => some v

/-- The value of a key, if it is there and not null. -/
def value? (key : String) (members : Members) : Option Json :=
  (Json.find? key members).bind present?

/-- What is written for a field without a value. -/
def default? : StatementKind → String → Option Json
  | .showImage, "position" => some (.str defaultPosition)
  | .play, "channel" => some (.str defaultChannel)
  | .stop, "channel" => some (.str defaultChannel)
  | .dialogue, "character" => none
  | .pause, "duration" => none
  | _, "transition" => none
  | _, _ => some (.str "")

/-- How the value of a field is written: a duration is a double, the value of an assignment is the
text of an expression, and each other value stays as it is. -/
def normalValue : StatementKind → String → Json → Json
  | .pause, "duration", .int n => (Binary64.ofInt? n).elim .null .float
  | .assign, "value", v => (expressionText v).elim .null .str
  | _, _, v => v

/-- What is written for a field. -/
def fieldValue? (kind : StatementKind) (members : Members) (key : String) : Option Json :=
  ((value? key members).map (normalValue kind key)).or (default? kind key)

/-- A member that is left out where there is no value. -/
def optionalMember (key : String) (v : Option Json) : Members :=
  v.toList.map fun v => (key, v)

/-- What is written for the fields of a statement. -/
def normalFields (kind : StatementKind) (members : Members) : Members :=
  kind.fields.flatMap fun key => optionalMember key (fieldValue? kind members key)

/-! ## Normal forms -/

mutual

/-- `ElementNormalForm v w`: the object `w` is the normal form of the element `v`. -/
inductive ElementNormalForm : Json → Json → Prop
  | statement {members : Members} {id : String} (kind : StatementKind)
      (hid : Json.find? "id" members = some (.str id))
      (htype : Json.find? "type" members = some (.str kind.name)) :
      ElementNormalForm (.obj members)
        (.obj (("id", .str id) :: ("type", .str kind.name) :: normalFields kind members))
  | menu {members : Members} {id : String} {choices choices' : List Json}
      (hid : Json.find? "id" members = some (.str id))
      (htype : Json.find? "type" members = some (.str ElementKind.menu.name))
      (hchoices : (value? "choices" members).getD (.arr []) = .arr choices)
      (hforms : List.Forall₂ ChoiceNormalForm choices choices') :
      ElementNormalForm (.obj members)
        (.obj [("id", .str id), ("type", .str ElementKind.menu.name), ("choices", .arr choices')])

/-- `ChoiceNormalForm v w`: the object `w` is the normal form of the choice `v`. -/
inductive ChoiceNormalForm : Json → Json → Prop
  | choice {members : Members} {id text : String} {actions actions' : List Json}
      (hid : Json.find? "id" members = some (.str id))
      (htext : (Json.find? "text" members).getD (.str "") = .str text)
      (hactions : (Json.find? "actions" members).getD (.arr []) = .arr actions)
      (hforms : List.Forall₂ ElementNormalForm actions actions') :
      ChoiceNormalForm (.obj members)
        (.obj ([("id", .str id), ("text", .str text)] ++
          optionalMember "condition" (value? "condition" members) ++ [("actions", .arr actions')]))

end

/-- `CharacterNormalForm v w`: the object `w` is the normal form of the character `v`. -/
inductive CharacterNormalForm : Json → Json → Prop
  | character {members : Members} {id name : String}
      (hid : Json.find? "id" members = some (.str id))
      (hname : Json.find? "name" members = some (.str name)) :
      CharacterNormalForm (.obj members)
        (.obj ([("id", .str id), ("name", .str name)] ++
          optionalMember "color" (value? "color" members)))

/-- The catalogue of assets as it is written: each list as it stood there. -/
def normalAssets (members : Members) : Json :=
  .obj (["images", "audio", "backgrounds"].map fun key =>
    (key, (Json.find? key members).getD (.arr [])))

/-- `NormalForm v w`: the document `w` is the normal form of the document `v`. -/
inductive NormalForm : Json → Json → Prop
  | document {members assets : Members} {characters characters' elements elements' : List Json}
      (hcharacters : (Json.find? "characters" members).getD (.arr []) = .arr characters)
      (helements : (Json.find? "elements" members).getD (.arr []) = .arr elements)
      (hassets : (Json.find? "assets" members).getD (.obj []) = .obj assets)
      (hcast : List.Forall₂ CharacterNormalForm characters characters')
      (hplay : List.Forall₂ ElementNormalForm elements elements') :
      NormalForm (.obj members)
        (.obj [("characters", .arr characters'), ("elements", .arr elements'),
          ("assets", normalAssets assets)])

/-! ## Readers -/

section
variable {path : Path} {members : Members} {key : String}

theorem bind_eq_ok {α β : Type} {x : Decoded α} {f : α → Decoded β} {b : β} :
    x >>= f = .ok b ↔ ∃ a, x = .ok a ∧ f a = .ok b := by
  cases x with
  | error e => exact ⟨nofun, nofun⟩
  | ok a => exact ⟨fun h => ⟨a, rfl, h⟩, fun ⟨_, ha, h⟩ => by cases ha; exact h⟩

theorem value?_cons {k : String} {v : Json} :
    value? key ((k, v) :: members) = if k = key then present? v else value? key members := by
  by_cases h : k = key <;> simp [value?, Json.find?, h]

theorem asString_eq_ok {v : Json} {s : String} (h : asString path v = .ok s) : v = .str s := by
  cases v <;> cases h
  rfl

theorem asList_eq_ok {v : Json} {items : List Json} (h : asList path v = .ok items) :
    v = .arr items := by
  cases v <;> cases h
  rfl

theorem asObject_eq_ok {v : Json} (h : asObject path v = .ok members) : v = .obj members := by
  cases v <;> cases h
  rfl

theorem string?_eq_ok {s : Option String} (h : string? path members key = .ok s) :
    value? key members = s.map .str := by
  unfold string? at h
  rw [value?]
  split at h
  · rename_i hfind
    cases h
    rw [hfind]
    rfl
  · rename_i hfind
    cases h
    rw [hfind]
    rfl
  · rename_i v _ hfind
    rw [hfind]
    cases v <;> cases h
    rfl

theorem stringOr_eq_ok {default s : String} (h : stringOr default path members key = .ok s) :
    (value? key members).or (some (.str default)) = some (.str s) := by
  obtain ⟨found, hfound, h⟩ := bind_eq_ok.1 h
  cases h
  rw [string?_eq_ok hfound]
  cases found <;> rfl

theorem getD_of_stringOrEmpty {s : String} (h : stringOrEmpty path members key = .ok s) :
    (Json.find? key members).getD (.str "") = .str s := by
  unfold stringOrEmpty at h
  split at h
  · rename_i hfind
    cases h
    rw [hfind]
    rfl
  · rename_i v hfind
    rw [hfind]
    exact asString_eq_ok h

theorem getD_of_listOrEmpty {items : List Json} (h : listOrEmpty path members key = .ok items) :
    (Json.find? key members).getD (.arr []) = .arr items := by
  obtain ⟨hfind, rfl⟩ | hfind := listOrEmpty_eq_ok path members key h <;> rw [hfind] <;> rfl

theorem getD_of_objectOrEmpty {found : Members} (h : objectOrEmpty path members key = .ok found) :
    (Json.find? key members).getD (.obj []) = .obj found := by
  unfold objectOrEmpty at h
  split at h
  · rename_i hfind
    cases h
    rw [hfind]
    rfl
  · rename_i v hfind
    rw [hfind]
    exact asObject_eq_ok h

theorem seconds?_eq_ok {x : Option Binary64} (h : seconds? path members "duration" = .ok x) :
    fieldValue? .pause members "duration" = x.map .float := by
  unfold seconds? at h
  rw [fieldValue?, value?]
  split at h
  · rename_i hfind
    cases h
    rw [hfind]
    rfl
  · rename_i v hfind
    rw [hfind]
    cases v with
    | int n =>
      rw [asSeconds?] at h
      cases hn : Binary64.ofInt? n with
      | none =>
        rw [hn] at h
        cases h
      | some y =>
        rw [hn] at h
        cases h
        simp [present?, normalValue, hn]
    | _ =>
      cases h
      try rfl

theorem expression_eq_ok {text : String} (h : expression members "value" = .ok text) :
    fieldValue? .assign members "value" = some (.str text) := by
  unfold expression at h
  rw [fieldValue?, value?]
  split at h
  · rename_i hfind
    cases h
    rw [hfind]
    rfl
  · rename_i hfind
    cases h
    rw [hfind]
    rfl
  · rename_i v hnull hfind
    cases htext : expressionText v with
    | none =>
      rw [htext] at h
      cases h
    | some text' =>
      rw [htext] at h
      cases h
      have hpresent : present? v = some v := by
        cases v with
        | null => exact absurd rfl hnull
        | _ => rfl
      simp [hfind, hpresent, normalValue, htext]

/-! ## Statements -/

theorem optionalMember_map_str (key : String) (s : Option String) :
    optionalMember key (s.map .str) = optionalField key s := by
  cases s <;> rfl

/-- What is said of a reader of the fields that remain: the statement it gives is written with what
was read before and then these fields. -/
def Writes (kind : StatementKind) (members before : Members) (keys : List String)
    (x : Decoded Statement) : Prop :=
  ∀ s, x = .ok s → s.kind = kind ∧ s.toMembers =
    before ++ keys.flatMap fun key => optionalMember key (fieldValue? kind members key)

variable {kind : StatementKind} {before : Members} {keys : List String}

theorem writes_done {s : Statement} (hkind : s.kind = kind) (h : s.toMembers = before) :
    Writes kind members before [] (pure s) := by
  rintro _ ⟨⟩
  exact ⟨hkind, by rw [h, List.flatMap_nil, List.append_nil]⟩

/-- Reading a field adds it to what is written. -/
theorem Writes.bind {α : Type} {x : Decoded α} {f : α → Decoded Statement} (w : α → Members)
    (hx : ∀ a, x = .ok a → optionalMember key (fieldValue? kind members key) = w a)
    (hf : ∀ a, Writes kind members (before ++ w a) keys (f a)) :
    Writes kind members before (key :: keys) (x >>= f) := by
  intro s hs
  obtain ⟨a, ha, hs⟩ := bind_eq_ok.1 hs
  obtain ⟨hkind, hmembers⟩ := hf a s hs
  refine ⟨hkind, ?_⟩
  rw [hmembers, List.flatMap_cons, hx a ha, List.append_assoc]

/-- A string is written as it was read, or as its default. -/
theorem Writes.stringOr {default : String} {f : String → Decoded Statement}
    (hplain : normalValue kind key = id) (hdefault : default? kind key = some (.str default))
    (hf : ∀ s, Writes kind members (before ++ [(key, .str s)]) keys (f s)) :
    Writes kind members before (key :: keys) (stringOr default path members key >>= f) := by
  refine Writes.bind (fun s => [(key, .str s)]) (fun s hs => ?_) hf
  rw [fieldValue?, hplain, hdefault, Option.map_id, id, stringOr_eq_ok hs]
  rfl

/-- A string is written as it was read, or left out. -/
theorem Writes.string? {f : Option String → Decoded Statement}
    (hplain : normalValue kind key = id) (hdefault : default? kind key = none)
    (hf : ∀ s, Writes kind members (before ++ optionalField key s) keys (f s)) :
    Writes kind members before (key :: keys) (string? path members key >>= f) := by
  refine Writes.bind (optionalField key) (fun s hs => ?_) hf
  rw [fieldValue?, hplain, hdefault, Option.map_id, id, Option.or_none, string?_eq_ok hs,
    optionalMember_map_str]

theorem decodeStatement_writes (path : Path) (members : Members) (kind : StatementKind) :
    Writes kind members [] kind.fields (decodeStatement path members kind) := by
  cases kind with
  | dialogue | scene | hideImage =>
    exact .stringOr rfl rfl fun _ => .string? rfl rfl fun _ => writes_done rfl rfl
  | showImage =>
    exact .stringOr rfl rfl fun _ => .stringOr rfl rfl fun _ => .string? rfl rfl fun _ =>
      writes_done rfl rfl
  | label | jump | call | stop | condition | code =>
    exact .stringOr rfl rfl fun _ => writes_done rfl rfl
  | play => exact .stringOr rfl rfl fun _ => .stringOr rfl rfl fun _ => writes_done rfl rfl
  | pause =>
    refine Writes.bind (fun x => optionalMember "duration" (x.map .float)) (fun x hx => ?_)
      fun x => ?_
    · rw [seconds?_eq_ok hx]
    · cases x <;> exact writes_done rfl rfl
  | assign =>
    refine .stringOr rfl rfl fun name => ?_
    refine Writes.bind (fun text => [("value", .str text)]) (fun text htext => ?_) fun text =>
      writes_done rfl rfl
    rw [expression_eq_ok htext]
    rfl
  | goBack => exact writes_done rfl rfl

/-- **What is written for a statement** are its fields as they were read. -/
theorem decodeStatement_eq_ok {s : Statement} (h : decodeStatement path members kind = .ok s) :
    s.kind = kind ∧ s.toMembers = normalFields kind members :=
  decodeStatement_writes path members kind s h

end

/-! ## Elements -/

theorem required_asString {path path' : Path} {members : Members} {key : String} {found : Json}
    {s : String} (h : required path members key = .ok found) (hs : asString path' found = .ok s) :
    Json.find? key members = some (.str s) := by
  rw [required_eq_ok path members key h, asString_eq_ok hs]

/-- A choice as an object. -/
def choiceToJson (c : Choice) : Json :=
  .obj ([("id", .str c.id), ("text", .str c.text)] ++ optionalField "condition" c.condition ++
    [("actions", .arr (elementsToJson c.actions))])

theorem choicesToJson_cons (c : Choice) (cs : List Choice) :
    choicesToJson (c :: cs) = choiceToJson c :: choicesToJson cs := by
  cases c
  rfl

mutual

theorem elementNormalForm_toJson : ∀ (path : Path) (v : Json) {e : Element},
    decodeElement path v = .ok e → ElementNormalForm v e.toJson
  | path, .obj members, e, h => by
    rw [decodeElement] at h
    obtain ⟨found, hfound, h⟩ := bind_eq_ok.1 h
    obtain ⟨kind, hkind, h⟩ := bind_eq_ok.1 h
    obtain ⟨id, hid, h⟩ := bind_eq_ok.1 h
    have hid := required_asString hfound hid
    have htype := decodeKind_eq_ok path members hkind
    cases kind with
    | statement kind =>
      obtain ⟨s, hs, h⟩ := bind_eq_ok.1 h
      cases h
      obtain ⟨rfl, hfields⟩ := decodeStatement_eq_ok hs
      rw [Element.toJson, hfields]
      exact .statement s.kind hid htype
    | menu =>
      obtain ⟨choices, hchoices, h⟩ := bind_eq_ok.1 h
      cases h
      obtain ⟨items, hitems, hforms⟩ := menuNormalForm_toJson (path.key "choices") members hchoices
      rw [Element.toJson]
      exact .menu hid htype hitems hforms
  | _, .null, _, h | _, .bool _, _, h | _, .int _, _, h | _, .float _, _, h | _, .str _, _, h
  | _, .arr _, _, h => nomatch h

theorem elementsNormalForm_toJson : ∀ (path : Path) (i : Nat) (vs : List Json) {es : List Element},
    decodeElements path i vs = .ok es → List.Forall₂ ElementNormalForm vs (elementsToJson es)
  | _, _, [], _, h => by
    cases h
    exact .nil
  | path, i, v :: vs, _, h => by
    rw [decodeElements] at h
    obtain ⟨e, he, h⟩ := bind_eq_ok.1 h
    obtain ⟨es, hes, h⟩ := bind_eq_ok.1 h
    cases h
    exact .cons (elementNormalForm_toJson (path.index i) v he)
      (elementsNormalForm_toJson path (i + 1) vs hes)

theorem menuNormalForm_toJson : ∀ (path : Path) (members : Members) {cs : List Choice},
    decodeMenuChoices path members = .ok cs → ∃ items,
      (value? "choices" members).getD (.arr []) = .arr items ∧
        List.Forall₂ ChoiceNormalForm items (choicesToJson cs)
  | _, [], _, h => by
    cases h
    exact ⟨[], rfl, .nil⟩
  | path, (k, v) :: rest, _, h => by
    rw [decodeMenuChoices] at h
    rw [value?_cons]
    by_cases hk : k = "choices"
    · rw [if_pos hk] at h ⊢
      exact choiceListNormalForm_toJson path v h
    · rw [if_neg hk] at h ⊢
      exact menuNormalForm_toJson path rest h

theorem choiceListNormalForm_toJson : ∀ (path : Path) (v : Json) {cs : List Choice},
    decodeChoiceList path v = .ok cs → ∃ items, (present? v).getD (.arr []) = .arr items ∧
      List.Forall₂ ChoiceNormalForm items (choicesToJson cs)
  | _, .null, _, h => by
    cases h
    exact ⟨[], rfl, .nil⟩
  | path, .arr items, _, h => ⟨items, rfl, choicesNormalForm_toJson path 0 items h⟩
  | _, .bool _, _, h | _, .int _, _, h | _, .float _, _, h | _, .str _, _, h | _, .obj _, _, h =>
    nomatch h

theorem choicesNormalForm_toJson : ∀ (path : Path) (i : Nat) (vs : List Json) {cs : List Choice},
    decodeChoices path i vs = .ok cs → List.Forall₂ ChoiceNormalForm vs (choicesToJson cs)
  | _, _, [], _, h => by
    cases h
    exact .nil
  | path, i, v :: vs, _, h => by
    rw [decodeChoices] at h
    obtain ⟨c, hc, h⟩ := bind_eq_ok.1 h
    obtain ⟨cs, hcs, h⟩ := bind_eq_ok.1 h
    cases h
    rw [choicesToJson_cons]
    exact .cons (choiceNormalForm_toJson (path.index i) v hc)
      (choicesNormalForm_toJson path (i + 1) vs hcs)

theorem choiceNormalForm_toJson : ∀ (path : Path) (v : Json) {c : Choice},
    decodeChoice path v = .ok c → ChoiceNormalForm v (choiceToJson c)
  | path, .obj members, _, h => by
    rw [decodeChoice] at h
    obtain ⟨found, hfound, h⟩ := bind_eq_ok.1 h
    obtain ⟨-, -, h⟩ := bind_eq_ok.1 h
    obtain ⟨id, hid, h⟩ := bind_eq_ok.1 h
    obtain ⟨text, htext, h⟩ := bind_eq_ok.1 h
    obtain ⟨condition, hcondition, h⟩ := bind_eq_ok.1 h
    obtain ⟨actions, hactions, h⟩ := bind_eq_ok.1 h
    cases h
    obtain ⟨items, hitems, hforms⟩ := actionsNormalForm_toJson (path.key "actions") members hactions
    rw [choiceToJson, ← optionalMember_map_str, ← string?_eq_ok hcondition]
    exact .choice (required_asString hfound hid) (getD_of_stringOrEmpty htext) hitems hforms
  | _, .null, _, h | _, .bool _, _, h | _, .int _, _, h | _, .float _, _, h | _, .str _, _, h
  | _, .arr _, _, h => nomatch h

theorem actionsNormalForm_toJson : ∀ (path : Path) (members : Members) {es : List Element},
    decodeActions path members = .ok es → ∃ items,
      (Json.find? "actions" members).getD (.arr []) = .arr items ∧
        List.Forall₂ ElementNormalForm items (elementsToJson es)
  | _, [], _, h => by
    cases h
    exact ⟨[], rfl, .nil⟩
  | path, (k, v) :: rest, _, h => by
    rw [decodeActions] at h
    rw [Json.find?]
    by_cases hk : k = "actions"
    · rw [if_pos hk] at h ⊢
      exact actionListNormalForm_toJson path v h
    · rw [if_neg hk] at h ⊢
      exact actionsNormalForm_toJson path rest h

theorem actionListNormalForm_toJson : ∀ (path : Path) (v : Json) {es : List Element},
    decodeActionList path v = .ok es → ∃ items, v = .arr items ∧
      List.Forall₂ ElementNormalForm items (elementsToJson es)
  | path, .arr items, _, h => ⟨items, rfl, elementsNormalForm_toJson path 0 items h⟩
  | _, .null, _, h | _, .bool _, _, h | _, .int _, _, h | _, .float _, _, h | _, .str _, _, h
  | _, .obj _, _, h => nomatch h

end

/-! ## Documents -/

theorem characterNormalForm_toJson {path : Path} {v : Json} {c : Character}
    (h : decodeCharacter path v = .ok c) : CharacterNormalForm v c.toJson := by
  obtain ⟨members, hmembers, h⟩ := bind_eq_ok.1 h
  obtain ⟨foundId, hfoundId, h⟩ := bind_eq_ok.1 h
  obtain ⟨foundName, hfoundName, h⟩ := bind_eq_ok.1 h
  obtain ⟨id, hid, h⟩ := bind_eq_ok.1 h
  obtain ⟨name, hname, h⟩ := bind_eq_ok.1 h
  obtain ⟨color, hcolor, h⟩ := bind_eq_ok.1 h
  cases h
  rw [asObject_eq_ok hmembers, Character.toJson, ← optionalMember_map_str, ← string?_eq_ok hcolor]
  exact .character (required_asString hfoundId hid) (required_asString hfoundName hname)

theorem charactersNormalForm_toJson : ∀ (i : Nat) (vs : List Json) {cs : List Character},
    decodeCharacters i vs = .ok cs → List.Forall₂ CharacterNormalForm vs (cs.map Character.toJson)
  | _, [], _, h => by
    cases h
    exact .nil
  | i, v :: vs, _, h => by
    rw [decodeCharacters] at h
    obtain ⟨c, hc, h⟩ := bind_eq_ok.1 h
    obtain ⟨cs, hcs, h⟩ := bind_eq_ok.1 h
    cases h
    exact .cons (characterNormalForm_toJson hc) (charactersNormalForm_toJson (i + 1) vs hcs)

theorem toJson_of_decodeAssets {members : Members} {a : Assets} (h : decodeAssets members = .ok a) :
    a.toJson = normalAssets members := by
  obtain ⟨images, himages, h⟩ := bind_eq_ok.1 h
  obtain ⟨audio, haudio, h⟩ := bind_eq_ok.1 h
  obtain ⟨backgrounds, hbackgrounds, h⟩ := bind_eq_ok.1 h
  cases h
  simp only [Assets.toJson, normalAssets, List.map_cons, List.map_nil, getD_of_listOrEmpty himages,
    getD_of_listOrEmpty haudio, getD_of_listOrEmpty hbackgrounds]

theorem normalForm_of_decodeScript {v : Json} {s : Script} (h : decodeScript v = .ok s) :
    NormalForm v s.toJson := by
  obtain ⟨members, hmembers, h⟩ := bind_eq_ok.1 h
  obtain ⟨characters, hcharacters, h⟩ := bind_eq_ok.1 h
  obtain ⟨elements, helements, h⟩ := bind_eq_ok.1 h
  obtain ⟨assets, hassets, h⟩ := bind_eq_ok.1 h
  obtain ⟨catalogue, hcatalogue, h⟩ := bind_eq_ok.1 h
  obtain ⟨cast, hcast, h⟩ := bind_eq_ok.1 h
  obtain ⟨play, hplay, h⟩ := bind_eq_ok.1 h
  cases h
  rw [asObject_eq_ok hmembers, Script.toJson, toJson_of_decodeAssets hcatalogue]
  exact .document (getD_of_listOrEmpty hcharacters) (getD_of_listOrEmpty helements)
    (getD_of_objectOrEmpty hassets) (charactersNormalForm_toJson 0 characters hcast)
    (elementsNormalForm_toJson _ 0 elements hplay)

end Document

namespace Script

open Document

/-- **A document that is read and written again** is its normal form, and that is read as the same
script. -/
theorem normalForm_toJson {v : Json} {s : Script} (h : ofJson v = .ok s) :
    NormalForm v s.toJson ∧ ofJson s.toJson = .ok s :=
  ⟨normalForm_of_decodeScript h, decodeScript_toJson s⟩

/-- A document with keys that no field has, values that are null, and fields that are left out. -/
def loose : Json :=
  .obj [("title", .str "A"), ("elements", .arr [
    .obj [("choices", .arr [.obj [("actions", .arr [
        .obj [("type", .str "pause"), ("id", .str "3"), ("duration", .float .nan), ("note", .null)],
        .obj [("type", .str "show"), ("id", .str "4"), ("position", .null)]]),
      ("condition", .null), ("id", .str "2")]]), ("id", .str "1"), ("type", .str "menu")],
    .obj [("id", .str "5"), ("type", .str "variable"), ("value", .bool true)],
    .obj [("id", .str "6"), ("type", .str "menu"), ("choices", .null)]]),
  ("assets", .obj [("audio", .arr [.null]), ("fonts", .int 1)])]

/-- What is read from it. -/
def loosened : Script where
  elements := [
    .menu "1" [⟨"2", "", none,
      [.statement "3" (.pause (some .nan)), .statement "4" (.showImage "" "center" none)]⟩],
    .statement "5" (.assign "" "True"),
    .menu "6" []]
  assets := { audio := [.null] }

theorem normalForm_toJson_loose : ofJson loose = .ok loosened ∧ NormalForm loose loosened.toJson ∧
    ofJson loosened.toJson = .ok loosened := by
  have h : ofJson loose = .ok loosened := rfl
  exact ⟨h, normalForm_toJson h⟩

end Script

end NovelScript
