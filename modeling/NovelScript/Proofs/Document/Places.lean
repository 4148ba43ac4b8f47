import NovelScript.Proofs.Document.Schema

/-!
# Places in a document

A `Place` is what the format wants of a node: an object with certain keys, a list, a string. Which
place a member of an object has depends on the object and, for the fields of an element, on its type
(`Place.Holds`).

`FirstFault place v steps cause` says that the steps lead from `v` to a node that breaks the format
as the cause tells, and that in each list on the way the items before that one are decoded. Such a
node there is, except for the type of an element that has none (`FirstFault.leads`).
-/

set_option autoImplicit false

namespace NovelScript.Document

/-! ## Nodes -/

/-- The node that steps lead to. -/
def node? : Json → List Step → Option Json
  | v, [] => some v
  | .obj members, .key name :: rest => (Json.find? name members).bind (node? · rest)
  | .arr items, .index i :: rest => items[i]?.bind (node? · rest)
  | _, _ :: _ => none

/-- The steps of a path from the top of a document on. -/
def Path.toSteps (path : Path) : List Step :=
  if path.start = "document" then path.steps else .key path.start :: path.steps

/-- Whether a path leads to the document itself or on from one of its members. -/
def Path.FromTop (path : Path) : Prop :=
  path = ⟨"document", []⟩ ∨ path.start ∈ ["characters", "elements", "assets"]

/-! ## Places -/

/-- What the format wants of a node. -/
inductive Place where
  | document | characters | character | elements | element | choices | choice | assets
  /-- A list of values of any form. -/
  | anyList
  | string
  | optionalString
  /-- The type of an element. -/
  | type
  | duration
  deriving DecidableEq, Repr

namespace Place

/-- The kinds of values that may stand in a place. -/
def kinds : Place → List Json.Kind
  | document | character | element | choice | assets => [.obj]
  | characters | elements | choices | anyList => [.arr]
  | string | optionalString | type => [.str]
  | duration => [.int, .float]

/-- Whether null may stand in a place, too. -/
def admitsNull : Place → Bool
  | choices | optionalString | duration => true
  | _ => false

/-- The keys that an object must have. -/
def requiredKeys : Place → List String
  | character => ["id", "name"]
  | element | choice => ["id"]
  | _ => []

/-- The place of the items of a list. -/
def item? : Place → Option Place
  | characters => some character
  | elements => some element
  | choices => some choice
  | _ => none

/-- The place of a field; the value of an assignment may be anything. -/
def field? : StatementKind → String → Option Place
  | .assign, "value" => none
  | .pause, "duration" => some duration
  | _, _ => some optionalString

/-- `place.Holds members key inner`: in an object in `place`, what stands under the key is in
`inner`. The fields of an element are those of its type. -/
inductive Holds : Place → Members → String → Place → Prop
  | characters {members : Members} : Holds document members "characters" characters
  | elements {members : Members} : Holds document members "elements" elements
  | assets {members : Members} : Holds document members "assets" assets
  | assetList {members : Members} {key : String} (hkey : key ∈ ["images", "audio", "backgrounds"]) :
      Holds assets members key anyList
  | characterId {members : Members} : Holds character members "id" string
  | characterName {members : Members} : Holds character members "name" string
  | color {members : Members} : Holds character members "color" optionalString
  | elementId {members : Members} : Holds element members "id" string
  | type {members : Members} : Holds element members "type" type
  | field {members : Members} {kind : StatementKind} {key : String} {inner : Place}
      (htype : Json.find? "type" members = some (.str kind.name)) (hkey : key ∈ kind.fields)
      (hinner : field? kind key = some inner) : Holds element members key inner
  | choices {members : Members}
      (htype : Json.find? "type" members = some (.str ElementKind.menu.name)) :
      Holds element members "choices" choices
  | choiceId {members : Members} : Holds choice members "id" string
  | text {members : Members} : Holds choice members "text" string
  | condition {members : Members} : Holds choice members "condition" optionalString
  | actions {members : Members} : Holds choice members "actions" elements

/-- Whether a value is decoded by itself, if it is an item of a list. -/
def Decodes : Place → Json → Prop
  | character, v => ∀ path, ∃ c, decodeCharacter path v = .ok c
  | element, v => ∀ path, ∃ e, decodeElement path v = .ok e
  | choice, v => ∀ path, ∃ c, decodeChoice path v = .ok c
  | _, _ => True

/-- Whether a node in a place breaks the format as a cause tells. -/
inductive Violated : Place → Json → Cause → Prop
  | wrongKind {place : Place} {v : Json} (hkind : v.kind ∉ place.kinds)
      (hnull : place.admitsNull → v.kind ≠ .null) :
      Violated place v (.wrongKind place.kinds v.kind)
  | missing {place : Place} {members : Members} {key : String} (hkey : key ∈ place.requiredKeys)
      (hnone : Json.find? key members = none) : Violated place (.obj members) (.missing key)
  | unknownType {v : Json} {shown : String} (h : ∀ kind : ElementKind, v ≠ .str kind.name)
      (hshown : v.literal = some shown) : Violated type v (.unknownType shown)
  | notNumber {b : Bool} : Violated duration (.bool b) .notNumber

end Place

/-! ## Faults -/

/-- The steps lead to a node that breaks the format, and it is the first one of each list on the
way. -/
inductive FirstFault : Place → Json → List Step → Cause → Prop
  | here {place : Place} {v : Json} {cause : Cause} (h : place.Violated v cause) :
      FirstFault place v [] cause
  /-- An element without a type is reported at the type that it lacks. -/
  | absentType {members : Members} (h : Json.find? "type" members = none) :
      FirstFault .element (.obj members) [.key "type"] (.unknownType "None")
  | member {place inner : Place} {members : Members} {key : String} {v : Json} {rest : List Step}
      {cause : Cause} (hfind : Json.find? key members = some v)
      (hholds : place.Holds members key inner) (h : FirstFault inner v rest cause) :
      FirstFault place (.obj members) (.key key :: rest) cause
  | item {place inner : Place} {items : List Json} {i : Nat} {v : Json} {rest : List Step}
      {cause : Cause} (hget : items[i]? = some v) (hitem : place.item? = some inner)
      (hbefore : ∀ u ∈ items.take i, inner.Decodes u) (h : FirstFault inner v rest cause) :
      FirstFault place (.arr items) (.index i :: rest) cause

/-- Whether steps lead to the type that an element object does not have. -/
def LacksType (v : Json) (steps : List Step) (cause : Cause) : Prop :=
  ∃ front members, steps = front ++ [.key "type"] ∧ node? v front = some (.obj members) ∧
    Json.find? "type" members = none ∧ cause = .unknownType "None"

/-- The steps to a fault lead to a node that breaks the format, or to a type that is not there. -/
theorem FirstFault.leads {place : Place} {v : Json} {steps : List Step} {cause : Cause}
    (h : FirstFault place v steps cause) :
    (∃ node inner, node? v steps = some node ∧ Place.Violated inner node cause) ∨
      LacksType v steps cause := by
  induction h with
  | here h => exact .inl ⟨_, _, rfl, h⟩
  | absentType h => exact .inr ⟨[], _, rfl, rfl, h, rfl⟩
  | @member place inner members key v rest cause hfind hholds h ih =>
    have hstep : ∀ steps, node? (.obj members) (.key key :: steps) = node? v steps := by
      intro steps
      rw [node?, hfind, Option.bind_some]
    obtain ⟨node, inner, hnode, hviolated⟩ | ⟨front, inner, rfl, hnode, hlacks⟩ := ih
    · exact .inl ⟨node, inner, by rw [hstep, hnode], hviolated⟩
    · exact .inr ⟨.key key :: front, inner, rfl, by rw [hstep, hnode], hlacks⟩
  | @item place inner items i v rest cause hget hitem hbefore h ih =>
    have hstep : ∀ steps, node? (.arr items) (.index i :: steps) = node? v steps := by
      intro steps
      rw [node?, hget, Option.bind_some]
    obtain ⟨node, inner, hnode, hviolated⟩ | ⟨front, inner, rfl, hnode, hlacks⟩ := ih
    · exact .inl ⟨node, inner, by rw [hstep, hnode], hviolated⟩
    · exact .inr ⟨.index i :: front, inner, rfl, by rw [hstep, hnode], hlacks⟩

end NovelScript.Document
