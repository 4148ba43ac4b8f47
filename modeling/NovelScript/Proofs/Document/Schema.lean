import NovelScript.Document.Decode
import NovelScript.Proofs.Number.Rounding

/-!
# The format of documents

`Conforms` says which values are documents: which keys an object must have, and what may stand under
those that it has. Null stands for no value in the fields of an element, under a condition and under
a colour, and nowhere else.

Of the numbers the format leaves two things open: `DurationsFit` says that no integer under the
duration of a pause is beyond the greatest double, and `TextsFit` that no value that is kept or
shown as text has an integer too long for that.
-/

set_option autoImplicit false

namespace NovelScript

/-! ## Types -/

namespace ElementKind

theorem ofName?_name : ∀ kind : ElementKind, ofName? kind.name = some kind
  | .menu => by decide
  | .statement kind => by cases kind <;> decide

theorem ofName?_eq_some {name : String} {kind : ElementKind} (h : ofName? name = some kind) :
    name = kind.name := by
  have hname := List.find?_some h
  exact (of_decide_eq_true hname).symm

theorem name_injective : Function.Injective name := by
  intro k k' h
  have := ofName?_name k
  rw [h, ofName?_name, Option.some.injEq] at this
  exact this.symm

end ElementKind

namespace Document

/-! ## Members -/

/-- Whether a key is absent or has a value as `P` wants it. -/
def Field (P : Json → Prop) (members : Members) (key : String) : Prop :=
  ∀ v, Json.find? key members = some v → P v

theorem field_of_none {P : Json → Prop} {members : Members} {key : String}
    (h : Json.find? key members = none) : Field P members key := by
  intro v hv
  rw [h] at hv
  cases hv

theorem field_iff_of_some {P : Json → Prop} {members : Members} {key : String} {v : Json}
    (h : Json.find? key members = some v) : Field P members key ↔ P v := by
  simp [Field, h]

theorem field_cons {P : Json → Prop} {k key : String} {v : Json} {members : Members} :
    Field P ((k, v) :: members) key ↔ if k = key then P v else Field P members key := by
  by_cases h : k = key <;> simp [Field, Json.find?, h]

theorem Field.mono {P P' : Json → Prop} (hP : ∀ v, P v → P' v) {members : Members} {key : String}
    (h : Field P members key) : Field P' members key :=
  fun v hv => hP v (h v hv)

/-- Whether a key has a string. -/
def HasString (members : Members) (key : String) : Prop :=
  ∃ s, Json.find? key members = some (.str s)

theorem HasString.exists {members : Members} {key : String} (h : HasString members key) :
    ∃ v, Json.find? key members = some v :=
  let ⟨s, hs⟩ := h
  ⟨.str s, hs⟩

/-! ## Values -/

def IsString (v : Json) : Prop := ∃ s, v = .str s

theorem hasString_iff_of_some {members : Members} {key : String} {v : Json}
    (h : Json.find? key members = some v) : HasString members key ↔ IsString v := by
  simp [HasString, IsString, h]

/-- A number, which no truth value is. -/
def IsNumber (v : Json) : Prop := (∃ n, v = .int n) ∨ ∃ x, v = .float x

inductive OrNull (P : Json → Prop) : Json → Prop
  | null : OrNull P .null
  | value {v : Json} : P v → OrNull P v

/-- A list of values that are as `P` wants them. -/
inductive ListOf (P : Json → Prop) : Json → Prop
  | list {items : List Json} : (∀ v ∈ items, P v) → ListOf P (.arr items)

theorem ListOf.forall {P : Json → Prop} {items : List Json} (h : ListOf P (.arr items)) :
    ∀ v ∈ items, P v := by
  cases h
  assumption

theorem ListOf.any {P : Json → Prop} {v : Json} (h : ListOf P v) : ListOf (fun _ => True) v := by
  cases h
  exact .list fun _ _ => trivial

/-- An object whose members are as `P` wants them. -/
inductive ObjectOf (P : Members → Prop) : Json → Prop
  | object {members : Members} : P members → ObjectOf P (.obj members)

theorem ObjectOf.any {P : Members → Prop} {v : Json} (h : ObjectOf P v) :
    ObjectOf (fun _ => True) v := by
  cases h
  exact .object trivial

@[simp]
theorem objectOf_iff {P : Members → Prop} {members : Members} :
    ObjectOf P (.obj members) ↔ P members :=
  ⟨fun ⟨h⟩ => h, .object⟩

/-! ## Elements -/

/-- What a field of a statement may hold besides null: the value of an assignment is any value, the
duration of a pause a number, and each other field a string. -/
def Admits : StatementKind → String → Json → Prop
  | .assign, "value" => fun _ => True
  | .pause, "duration" => IsNumber
  | _, _ => IsString

mutual

/-- The format of an element. -/
inductive ConformsElement : Json → Prop
  | statement {members : Members} (kind : StatementKind) (id : HasString members "id")
      (type : Json.find? "type" members = some (.str kind.name))
      (fields : ∀ key ∈ kind.fields, Field (OrNull (Admits kind key)) members key) :
      ConformsElement (.obj members)
  | menu {members : Members} (id : HasString members "id")
      (type : Json.find? "type" members = some (.str ElementKind.menu.name))
      (choices : Field (OrNull (ListOf ConformsChoice)) members "choices") :
      ConformsElement (.obj members)

/-- The format of a choice; neither its text nor its actions may be null. -/
inductive ConformsChoice : Json → Prop
  | choice {members : Members} (id : HasString members "id") (text : Field IsString members "text")
      (condition : Field (OrNull IsString) members "condition")
      (actions : Field (ListOf ConformsElement) members "actions") :
      ConformsChoice (.obj members)

end

/-! ## Documents -/

def ConformsCharacter : Json → Prop :=
  ObjectOf fun members => HasString members "id" ∧ HasString members "name" ∧
    Field (OrNull IsString) members "color"

/-- The format of the catalogue; its entries may be anything. -/
def ConformsAssets : Json → Prop :=
  ObjectOf fun members => ∀ key ∈ ["images", "audio", "backgrounds"],
    Field (ListOf fun _ => True) members key

/-- **The format of a document.** -/
def Conforms : Json → Prop :=
  ObjectOf fun members => Field (ListOf ConformsCharacter) members "characters" ∧
    Field (ListOf ConformsElement) members "elements" ∧ Field ConformsAssets members "assets"

/-! ## Numbers -/

/-- `Within inner e`: the element `inner` is `e` or stands among the actions of a menu in it. -/
inductive Within (inner : Json) : Json → Prop
  | self : Within inner inner
  | action {menu choice : Members} {choices actions : List Json} {e : Json}
      (type : Json.find? "type" menu = some (.str ElementKind.menu.name))
      (offers : Json.find? "choices" menu = some (.arr choices))
      (choice_mem : .obj choice ∈ choices)
      (holds : Json.find? "actions" choice = some (.arr actions)) (mem : e ∈ actions)
      (within : Within inner e) : Within inner (.obj menu)

/-- Whether the members of all elements in an element are as `P` wants them. -/
def AllWithin (P : Members → Prop) (e : Json) : Prop :=
  ∀ members, Within (.obj members) e → P members

/-- Whether the members of all elements of a document are as `P` wants them. -/
def AllElements (P : Members → Prop) (v : Json) : Prop :=
  ∀ members elements, v = .obj members → Json.find? "elements" members = some (.arr elements) →
    ∀ e ∈ elements, AllWithin P e

/-- Whether an integer under the duration of a pause is in range. -/
def DurationFits (members : Members) : Prop :=
  Json.find? "type" members = some (.str StatementKind.pause.name) →
    ∀ n, Json.find? "duration" members = some (.int n) → Binary64.InRange n

/-- Whether the integers under the durations in a document are in range. -/
def DurationsFit : Json → Prop := AllElements DurationFits

/-- Whether what stands under the type of an element, and under the value of an assignment, can be
written as text. -/
def TextFits (members : Members) : Prop :=
  Field Json.ShortIntegers members "type" ∧
    (Json.find? "type" members = some (.str StatementKind.assign.name) →
      Field Json.ShortIntegers members "value")

/-- Whether the types and the assigned values in a document can be written as text. -/
def TextsFit : Json → Prop := AllElements TextFits

end Document

end NovelScript
