import NovelScript.Number.Decimal

/-!
# JSON values

A value of a JSON document. Integers and floating-point numbers are told apart, as in the text:
a number with a fraction or an exponent is a floating-point one. The members of an object keep
their order; `setMember` gives a repeated key its last value at its first place, so the keys of a
value that was read are distinct (`DistinctKeys`). An integer of more than `maxDigits` digits is
neither read nor written, so those of a value that was read are short (`ShortIntegers`).
-/

set_option autoImplicit false

namespace NovelScript

inductive Json where
  | null
  | bool (value : Bool)
  | int (value : Int)
  | float (value : Binary64)
  | str (value : String)
  | arr (items : List Json)
  | obj (members : List (String × Json))
  deriving Inhabited, Repr

namespace Json

/-- The kinds of JSON values. -/
inductive Kind where
  | null | bool | int | float | str | arr | obj
  deriving DecidableEq, Repr

/-- The word for a kind in messages. -/
def Kind.name : Kind → String
  | .null => "NoneType"
  | .bool => "bool"
  | .int => "int"
  | .float => "float"
  | .str => "str"
  | .arr => "list"
  | .obj => "dict"

def kind : Json → Kind
  | null => .null
  | bool _ => .bool
  | int _ => .int
  | float _ => .float
  | str _ => .str
  | arr _ => .arr
  | obj _ => .obj

/-- Whether a value counts as true: what is null, false, zero or empty does not. -/
def holds : Json → Bool
  | null => false
  | bool b => b
  | int n => n ≠ 0
  | float x => !x.isZero
  | str s => s ≠ ""
  | arr items => !items.isEmpty
  | obj members => !members.isEmpty

/-- The value of a key, if the object has it. -/
def find? (key : String) : List (String × Json) → Option Json
  | [] => none
  | (k, v) :: rest => if k = key then some v else find? key rest

/-- Gives a key its value: in its place if it is there, at the end otherwise. -/
def setMember (key : String) (value : Json) : List (String × Json) → List (String × Json)
  | [] => [(key, value)]
  | (k, v) :: rest =>
    if k = key then (k, value) :: rest else (k, v) :: setMember key value rest

/-- The members as they remain when each is set in turn. -/
def ofMembers (members : List (String × Json)) : List (String × Json) :=
  members.foldl (fun known m => setMember m.1 m.2 known) []

mutual

/-- No object in the value has a key twice. -/
def DistinctKeys : Json → Prop
  | arr items => DistinctKeysItems items
  | obj members => (members.map Prod.fst).Nodup ∧ DistinctKeysMembers members
  | _ => True

/-- `DistinctKeys` of all the items. -/
def DistinctKeysItems : List Json → Prop
  | [] => True
  | v :: rest => DistinctKeys v ∧ DistinctKeysItems rest

/-- `DistinctKeys` of all the values. -/
def DistinctKeysMembers : List (String × Json) → Prop
  | [] => True
  | (_, v) :: rest => DistinctKeys v ∧ DistinctKeysMembers rest

end

/-! ## Long integers -/

/-- The greatest number of digits of an integer. -/
def maxDigits : Nat := 4300

/-- The number of digits of an integer. -/
def digitCount (n : Int) : Nat := (DecimalStyle.natText n.natAbs).length

mutual

/-- No integer in the value is too long to be read or written. -/
def ShortIntegers : Json → Prop
  | int n => digitCount n ≤ maxDigits
  | arr items => ShortIntegersItems items
  | obj members => ShortIntegersMembers members
  | _ => True

/-- `ShortIntegers` of all the items. -/
def ShortIntegersItems : List Json → Prop
  | [] => True
  | v :: rest => ShortIntegers v ∧ ShortIntegersItems rest

/-- `ShortIntegers` of all the values. -/
def ShortIntegersMembers : List (String × Json) → Prop
  | [] => True
  | (_, v) :: rest => ShortIntegers v ∧ ShortIntegersMembers rest

end

mutual

def decidableShortIntegers : (v : Json) → Decidable v.ShortIntegers
  | int n => inferInstanceAs (Decidable (digitCount n ≤ maxDigits))
  | arr items => decidableShortIntegersItems items
  | obj members => decidableShortIntegersMembers members
  | null | bool _ | float _ | str _ => isTrue trivial

def decidableShortIntegersItems : (items : List Json) → Decidable (ShortIntegersItems items)
  | [] => isTrue trivial
  | v :: rest =>
    have := decidableShortIntegers v
    have := decidableShortIntegersItems rest
    inferInstanceAs (Decidable (_ ∧ _))

def decidableShortIntegersMembers :
    (members : List (String × Json)) → Decidable (ShortIntegersMembers members)
  | [] => isTrue trivial
  | (_, v) :: rest =>
    have := decidableShortIntegers v
    have := decidableShortIntegersMembers rest
    inferInstanceAs (Decidable (_ ∧ _))

end

instance : DecidablePred ShortIntegers := decidableShortIntegers

end Json

end NovelScript
