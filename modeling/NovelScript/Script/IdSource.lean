import NovelScript.Number.Decimal

/-!
# Ids for new elements

An `IdSource` gives an id for each kind it is asked for and moves on to its next state. The usual
one counts each kind for itself: `element-0`, `element-1`, `choice-0`. A caller may bring a source
of its own, as an `IdFactory`; but one that counts as false is taken for none (`IdFactory.orUsual`).
-/

set_option autoImplicit false

namespace NovelScript

/-- Where ids come from: a state, and the id and next state for a kind. -/
structure IdSource (σ : Type) where
  next : σ → String → String × σ

/-- How often each kind was asked for. -/
abbrev Counters := List (String × Nat)

namespace Counters

/-- How often `kind` was asked for. -/
def count (kind : String) : Counters → Nat
  | [] => 0
  | (k, n) :: rest => if k = kind then n else count kind rest

/-- Counts `kind` once more. -/
def increment (kind : String) : Counters → Counters
  | [] => [(kind, 1)]
  | (k, n) :: rest => if k = kind then (k, n + 1) :: rest else (k, n) :: increment kind rest

end Counters

namespace IdSource

/-- The `n`th id of a kind is the kind, a dash and `n`, counted from zero. -/
def perKind : IdSource Counters where
  next counters kind :=
    (kind ++ "-" ++ String.ofList (DecimalStyle.natText (counters.count kind)),
      counters.increment kind)

/-- Ids with one counter for all kinds, behind a mark and the kind. -/
def numbered (mark : String) : IdSource Int where
  next n kind := (mark ++ kind ++ ":" ++ String.ofList (DecimalStyle.intText n), n + 1)

/-- The ids for some kinds in turn. -/
def take {σ : Type} (source : IdSource σ) : σ → List String → List String
  | _, [] => []
  | s, kind :: rest => (source.next s kind).1 :: source.take (source.next s kind).2 rest

end IdSource

/-- A source of ids with its state. -/
structure IdFactory where
  State : Type
  source : IdSource State
  state : State
  /-- Whether the factory counts as true in a state, as a container that is not empty does. -/
  counts : State → Bool

namespace IdFactory

/-- Counts each kind from zero. -/
def usual : IdFactory where
  State := Counters
  source := .perKind
  state := []
  counts _ := true

/-- The factory that a text is read with: the usual one if none is given, or one that counts as
false. -/
def orUsual : Option IdFactory → IdFactory
  | none => usual
  | some f => if f.counts f.state then f else usual

end IdFactory

end NovelScript
