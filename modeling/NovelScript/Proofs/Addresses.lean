import Mathlib.Data.List.Basic
import NovelScript.Proofs.Walk

/-!
# Addresses of elements

Two elements of a script may be equal, so what tells them apart is where they stand. An `Address`
holds the index of a top-level element and then, for each menu on the way down, the index of a
choice and that of an action in it; `Script.at?` looks an element up by its address. In the
lexicographic order of addresses a menu comes right before all it holds, and what it holds comes by
choices and then by actions. `Script.walk_addressed`: a walk goes through the addresses of a script
in this order, each of them once, and gives every element the number of its top-level element.
-/

set_option autoImplicit false

namespace NovelScript

/-- Where an element stands, counted from zero: a top-level element, and for each menu on the way a
choice and an action in it. -/
abbrev Address := List Nat

/-- The number of the top-level element that an address leads into. -/
def Address.line : Address → Nat
  | [] => 0
  | i :: _ => i + 1

mutual

/-- The element at an address among some elements. -/
def elementAt? : List Element → Address → Option Element
  | _, [] => none
  | es, i :: a => es[i]?.bind fun e => e.at? a

/-- The element at an address in an element, where the empty address is that of the element. -/
def Element.at? : Element → Address → Option Element
  | e, [] => some e
  | .statement .., _ :: _ => none
  | .menu _ choices, i :: a => choices[i]?.bind fun c => elementAt? c.actions a

end

/-- The element at an address of the script. -/
def Script.at? (s : Script) (a : Address) : Option Element :=
  elementAt? s.elements a

/-! ## Elements with their addresses -/

/-- The addresses of some elements, seen from one step further up. -/
def under (i : Nat) (entries : List (Address × Element)) : List (Address × Element) :=
  entries.map fun x => (i :: x.1, x.2)

mutual

/-- An element and all inside it with their addresses. -/
def Element.addressed : Element → List (Address × Element)
  | .statement id s => [([], .statement id s)]
  | .menu id choices => ([], .menu id choices) :: addressedChoices 0 choices

/-- What choices hold, where the first of them is the `i`th of its menu. -/
def addressedChoices (i : Nat) : List Choice → List (Address × Element)
  | [] => []
  | ⟨_, _, _, actions⟩ :: rest =>
    under i (addressedElements 0 actions) ++ addressedChoices (i + 1) rest

/-- Elements and all inside them, where the first of them is the `i`th of its list. -/
def addressedElements (i : Nat) : List Element → List (Address × Element)
  | [] => []
  | e :: rest => under i e.addressed ++ addressedElements (i + 1) rest

end

/-- The elements of the script with their addresses. -/
def Script.addressed (s : Script) : List (Address × Element) :=
  addressedElements 0 s.elements

@[simp] theorem map_snd_under (i : Nat) (entries : List (Address × Element)) :
    (under i entries).map (·.2) = entries.map (·.2) := by
  rw [under, List.map_map]
  rfl

@[simp] theorem mem_under {i : Nat} {entries : List (Address × Element)} {a : Address}
    {e : Element} : (a, e) ∈ under i entries ↔ ∃ b, a = i :: b ∧ (b, e) ∈ entries := by
  simp only [under, List.mem_map, Prod.mk.injEq, Prod.exists]
  constructor
  · rintro ⟨b, f, hb, rfl, rfl⟩
    exact ⟨b, rfl, hb⟩
  · rintro ⟨b, rfl, hb⟩
    exact ⟨b, e, hb, rfl, rfl⟩

theorem pairwise_under {i : Nat} {entries : List (Address × Element)}
    (h : entries.Pairwise fun x y => x.1 < y.1) :
    (under i entries).Pairwise fun x y => x.1 < y.1 := by
  rw [under, List.pairwise_map]
  exact h.imp fun hlt => List.cons_lt_cons_iff.2 (.inr ⟨rfl, hlt⟩)

/-! ## The elements -/

mutual

theorem Element.map_snd_addressed : ∀ e : Element, e.addressed.map (·.2) = e :: e.inner
  | .statement .. => rfl
  | .menu _ choices => by
    rw [Element.addressed, List.map_cons, map_snd_addressedChoices 0 choices, Element.inner]

theorem map_snd_addressedChoices : ∀ (i : Nat) (cs : List Choice),
    (addressedChoices i cs).map (·.2) = innerOfChoices cs
  | _, [] => rfl
  | i, ⟨_, _, _, actions⟩ :: cs => by
    rw [addressedChoices, List.map_append, map_snd_under, map_snd_addressedElements 0 actions,
      map_snd_addressedChoices (i + 1) cs, innerOfChoices]

theorem map_snd_addressedElements : ∀ (i : Nat) (es : List Element),
    (addressedElements i es).map (·.2) = withInner es
  | _, [] => rfl
  | i, e :: es => by
    rw [addressedElements, List.map_append, map_snd_under, Element.map_snd_addressed e,
      map_snd_addressedElements (i + 1) es, withInner]

end

/-- The line of an element is that of its address. -/
theorem walkFrom_eq : ∀ (i : Nat) (es : List Element),
    walkFrom (i + 1) es = (addressedElements i es).map fun x => (x.1.line, x.2)
  | _, [] => rfl
  | i, e :: es => by
    have hfirst : (under i e.addressed).map (fun x => (x.1.line, x.2)) =
        (e :: e.inner).map (i + 1, ·) := by
      rw [← e.map_snd_addressed, under, List.map_map, List.map_map]
      rfl
    rw [walkFrom, addressedElements, List.map_append, hfirst, walkFrom_eq (i + 1) es]

/-! ## The addresses -/

section
variable {a : Address} {x : Element}

theorem elementAt?_eq_some_iff {es : List Element} : elementAt? es a = some x ↔
    ∃ i e b, a = i :: b ∧ es[i]? = some e ∧ e.at? b = some x := by
  cases a with
  | nil => simp [elementAt?]
  | cons i b => simp [elementAt?, Option.bind_eq_some_iff]

theorem Element.at?_menu_eq_some_iff {id : String} {cs : List Choice} :
    (menu id cs).at? a = some x ↔ (a = [] ∧ menu id cs = x) ∨
      ∃ i c b, a = i :: b ∧ cs[i]? = some c ∧ elementAt? c.actions b = some x := by
  cases a with
  | nil => simp [at?]
  | cons i b => simp [at?, Option.bind_eq_some_iff]

/-- What holds at an index of a list holds at its head or at an index of its tail. -/
theorem exists_index_cons {β : Type} {P : β → Address → Prop} {n : Nat} {y : β} {ys : List β} :
    (∃ i z b, a = (n + i) :: b ∧ (y :: ys)[i]? = some z ∧ P z b) ↔
      (∃ b, a = n :: b ∧ P y b) ∨ ∃ i z b, a = (n + 1 + i) :: b ∧ ys[i]? = some z ∧ P z b := by
  constructor
  · rintro ⟨i, z, b, rfl, hz, hP⟩
    cases i with
    | zero =>
      cases hz
      exact .inl ⟨b, rfl, hP⟩
    | succ i => exact .inr ⟨i, z, b, by rw [Nat.add_assoc, Nat.add_comm 1 i], hz, hP⟩
  · rintro (⟨b, rfl, hP⟩ | ⟨i, z, b, rfl, hz, hP⟩)
    · exact ⟨0, y, b, rfl, rfl, hP⟩
    · exact ⟨i + 1, z, b, by rw [Nat.add_assoc, Nat.add_comm 1 i], hz, hP⟩

mutual

/-- Each element stands at its address, and no other address leads to one. -/
theorem Element.mem_addressed : ∀ (a : Address) (e : Element),
    (a, x) ∈ e.addressed ↔ e.at? a = some x
  | a, .statement id s => by
    cases a with
    | nil => simp [Element.addressed, Element.at?, eq_comm]
    | cons i b => simp [Element.addressed, Element.at?]
  | a, .menu id cs => by
    rw [Element.addressed, List.mem_cons, mem_addressedChoices a 0 cs,
      Element.at?_menu_eq_some_iff, Prod.mk.injEq, eq_comm (b := x)]
    simp only [Nat.zero_add]

theorem mem_addressedChoices : ∀ (a : Address) (n : Nat) (cs : List Choice),
    (a, x) ∈ addressedChoices n cs ↔
      ∃ i c b, a = (n + i) :: b ∧ cs[i]? = some c ∧ elementAt? c.actions b = some x
  | a, n, [] => by simp [addressedChoices]
  | a, n, ⟨id, text, condition, actions⟩ :: cs => by
    rw [addressedChoices, List.mem_append, mem_addressedChoices a (n + 1) cs, exists_index_cons,
      mem_under]
    simp only [mem_addressedElements _ 0 actions, elementAt?_eq_some_iff, Nat.zero_add]

theorem mem_addressedElements : ∀ (a : Address) (n : Nat) (es : List Element),
    (a, x) ∈ addressedElements n es ↔
      ∃ i e b, a = (n + i) :: b ∧ es[i]? = some e ∧ e.at? b = some x
  | a, n, [] => by simp [addressedElements]
  | a, n, e :: es => by
    rw [addressedElements, List.mem_append, mem_addressedElements a (n + 1) es, exists_index_cons,
      mem_under]
    simp only [Element.mem_addressed _ e]

end

/-- **The addresses of a script** are those at which an element stands. -/
theorem Script.mem_addressed {s : Script} : (a, x) ∈ s.addressed ↔ s.at? a = some x := by
  rw [addressed, mem_addressedElements, at?, elementAt?_eq_some_iff]
  simp only [Nat.zero_add]

end

/-! ## Their order -/

/-- Entries that start with an index come before those that start with a later one. -/
theorem pairwise_under_append {n : Nat} {entries rest : List (Address × Element)}
    (h : entries.Pairwise fun x y => x.1 < y.1) (hrest : rest.Pairwise fun x y => x.1 < y.1)
    (hlater : ∀ x ∈ rest, ∃ i b, x.1 = (n + 1 + i) :: b) :
    (under n entries ++ rest).Pairwise fun x y => x.1 < y.1 := by
  rw [List.pairwise_append]
  refine ⟨pairwise_under h, hrest, ?_⟩
  rintro ⟨a, e⟩ ha y hy
  obtain ⟨b, rfl, -⟩ := mem_under.1 ha
  obtain ⟨i, c, hc⟩ := hlater y hy
  rw [hc]
  exact List.cons_lt_cons_iff.2 (.inl (by omega))

mutual

theorem Element.pairwise_addressed : ∀ e : Element, e.addressed.Pairwise fun x y => x.1 < y.1
  | .statement .. => List.pairwise_singleton _ _
  | .menu _ choices => by
    rw [Element.addressed, List.pairwise_cons]
    refine ⟨?_, pairwise_addressedChoices 0 choices⟩
    rintro ⟨a, e⟩ h
    obtain ⟨i, c, b, rfl, -⟩ := (mem_addressedChoices a 0 choices).1 h
    exact List.nil_lt_cons _ _

theorem pairwise_addressedChoices : ∀ (n : Nat) (cs : List Choice),
    (addressedChoices n cs).Pairwise fun x y => x.1 < y.1
  | _, [] => .nil
  | n, ⟨_, _, _, actions⟩ :: cs => by
    rw [addressedChoices]
    refine pairwise_under_append (pairwise_addressedElements 0 actions)
      (pairwise_addressedChoices (n + 1) cs) ?_
    rintro ⟨a, e⟩ h
    obtain ⟨i, c, b, hb, -⟩ := (mem_addressedChoices a (n + 1) cs).1 h
    exact ⟨i, b, hb⟩

theorem pairwise_addressedElements : ∀ (n : Nat) (es : List Element),
    (addressedElements n es).Pairwise fun x y => x.1 < y.1
  | _, [] => .nil
  | n, e :: es => by
    rw [addressedElements]
    refine pairwise_under_append (Element.pairwise_addressed e)
      (pairwise_addressedElements (n + 1) es) ?_
    rintro ⟨a, f⟩ h
    obtain ⟨i, g, b, hb, -⟩ := (mem_addressedElements a (n + 1) es).1 h
    exact ⟨i, b, hb⟩

end

/-! ## Top-level elements -/

/-- Of an element and what it holds, only the element has the empty address. -/
theorem Element.filter_addressed (e : Element) :
    (e.addressed.filter fun x => x.1.length = 0) = [([], e)] := by
  cases e with
  | statement id s => rfl
  | menu id choices =>
    rw [addressed, List.filter_cons_of_pos (by simp), List.cons_inj_right, List.filter_eq_nil_iff]
    rintro ⟨a, f⟩ h
    obtain ⟨i, c, b, rfl, -⟩ := (mem_addressedChoices a 0 choices).1 h
    simp

theorem filter_addressedElements : ∀ (n : Nat) (es : List Element),
    (((addressedElements n es).filter fun x => x.1.length = 1).map fun x => (x.1.line, x.2)) =
      (es.zipIdx (n + 1)).map Prod.swap
  | _, [] => rfl
  | n, e :: es => by
    have hfirst : (under n e.addressed).filter (fun x => x.1.length = 1) = [([n], e)] := by
      have hempty := congrArg (under n) e.filter_addressed
      rw [under, List.filter_map]
      simpa [under, Function.comp_def] using hempty
    rw [addressedElements, List.filter_append, hfirst, List.map_append,
      filter_addressedElements (n + 1) es, List.zipIdx_cons]
    rfl

/-- **A walk goes through the addresses of a script.** The elements of a script with their addresses
are listed in the order of the addresses, so none of them twice; the walk has one entry for each,
with the element and the number of its top-level element. So the numbers never decrease, they are
those of the top-level elements, and the entries at addresses of a single index are the top-level
elements as they stand, numbered from one. -/
theorem Script.walk_addressed (s : Script) :
    s.walk = s.addressed.map (fun x => (x.1.line, x.2)) ∧
    (∀ a e, (a, e) ∈ s.addressed ↔ s.at? a = some e) ∧
    (s.addressed.Pairwise fun x y => x.1 < y.1) ∧ (s.addressed.map (·.1)).Nodup ∧
    (s.walk.Pairwise fun x y => x.1 ≤ y.1) ∧
    (∀ line, (∃ e, (line, e) ∈ s.walk) ↔ 1 ≤ line ∧ line ≤ s.elements.length) ∧
    ((s.addressed.filter fun x => x.1.length = 1).map fun x => (x.1.line, x.2)) =
      (s.elements.zipIdx 1).map Prod.swap := by
  have hsorted := pairwise_addressedElements 0 s.elements
  refine ⟨walkFrom_eq 0 s.elements, fun a e => mem_addressed, hsorted, ?_, s.pairwise_walk, ?_,
    filter_addressedElements 0 s.elements⟩
  · refine List.pairwise_map.2 (hsorted.imp fun hlt heq => ?_)
    rw [heq] at hlt
    exact List.lt_irrefl _ hlt
  · intro line
    constructor
    · rintro ⟨e, he⟩
      obtain ⟨i, top, rfl, htop, -⟩ := mem_walk.1 he
      have hi := (List.getElem?_eq_some_iff.1 htop).1
      exact ⟨by omega, by omega⟩
    · rintro ⟨hpos, hle⟩
      have hi : line - 1 < s.elements.length := by omega
      exact ⟨_, mem_walk.2 ⟨line - 1, _, by omega, List.getElem?_eq_getElem hi, .self⟩⟩

/-- A menu inside a menu comes before the next choice of the outer one. -/
example : (Script.addressed { elements :=
    [.menu "" [⟨"", "", none, [.menu "" [⟨"", "", none, [.statement "" .goBack]⟩]]⟩,
      ⟨"", "", none, [.statement "" .goBack]⟩], .statement "" .goBack] }).map (·.1) =
    [[0], [0, 0, 0], [0, 0, 0, 0, 0], [0, 1, 0], [1]] := rfl

end NovelScript
