import NovelScript.Proofs.Steps

/-!
# Elements without ids and with new ids

`bare` empties every id of an element, and `renew` hands out new ids in a fixed order: a choice
before its actions, a menu behind all its contents. `Reader.ofText_renew`: this is the order in
which a reader asks for the ids of what it reads, so a script that was read keeps its ids when they
are handed out again.
-/

set_option autoImplicit false

namespace NovelScript

/-! ## Without ids -/

mutual

/-- The element with empty ids. -/
def Element.bare : Element → Element
  | .statement _ s => .statement "" s
  | .menu _ choices => .menu "" (bareChoices choices)

def bareChoices : List Choice → List Choice
  | [] => []
  | ⟨_, text, condition, actions⟩ :: rest =>
    ⟨"", text, condition, bareElements actions⟩ :: bareChoices rest

def bareElements : List Element → List Element
  | [] => []
  | e :: rest => e.bare :: bareElements rest

end

/-- The choice with empty ids. -/
def Choice.bare (c : Choice) : Choice :=
  { c with id := "", actions := bareElements c.actions }

/-- The script with empty ids. -/
def Script.bare (s : Script) : Script :=
  { s with elements := bareElements s.elements }

@[simp] theorem bareElements_eq_map : ∀ es : List Element, bareElements es = es.map Element.bare
  | [] => rfl
  | e :: es => by rw [bareElements, bareElements_eq_map es, List.map_cons]

@[simp] theorem bareChoices_eq_map : ∀ cs : List Choice, bareChoices cs = cs.map Choice.bare
  | [] => rfl
  | ⟨_, _, _, _⟩ :: cs => by
    rw [bareChoices, bareChoices_eq_map cs]
    rfl

@[simp] theorem Element.bare_statement (id : String) (s : Statement) :
    (Element.statement id s).bare = .statement "" s := rfl

@[simp] theorem Element.bare_menu (id : String) (choices : List Choice) :
    (Element.menu id choices).bare = .menu "" (choices.map Choice.bare) := by
  rw [Element.bare, bareChoices_eq_map]

/-! ## With new ids -/

section
variable {σ : Type} (source : IdSource σ)

mutual

/-- The element with new ids, and the state behind the last of them. -/
def Element.renew (ids : σ) : Element → Element × σ
  | .statement _ s =>
    (.statement (source.next ids "element").1 s, (source.next ids "element").2)
  | .menu _ choices =>
    let choices := renewChoices ids choices
    (.menu (source.next choices.2 "element").1 choices.1, (source.next choices.2 "element").2)

def renewChoices (ids : σ) : List Choice → List Choice × σ
  | [] => ([], ids)
  | ⟨_, text, condition, actions⟩ :: rest =>
    let actions := renewElements (source.next ids "choice").2 actions
    let rest := renewChoices actions.2 rest
    (⟨(source.next ids "choice").1, text, condition, actions.1⟩ :: rest.1, rest.2)

def renewElements (ids : σ) : List Element → List Element × σ
  | [] => ([], ids)
  | e :: rest =>
    let e := e.renew ids
    let rest := renewElements e.2 rest
    (e.1 :: rest.1, rest.2)

end

/-- The script with new ids for its elements. -/
def Script.renew (ids : σ) (s : Script) : Script :=
  { s with elements := (renewElements source ids s.elements).1 }

theorem renewElements_append (ids : σ) : ∀ a b : List Element, renewElements source ids (a ++ b) =
    ((renewElements source ids a).1 ++ (renewElements source (renewElements source ids a).2 b).1,
      (renewElements source (renewElements source ids a).2 b).2)
  | [], b => rfl
  | e :: a, b => by simp only [List.cons_append, renewElements, renewElements_append]

theorem renewChoices_append (ids : σ) : ∀ a b : List Choice, renewChoices source ids (a ++ b) =
    ((renewChoices source ids a).1 ++ (renewChoices source (renewChoices source ids a).2 b).1,
      (renewChoices source (renewChoices source ids a).2 b).2)
  | [], b => rfl
  | ⟨_, _, _, _⟩ :: a, b => by simp only [List.cons_append, renewChoices, renewChoices_append]

mutual

/-- New ids do not depend on the old ones. -/
theorem Element.renew_bare (ids : σ) : ∀ e : Element, e.bare.renew source ids = e.renew source ids
  | .statement _ _ => rfl
  | .menu _ choices => by
    rw [Element.bare, Element.renew, Element.renew, renewChoices_bare]

theorem renewChoices_bare (ids : σ) : ∀ cs : List Choice,
    renewChoices source ids (bareChoices cs) = renewChoices source ids cs
  | [] => rfl
  | ⟨_, _, _, actions⟩ :: rest => by
    rw [bareChoices, renewChoices, renewChoices, renewElements_bare _ actions]
    simp only [renewChoices_bare _ rest]

theorem renewElements_bare (ids : σ) : ∀ es : List Element,
    renewElements source ids (bareElements es) = renewElements source ids es
  | [] => rfl
  | e :: rest => by
    rw [bareElements, renewElements, renewElements, Element.renew_bare _ e]
    simp only [renewElements_bare _ rest]

end

mutual

/-- New ids change nothing else. -/
theorem Element.bare_renew (ids : σ) : ∀ e : Element, (e.renew source ids).1.bare = e.bare
  | .statement _ _ => rfl
  | .menu _ choices => by
    rw [Element.renew, Element.bare, Element.bare, bareChoices_renew]

theorem bareChoices_renew (ids : σ) : ∀ cs : List Choice,
    bareChoices (renewChoices source ids cs).1 = bareChoices cs
  | [] => rfl
  | ⟨_, _, _, actions⟩ :: rest => by
    rw [renewChoices, bareChoices, bareChoices, bareElements_renew _ actions,
      bareChoices_renew _ rest]

theorem bareElements_renew (ids : σ) : ∀ es : List Element,
    bareElements (renewElements source ids es).1 = bareElements es
  | [] => rfl
  | e :: rest => by
    rw [renewElements, bareElements, bareElements, Element.bare_renew _ e,
      bareElements_renew _ rest]

end

/-! ## The order in which a reader asks for ids -/

/-- The ids of what was read, in the order of `renew`, lead from `start` to the reader's state. -/
def Reader.IdsInOrder (start : σ) (r : Reader σ) : Prop :=
  ∃ ids, renewElements source start r.elements = (r.elements, ids) ∧
    renewChoices source ids r.phase.choices = (r.phase.choices, r.ids)

variable {source}

theorem Reader.IdsInOrder.close {start : σ} {r : Reader σ} (h : r.IdsInOrder source start) :
    (r.close source).IdsInOrder source start := by
  by_cases hp : r.phase = .idle
  · rwa [close_idle hp]
  · obtain ⟨ids, he, hc⟩ := h
    rw [close_open hp]
    refine ⟨(source.next r.ids "element").2, ?_, rfl⟩
    simp only [renewElements_append, he, renewElements, Element.renew, hc]

theorem Reader.IdsInOrder.emit {start : σ} {r : Reader σ} (hp : r.phase = .idle)
    (h : r.IdsInOrder source start) (s : Statement) :
    (r.emit source s).IdsInOrder source start := by
  obtain ⟨ids, he, hc⟩ := h
  rw [hp] at hc
  cases hc
  refine ⟨(source.next r.ids "element").2, ?_, by rw [emit_phase, hp]; rfl⟩
  simp only [emit_elements, renewElements_append, he, renewElements, Element.renew]

/-- Each action keeps the order: it hands out the next id at the end of what was read. -/
theorem Reader.IdsInOrder.acts {start : σ} {r r' : Reader σ} {line : SourceLine}
    (ha : Acts source line r r') (h : r.IdsInOrder source start) :
    r'.IdsInOrder source start := by
  cases ha with
  | skip => exact h
  | define hp => exact h
  | openMenu hp =>
    obtain ⟨ids, he, hc⟩ := h
    rw [hp] at hc
    exact ⟨ids, he, hc⟩
  | label hp => exact h.emit hp _
  | emit hp => exact h.emit hp _
  | @openChoice k head hp =>
    obtain ⟨ids, he, hc⟩ := h
    refine ⟨ids, he, ?_⟩
    simp only [openChoice_phase, Phase.choices_choice, openChoice_ids, renewChoices_append, hc,
      renewChoices, renewElements]
  | @addAction k earlier ci current s hp =>
    obtain ⟨ids, he, hc⟩ := h
    obtain ⟨id, text, condition, actions⟩ := current
    rw [hp] at hc
    simp only [Phase.choices_choice, renewChoices_append, renewChoices, Prod.mk.injEq] at hc
    obtain ⟨hl, hi⟩ := hc
    obtain ⟨h1, h2⟩ := List.append_inj' hl rfl
    simp only [List.cons.injEq, Choice.mk.injEq, and_true, true_and] at h2
    refine ⟨ids, he, ?_⟩
    simp only [addAction_phase, Phase.choices_choice, addAction_ids, renewChoices_append,
      renewChoices, renewElements_append, renewElements, Element.renew, h1, h2, hi]

variable (source) in
/-- **A reader asks for ids in the order of `renew`.** -/
theorem Reader.readLines_idsInOrder (start : σ) (lines : List SourceLine) :
    ((Reader.start start).readLines source lines).IdsInOrder source start :=
  readLines_induction (fun _ => .close) (fun _ _ _ _ _ ha h => h.acts ha) ⟨start, rfl, rfl⟩

end

/-! ## Scripts that were read -/

section
variable {σ : Type} (source : IdSource σ) (ids : σ)

/-- The ids of a script that was read are those that `renew` hands out, and no others were asked
for. -/
theorem Reader.ofText_renewElements (text : String) :
    renewElements source ids (Reader.ofText source ids text).script.elements =
      ((Reader.ofText source ids text).script.elements, (Reader.ofText source ids text).ids) := by
  have h := (readLines_idsInOrder source ids (sourceLines text.toList)).close
  obtain ⟨_, he, hc⟩ := h
  rw [close_phase] at hc
  cases hc
  exact he

theorem Reader.ofText_renew (text : String) :
    (Reader.ofText source ids text).script.renew source ids =
      (Reader.ofText source ids text).script := by
  rw [Script.renew, ofText_renewElements]

theorem Script.renew_bare (s : Script) : s.bare.renew source ids = s.renew source ids := by
  simp only [Script.renew, Script.bare, renewElements_bare]

theorem Script.bare_renew (s : Script) : (s.renew source ids).bare = s.bare := by
  simp only [Script.renew, Script.bare, bareElements_renew]

/-- **A script that was read** is settled by what it says without ids. -/
theorem Reader.ofText_eq_renew {text : String} {s : Script}
    (h : (Reader.ofText source ids text).script.bare = s.bare) :
    (Reader.ofText source ids text).script = s.renew source ids := by
  rw [← ofText_renew source ids text, ← Script.renew_bare, h, Script.renew_bare]

end

end NovelScript
