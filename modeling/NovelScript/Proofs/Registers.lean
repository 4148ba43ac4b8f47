import Mathlib.Data.List.Basic
import NovelScript.Proofs.Accounting

/-!
# Reading with separate registers

`Registers` read a script with one register for each thing they keep track of: a mode, the
indentations of the open menu and of its last choice, the choices of the menu, and the current one,
to which text is added. Choices stand in a store and are named by their numbers, so the open menu
and the register of the current choice may name the same one. Nothing in the type keeps the
registers consistent: they are set back when a menu is closed, when one is opened and when a choice
is, and not all of them each time. Text that finds no current choice makes a step fail.

`Registers.run?_consistent`: no run from the start fails, and it shows what a `Reader` shows. The
registers agree wherever a run stops (`Registers.Consistent`), and while a menu stays open nothing
is added beside it (`Registers.FromMenu`). So the states that a `Reader` has no way to be in are
ones that separate registers do not reach either.
-/

set_option autoImplicit false

namespace NovelScript

namespace Reader

/-! ## Phases -/

theorem Phase.eq_idle_of_menuIndent? {p : Phase} (h : p.menuIndent? = none) : p = .idle := by
  cases p with
  | idle => rfl
  | menu k => cases h
  | choice k earlier ci current => cases h

variable {σ : Type}

/-- The open choice is indented deeper than its menu. -/
def ChoiceDeeper (r : Reader σ) : Prop :=
  ∀ k ∈ r.phase.menuIndent?, ∀ ci ∈ r.phase.choiceIndent?, k < ci

variable {source : IdSource σ} {line : SourceLine} {r r' : Reader σ}

theorem ChoiceDeeper.of_idle (h : r.phase = .idle) : r.ChoiceDeeper := by
  simp [ChoiceDeeper, h, Phase.menuIndent?]

theorem ChoiceDeeper.acts (h : r.ChoiceDeeper) (ha : Acts source line r r') :
    r'.ChoiceDeeper := by
  cases ha with
  | skip => exact h
  | define hp => exact h
  | openMenu hp => simp [ChoiceDeeper, Phase.choiceIndent?]
  | label hp => exact h
  | emit hp => exact h
  | openChoice hp hk =>
    intro k' hk' ci hci
    cases hk'
    cases hci
    exact hk
  | addAction hp =>
    rw [ChoiceDeeper, hp] at h
    exact h

theorem ChoiceDeeper.call (h : r.ChoiceDeeper) (source : IdSource σ) (c : Call) :
    (r.call source c).ChoiceDeeper := by
  cases c with
  | finish => exact .of_idle (close_phase r)
  | feed number raw =>
    rw [Reader.call, readRaw, readLine]
    split
    · exact h
    · rcases step_acts source r (.ofRaw number raw.toList) with ha | ha
      · exact h.acts ha
      · exact (of_idle (close_phase r)).acts ha

end Reader

/-! ## Registers -/

/-- An element that names its choices by their numbers in a store. -/
inductive Entry where
  | statement (id : String) (content : Statement)
  | menu (id : String) (choices : List Nat)
  deriving DecidableEq, Repr

/-- The choices with these numbers. -/
def choicesAt (store : List Choice) (numbers : List Nat) : List Choice :=
  numbers.filterMap (store[·]?)

namespace Entry

/-- The element, with its choices from the store. -/
def element (store : List Choice) : Entry → Element
  | statement id s => .statement id s
  | menu id numbers => .menu id (choicesAt store numbers)

/-- Whether every choice is among the first `n` of a store. -/
def Below (n : Nat) : Entry → Prop
  | statement .. => True
  | menu _ numbers => ∀ i ∈ numbers, i < n

end Entry

/-- Where registers stand. -/
inductive Registers.Mode where
  | idle | inMenu | inChoice
  deriving DecidableEq, Repr

/-- What was read so far, with a register for each part of it. -/
structure Registers (σ : Type) where
  ids : σ
  characters : List Character := []
  entries : List Entry := []
  label : Option String := none
  skipped : Nat := 0
  events : List Reader.Event := []
  /-- The choices that were ever started, in their order. -/
  store : List Choice := []
  mode : Registers.Mode := .idle
  menuIndent : Nat := 0
  /-- The choices of the open menu. -/
  choices : List Nat := []
  /-- The choice that text is added to. -/
  current : Option Nat := none
  choiceIndent : Nat := 0

namespace Registers

open Reader (Phase Call)

variable {σ : Type}

/-! ## Steps -/

section
variable (source : IdSource σ)

/-- Registers that have read nothing. -/
def start (ids : σ) : Registers σ :=
  { ids := ids }

/-- Adds an entry, with a new id. -/
def push (m : Registers σ) (entry : String → Entry) : Registers σ :=
  let (id, ids) := source.next m.ids "element"
  { m with ids := ids, entries := m.entries ++ [entry id] }

def skip (m : Registers σ) (line : SourceLine) : Registers σ :=
  { m with
    skipped := m.skipped + 1
    events := m.events ++ [.skipped line.number m.label line.text] }

/-- Makes the open menu an entry. The indentation of the menu stays behind. -/
def close (m : Registers σ) : Registers σ :=
  { m.push source (.menu · m.choices) with
    mode := .idle
    choices := []
    current := none
    choiceIndent := 0 }

/-- Opens a menu. The indentation of the last choice stays behind. -/
def openMenu (m : Registers σ) (indent : Nat) : Registers σ :=
  { m with mode := .inMenu, menuIndent := indent, choices := [], current := none }

/-- Starts a choice, which becomes the current one. -/
def openChoice (m : Registers σ) (indent : Nat) (head : String × Option String) : Registers σ :=
  let (id, ids) := source.next m.ids "choice"
  { m with
    ids := ids
    store := m.store ++ [⟨id, head.1, head.2, []⟩]
    mode := .inChoice
    choices := m.choices ++ [m.store.length]
    current := some m.store.length
    choiceIndent := indent }

/-- Adds a line of text to the current choice; there must be one. -/
def addAction? (m : Registers σ) (s : Statement) : Option (Registers σ) := do
  let i ← m.current
  let c ← m.store[i]?
  let (id, ids) := source.next m.ids "element"
  return { m with
    ids := ids
    store := m.store.set i { c with actions := c.actions ++ [.statement id s] } }

/-- Reads a line of its own. -/
def stepPlain (m : Registers σ) (line : SourceLine) : Registers σ :=
  match Line.read? line.text with
  | none => m.skip line
  | some (.define c) => { m with characters := m.characters ++ [c] }
  | some .menu => m.openMenu line.indent
  | some (.statement (.label name)) =>
    { m.push source (.statement · (.label name)) with label := some name }
  | some (.statement s) => m.push source (.statement · s)

/-- Reads a line that starts no choice. -/
def stepText? (m : Registers σ) (line : SourceLine) : Option (Registers σ) :=
  if m.mode = .inChoice ∧ m.choiceIndent < line.indent then
    match Line.readAction? line.text with
    | some s => m.addAction? source s
    | none => some (m.skip line)
  else some (m.skip line)

/-- Reads a line of a menu. -/
def stepOpen? (m : Registers σ) (line : SourceLine) : Option (Registers σ) :=
  match Line.readChoice? line.text with
  | some head =>
    if m.mode = .inMenu ∨ line.indent ≤ m.choiceIndent then
      some (m.openChoice source line.indent head)
    else m.stepText? source line
  | none => m.stepText? source line

/-- Reads a line that is neither blank nor a comment. -/
def step? (m : Registers σ) (line : SourceLine) : Option (Registers σ) :=
  if m.mode = .idle then some (m.stepPlain source line)
  else if m.menuIndent < line.indent then m.stepOpen? source line
  else some ((m.close source).stepPlain source line)

/-- Reads a line as it is written. -/
def readRaw? (m : Registers σ) (number : Int) (raw : String) : Option (Registers σ) :=
  let line := SourceLine.ofRaw number raw.toList
  if line.isIgnored then some m else m.step? source line

/-- Closes an open menu. -/
def closeOpen (m : Registers σ) : Registers σ :=
  if m.mode = .idle then m else m.close source

/-- Closes an open menu and reports the totals. -/
def finish (m : Registers σ) : Registers σ :=
  let m := m.closeOpen source
  let dropped := if m.skipped = 0 then [] else [Reader.Event.dropped m.skipped]
  { m with
    events := m.events ++ dropped ++ [.parsed m.characters.length m.entries.length] }

def call? (m : Registers σ) : Call → Option (Registers σ)
  | .feed number raw => m.readRaw? source number raw
  | .finish => some (m.finish source)

/-- The registers behind some calls, if none of them fails. -/
def run? (m : Registers σ) (calls : List Call) : Option (Registers σ) :=
  calls.foldlM (call? source) m

end

/-! ## What registers show -/

/-- The elements that were read. -/
def elements (m : Registers σ) : List Element :=
  m.entries.map (Entry.element m.store)

/-- The choices of the open menu. -/
def opened (m : Registers σ) : List Choice :=
  choicesAt m.store m.choices

/-- The phase that the registers describe; there is none in a choice if no choice is open. -/
def phase? (m : Registers σ) : Option Phase :=
  match m.mode with
  | .idle => some .idle
  | .inMenu => some (.menu m.menuIndent)
  | .inChoice => m.opened.getLast?.map (.choice m.menuIndent m.opened.dropLast m.choiceIndent ·)

/-- The reader that the registers describe. -/
def reader? (m : Registers σ) : Option (Reader σ) :=
  m.phase?.map fun phase =>
    { ids := m.ids
      phase := phase
      characters := m.characters
      elements := m.elements
      label := m.label
      skipped := m.skipped
      events := m.events }

/-- What the registers have to do with one another. -/
structure Consistent (m : Registers σ) : Prop where
  idle : m.mode = .idle → m.choices = [] ∧ m.current = none
  inMenu : m.mode = .inMenu → m.choices = [] ∧ m.current = none
  inChoice : m.mode = .inChoice →
    m.choices ≠ [] ∧ m.current = m.choices.getLast? ∧ m.menuIndent < m.choiceIndent
  /-- The current choice is the one that was started last. -/
  newest : ∀ i ∈ m.current, m.store.length = i + 1
  label : m.label = lastLabel? m.elements

/-- What a call leads to from an open menu. The menu stays open and nothing is added beside it, or
it becomes an entry before any other, and before none at all if the next menu is open. -/
inductive FromMenu (m m' : Registers σ) : Prop
  | stays (mode : m'.mode ≠ .idle) (menuIndent : m'.menuIndent = m.menuIndent)
    (choices : m.choices <+: m'.choices) (entries : m'.entries = m.entries)
  | closes (id : String) (rest : List Entry)
    (entries : m'.entries = m.entries ++ .menu id m.choices :: rest) (length : rest.length ≤ 1)
    (reopened : m'.mode ≠ .idle → rest = [] ∧ m'.choices = [])

/-! ## The fields after each operation -/

section
variable (source : IdSource σ) (m : Registers σ)

@[simp] theorem push_ids (entry : String → Entry) :
    (m.push source entry).ids = (source.next m.ids "element").2 := rfl

@[simp] theorem push_entries (entry : String → Entry) : (m.push source entry).entries =
    m.entries ++ [entry (source.next m.ids "element").1] := rfl

@[simp] theorem push_store (entry : String → Entry) : (m.push source entry).store = m.store := rfl

@[simp] theorem push_elements (entry : String → Entry) : (m.push source entry).elements =
    m.elements ++ [(entry (source.next m.ids "element").1).element m.store] := by
  simp [elements]

@[simp] theorem openChoice_ids (indent : Nat) (head : String × Option String) :
    (m.openChoice source indent head).ids = (source.next m.ids "choice").2 := rfl

@[simp] theorem openChoice_store (indent : Nat) (head : String × Option String) :
    (m.openChoice source indent head).store =
      m.store ++ [⟨(source.next m.ids "choice").1, head.1, head.2, []⟩] := rfl

@[simp] theorem openChoice_choices (indent : Nat) (head : String × Option String) :
    (m.openChoice source indent head).choices = m.choices ++ [m.store.length] := rfl

@[simp] theorem openChoice_current (indent : Nat) (head : String × Option String) :
    (m.openChoice source indent head).current = some m.store.length := rfl

end

/-! ## The store -/

theorem choicesAt_range' (closed opened : List Choice) :
    choicesAt (closed ++ opened) (List.range' closed.length opened.length) = opened := by
  induction opened generalizing closed with
  | nil => rfl
  | cons c opened ih =>
    have ih := ih (closed ++ [c])
    rw [List.append_assoc, List.length_append] at ih
    rw [choicesAt, List.length_cons, List.range'_succ, List.filterMap_cons_some (b := c) (by simp)]
    exact congrArg (c :: ·) ih

/-- A store is read below `n` as any store that is the same there. -/
theorem element_congr {store store' : List Choice} {n : Nat} {e : Entry} (h : e.Below n)
    (hs : ∀ i < n, store'[i]? = store[i]?) : e.element store' = e.element store := by
  cases e with
  | statement id s => rfl
  | menu id numbers =>
    exact congrArg (Element.menu id) (List.filterMap_congr fun i hi => hs i (h i hi))

theorem below_mono {n n' : Nat} {e : Entry} (h : e.Below n) (hn : n ≤ n') : e.Below n' := by
  cases e with
  | statement id s => trivial
  | menu id numbers => exact fun i hi => Nat.lt_of_lt_of_le (h i hi) hn

/-! ## Simulation -/

/-- The mode of a phase. -/
def modeOf : Phase → Mode
  | .idle => .idle
  | .menu _ => .inMenu
  | .choice .. => .inChoice

/-- Registers and the reader that they show. The choices of the open menu are the last of the store,
and those of the entries stand before them; so the current choice is the last of all. -/
structure Shows (m : Registers σ) (r : Reader σ) : Prop where
  ids : m.ids = r.ids
  characters : m.characters = r.characters
  elements : m.elements = r.elements
  label : m.label = r.label
  skipped : m.skipped = r.skipped
  events : m.events = r.events
  mode : m.mode = modeOf r.phase
  menuIndent : ∀ k ∈ r.phase.menuIndent?, m.menuIndent = k
  choiceIndent : ∀ k ∈ r.phase.choiceIndent?, m.choiceIndent = k
  current : m.current = m.choices.getLast?
  store : ∃ closed, m.store = closed ++ r.phase.choices ∧
    m.choices = List.range' closed.length r.phase.choices.length ∧
    ∀ e ∈ m.entries, e.Below closed.length

namespace Shows

variable (source : IdSource σ) {m : Registers σ} {r : Reader σ} {line : SourceLine}

theorem start (ids : σ) : (start ids).Shows (Reader.start ids) where
  ids := rfl
  characters := rfl
  elements := rfl
  label := rfl
  skipped := rfl
  events := rfl
  mode := rfl
  menuIndent := by simp [Reader.start, Phase.menuIndent?]
  choiceIndent := by simp [Reader.start, Phase.choiceIndent?]
  current := rfl
  store := ⟨[], rfl, rfl, by simp [Registers.start]⟩

theorem mode_eq_idle_iff (h : m.Shows r) : m.mode = .idle ↔ r.phase = .idle := by
  rw [h.mode]
  cases r.phase <;> simp [modeOf]

theorem exists_menu (h : m.Shows r) (hm : m.mode = .inMenu) : ∃ k, r.phase = .menu k := by
  rw [h.mode] at hm
  cases hp : r.phase with
  | menu k => exact ⟨k, rfl⟩
  | idle => rw [hp] at hm; cases hm
  | choice k earlier ci current => rw [hp] at hm; cases hm

theorem exists_choice (h : m.Shows r) (hm : m.mode = .inChoice) :
    ∃ k earlier ci current, r.phase = .choice k earlier ci current := by
  rw [h.mode] at hm
  cases hp : r.phase with
  | choice k earlier ci current => exact ⟨k, earlier, ci, current, rfl⟩
  | idle => rw [hp] at hm; cases hm
  | menu k => rw [hp] at hm; cases hm

theorem opened (h : m.Shows r) : m.opened = r.phase.choices := by
  obtain ⟨closed, hstore, hchoices, -⟩ := h.store
  rw [Registers.opened, hstore, hchoices, choicesAt_range']

/-- Registers that show a reader describe it. -/
theorem reader?_eq (h : m.Shows r) : m.reader? = some r := by
  have hphase : m.phase? = some r.phase := by
    have hmode := h.mode
    have hmenu := h.menuIndent
    have hchoice := h.choiceIndent
    rw [phase?, h.opened]
    cases hp : r.phase with
    | idle => rw [hmode, hp]; rfl
    | menu k =>
      rw [hp] at hmenu
      rw [hmode, hp, ← hmenu k rfl]
      rfl
    | choice k earlier ci current =>
      rw [hp] at hmenu hchoice
      rw [hmode, hp, ← hmenu k rfl, ← hchoice ci rfl]
      simp [modeOf]
  rw [reader?, hphase, h.ids, h.characters, h.elements, h.label, h.skipped, h.events]
  rfl

/-! ### What each operation shows -/

theorem skip (h : m.Shows r) (line : SourceLine) : (m.skip line).Shows (r.skip line) :=
  { h with
    skipped := congrArg (· + 1) h.skipped
    events := by rw [Registers.skip, Reader.skip, h.events, h.label] }

theorem define (h : m.Shows r) (c : Character) :
    Shows { m with characters := m.characters ++ [c] }
      { r with characters := r.characters ++ [c] } :=
  { h with characters := congrArg (· ++ [c]) h.characters }

theorem emit (h : m.Shows r) (s : Statement) :
    (m.push source (.statement · s)).Shows (r.emit source s) := by
  obtain ⟨closed, hstore, hchoices, hbelow⟩ := h.store
  refine { h with ids := ?_, elements := ?_, store := ⟨closed, hstore, hchoices, ?_⟩ }
  · rw [push_ids, Reader.emit_ids, h.ids]
  · rw [push_elements, Reader.emit_elements, h.elements, h.ids]
    rfl
  · simpa [or_imp, forall_and, Entry.Below] using hbelow

theorem emitLabel (h : m.Shows r) (name : String) :
    Shows { m.push source (.statement · (.label name)) with label := some name }
      { r.emit source (.label name) with label := some name } :=
  { h.emit source (.label name) with label := rfl }

theorem openMenu (h : m.Shows r) (hp : r.phase = .idle) (indent : Nat) :
    (m.openMenu indent).Shows { r with phase := .menu indent } := by
  obtain ⟨closed, hstore, -, hbelow⟩ := h.store
  rw [hp] at hstore
  exact { h with
    mode := rfl
    menuIndent := fun k hk => Option.some.inj hk
    choiceIndent := by simp [Phase.choiceIndent?]
    current := rfl
    store := ⟨closed, hstore, rfl, hbelow⟩ }

/-- Closing the open menu leaves its choices in the store. -/
theorem close (h : m.Shows r) (hp : r.phase ≠ .idle) :
    (m.close source).Shows (r.close source) := by
  obtain ⟨closed, hstore, hchoices, hbelow⟩ := h.store
  have hids : (m.push source (.menu · m.choices)).ids = (source.next r.ids "element").2 := by
    rw [push_ids, h.ids]
  have helements : (m.push source (.menu · m.choices)).elements =
      r.elements ++ [.menu (source.next r.ids "element").1 r.phase.choices] := by
    rw [push_elements, h.elements, h.ids, ← h.opened]
    rfl
  have hall : ∀ e ∈ (m.push source (.menu · m.choices)).entries, e.Below m.store.length := by
    intro e he
    rw [hstore, List.length_append]
    rcases List.mem_append.1 he with he | he
    · exact below_mono (hbelow e he) (Nat.le_add_right ..)
    · rw [List.mem_singleton.1 he]
      intro i hi
      rw [hchoices] at hi
      exact (List.mem_range'_1.1 hi).2
  rw [Reader.close_open hp]
  exact { h with
    ids := hids
    elements := helements
    mode := rfl
    menuIndent := by simp [Phase.menuIndent?]
    choiceIndent := by simp [Phase.choiceIndent?]
    current := rfl
    store := ⟨m.store, (List.append_nil _).symm, rfl, hall⟩ }

theorem openChoice (h : m.Shows r) {k : Nat} (hk : r.phase.menuIndent? = some k) (indent : Nat)
    (head : String × Option String) :
    (m.openChoice source indent head).Shows
      (r.openChoice source k r.phase.choices indent head) := by
  obtain ⟨closed, hstore, hchoices, hbelow⟩ := h.store
  have hsame : ∀ c, ∀ i < closed.length, (m.store ++ [c])[i]? = m.store[i]? := by
    intro c i hi
    rw [List.getElem?_append_left (by rw [hstore, List.length_append]; omega)]
  refine { h with
    ids := ?_
    elements := ?_
    mode := rfl
    menuIndent := fun k' hk' => h.menuIndent k' (hk.trans hk')
    choiceIndent := fun ci hci => Option.some.inj hci
    current := ?_
    store := ⟨closed, ?_, ?_, hbelow⟩ }
  · rw [openChoice_ids, Reader.openChoice_ids, h.ids]
  · rw [Reader.openChoice_elements, ← h.elements]
    exact List.map_congr_left fun e he => element_congr (hbelow e he) (hsame _)
  · rw [openChoice_current, openChoice_choices, List.getLast?_concat]
  · rw [openChoice_store, Reader.openChoice_phase, Phase.choices_choice, h.ids, hstore,
      List.append_assoc]
  · rw [openChoice_choices, Reader.openChoice_phase, Phase.choices_choice, hchoices, hstore]
    simp [List.range'_concat]

/-- **Text finds its choice.** In a choice there is a current one, the last of all, so that what is
added to it changes no entry. -/
theorem addAction (h : m.Shows r) {k : Nat} {earlier : List Choice} {ci : Nat} {current : Choice}
    (hp : r.phase = .choice k earlier ci current) (s : Statement) :
    ∃ m', m.addAction? source s = some m' ∧
      m'.Shows (r.addAction source k earlier ci current s) := by
  obtain ⟨closed, hstore, hchoices, hbelow⟩ := h.store
  rw [hp, Phase.choices_choice, ← List.append_assoc] at hstore
  rw [hp, Phase.choices_choice, List.length_append] at hchoices
  have hcurrent : m.current = some (closed ++ earlier).length := by
    rw [h.current, hchoices, List.length_append]
    simp [List.range'_concat]
  have hfound : m.store[(closed ++ earlier).length]? = some current := by
    rw [hstore, List.getElem?_concat_length]
  let new : Choice :=
    { current with actions := current.actions ++ [.statement (source.next r.ids "element").1 s] }
  have hset : m.store.set (closed ++ earlier).length new = closed ++ (earlier ++ [new]) := by
    rw [hstore, List.set_append_right _ _ (Nat.le_refl _), Nat.sub_self, List.append_assoc]
    rfl
  have hsame : ∀ i < closed.length,
      (m.store.set (closed ++ earlier).length new)[i]? = m.store[i]? := by
    intro i hi
    rw [List.getElem?_set_ne (by rw [List.length_append]; omega)]
  refine ⟨{ m with
    ids := (source.next r.ids "element").2
    store := m.store.set (closed ++ earlier).length new }, ?_, ?_⟩
  · simp only [addAction?, hcurrent, Option.bind_eq_bind, Option.bind_some, hfound, h.ids, new,
      Option.pure_def]
  · exact { h with
      ids := rfl
      elements := by
        rw [Reader.addAction_elements, ← h.elements]
        exact List.map_congr_left fun e he => element_congr (hbelow e he) hsame
      mode := by rw [h.mode, hp]; rfl
      menuIndent := fun k' hk' => h.menuIndent k' (by rw [hp]; exact hk')
      choiceIndent := fun ci' hci' => h.choiceIndent ci' (by rw [hp]; exact hci')
      current := h.current
      store := ⟨closed, hset, by simp [hchoices], hbelow⟩ }

/-! ### Lines and calls -/

theorem stepPlain (h : m.Shows r) (hp : r.phase = .idle) (line : SourceLine) :
    (m.stepPlain source line).Shows (r.stepPlain source line) := by
  unfold Registers.stepPlain
  split
  · rename_i hread
    rw [Reader.stepPlain, hread]
    exact h.skip line
  · rename_i c hread
    rw [Reader.stepPlain, hread]
    exact h.define c
  · rename_i hread
    rw [Reader.stepPlain, hread]
    exact h.openMenu hp line.indent
  · rename_i name hread
    rw [Reader.stepPlain, hread]
    exact h.emitLabel source name
  · rename_i s hs hread
    rw [Reader.stepPlain_of_ne_label source hread hs]
    exact h.emit source s

theorem stepMenu (h : m.Shows r) {k : Nat} (hp : r.phase = .menu k) (line : SourceLine) :
    ∃ m', m.stepOpen? source line = some m' ∧ m'.Shows (r.stepMenu source k line) := by
  have hmode : m.mode = .inMenu := by rw [h.mode, hp]; rfl
  rw [stepOpen?, Reader.stepMenu]
  cases Line.readChoice? line.text with
  | some head =>
    have hopen := h.openChoice source (show _ = some k by rw [hp]; rfl) line.indent head
    rw [hp] at hopen
    exact ⟨_, if_pos (.inl hmode), hopen⟩
  | none => exact ⟨_, if_neg (by simp [hmode]), h.skip line⟩

/-- Registers ask for the form of a choice before the depth of the line, and readers for the depth
before the form. -/
theorem stepChoice (h : m.Shows r) {k : Nat} {earlier : List Choice} {ci : Nat} {current : Choice}
    (hp : r.phase = .choice k earlier ci current) (line : SourceLine) :
    ∃ m', m.stepOpen? source line = some m' ∧
      m'.Shows (r.stepChoice source k earlier ci current line) := by
  have hmode : m.mode = .inChoice := by rw [h.mode, hp]; rfl
  have hindent : m.choiceIndent = ci := h.choiceIndent ci (by rw [hp]; rfl)
  rw [Reader.stepChoice]
  by_cases hle : line.indent ≤ ci
  · have htext : m.stepText? source line = some (m.skip line) :=
      if_neg fun hlt => Nat.not_lt.2 (hindent ▸ hle) hlt.2
    rw [if_pos hle, stepOpen?]
    cases Line.readChoice? line.text with
    | some head =>
      have hopen := h.openChoice source (show _ = some k by rw [hp]; rfl) line.indent head
      rw [hp] at hopen
      exact ⟨_, if_pos (.inr (hindent ▸ hle)), hopen⟩
    | none => exact ⟨_, htext, h.skip line⟩
  · have htext : m.stepOpen? source line = m.stepText? source line := by
      rw [stepOpen?]
      split
      · exact if_neg (by simpa [hmode, hindent] using hle)
      · rfl
    rw [if_neg hle, htext, stepText?, if_pos ⟨hmode, by omega⟩]
    cases Line.readAction? line.text with
    | some s => exact h.addAction source hp s
    | none => exact ⟨_, rfl, h.skip line⟩

theorem stepOpen (h : m.Shows r) {k : Nat} (hk : r.phase.menuIndent? = some k)
    (hlt : k < line.indent) :
    ∃ m', m.stepOpen? source line = some m' ∧ m'.Shows (r.step source line) := by
  rw [Reader.step]
  cases hp : r.phase with
  | idle => rw [hp] at hk; cases hk
  | menu k' =>
    rw [hp] at hk
    cases hk
    simpa only [if_pos hlt] using h.stepMenu source hp line
  | choice k' earlier ci current =>
    rw [hp] at hk
    cases hk
    simpa only [if_pos hlt] using h.stepChoice source hp line

theorem step (h : m.Shows r) (line : SourceLine) :
    ∃ m', m.step? source line = some m' ∧ m'.Shows (r.step source line) := by
  rw [step?]
  cases hk : r.phase.menuIndent? with
  | none =>
    have hp := Reader.Phase.eq_idle_of_menuIndent? hk
    rw [Reader.step, hp]
    exact ⟨_, if_pos (h.mode_eq_idle_iff.2 hp), h.stepPlain source hp line⟩
  | some k =>
    have hp : r.phase ≠ .idle := fun hp => by rw [hp] at hk; cases hk
    rw [if_neg (mt h.mode_eq_idle_iff.1 hp), h.menuIndent k hk]
    by_cases hlt : k < line.indent
    · rw [if_pos hlt]
      exact h.stepOpen source hk hlt
    · rw [if_neg hlt, Reader.step_of_indent_le source fun k' hk' => by
        rw [hk] at hk'; cases hk'; omega]
      exact ⟨_, rfl, (h.close source hp).stepPlain source (Reader.close_phase r) line⟩

theorem closeOpen (h : m.Shows r) : (m.closeOpen source).Shows (r.close source) := by
  rw [Registers.closeOpen]
  split
  · rename_i hidle
    rw [Reader.close_idle (h.mode_eq_idle_iff.1 hidle)]
    exact h
  · rename_i hopen
    exact h.close source fun hp => hopen (h.mode_eq_idle_iff.2 hp)

theorem finish (h : m.Shows r) : (m.finish source).Shows (r.finish source) := by
  have hclose := h.closeOpen source
  have hlength := congrArg List.length hclose.elements
  rw [Registers.elements, List.length_map] at hlength
  exact { hclose with
    events := by
      rw [Registers.finish, Reader.finish, hclose.events, hclose.skipped, hclose.characters,
        hlength] }

/-- **A call** fails on no registers that show a reader, and they show it afterwards. -/
theorem call (h : m.Shows r) (c : Call) :
    ∃ m', m.call? source c = some m' ∧ m'.Shows (r.call source c) := by
  cases c with
  | finish => exact ⟨_, rfl, h.finish source⟩
  | feed number raw =>
    rw [call?, readRaw?, Reader.call, Reader.readRaw, Reader.readLine]
    split
    · exact ⟨m, rfl, h⟩
    · exact h.step source _

end Shows

/-! ## Consistency -/

section
variable {source : IdSource σ} {m m' : Registers σ} {r : Reader σ} {line : SourceLine}

/-- Registers that show a reader agree with one another. -/
theorem Shows.consistent (h : m.Shows r) (hdeep : r.ChoiceDeeper) (hlabel : r.KnowsLabel) :
    m.Consistent := by
  obtain ⟨closed, hstore, hchoices, -⟩ := h.store
  have hcurrent := h.current
  have hnone : r.phase.choices = [] → m.choices = [] ∧ m.current = none := by
    intro hp
    rw [hp] at hchoices
    rw [hcurrent, hchoices]
    exact ⟨rfl, rfl⟩
  refine ⟨fun hm => hnone ?_, fun hm => hnone ?_, fun hm => ?_, fun i hi => ?_, ?_⟩
  · rw [h.mode_eq_idle_iff.1 hm]
    rfl
  · obtain ⟨k, hp⟩ := h.exists_menu hm
    rw [hp]
    rfl
  · obtain ⟨k, earlier, ci, current, hp⟩ := h.exists_choice hm
    rw [h.menuIndent k (by rw [hp]; rfl), h.choiceIndent ci (by rw [hp]; rfl)]
    refine ⟨?_, hcurrent, hdeep k (by rw [hp]; rfl) ci (by rw [hp]; rfl)⟩
    rw [hchoices, hp]
    simp
  · rw [hcurrent, hchoices, List.getLast?_range'] at hi
    rw [hstore, List.length_append]
    split at hi
    · cases hi
    · cases hi
      omega
  · rw [h.label, h.elements]
    exact hlabel

/-! ## Beside an open menu -/

theorem fromMenu_skip (h : m.mode ≠ .idle) (line : SourceLine) : m.FromMenu (m.skip line) :=
  .stays h rfl (List.prefix_refl _) rfl

theorem fromMenu_openChoice (indent : Nat) (head : String × Option String) :
    m.FromMenu (m.openChoice source indent head) :=
  .stays Mode.noConfusion rfl (List.prefix_append _ _) rfl

theorem fromMenu_addAction? (h : m.mode ≠ .idle) {s : Statement}
    (hs : m.addAction? source s = some m') : m.FromMenu m' := by
  obtain ⟨i, -, hs⟩ := Option.bind_eq_some_iff.1 hs
  obtain ⟨c, -, hs⟩ := Option.bind_eq_some_iff.1 hs
  cases hs
  exact .stays h rfl (List.prefix_refl _) rfl

theorem fromMenu_stepText? (h : m.mode ≠ .idle) (hs : m.stepText? source line = some m') :
    m.FromMenu m' := by
  unfold stepText? at hs
  split at hs
  · split at hs
    · exact fromMenu_addAction? h hs
    · cases hs
      exact fromMenu_skip h line
  · cases hs
    exact fromMenu_skip h line

theorem fromMenu_stepOpen? (h : m.mode ≠ .idle) (hs : m.stepOpen? source line = some m') :
    m.FromMenu m' := by
  unfold stepOpen? at hs
  split at hs
  · split at hs
    · cases hs
      exact fromMenu_openChoice _ _
    · exact fromMenu_stepText? h hs
  · exact fromMenu_stepText? h hs

/-- A line of its own adds one entry at most, and none if it opens a menu. -/
theorem exists_stepPlain_entries (source : IdSource σ) (h : m.mode = .idle) (line : SourceLine) :
    ∃ rest, (m.stepPlain source line).entries = m.entries ++ rest ∧ rest.length ≤ 1 ∧
      ((m.stepPlain source line).mode ≠ .idle →
        rest = [] ∧ (m.stepPlain source line).choices = []) := by
  unfold stepPlain
  split
  · exact ⟨[], by simp [skip], by simp, fun hm => absurd h hm⟩
  · exact ⟨[], by simp, by simp, fun hm => absurd h hm⟩
  · exact ⟨[], by simp [openMenu], by simp, fun _ => ⟨rfl, rfl⟩⟩
  · rename_i name hread
    exact ⟨[.statement _ (.label name)], rfl, Nat.le_refl 1, fun hm => absurd h hm⟩
  · rename_i s hs hread
    exact ⟨[.statement _ s], rfl, Nat.le_refl 1, fun hm => absurd h hm⟩

theorem close_entries (m : Registers σ) : (m.close source).entries =
    m.entries ++ [.menu (source.next m.ids "element").1 m.choices] := rfl

theorem fromMenu_close (line : SourceLine) :
    m.FromMenu ((m.close source).stepPlain source line) := by
  have hidle : (m.close source).mode = .idle := rfl
  obtain ⟨rest, hentries, hlength, hopen⟩ := exists_stepPlain_entries source hidle line
  rw [close_entries, List.append_assoc] at hentries
  exact .closes _ rest hentries hlength hopen

theorem fromMenu_call? (h : m.mode ≠ .idle) {c : Call} (hs : m.call? source c = some m') :
    m.FromMenu m' := by
  cases c with
  | finish =>
    cases hs
    refine .closes (source.next m.ids "element").1 [] ?_ (Nat.zero_le _) fun hm => absurd ?_ hm
    · rw [finish, closeOpen, if_neg h]
      rfl
    · rw [finish, closeOpen, if_neg h]
      rfl
  | feed number raw =>
    rw [call?, readRaw?, step?, if_neg h] at hs
    split at hs
    · cases hs
      exact .stays h rfl (List.prefix_refl _) rfl
    · split at hs
      · exact fromMenu_stepOpen? h hs
      · cases hs
        exact fromMenu_close _

end

/-! ## Runs -/

variable (source : IdSource σ)

theorem exists_run_consistent {r : Reader σ} {m : Registers σ} (h : m.Shows r)
    (hdeep : r.ChoiceDeeper) (hlabel : r.KnowsLabel) (calls : List Call) :
    ∃ m', m.run? source calls = some m' ∧ m'.Shows (r.run source calls) ∧ m'.Consistent := by
  induction calls generalizing m r with
  | nil => exact ⟨m, rfl, h, h.consistent hdeep hlabel⟩
  | cons c calls ih =>
    obtain ⟨m₁, hcall, h₁⟩ := h.call source c
    obtain ⟨m₂, hrun, h₂⟩ := ih h₁ (hdeep.call source c) (hlabel.call source c)
    exact ⟨m₂, by rw [run?, List.foldlM_cons, hcall]; exact hrun, h₂⟩

/-- **Runs of separate registers.** Whatever new registers are asked to do, and whatever strings
they are fed, no step fails, and they describe the reader that was asked the same. Wherever they
stand they are consistent: outside a choice none is open and none is current, and in a choice the
current one is the last of those that are open and of all that were started, and deeper than its
menu; the label is that of the last label among the elements. So text finds a choice, and a call
from an open menu adds nothing beside it. -/
theorem run?_consistent (ids : σ) (calls : List Call) :
    ∃ m, (start ids).run? source calls = some m ∧
      m.reader? = some ((Reader.start ids).run source calls) ∧ m.Consistent ∧
      (m.mode = .inChoice → ∀ s, ∃ m', m.addAction? source s = some m') ∧
      ∀ c, ∃ m', m.call? source c = some m' ∧ (m.mode ≠ .idle → m.FromMenu m') := by
  obtain ⟨m, hrun, hshows, hconsistent⟩ :=
    exists_run_consistent source (Shows.start ids) (Reader.ChoiceDeeper.of_idle rfl) rfl calls
  refine ⟨m, hrun, hshows.reader?_eq, hconsistent, fun hm s => ?_, fun c => ?_⟩
  · obtain ⟨k, earlier, ci, current, hp⟩ := hshows.exists_choice hm
    obtain ⟨m', hadd, -⟩ := hshows.addAction source hp s
    exact ⟨m', hadd⟩
  · obtain ⟨m', hcall, -⟩ := hshows.call source c
    exact ⟨m', hcall, fun hm => fromMenu_call? hm hcall⟩

/-- Registers that no run reaches may have no choice for a text. -/
example : ({ start [] with mode := .inChoice } : Registers Counters).addAction? .perKind
    (.dialogue "Hi" none) = none := rfl

end Registers

end NovelScript
