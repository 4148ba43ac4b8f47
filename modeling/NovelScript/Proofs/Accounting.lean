import Mathlib.Algebra.Ring.Nat
import NovelScript.Proofs.Number.Decimals
import NovelScript.Proofs.Steps

/-!
# Every line is accounted for

A reader may be fed any lines and be told to finish at any time. Each line that it is fed and that
is neither blank nor a comment either adds one thing to what the reader holds (a member of the cast,
an element, the menu that is open, a choice or a line of text in one), or it is skipped and reported
(`Reader.step_accounts`). So no line is lost or counted twice, whatever the calls were, and the
reports are the messages on the skipped lines in their order, each with the number, the last label
and the text of its line (`Reader.run_accounts`).
-/

set_option autoImplicit false

namespace NovelScript

/-- The name of a label. -/
def Element.label? : Element → Option String
  | .statement _ (.label name) => some name
  | _ => none

/-- The name of the last label among elements. -/
def lastLabel? (es : List Element) : Option String :=
  (es.filterMap Element.label?).getLast?

/-- The choice and what it holds. -/
def Choice.size (c : Choice) : Nat :=
  1 + c.actions.length

/-- How many choices an element has, and how many elements these hold. -/
def Element.innerSize : Element → Nat
  | .statement .. => 0
  | .menu _ choices => (choices.map Choice.size).sum

namespace Reader

/-! ## Calls -/

/-- What a reader can be asked to do. -/
inductive Call where
  | feed (number : Int) (raw : String)
  | finish

namespace Call

/-- Whether a line is fed that is neither blank nor a comment. -/
def isShown : Call → Bool
  | feed _ raw =>
    match Text.trim raw.toList with
    | [] => false
    | c :: _ => c != '#'
  | finish => false

end Call

/-- How many menus are open. -/
def Phase.openMenus : Phase → Nat
  | idle => 0
  | menu _ => 1
  | choice .. => 1

/-- A line that was fed and of which nothing is held. -/
structure LostLine where
  number : Int
  /-- The name of the last label before it. -/
  label : Option String
  text : String

/-- What is to be reported on the line. -/
def LostLine.report (line : LostLine) : Log.Record where
  level := .debug
  logger := "renpy_transcoder.parser"
  message := "Line " ++ toString line.number ++ " (label " ++ line.label.getD "-" ++
    "): unrecognized, skipped: " ++ line.text

section
variable {σ : Type} (source : IdSource σ)

def call (r : Reader σ) : Call → Reader σ
  | .feed number raw => r.readRaw source number raw
  | .finish => r.finish source

/-- The reader behind some calls. -/
def run (r : Reader σ) (calls : List Call) : Reader σ :=
  calls.foldl (call source) r

/-! ## What is held and what is skipped -/

/-- How much was read: the cast, the elements, the open menu, and what stands in menus. -/
def held (r : Reader σ) : Nat :=
  r.characters.length + r.elements.length + r.phase.openMenus +
    (r.elements.map Element.innerSize).sum + (r.phase.choices.map Choice.size).sum

/-- The line of a call that is shown and of which nothing is held. -/
def lost? (r : Reader σ) : Call → Option LostLine
  | .feed number raw =>
    if (Call.feed number raw).isShown && (r.readRaw source number raw).held == r.held then
      some ⟨number, lastLabel? r.elements, String.ofList (Text.trim raw.toList)⟩
    else none
  | .finish => none

/-- The lines of some calls of which nothing is held, in their order. -/
def lost (r : Reader σ) : List Call → List LostLine
  | [] => []
  | c :: rest => (r.lost? source c).toList ++ lost (r.call source c) rest

end

/-- Whether a record reports a line, and not the totals of a text. -/
def isLineReport (record : Log.Record) : Bool :=
  "Line ".toList.isPrefixOf record.message.toList

/-- The records of lines among what a reader reported. -/
def lineReports {σ : Type} (r : Reader σ) : List Log.Record :=
  (r.events.map Event.record).filter isLineReport

/-! ## Events -/

theorem isLineReport_report (line : LostLine) : isLineReport line.report = true := by
  simp [isLineReport, LostLine.report]

theorem record_skipped (n : Int) (label : Option String) (text : List Char) :
    (Event.skipped n label text).record = LostLine.report ⟨n, label, String.ofList text⟩ := by
  rw [Event.record, Event.message, DecimalStyle.ofList_intText]
  rfl

theorem isLineReport_dropped (n : Nat) : isLineReport (Event.dropped n).record = false := by
  simp [isLineReport, Event.record, Event.message, List.isPrefixOf]

theorem isLineReport_parsed (n m : Nat) : isLineReport (Event.parsed n m).record = false := by
  simp [isLineReport, Event.record, Event.message, List.isPrefixOf]

/-! ## Closing and steps -/

section
variable {σ : Type} {source : IdSource σ} {line : SourceLine} {r r' : Reader σ}

theorem lastLabel?_append_menu (es : List Element) (id : String) (choices : List Choice) :
    lastLabel? (es ++ [.menu id choices]) = lastLabel? es := by
  simp [lastLabel?, Element.label?]

theorem lastLabel?_append_label (es : List Element) (id name : String) :
    lastLabel? (es ++ [.statement id (.label name)]) = some name := by
  simp [lastLabel?, Element.label?]

theorem lastLabel?_append_statement (es : List Element) (id : String) {s : Statement}
    (h : ∀ name, s ≠ .label name) : lastLabel? (es ++ [.statement id s]) = lastLabel? es := by
  have hnone : (Element.statement id s).label? = none := by
    unfold Element.label?
    split
    · rename_i heq
      cases heq
      exact absurd rfl (h _)
    · rfl
  simp [lastLabel?, hnone]

/-- A menu is held before it is closed as it is held behind. -/
theorem held_close (r : Reader σ) : (r.close source).held = r.held := by
  -- It counts as open before and as an element behind; its choices move from the phase into it.
  cases hp : r.phase with
  | idle => rw [close_idle hp]
  | menu k =>
    rw [close_open (by simp [hp])]
    simp [held, hp, Phase.openMenus, Phase.choices, Element.innerSize]
    omega
  | choice k earlier ci current =>
    rw [close_open (by simp [hp])]
    simp [held, hp, Phase.openMenus, Phase.choices, Element.innerSize]
    omega

@[simp] theorem close_skipped (r : Reader σ) : (r.close source).skipped = r.skipped := by
  by_cases h : r.phase = .idle
  · rw [close_idle h]
  · rw [close_open h]

@[simp] theorem close_events (r : Reader σ) : (r.close source).events = r.events := by
  by_cases h : r.phase = .idle
  · rw [close_idle h]
  · rw [close_open h]

@[simp] theorem close_label (r : Reader σ) : (r.close source).label = r.label := by
  by_cases h : r.phase = .idle
  · rw [close_idle h]
  · rw [close_open h]

@[simp] theorem openMenus_choice (k : Nat) (earlier : List Choice) (ci : Nat) (c : Choice) :
    (Phase.choice k earlier ci c).openMenus = 1 := rfl

theorem openMenus_of_menuIndent? {p : Phase} {k : Nat} (h : p.menuIndent? = some k) :
    p.openMenus = 1 := by
  cases p with
  | idle => cases h
  | menu k => rfl
  | choice k earlier ci current => rfl

theorem lastLabel?_close (r : Reader σ) :
    lastLabel? (r.close source).elements = lastLabel? r.elements := by
  by_cases h : r.phase = .idle
  · rw [close_idle h]
  · rw [close_open h]
    exact lastLabel?_append_menu ..

/-- What a line leads to either adds one thing to what is held, or the line is skipped. -/
theorem Acts.accounts (ha : Acts source line r r') :
    (r'.held = r.held + 1 ∧ r'.skipped = r.skipped ∧ r'.events = r.events) ∨ r' = r.skip line := by
  cases ha with
  | skip => exact .inr rfl
  | define hp =>
    refine .inl ⟨?_, rfl, rfl⟩
    simp [held]
    omega
  | openMenu hp =>
    refine .inl ⟨?_, rfl, rfl⟩
    simp [held, hp, Phase.openMenus, Phase.choices]
    omega
  | label hp =>
    refine .inl ⟨?_, rfl, rfl⟩
    simp [held, Element.innerSize]
    omega
  | emit hp =>
    refine .inl ⟨?_, rfl, rfl⟩
    simp [held, Element.innerSize]
    omega
  | openChoice hp =>
    refine .inl ⟨?_, rfl, rfl⟩
    simp [held, openMenus_of_menuIndent? hp, Choice.size]
    omega
  | addAction hp =>
    refine .inl ⟨?_, rfl, rfl⟩
    simp [held, hp, Choice.size]
    omega

/-- The label that a reader keeps is the last one that it emitted. -/
def KnowsLabel (r : Reader σ) : Prop := r.label = lastLabel? r.elements

theorem KnowsLabel.close (h : r.KnowsLabel) : (r.close source).KnowsLabel := by
  rw [KnowsLabel, close_label, lastLabel?_close]
  exact h

theorem KnowsLabel.acts (h : r.KnowsLabel) (ha : Acts source line r r') : r'.KnowsLabel := by
  cases ha with
  | skip => exact h
  | define hp => exact h
  | openMenu hp => exact h
  | label hp => exact (lastLabel?_append_label ..).symm
  | emit hp hr hs => exact h.trans (lastLabel?_append_statement _ _ hs).symm
  | openChoice hp => exact h
  | addAction hp => exact h

variable (source)

/-- **A step** adds one thing to what is held, or it skips the line and reports it under the last
label. -/
theorem step_accounts (h : r.KnowsLabel) (line : SourceLine) :
    ((r.step source line).held = r.held + 1 ∧ (r.step source line).skipped = r.skipped ∧
        (r.step source line).events = r.events) ∨
      ((r.step source line).held = r.held ∧ (r.step source line).skipped = r.skipped + 1 ∧
        (r.step source line).events =
          r.events ++ [.skipped line.number (lastLabel? r.elements) line.text]) := by
  rcases step_acts source r line with ha | ha
  · rcases ha.accounts with hadd | hskip
    · exact .inl hadd
    · rw [hskip, skip, ← h]
      exact .inr ⟨rfl, rfl, rfl⟩
  · rcases ha.accounts with hadd | hskip
    · rw [held_close, close_skipped, close_events] at hadd
      exact .inl hadd
    · have hheld : ((r.close source).skip line).held = (r.close source).held := rfl
      rw [hskip, hheld, held_close, skip, close_skipped, close_events, close_label, ← h]
      exact .inr ⟨rfl, rfl, rfl⟩

theorem KnowsLabel.step (h : r.KnowsLabel) (line : SourceLine) :
    (r.step source line).KnowsLabel := by
  rcases step_acts source r line with ha | ha
  · exact h.acts ha
  · exact h.close.acts ha

/-! ## Calls in turn -/

theorem isShown_feed (number : Int) (raw : String) :
    (Call.feed number raw).isShown = !(SourceLine.ofRaw number raw.toList).isIgnored := by
  rw [Call.isShown, SourceLine.isIgnored, SourceLine.ofRaw]
  cases Text.trim raw.toList with
  | nil => rfl
  | cons c s => simp [bne]

theorem readRaw_of_shown {number : Int} {raw : String} (h : (Call.feed number raw).isShown = true) :
    r.readRaw source number raw = r.step source (.ofRaw number raw.toList) := by
  rw [isShown_feed, Bool.not_eq_true'] at h
  rw [readRaw, readLine, h]
  rfl

theorem readRaw_of_not_shown {number : Int} {raw : String}
    (h : (Call.feed number raw).isShown = false) : r.readRaw source number raw = r := by
  rw [isShown_feed, Bool.not_eq_false'] at h
  rw [readRaw, readLine, h]
  rfl

theorem KnowsLabel.call (h : r.KnowsLabel) (c : Call) : (r.call source c).KnowsLabel := by
  cases c with
  | finish => exact h.close
  | feed number raw =>
    rw [Reader.call]
    cases hs : (Call.feed number raw).isShown with
    | true => rw [readRaw_of_shown source hs]; exact h.step source _
    | false => rw [readRaw_of_not_shown source hs]; exact h

/-- **A call** accounts for its line: it is held, or it is skipped and reported. -/
theorem call_accounts (h : r.KnowsLabel) (c : Call) :
    (r.call source c).held + (r.call source c).skipped =
        r.held + r.skipped + (if c.isShown then 1 else 0) ∧
      (r.call source c).skipped = r.skipped + (r.lost? source c).toList.length ∧
      (r.call source c).lineReports =
        r.lineReports ++ (r.lost? source c).toList.map LostLine.report := by
  cases c with
  | finish =>
    have hheld : (r.finish source).held = (r.close source).held := rfl
    have hskipped : (r.finish source).skipped = (r.close source).skipped := rfl
    have hreports : (r.finish source).lineReports = r.lineReports := by
      simp only [lineReports, finish, close_events, List.map_append, List.filter_append,
        List.map_cons, List.map_nil]
      split <;> simp [isLineReport_dropped, isLineReport_parsed]
    simp [call, lost?, Call.isShown, hheld, hskipped, hreports, held_close]
  | feed number raw =>
    cases hs : (Call.feed number raw).isShown with
    | false => simp [call, lost?, hs, readRaw_of_not_shown source hs]
    | true =>
      have hread := readRaw_of_shown (r := r) source hs
      rcases step_accounts source h (.ofRaw number raw.toList) with ⟨hh, hk, he⟩ | ⟨hh, hk, he⟩
      · have hheld : r.lost? source (.feed number raw) = none := by simp [lost?, hread, hh]
        rw [hheld, call, hread, lineReports, he, hk, hh]
        exact ⟨by simp; omega, rfl, (List.append_nil _).symm⟩
      · have hlost : r.lost? source (.feed number raw) =
            some ⟨number, lastLabel? r.elements, String.ofList (Text.trim raw.toList)⟩ := by
          simp [lost?, hs, hread, hh]
        rw [hlost, call, hread, lineReports, he, hk, hh]
        refine ⟨rfl, rfl, ?_⟩
        simp [lineReports, record_skipped, isLineReport_report, SourceLine.ofRaw]

theorem run_cons (c : Call) (calls : List Call) :
    r.run source (c :: calls) = (r.call source c).run source calls := rfl

/-- **A run** accounts for all its lines. -/
theorem run_accounts_from (h : r.KnowsLabel) (calls : List Call) :
    (r.run source calls).held + (r.run source calls).skipped =
        r.held + r.skipped + calls.countP Call.isShown ∧
      (r.run source calls).skipped = r.skipped + (r.lost source calls).length ∧
      (r.run source calls).lineReports =
        r.lineReports ++ (r.lost source calls).map LostLine.report := by
  induction calls generalizing r with
  | nil => simp [run, lost]
  | cons c calls ih =>
    obtain ⟨hheld, hskipped, hreports⟩ := call_accounts source h c
    obtain ⟨iheld, iskipped, ireports⟩ := ih (h.call source c)
    rw [run_cons, lost, List.countP_cons]
    refine ⟨by omega, ?_, ?_⟩
    · rw [iskipped, hskipped, List.length_append]
      omega
    · rw [ireports, hreports, List.map_append, List.append_assoc]

/-- **No line is lost or counted twice.** Whatever a new reader is asked to do, the lines it was fed
that are neither blank nor comments are as many as the things it holds and the lines it skipped. Its
reports of lines are one for each line it skipped, in their order, and each tells the number and the
text of the line and the name of the last label before it, or a dash where there is none. -/
theorem run_accounts (ids : σ) (calls : List Call) :
    calls.countP Call.isShown =
        ((start ids).run source calls).held + ((start ids).run source calls).skipped ∧
      ((start ids).lost source calls).length = ((start ids).run source calls).skipped ∧
      ((start ids).run source calls).lineReports =
        ((start ids).lost source calls).map fun line =>
          ⟨.debug, "renpy_transcoder.parser", "Line " ++ toString line.number ++ " (label " ++
            line.label.getD "-" ++ "): unrecognized, skipped: " ++ line.text⟩ := by
  have hstart : (start ids).KnowsLabel := rfl
  obtain ⟨hheld, hskipped, hreports⟩ := run_accounts_from source hstart calls
  have hnone : (start ids).held = 0 ∧ (start ids).skipped = 0 ∧ (start ids).lineReports = [] :=
    ⟨rfl, rfl, rfl⟩
  refine ⟨by omega, by omega, ?_⟩
  rw [hreports, hnone.2.2, List.nil_append]
  rfl

end

end Reader

end NovelScript
