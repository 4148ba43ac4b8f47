import NovelScript.Proofs.Ids

/-!
# Menus as blocks

The reading of a text in two levels, without phases. `Blocks.pieces` reads line by line at top
level; the head of a menu takes the maximal run of deeper lines as its block, and `Blocks.choices`
cuts a block at the heads of its choices. `Blocks.ofText_bare`: a reader, which goes through the
lines once and remembers only where it stands, comes to the same script.

The proof carries `Blocks.outcome`: the script that a reader will have read once it has gone
through the lines that are left. A step changes nothing in it (`outcome_step`).
-/

set_option autoImplicit false

namespace NovelScript

/-- What stands at the top level of a text: a member of the cast or an element. -/
inductive Piece where
  | character (c : Character)
  | element (e : Element)

namespace Piece

def character? : Piece → Option Character
  | character c => some c
  | element _ => none

def element? : Piece → Option Element
  | character _ => none
  | element e => some e

@[simp] theorem filterMap_character?_cons (c : Character) (ps : List Piece) :
    (character c :: ps).filterMap character? = c :: ps.filterMap character? := rfl

@[simp] theorem filterMap_character?_cons_element (e : Element) (ps : List Piece) :
    (element e :: ps).filterMap character? = ps.filterMap character? := rfl

@[simp] theorem filterMap_element?_cons (e : Element) (ps : List Piece) :
    (element e :: ps).filterMap element? = e :: ps.filterMap element? := rfl

@[simp] theorem filterMap_element?_cons_character (c : Character) (ps : List Piece) :
    (character c :: ps).filterMap element? = ps.filterMap element? := rfl

end Piece

/-- The members of the cast and the elements among the pieces, each in order. -/
def Script.ofPieces (ps : List Piece) : Script :=
  { characters := ps.filterMap Piece.character?
    elements := ps.filterMap Piece.element? }

namespace Blocks

/-! ## The two levels -/

/-- The lines that are neither blank nor comments. -/
def visible (lines : List SourceLine) : List SourceLine :=
  lines.filter (!·.isIgnored)

/-- Whether a line behind the head of a choice at indentation `k` is the head of the next one. -/
def opensNext (k : Nat) (line : SourceLine) : Bool :=
  line.indent ≤ k && (Line.readChoice? line.text).isSome

/-- What a line behind the head of a choice at indentation `k` adds to it: text that is indented
deeper and does not end in a colon. -/
def action? (k : Nat) (line : SourceLine) : Option Element :=
  if k < line.indent ∧ line.text.getLast? ≠ some ':' then
    (Line.readSpeech? line.text).map (.statement "")
  else none

/-- The choices of a block: each owns the lines up to the head of the next. -/
def choices : List SourceLine → List Choice
  | [] => []
  | line :: rest =>
    match Line.readChoice? line.text with
    | none => choices rest
    | some (text, condition) =>
      ⟨"", text, condition,
        (rest.takeWhile (!opensNext line.indent ·)).filterMap (action? line.indent)⟩ ::
          choices (rest.dropWhile (!opensNext line.indent ·))
termination_by lines => lines.length
decreasing_by
  · simp
  · exact Nat.lt_succ_of_le (List.dropWhile_suffix _).length_le

/-- The pieces of a text. The block of a menu is the maximal run of deeper lines behind its head;
the line behind the block is read as any other. -/
def pieces : List SourceLine → List Piece
  | [] => []
  | line :: rest =>
    match Line.read? line.text with
    | none => pieces rest
    | some (.define c) => .character c :: pieces rest
    | some (.statement s) => .element (.statement "" s) :: pieces rest
    | some .menu =>
      .element (.menu "" (choices (rest.takeWhile (line.indent < ·.indent)))) ::
        pieces (rest.dropWhile (line.indent < ·.indent))
termination_by lines => lines.length
decreasing_by
  · simp
  · simp
  · simp
  · exact Nat.lt_succ_of_le (List.dropWhile_suffix _).length_le

/-! ## What a reader has still to read -/

/-- The pieces that come of the lines that are left, the open menu first. -/
def upcoming (lines : List SourceLine) : Reader.Phase → List Piece
  | .idle => pieces lines
  | .menu k =>
    .element (.menu "" (choices (lines.takeWhile (k < ·.indent)))) ::
      pieces (lines.dropWhile (k < ·.indent))
  | .choice k earlier ci current =>
    let block := lines.takeWhile (k < ·.indent)
    let own := (block.takeWhile (!opensNext ci ·)).filterMap (action? ci)
    .element (.menu "" (earlier.map Choice.bare ++
      { current.bare with actions := current.actions.map Element.bare ++ own } ::
        choices (block.dropWhile (!opensNext ci ·)))) ::
      pieces (lines.dropWhile (k < ·.indent))

variable {σ : Type} {source : IdSource σ}

/-- The script that `r` will have read behind these lines, without ids. -/
def outcome (r : Reader σ) (lines : List SourceLine) : Script :=
  { characters := r.characters ++ (upcoming lines r.phase).filterMap Piece.character?
    elements := r.elements.map Element.bare ++ (upcoming lines r.phase).filterMap Piece.element? }

variable (source) in
/-- With no lines left, the outcome is what was read. -/
theorem outcome_nil (r : Reader σ) : outcome r [] = (r.close source).script.bare := by
  by_cases hp : r.phase = .idle
  · simp [outcome, hp, Reader.close_idle hp, upcoming, pieces, Reader.script, Script.bare]
  · rw [Reader.close_open hp]
    cases h : r.phase with
    | idle => exact absurd h hp
    | menu k =>
      simp [outcome, h, upcoming, choices, pieces, Reader.script,
        Script.bare, Reader.Phase.choices]
    | choice k earlier ci current =>
      simp [outcome, h, upcoming, choices, pieces, Reader.script,
        Script.bare, Choice.bare]

/-- A line that is not deeper than the open menu ends it. -/
theorem outcome_close {r : Reader σ} {line : SourceLine}
    (hk : ∀ k ∈ r.phase.menuIndent?, line.indent ≤ k) (rest : List SourceLine) :
    outcome (r.close source) (line :: rest) = outcome r (line :: rest) := by
  by_cases hp : r.phase = .idle
  · rw [Reader.close_idle hp]
  · rw [Reader.close_open hp]
    cases h : r.phase with
    | idle => exact absurd h hp
    | menu k =>
      have : ¬ k < line.indent := by
        have := hk k (by rw [h]; rfl)
        omega
      simp [outcome, h, upcoming, choices, this,
        Reader.Phase.choices]
    | choice k earlier ci current =>
      have : ¬ k < line.indent := by
        have := hk k (by rw [h]; rfl)
        omega
      simp [outcome, h, upcoming, choices, this, Choice.bare]

theorem outcome_stepPlain {r : Reader σ} (hp : r.phase = .idle) (line : SourceLine)
    (rest : List SourceLine) :
    outcome (r.stepPlain source line) rest = outcome r (line :: rest) := by
  unfold Reader.stepPlain
  split <;> rename_i h
  · simp [outcome, hp, upcoming, pieces, h]
  · simp [outcome, hp, upcoming, pieces, h]
  · simp [outcome, hp, upcoming, pieces, h]
  · simp [outcome, hp, upcoming, pieces, h]
  · simp [outcome, hp, upcoming, pieces, h]

theorem outcome_stepMenu {r : Reader σ} {k : Nat} (hp : r.phase = .menu k) {line : SourceLine}
    (hk : k < line.indent) (rest : List SourceLine) :
    outcome (r.stepMenu source k line) rest = outcome r (line :: rest) := by
  unfold Reader.stepMenu
  split <;> rename_i h
  · simp [outcome, hp, upcoming, hk, choices, h, Choice.bare]
  · simp [outcome, hp, upcoming, hk, choices, h]

theorem action?_eq {k : Nat} {line : SourceLine} (h : k < line.indent) :
    action? k line = (Line.readAction? line.text).map (.statement "") := by
  unfold action? Line.readAction?
  by_cases hl : line.text.getLast? = some ':' <;> simp [h, hl]

theorem outcome_stepChoice {r : Reader σ} {k ci : Nat} {earlier : List Choice} {current : Choice}
    (hp : r.phase = .choice k earlier ci current) {line : SourceLine} (hk : k < line.indent)
    (rest : List SourceLine) :
    outcome (r.stepChoice source k earlier ci current line) rest = outcome r (line :: rest) := by
  unfold Reader.stepChoice
  split
  · rename_i hc
    split <;> rename_i h
    · have ho : opensNext ci line = true := by simp [opensNext, hc, h]
      simp [outcome, hp, upcoming, hk, ho, choices, h, Choice.bare]
    · have ho : opensNext ci line = false := by simp [opensNext, h]
      have ha : action? ci line = none := by simp [action?, Nat.not_lt.2 hc]
      simp [outcome, hp, upcoming, hk, ho, ha]
  · rename_i hc
    have ho : opensNext ci line = false := by simp [opensNext, hc]
    have ha := action?_eq (Nat.lt_of_not_le hc)
    split <;> rename_i h
    · rw [h] at ha
      simp [outcome, hp, upcoming, hk, ho, ha, Choice.bare]
    · rw [h] at ha
      simp [outcome, hp, upcoming, hk, ho, ha]

/-- **A step** takes a line off those that are left and changes nothing in the outcome. -/
theorem outcome_step (r : Reader σ) (line : SourceLine) (rest : List SourceLine) :
    outcome (r.step source line) rest = outcome r (line :: rest) := by
  have hclose : (∀ k ∈ r.phase.menuIndent?, line.indent ≤ k) →
      outcome ((r.close source).stepPlain source line) rest = outcome r (line :: rest) :=
    fun hk => by rw [outcome_stepPlain (Reader.close_phase r), outcome_close hk]
  unfold Reader.step
  split
  · rename_i hp
    exact outcome_stepPlain hp line rest
  · rename_i k hp
    split
    · rename_i hk
      exact outcome_stepMenu hp hk rest
    · rename_i hk
      exact hclose fun _ h => by
        rw [hp] at h
        cases h
        exact Nat.le_of_not_lt hk
  · rename_i k earlier ci current hp
    split
    · rename_i hk
      exact outcome_stepChoice hp hk rest
    · rename_i hk
      exact hclose fun _ h => by
        rw [hp] at h
        cases h
        exact Nat.le_of_not_lt hk

variable (source) in
/-- **A run** comes to the outcome of the lines that say something. -/
theorem outcome_readLines (r : Reader σ) (lines : List SourceLine) :
    outcome (r.readLines source lines) [] = outcome r (visible lines) := by
  induction lines generalizing r with
  | nil => rfl
  | cons line lines ih =>
    rw [Reader.readLines, List.foldl_cons]
    refine (ih _).trans ?_
    unfold Reader.readLine
    by_cases hi : line.isIgnored = true
    · simp [hi, visible]
    · rw [if_neg hi, outcome_step]
      simp [hi, visible]

/-- The script of a reader that has gone through all lines, whatever their numbers. -/
theorem script_bare (ids : σ) (lines : List SourceLine) :
    (((Reader.start ids).readLines source lines).finish source).script.bare =
      Script.ofPieces (pieces (visible lines)) := by
  have h := outcome_readLines source (Reader.start ids) lines
  rw [outcome_nil source] at h
  exact h

end Blocks

/-- **Reading a text menu by menu.** Whatever the text and the ids, a reader that goes through the
lines once reads the pieces of the text, each menu from its block. -/
theorem Reader.ofText_bare_eq_blocks {σ : Type} (source : IdSource σ) (ids : σ) (text : String) :
    (Reader.ofText source ids text).script.bare =
      Script.ofPieces (Blocks.pieces (Blocks.visible (sourceLines text.toList))) :=
  Blocks.script_bare ids (sourceLines text.toList)

end NovelScript
