import NovelScript.Script.Reader

/-!
# What a reader does with a line

`Reader.Acts` lists the things a line can lead to, with what was read and in which phase.
`Reader.step_acts`: a step is one of them, after closing the open menu or without that. So a
property that closing a menu and each of these keep is kept by reading any lines
(`Reader.readLines_induction`).
-/

set_option autoImplicit false

namespace NovelScript.Reader

variable {σ : Type} (source : IdSource σ)

/-! ## The fields after each operation -/

@[simp] theorem Phase.choices_choice (k : Nat) (earlier : List Choice) (ci : Nat) (c : Choice) :
    (Phase.choice k earlier ci c).choices = earlier ++ [c] := rfl

section
variable (r : Reader σ)

@[simp] theorem emit_ids (s : Statement) :
    (r.emit source s).ids = (source.next r.ids "element").2 := rfl

@[simp] theorem emit_elements (s : Statement) : (r.emit source s).elements =
    r.elements ++ [.statement (source.next r.ids "element").1 s] := rfl

@[simp] theorem emit_phase (s : Statement) : (r.emit source s).phase = r.phase := rfl

@[simp] theorem emit_characters (s : Statement) : (r.emit source s).characters = r.characters := rfl

@[simp] theorem skip_ids (line : SourceLine) : (r.skip line).ids = r.ids := rfl

@[simp] theorem skip_elements (line : SourceLine) : (r.skip line).elements = r.elements := rfl

@[simp] theorem skip_phase (line : SourceLine) : (r.skip line).phase = r.phase := rfl

@[simp] theorem skip_characters (line : SourceLine) : (r.skip line).characters = r.characters := rfl

@[simp] theorem openChoice_elements (k : Nat) (earlier : List Choice) (ci : Nat)
    (head : String × Option String) :
    (r.openChoice source k earlier ci head).elements = r.elements := rfl

@[simp] theorem openChoice_characters (k : Nat) (earlier : List Choice) (ci : Nat)
    (head : String × Option String) :
    (r.openChoice source k earlier ci head).characters = r.characters := rfl

@[simp] theorem openChoice_ids (k : Nat) (earlier : List Choice) (ci : Nat)
    (head : String × Option String) :
    (r.openChoice source k earlier ci head).ids = (source.next r.ids "choice").2 := rfl

@[simp] theorem openChoice_phase (k : Nat) (earlier : List Choice) (ci : Nat)
    (head : String × Option String) : (r.openChoice source k earlier ci head).phase =
    .choice k earlier ci ⟨(source.next r.ids "choice").1, head.1, head.2, []⟩ := rfl

@[simp] theorem addAction_elements (k : Nat) (earlier : List Choice) (ci : Nat) (c : Choice)
    (s : Statement) : (r.addAction source k earlier ci c s).elements = r.elements := rfl

@[simp] theorem addAction_characters (k : Nat) (earlier : List Choice) (ci : Nat) (c : Choice)
    (s : Statement) : (r.addAction source k earlier ci c s).characters = r.characters := rfl

@[simp] theorem addAction_ids (k : Nat) (earlier : List Choice) (ci : Nat) (c : Choice)
    (s : Statement) :
    (r.addAction source k earlier ci c s).ids = (source.next r.ids "element").2 := rfl

@[simp] theorem addAction_phase (k : Nat) (earlier : List Choice) (ci : Nat) (c : Choice)
    (s : Statement) : (r.addAction source k earlier ci c s).phase = .choice k earlier ci
      { c with actions := c.actions ++ [.statement (source.next r.ids "element").1 s] } := rfl

end

/-! ## Closing -/

variable {source}
variable {r : Reader σ}

theorem close_idle (h : r.phase = .idle) : r.close source = r := by
  unfold close
  rw [h]

/-- Closing an open menu emits it. -/
theorem close_open (h : r.phase ≠ .idle) : r.close source =
    { r with
      ids := (source.next r.ids "element").2
      phase := .idle
      elements := r.elements ++ [.menu (source.next r.ids "element").1 r.phase.choices] } := by
  unfold close
  split
  · rename_i hp
    exact absurd hp h
  · rfl

@[simp] theorem close_phase (r : Reader σ) : (r.close source).phase = .idle := by
  by_cases h : r.phase = .idle
  · rw [close_idle h, h]
  · rw [close_open h]

@[simp] theorem close_characters (r : Reader σ) : (r.close source).characters = r.characters := by
  by_cases h : r.phase = .idle
  · rw [close_idle h]
  · rw [close_open h]

@[simp] theorem finish_characters (r : Reader σ) : (r.finish source).characters = r.characters := by
  simp [finish]

@[simp] theorem finish_elements (r : Reader σ) :
    (r.finish source).elements = (r.close source).elements := rfl

/-! ## Steps -/

variable (source)

/-- What a reader can do with a line. -/
inductive Acts (line : SourceLine) (r : Reader σ) : Reader σ → Prop
  | skip : Acts line r (r.skip line)
  | define {c : Character} (hp : r.phase = .idle) (h : Line.read? line.text = some (.define c)) :
    Acts line r { r with characters := r.characters ++ [c] }
  | openMenu (hp : r.phase = .idle) (h : Line.read? line.text = some .menu) :
    Acts line r { r with phase := .menu line.indent }
  | label {name : String} (hp : r.phase = .idle)
    (h : Line.read? line.text = some (.statement (.label name))) :
    Acts line r { r.emit source (.label name) with label := some name }
  | emit {s : Statement} (hp : r.phase = .idle) (h : Line.read? line.text = some (.statement s))
    (hl : ∀ name, s ≠ .label name) : Acts line r (r.emit source s)
  | openChoice {k : Nat} {head : String × Option String} (hp : r.phase.menuIndent? = some k)
    (hk : k < line.indent) (hc : ∀ ci ∈ r.phase.choiceIndent?, line.indent ≤ ci)
    (h : Line.readChoice? line.text = some head) :
    Acts line r (r.openChoice source k r.phase.choices line.indent head)
  | addAction {k : Nat} {earlier : List Choice} {ci : Nat} {current : Choice} {s : Statement}
    (hp : r.phase = .choice k earlier ci current) (hk : k < line.indent) (hc : ci < line.indent)
    (h : Line.readAction? line.text = some s) :
    Acts line r (r.addAction source k earlier ci current s)

theorem stepPlain_of_ne_label {line : SourceLine} {s : Statement}
    (h : Line.read? line.text = some (.statement s)) (hs : ∀ name, s ≠ .label name) :
    r.stepPlain source line = r.emit source s := by
  unfold stepPlain
  cases s with
  | label name => exact absurd rfl (hs name)
  | _ => rw [h]

theorem stepPlain_acts {line : SourceLine} (hp : r.phase = .idle) :
    Acts source line r (r.stepPlain source line) := by
  unfold stepPlain
  split
  · exact .skip
  · exact .define hp ‹_›
  · exact .openMenu hp ‹_›
  · exact .label hp ‹_›
  · rename_i s hs h
    exact .emit hp h hs

/-- **A step** does one of these, with the open menu or after closing it. -/
theorem step_acts (r : Reader σ) (line : SourceLine) :
    Acts source line r (r.step source line) ∨
      Acts source line (r.close source) (r.step source line) := by
  unfold step
  split
  · rename_i hp
    exact .inl (stepPlain_acts source hp)
  · rename_i k hp
    split
    · rename_i hk
      left
      unfold stepMenu
      split
      · rename_i head h
        have hopen : Acts source line r (r.openChoice source k r.phase.choices line.indent head) :=
          .openChoice (by rw [hp]; rfl) hk (by rw [hp]; simp [Phase.choiceIndent?]) h
        rwa [hp] at hopen
      · exact .skip
    · exact .inr (stepPlain_acts source (close_phase r))
  · rename_i k earlier ci current hp
    split
    · rename_i hk
      left
      unfold stepChoice
      split
      · rename_i hc
        split
        · rename_i head h
          have hopen : Acts source line r
              (r.openChoice source k r.phase.choices line.indent head) :=
            .openChoice (by rw [hp]; rfl) hk (by rw [hp]; simpa [Phase.choiceIndent?] using hc) h
          rwa [hp] at hopen
        · exact .skip
      · rename_i hc
        split
        · exact .addAction hp hk (by omega) ‹_›
        · exact .skip
    · exact .inr (stepPlain_acts source (close_phase r))

/-- A line that is not deeper than the open menu is read by itself, after closing the menu. -/
theorem step_of_indent_le {line : SourceLine} (h : ∀ k ∈ r.phase.menuIndent?, line.indent ≤ k) :
    r.step source line = (r.close source).stepPlain source line := by
  unfold step
  split
  · rename_i hp
    rw [close_idle hp]
  · rename_i k hp
    rw [if_neg (Nat.not_lt.2 (h k (by rw [hp]; rfl)))]
  · rename_i k earlier ci current hp
    rw [if_neg (Nat.not_lt.2 (h k (by rw [hp]; rfl)))]

/-- A line as it is written that is not deeper than the open menu, and that is shown. -/
theorem readRaw_of_indent_le {number : Int} {raw : String}
    (hs : (SourceLine.ofRaw number raw.toList).isIgnored = false)
    (h : ∀ k ∈ r.phase.menuIndent?, (SourceLine.ofRaw number raw.toList).indent ≤ k) :
    r.readRaw source number raw =
      (r.close source).stepPlain source (.ofRaw number raw.toList) := by
  rw [readRaw, readLine, hs, if_neg Bool.false_ne_true, step_of_indent_le source h]

variable {source}

/-- **Reading lines** keeps what closing and each action on one of the lines keep. -/
theorem readLines_induction {P : Reader σ → Prop} {lines : List SourceLine}
    (hclose : ∀ r, P r → P (r.close source))
    (hacts : ∀ line ∈ lines, line.isIgnored = false → ∀ r r', Acts source line r r' → P r → P r')
    (h : P r) : P (r.readLines source lines) := by
  induction lines generalizing r with
  | nil => exact h
  | cons line lines ih =>
    refine ih (fun l hl => hacts l (.tail _ hl)) ?_
    unfold readLine
    split
    · exact h
    · rename_i hi
      have hi : line.isIgnored = false := by simpa using hi
      rcases step_acts source r line with ha | ha
      · exact hacts line (.head _) hi _ _ ha h
      · exact hacts line (.head _) hi _ _ ha (hclose r h)

end NovelScript.Reader
