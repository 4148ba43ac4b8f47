import NovelScript.Proofs.Pieces

/-!
# Reading what was written

`Script.reread` is what a reader makes of a written script, without ids. If no written line holds a
line break, the reader finds the lines as they were written (`Reader.ofText_bare_toText`), and
`Script.reread_eq_pieces` puts the outcome together from each character and each element alone.
-/

set_option autoImplicit false

namespace NovelScript

open Text Blocks

/-- Whether the text of a script has the lines that were written: none of them holds a break. -/
def Script.KeepsLines (s : Script) : Prop := ∀ line ∈ s.textLines, IsOneLine line

instance (s : Script) : Decidable s.KeepsLines := inferInstanceAs (Decidable (∀ line ∈ _, _))

/-- An empty line at the end, which a text loses, shows nothing. -/
theorem shown_lines_join {ls : List (List Char)} (h : ∀ l ∈ ls, IsOneLine l) :
    shown (lines (join ['\n'] ls)) = shown ls := by
  rw [lines_join h]
  split
  · rename_i hl
    obtain ⟨init, rfl⟩ := List.getLast?_eq_some_iff.1 hl
    rw [List.dropLast_concat, shown_append, shown_empty, List.append_nil]
  · rfl

section
variable {σ : Type} (source : IdSource σ) (ids : σ)

/-- **A written script** is read as the pieces of the lines that were written. -/
theorem Reader.ofText_bare_toText {s : Script} (h : s.KeepsLines) :
    (Reader.ofText source ids s.toText).script.bare = .ofPieces (pieces (shown s.textLines)) := by
  refine (Blocks.script_bare ids _).trans ?_
  rw [pieces_sourceLines, Script.toText, String.toList_ofList, shown_lines_join h]

/-- What a reader makes of the written script, without ids. -/
def Script.reread (s : Script) : Script :=
  (Reader.ofText source ids s.toText).script.bare

/-! ## Pieces alone -/

theorem Script.KeepsLines.character {s : Script} (h : s.KeepsLines) {c : Character}
    (hc : c ∈ s.characters) : ({ characters := [c] } : Script).KeepsLines := by
  intro line hline
  simp only [textLines, List.map_cons, List.map_nil, elementLines, List.append_nil] at hline
  rcases List.mem_append.1 hline with hline | hline
  · rw [List.mem_singleton] at hline
    refine h line (List.mem_append_left _ (List.mem_append_left _ ?_))
    exact hline ▸ List.mem_map_of_mem hc
  · have hempty : line = [] := by simpa using hline
    rw [hempty]
    exact fun _ hd => by cases hd

/-- The lines of an element at the first level hold what they hold at any other. -/
theorem Element.linesAt_zero (level : Nat) {e : Element} {line : List Char}
    (h : line ∈ e.linesAt 0) : ∃ deeper ∈ e.linesAt level, line ⊆ deeper := by
  cases e with
  | menu id choices =>
    refine ⟨levelText level ++ line, ?_, fun _ hc => List.mem_append_right _ hc⟩
    rw [linesAt, menuLines_eq_map]
    exact List.mem_map_of_mem h
  | statement id s =>
    simp only [linesAt, Option.mem_toList, Option.map_eq_some_iff] at h ⊢
    obtain ⟨l, hl, rfl⟩ := h
    refine ⟨_, ⟨l, hl, rfl⟩, ?_⟩
    cases s <;> exact fun _ hc => List.mem_append_right _ hc

theorem exists_linesAt_subset (level : Nat) {e : Element} : ∀ {es : List Element}, e ∈ es →
    ∃ own, e.linesAt own ⊆ elementLines level es
  | f :: es, h => by
    rw [elementLines_cons]
    rcases List.mem_cons.1 h with rfl | h
    · exact ⟨level, List.subset_append_left _ _⟩
    · obtain ⟨own, hown⟩ := exists_linesAt_subset (f.levelAfter level) h
      exact ⟨own, List.Subset.trans hown (List.subset_append_right _ _)⟩

theorem Script.KeepsLines.element {s : Script} (h : s.KeepsLines) {e : Element}
    (he : e ∈ s.elements) : ({ elements := [e] } : Script).KeepsLines := by
  intro line hline
  have hzero : line ∈ e.linesAt 0 := by
    rw [← elementLines_singleton]
    exact hline
  obtain ⟨own, hown⟩ := exists_linesAt_subset 0 he
  obtain ⟨deeper, hdeeper, hsub⟩ := Element.linesAt_zero own hzero
  have hone := h deeper (List.mem_append_right _ (hown hdeeper))
  exact fun c hc => hone c (hsub hc)

theorem Script.reread_character {c : Character}
    (h : ({ characters := [c] } : Script).KeepsLines) :
    Script.reread source ids { characters := [c] } = .ofPieces (pieces (shown [c.line])) := by
  refine (Reader.ofText_bare_toText source ids h).trans ?_
  rw [pieces_textLines _ (by simp), List.flatMap_singleton, List.flatMap_nil, List.append_nil]

theorem Script.reread_element {e : Element} (h : ({ elements := [e] } : Script).KeepsLines)
    (hs : e.startsBlank = false) :
    Script.reread source ids { elements := [e] } = .ofPieces (pieces (shown (e.linesAt 0))) := by
  refine (Reader.ofText_bare_toText source ids h).trans ?_
  rw [pieces_textLines _ (by simpa using hs), List.flatMap_nil, List.nil_append,
    List.flatMap_singleton]

/-- **A statement alone** is read for what its line says. -/
theorem Script.reread_statement (id : String) {s : Statement} {l : List Char}
    (hl : s.line? = some l) (hline : IsLine l)
    (hs : (Element.statement id s).startsBlank = false) :
    Script.reread source ids { elements := [.statement id s] } =
      .ofPieces (((Line.read? l).map Line.pieces).getD []) := by
  have hlines : (Element.statement id s).linesAt 0 = [l] := by
    rw [Element.linesAt, hl]
    cases s <;> rfl
  have hkeeps : ({ elements := [.statement id s] } : Script).KeepsLines := by
    intro line h
    have h : line ∈ (Element.statement id s).linesAt 0 := by
      rw [← elementLines_singleton]
      exact h
    rw [hlines, List.mem_singleton] at h
    rw [h]
    exact hline.2
  rw [reread_element source ids hkeeps hs, hlines, pieces_shown_singleton, hline.1]

/-- **A member of the cast alone** is read for what its line says. -/
theorem Script.reread_cast {c : Character} (hline : IsLine c.line) :
    Script.reread source ids { characters := [c] } =
      .ofPieces (((Line.read? c.line).map Line.pieces).getD []) := by
  have hkeeps : ({ characters := [c] } : Script).KeepsLines := by
    intro line h
    have h : line = c.line ∨ line = [] := by simpa [textLines, elementLines] using h
    rcases h with rfl | rfl
    · exact hline.2
    · exact fun _ hd => by cases hd
  rw [reread_character source ids hkeeps, pieces_shown_singleton, hline.1]

/-- **Losses stay local.** Whatever its fields hold, a script whose lines are kept, and in which no
speaker of a top-level text starts with a blank, is read as its characters and then its elements are
read, each written alone. -/
theorem Script.reread_eq_pieces {s : Script} (h : s.KeepsLines)
    (hs : ∀ e ∈ s.elements, e.startsBlank = false) :
    s.reread source ids =
      { characters :=
          s.characters.flatMap (fun c => (reread source ids { characters := [c] }).characters) ++
            s.elements.flatMap fun e => (reread source ids { elements := [e] }).characters
        elements :=
          s.characters.flatMap (fun c => (reread source ids { characters := [c] }).elements) ++
            s.elements.flatMap fun e => (reread source ids { elements := [e] }).elements } := by
  have hcast : ∀ c ∈ s.characters, reread source ids { characters := [c] } =
      .ofPieces (pieces (shown [c.line])) := fun c hc =>
    reread_character source ids (h.character hc)
  have hplay : ∀ e ∈ s.elements, reread source ids { elements := [e] } =
      .ofPieces (pieces (shown (e.linesAt 0))) := fun e he =>
    reread_element source ids (h.element he) (hs e he)
  have hwhole : s.reread source ids = .ofPieces (pieces (shown s.textLines)) :=
    Reader.ofText_bare_toText source ids h
  rw [hwhole, pieces_textLines s hs,
    List.flatMap_congr fun c hc => congrArg Script.characters (hcast c hc),
    List.flatMap_congr fun e he => congrArg Script.characters (hplay e he),
    List.flatMap_congr fun c hc => congrArg Script.elements (hcast c hc),
    List.flatMap_congr fun e he => congrArg Script.elements (hplay e he)]
  simp only [ofPieces, List.filterMap_append, List.filterMap_flatMap]

end

/-- A script that the text expresses badly: no name for a word of the cast, a keyword and a
definition as speakers, a nested menu, a condition, and labels and an image that are none. -/
def unruly : Script :=
  { characters := [⟨"", "Nobody", none⟩, ⟨"e", "Eve \\", some "#f\"f"⟩]
    elements := [
      .statement "1" (.dialogue "menu:" (some "menu")),
      .menu "2" [⟨"3", "Go", some "x == \"y\"", [.statement "4" (.dialogue "Text: " none),
        .statement "5" .goBack, .menu "6" []]⟩],
      .statement "7" (.label "a b"),
      .menu "8" [],
      .statement "9" (.showImage "screen" "" none),
      .statement "10" (.condition "x"),
      .statement "11" (.label "l: \"x"),
      .statement "12" (.dialogue "')" (some "define d = Character('D', color=\"x"))] }

theorem Script.reread_unruly : unruly.KeepsLines ∧
    (∀ e ∈ unruly.elements, e.startsBlank = false) ∧
    unruly.reread .perKind [] =
      { characters :=
          unruly.characters.flatMap
            (fun c => (reread .perKind [] { characters := [c] }).characters) ++
            unruly.elements.flatMap fun e => (reread .perKind [] { elements := [e] }).characters
        elements :=
          unruly.characters.flatMap
            (fun c => (reread .perKind [] { characters := [c] }).elements) ++
            unruly.elements.flatMap fun e => (reread .perKind [] { elements := [e] }).elements } :=
  have hlines : unruly.KeepsLines := by decide
  have hspeakers : ∀ e ∈ unruly.elements, e.startsBlank = false := by decide
  ⟨hlines, hspeakers, Script.reread_eq_pieces .perKind [] hlines hspeakers⟩

end NovelScript
