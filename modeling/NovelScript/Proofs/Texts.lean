import NovelScript.Proofs.Accounting
import NovelScript.Proofs.Breaks
import NovelScript.Proofs.Layout

/-!
# What of a text decides its reading

A text is read for its `shownLines`: what stands on the lines that are neither blank nor comments,
and how deep it stands. Two texts are read alike (`Reader.Agrees`) where the shown lines have the
same pieces and are as many (`Reader.ofText_agrees`): the pieces settle what is read and which ids
are handed out, and every shown line that adds nothing to that is skipped
(`Reader.ofText_size_add_skipped`).
-/

set_option autoImplicit false

namespace NovelScript

open Text Blocks

/-! ## Shown lines -/

/-- The lines of a text that are neither blank nor comments, without their numbers. -/
def shownLines (text : String) : List SourceLine :=
  shown (lines text.toList)

/-- The source lines that are not ignored are the shown lines, but for the numbers. -/
theorem map_visible_sourceLines (text : String) :
    (visible (sourceLines text.toList)).map ({ · with number := 0 }) = shownLines text := by
  have hlines : (sourceLines text.toList).map ({ · with number := 0 }) =
      (lines text.toList).map (SourceLine.ofRaw 0) := by
    rw [sourceLines, List.map_map]
    conv_rhs => rw [← List.zipIdx_map_fst 0 (lines text.toList), List.map_map]
    rfl
  rw [shownLines, shown, ← hlines, visible, visible, List.filter_map]
  rfl

theorem length_visible_sourceLines (text : String) :
    (visible (sourceLines text.toList)).length = (shownLines text).length := by
  rw [← map_visible_sourceLines, List.length_map]

/-- Empty lines are not shown. -/
theorem shown_filter (raws : List (List Char)) : shown (raws.filter (· ≠ [])) = shown raws := by
  induction raws with
  | nil => rfl
  | cons raw raws ih =>
    have hcons (ws : List (List Char)) : shown (raw :: ws) = shown [raw] ++ shown ws :=
      shown_append [raw] ws
    by_cases h : raw = []
    · rw [List.filter_cons_of_neg (by simpa using h), ih, hcons, h, shown_empty, List.nil_append]
    · rw [List.filter_cons_of_pos (by simpa using h), hcons, ih, ← hcons]

/-- **A line break** parts the shown lines of a text. -/
theorem shown_lines_append {c : Char} (hc : isLineBreak c = true) (a b : List Char) :
    shown (lines (a ++ c :: b)) = shown (lines a) ++ shown (lines b) := by
  rw [← shown_filter, filter_lines_append hc, shown_append, shown_filter, shown_filter]

/-- A line break more at the end of a text is not shown. -/
theorem shown_lines_concat {c : Char} (hc : isLineBreak c = true) (a : List Char) :
    shown (lines (a ++ [c])) = shown (lines a) :=
  (shown_lines_append hc a []).trans (List.append_nil _)

/-! ## Readings -/

/-- How many things a script holds: its cast, its elements, and what stands in its menus. -/
def Script.size (s : Script) : Nat :=
  s.characters.length + s.elements.length + (s.elements.map Element.innerSize).sum

theorem Element.innerSize_bare (e : Element) : e.bare.innerSize = e.innerSize := by
  cases e with
  | statement => rfl
  | menu id choices =>
    rw [Element.bare_menu, innerSize, innerSize, List.map_map]
    refine congrArg List.sum (List.map_congr_left fun c _ => ?_)
    simp [Choice.size, Choice.bare]

theorem Script.size_bare (s : Script) : s.bare.size = s.size := by
  have hinner : (s.elements.map Element.bare).map Element.innerSize =
      s.elements.map Element.innerSize := by
    rw [List.map_map]
    exact List.map_congr_left fun e _ => e.innerSize_bare
  rw [size, size, bare, bareElements_eq_map, List.length_map, hinner]

namespace Reader

variable {σ : Type}

/-- Whether two readers have read the same script, ids included, with the same state of the ids
behind it, and skipped as many lines. -/
structure Agrees (r₁ r₂ : Reader σ) : Prop where
  script : r₁.script = r₂.script
  ids : r₁.ids = r₂.ids
  skipped : r₁.skipped = r₂.skipped

variable (source : IdSource σ)

/-- A step holds or skips its line. -/
theorem step_held_add_skipped (r : Reader σ) (line : SourceLine) :
    (r.step source line).held + (r.step source line).skipped = r.held + r.skipped + 1 := by
  have hacts : ∀ {r r' : Reader σ}, Acts source line r r' →
      r'.held + r'.skipped = r.held + r.skipped + 1 := by
    intro r r' ha
    rcases ha.accounts with ⟨hheld, hskipped, -⟩ | hskip
    · omega
    · have hheld : (r.skip line).held = r.held := rfl
      have hskipped : (r.skip line).skipped = r.skipped + 1 := rfl
      rw [hskip, hheld, hskipped]
      omega
  rcases step_acts source r line with ha | ha
  · exact hacts ha
  · rw [hacts ha, held_close, close_skipped]

/-- A run holds or skips all lines but those that it ignores. -/
theorem readLines_held_add_skipped (r : Reader σ) (lines : List SourceLine) :
    (r.readLines source lines).held + (r.readLines source lines).skipped =
      r.held + r.skipped + (visible lines).length := by
  induction lines generalizing r with
  | nil => rfl
  | cons line lines ih =>
    refine (ih (r.readLine source line)).trans ?_
    unfold readLine
    by_cases hi : line.isIgnored = true
    · simp [hi, visible]
    · rw [if_neg hi, step_held_add_skipped]
      simp [hi, visible]
      omega

/-- A reader that has finished holds what its script holds. -/
theorem held_finish (r : Reader σ) : (r.finish source).held = (r.finish source).script.size := by
  have hphase : (r.finish source).phase = .idle := close_phase r
  simp [held, hphase, Phase.openMenus, Phase.choices, Script.size, script]

section
variable (ids : σ)

/-- **Every shown line** of a text adds one thing to the script, or it is skipped. -/
theorem ofText_size_add_skipped (text : String) :
    (ofText source ids text).script.size + (ofText source ids text).skipped =
      (shownLines text).length := by
  have hrun := readLines_held_add_skipped source (start ids) (sourceLines text.toList)
  have hstart : (start ids : Reader σ).held + (start ids).skipped = 0 := rfl
  rw [hstart, Nat.zero_add, length_visible_sourceLines] at hrun
  have hskipped : (ofText source ids text).skipped =
      ((start ids).readLines source (sourceLines text.toList)).skipped := close_skipped _
  have hheld : (ofText source ids text).held =
      ((start ids).readLines source (sourceLines text.toList)).held := held_close _
  rw [ofText, held_finish] at hheld
  rw [← hrun, hskipped, ← hheld]
  rfl

/-- What a text is read as, without ids. -/
theorem ofText_bare (text : String) :
    (ofText source ids text).script.bare = .ofPieces (pieces (shownLines text)) :=
  (script_bare ids _).trans (congrArg Script.ofPieces (pieces_sourceLines text.toList))

variable {source ids} in
/-- The ids of a text that is read as a script, ids aside, are those that the script is given. -/
theorem ofText_eq_renewElements {text : String} {es : List Element}
    (h : bareElements (ofText source ids text).script.elements = bareElements es) :
    renewElements source ids es =
      ((ofText source ids text).script.elements, (ofText source ids text).ids) := by
  rw [← renewElements_bare, ← h, renewElements_bare, ofText_renewElements]

/-- Which lines are skipped, and what the rest is read as without ids, has nothing to do with where
the ids come from. -/
theorem ofText_bare_and_skipped {τ : Type} (source' : IdSource τ) (ids' : τ) (text : String) :
    (ofText source ids text).script.bare = (ofText source' ids' text).script.bare ∧
      (ofText source ids text).skipped = (ofText source' ids' text).skipped := by
  have hbare : (ofText source ids text).script.bare = (ofText source' ids' text).script.bare :=
    (ofText_bare source ids text).trans (ofText_bare source' ids' text).symm
  have hsize : (ofText source ids text).script.size = (ofText source' ids' text).script.size := by
    rw [← Script.size_bare, hbare, Script.size_bare]
  have h := ofText_size_add_skipped source ids text
  have h' := ofText_size_add_skipped source' ids' text
  exact ⟨hbare, by omega⟩

/-- **Two texts** are read alike if their shown lines have the same pieces and are as many. -/
theorem ofText_agrees {a b : String} (hp : pieces (shownLines a) = pieces (shownLines b))
    (hl : (shownLines a).length = (shownLines b).length) :
    (ofText source ids a).Agrees (ofText source ids b) := by
  have hbare : (ofText source ids a).script.bare = (ofText source ids b).script.bare := by
    rw [ofText_bare, ofText_bare, hp]
  have hscript : (ofText source ids a).script = (ofText source ids b).script := by
    rw [ofText_eq_renew source ids hbare, ofText_renew]
  have hids := ofText_eq_renewElements (congrArg Script.elements hbare)
  rw [ofText_renewElements, Prod.mk.injEq] at hids
  have ha := ofText_size_add_skipped source ids a
  have hb := ofText_size_add_skipped source ids b
  rw [hscript] at ha
  exact ⟨hscript, hids.2.symm, by omega⟩

end

end Reader

end NovelScript
