import NovelScript.Proofs.Texts

/-!
# The cast of a text

Every line outside a menu that defines a character adds it to the cast, whatever the cast holds
already (`Reader.ofText_characters`). So the ids of the cast are distinct just where no two of these
lines define the same id (`Reader.nodup_cast_iff`).
-/

set_option autoImplicit false

namespace NovelScript

open Blocks

/-- The character that a line defines. -/
def SourceLine.character? (line : SourceLine) : Option Character :=
  match Line.read? line.text with
  | some (.define c) => some c
  | _ => none

namespace Blocks

/-- The lines that stand in the block of no menu, the heads of menus among them. -/
def outside : List SourceLine → List SourceLine
  | [] => []
  | line :: rest =>
    if Line.read? line.text = some .menu then
      line :: outside (rest.dropWhile (line.indent < ·.indent))
    else line :: outside rest
termination_by lines => lines.length
decreasing_by
  · exact Nat.lt_succ_of_le (List.dropWhile_suffix _).length_le
  · simp

/-- The characters among the pieces of a text are those that lines outside menus define. -/
theorem filterMap_character?_pieces (lines : List SourceLine) :
    (pieces lines).filterMap Piece.character? = (outside lines).filterMap (·.character?) := by
  match lines with
  | [] => simp [pieces, outside]
  | line :: rest =>
    have hlen := (List.dropWhile_suffix (l := rest) (line.indent < ·.indent)).length_le
    have ih := filterMap_character?_pieces rest
    have ihBlock := filterMap_character?_pieces (rest.dropWhile (line.indent < ·.indent))
    rw [pieces, outside]
    split
    · rename_i h
      simp [h, ih, SourceLine.character?]
    · rename_i c h
      simp [h, ih, SourceLine.character?]
    · rename_i t h
      simp [h, ih, SourceLine.character?]
    · rename_i h
      simp [h, ihBlock, SourceLine.character?]
termination_by lines.length
decreasing_by
  · simp
  · simp only [List.length_cons]
    omega

end Blocks

namespace Reader

variable {σ : Type} (source : IdSource σ) (ids : σ)

/-- **The cast** of a text is what its lines outside menus define, in their order. -/
theorem ofText_characters (text : String) : (ofText source ids text).script.characters =
    (outside (shownLines text)).filterMap (·.character?) := by
  have hbare := congrArg Script.characters (ofText_bare source ids text)
  rw [← filterMap_character?_pieces]
  exact hbare

/-- **The ids of a cast.** Whatever the text, each line outside a menu that defines a character adds
it to the cast, the second of an id as the first; so the ids are pairwise distinct if and only if no
two of these lines define the same id. -/
theorem nodup_cast_iff (text : String) :
    (ofText source ids text).script.characters =
      (outside (shownLines text)).filterMap (·.character?) ∧
    (((ofText source ids text).script.characters.map (·.id)).Nodup ↔
      (outside (shownLines text)).Pairwise fun a b =>
        ∀ c ∈ a.character?, ∀ d ∈ b.character?, c.id ≠ d.id) := by
  have hcast := ofText_characters source ids text
  refine ⟨hcast, ?_⟩
  rw [hcast, List.Nodup, List.pairwise_map, List.pairwise_filterMap]
  rfl

/-- A character that is defined twice is twice in the cast. -/
theorem not_forall_nodup_cast :
    ¬ ∀ text : String, ((Script.ofText text).characters.map (·.id)).Nodup := by
  intro h
  have htwice : ¬ ((Script.ofText
      "define e = Character(\"Eve\")\ndefine e = Character(\"Eva\")").characters.map
        (·.id)).Nodup := by decide
  exact htwice (h _)

end Reader

end NovelScript
