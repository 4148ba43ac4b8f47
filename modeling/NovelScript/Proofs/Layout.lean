import Mathlib.Data.List.Basic
import NovelScript.Proofs.Blocks
import NovelScript.Proofs.Text
import NovelScript.Script.Writer

/-!
# What the blocks of a text depend on

`Blocks.pieces_congr`: the pieces depend on the texts of the lines and on the order of their
indentations, not on their numbers or on how deep they stand. `Blocks.pieces_append`: the pieces of
two parts are those of the one and then those of the other, if no menu of the first part can take
the first line of the second.
-/

set_option autoImplicit false

namespace NovelScript.Blocks

open Text

/-! ## The order of the indentations -/

theorem takeWhile_congr {α : Type} {p q : α → Bool} : ∀ {as : List α}, (∀ a ∈ as, p a = q a) →
    as.takeWhile p = as.takeWhile q
  | [], _ => rfl
  | a :: as, h => by
    rw [List.takeWhile_cons, List.takeWhile_cons, h a (.head _),
      takeWhile_congr fun b hb => h b (.tail _ hb)]

theorem dropWhile_congr {α : Type} {p q : α → Bool} : ∀ {as : List α}, (∀ a ∈ as, p a = q a) →
    as.dropWhile p = as.dropWhile q
  | [], _ => rfl
  | a :: as, h => by
    rw [List.dropWhile_cons, List.dropWhile_cons, h a (.head _),
      dropWhile_congr fun b hb => h b (.tail _ hb)]

/-- Two views of the same lines: the same texts, and the same order of the indentations. -/
structure SameOrder {α : Type} (f g : α → SourceLine) (as : List α) : Prop where
  text : ∀ a ∈ as, (f a).text = (g a).text
  order : ∀ a ∈ as, ∀ b ∈ as, (f a).indent < (f b).indent ↔ (g a).indent < (g b).indent

namespace SameOrder

variable {α : Type} {f g : α → SourceLine} {a : α} {as bs : List α}

theorem mono (h : SameOrder f g as) (hb : bs ⊆ as) : SameOrder f g bs :=
  ⟨fun a ha => h.text a (hb ha), fun a ha b hb' => h.order a (hb ha) b (hb hb')⟩

theorem tail (h : SameOrder f g (a :: as)) : SameOrder f g as := h.mono (List.subset_cons_self _ _)

theorem lt_eq (h : SameOrder f g (a :: as)) :
    ∀ b ∈ as, decide ((f a).indent < (f b).indent) = decide ((g a).indent < (g b).indent) :=
  fun b hb => decide_eq_decide.2 (h.order a (.head _) b (.tail _ hb))

theorem opensNext_eq (h : SameOrder f g (a :: as)) :
    ∀ b ∈ as, (!opensNext (f a).indent (f b)) = !opensNext (g a).indent (g b) := by
  intro b hb
  have ho := h.order a (.head _) b (.tail _ hb)
  unfold opensNext
  rw [h.text b (.tail _ hb), decide_eq_decide.2 (show (f b).indent ≤ (f a).indent ↔ _ by
    rw [← Nat.not_lt, ho, Nat.not_lt])]

theorem action?_eq (h : SameOrder f g (a :: as)) :
    ∀ b ∈ as, action? (f a).indent (f b) = action? (g a).indent (g b) := by
  intro b hb
  unfold action?
  rw [h.text b (.tail _ hb)]
  simp only [h.order a (.head _) b (.tail _ hb)]

end SameOrder

/-- The choices of a block depend on its texts and on the order of its indentations. -/
theorem choices_congr {α : Type} {f g : α → SourceLine} (as : List α) (h : SameOrder f g as) :
    choices (as.map f) = choices (as.map g) := by
  match as, h with
  | [], _ => rfl
  | a :: as, h =>
    simp only [List.map_cons, choices, h.text a (.head _)]
    split
    · exact choices_congr as h.tail
    · have hown : as.takeWhile ((!opensNext (f a).indent ·) ∘ f) =
          as.takeWhile ((!opensNext (g a).indent ·) ∘ g) := takeWhile_congr h.opensNext_eq
      have hrest : as.dropWhile ((!opensNext (f a).indent ·) ∘ f) =
          as.dropWhile ((!opensNext (g a).indent ·) ∘ g) := dropWhile_congr h.opensNext_eq
      have hlen := (List.dropWhile_suffix (l := as) ((!opensNext (g a).indent ·) ∘ g)).length_le
      simp only [List.takeWhile_map, List.dropWhile_map, List.filterMap_map, hown, hrest,
        choices_congr (as.dropWhile ((!opensNext (g a).indent ·) ∘ g))
          (h.tail.mono (List.dropWhile_suffix _).subset)]
      congr 2
      exact List.filterMap_congr fun b hb => h.action?_eq b ((List.takeWhile_prefix _).subset hb)
termination_by as.length
decreasing_by
  · simp
  · simp only [List.length_cons]
    omega

/-- **The pieces** depend on the texts of the lines and on the order of their indentations. -/
theorem pieces_congr {α : Type} {f g : α → SourceLine} (as : List α) (h : SameOrder f g as) :
    pieces (as.map f) = pieces (as.map g) := by
  match as, h with
  | [], _ => rfl
  | a :: as, h =>
    simp only [List.map_cons, pieces, h.text a (.head _)]
    split
    · exact pieces_congr as h.tail
    · rw [pieces_congr as h.tail]
    · rw [pieces_congr as h.tail]
    · have hblock : as.takeWhile ((decide <| (f a).indent < ·.indent) ∘ f) =
          as.takeWhile ((decide <| (g a).indent < ·.indent) ∘ g) := takeWhile_congr h.lt_eq
      have hrest : as.dropWhile ((decide <| (f a).indent < ·.indent) ∘ f) =
          as.dropWhile ((decide <| (g a).indent < ·.indent) ∘ g) := dropWhile_congr h.lt_eq
      have hlen : (as.dropWhile ((decide <| (g a).indent < ·.indent) ∘ g)).length ≤ as.length :=
        (List.dropWhile_suffix _).length_le
      simp only [List.takeWhile_map, List.dropWhile_map, hblock, hrest,
        choices_congr _ (h.tail.mono (List.takeWhile_prefix _).subset),
        pieces_congr (as.dropWhile ((decide <| (g a).indent < ·.indent) ∘ g))
          (h.tail.mono (List.dropWhile_suffix _).subset)]
termination_by as.length
decreasing_by
  · simp
  · simp
  · simp
  · simp only [List.length_cons]
    omega

/-! ## Parts of a text -/

theorem takeWhile_append_of_head {α : Type} {p : α → Bool} {as bs : List α}
    (h : ∀ b ∈ bs.head?, p b = false) : (as ++ bs).takeWhile p = as.takeWhile p := by
  rw [List.takeWhile_append]
  split
  · rename_i hl
    rw [(List.takeWhile_prefix p).eq_of_length hl]
    cases bs with
    | nil => simp
    | cons b bs => simp [h b rfl]
  · rfl

theorem dropWhile_append_of_head {α : Type} {p : α → Bool} {as bs : List α}
    (h : ∀ b ∈ bs.head?, p b = false) : (as ++ bs).dropWhile p = as.dropWhile p ++ bs := by
  rw [List.dropWhile_append]
  split
  · rename_i he
    rw [List.isEmpty_iff] at he
    cases bs with
    | nil => simp [he]
    | cons b bs => simp [he, h b rfl]
  · rfl

/-- **The pieces of two parts**, where the second starts no deeper than any head of a menu in the
first. -/
theorem pieces_append {as bs : List SourceLine} (h : ∀ b ∈ bs.head?, ∀ a ∈ as,
    Line.read? a.text = some .menu → b.indent ≤ a.indent) :
    pieces (as ++ bs) = pieces as ++ pieces bs := by
  match as with
  | [] => simp [pieces]
  | a :: as =>
    have htail : ∀ b ∈ bs.head?, ∀ c ∈ as, Line.read? c.text = some .menu → b.indent ≤ c.indent :=
      fun b hb c hc => h b hb c (.tail _ hc)
    simp only [List.cons_append, pieces]
    split
    · exact pieces_append htail
    · rw [pieces_append htail, List.cons_append]
    · rw [pieces_append htail, List.cons_append]
    · rename_i hm
      have hhead : ∀ b ∈ bs.head?, decide (a.indent < b.indent) = false := fun b hb => by
        simpa using h b hb a (.head _) hm
      have hlen := (List.dropWhile_suffix (l := as) (a.indent < ·.indent)).length_le
      rw [takeWhile_append_of_head hhead, dropWhile_append_of_head hhead,
        pieces_append fun b hb c hc => htail b hb c ((List.dropWhile_suffix _).subset hc),
        List.cons_append]
termination_by as.length
decreasing_by
  · simp
  · simp
  · simp
  · simp only [List.length_cons]
    omega

/-! ## Lines as they are written -/

/-- The lines that say something among lines as they are written. Numbers play no part. -/
def shown (raws : List (List Char)) : List SourceLine :=
  visible (raws.map (SourceLine.ofRaw 0))

@[simp] theorem shown_append (a b : List (List Char)) : shown (a ++ b) = shown a ++ shown b := by
  simp [shown, visible]

@[simp] theorem shown_nil : shown [] = [] := rfl

@[simp] theorem shown_empty : shown [[]] = [] := rfl

theorem mem_shown {raws : List (List Char)} {line : SourceLine} (h : line ∈ shown raws) :
    ∃ raw ∈ raws, line = .ofRaw 0 raw := by
  obtain ⟨raw, hr, rfl⟩ := List.mem_map.1 (List.mem_filter.1 h).1
  exact ⟨raw, hr, rfl⟩

/-- Two ways to place the same lines, in the same order of indentation, show the same pieces. -/
theorem pieces_visible_congr {α : Type} {f g : α → SourceLine} (as : List α)
    (h : SameOrder f g as) : pieces (visible (as.map f)) = pieces (visible (as.map g)) := by
  have hfilter : as.filter ((!SourceLine.isIgnored ·) ∘ f) =
      as.filter ((!SourceLine.isIgnored ·) ∘ g) := by
    refine List.filter_congr fun a ha => ?_
    simp only [Function.comp_apply, SourceLine.isIgnored, h.text a ha]
  simp only [visible, List.filter_map, hfilter]
  exact pieces_congr _ (h.mono (List.filter_subset_self _))

/-- The lines of a text are read for what is written there, whatever their numbers. -/
theorem pieces_sourceLines (text : List Char) :
    pieces (visible (sourceLines text)) = pieces (shown (lines text)) := by
  have h := pieces_visible_congr (lines text).zipIdx
    (f := fun p => SourceLine.ofRaw (p.2 + 1) p.1) (g := SourceLine.ofRaw 0 ∘ Prod.fst)
    ⟨fun _ _ => rfl, fun _ _ _ _ => Iff.rfl⟩
  rw [← List.map_map, List.zipIdx_map_fst] at h
  exact h

theorem isBlank_of_mem_levelText {level : Nat} : ∀ c ∈ levelText level, isBlank c = true := by
  intro c hc
  rw [List.eq_of_mem_replicate hc]
  rfl

theorem indent_ofRaw_level (n : Int) (level : Nat) (raw : List Char) :
    (SourceLine.ofRaw n (levelText level ++ raw)).indent =
      4 * level + (SourceLine.ofRaw n raw).indent := by
  show indent (levelText level ++ raw) = _
  rw [indent_append_blanks isBlank_of_mem_levelText, levelText, List.length_replicate]
  rfl

theorem text_ofRaw_level (n : Int) (level : Nat) (raw : List Char) :
    (SourceLine.ofRaw n (levelText level ++ raw)).text = (SourceLine.ofRaw n raw).text :=
  trim_append_blanks isBlank_of_mem_levelText

/-- Lines that are all moved to a deeper level show the same pieces. -/
theorem pieces_shown_deeper (level : Nat) (raws : List (List Char)) :
    pieces (shown (raws.map (levelText level ++ ·))) = pieces (shown raws) := by
  unfold shown
  rw [List.map_map]
  refine pieces_visible_congr raws ⟨fun raw _ => text_ofRaw_level 0 level raw, fun a _ b _ => ?_⟩
  simp only [Function.comp_apply, indent_ofRaw_level]
  omega

end NovelScript.Blocks
