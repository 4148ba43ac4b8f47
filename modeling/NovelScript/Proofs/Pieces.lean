import NovelScript.Proofs.Inversion
import NovelScript.Proofs.Layout

/-!
# A written script is read piece by piece

`Script.reread_pieces`: what a reader makes of a written script is, ids aside, what it makes of each
character and each element written alone, in order. So a piece that the text cannot express takes
nothing from its neighbours. No statement is written as the head of a menu
(`Statement.read?_line`), and what follows a menu is written no deeper than the menu
(`indent_le_of_head?_elementLines`), so each menu ends where it was written to end.
-/

set_option autoImplicit false

namespace NovelScript

open Text Blocks

/-! ## The lines of one element -/

/-- The level at which a statement is written where `level` is the current one. -/
def Statement.ownLevel (level : Nat) : Statement → Nat
  | .label _ => 0
  | _ => level

/-- The lines of an element that stands at a level. -/
def Element.linesAt (level : Nat) : Element → List (List Char)
  | .menu _ choices => menuLines level choices
  | .statement _ s => (s.line?.map (levelText (s.ownLevel level) ++ ·)).toList

/-- The level of what follows an element at a level. -/
def Element.levelAfter (level : Nat) : Element → Nat
  | .statement _ (.label _) => 1
  | .statement _ .goBack => 0
  | _ => level

theorem elementLines_cons (level : Nat) (e : Element) (es : List Element) :
    elementLines level (e :: es) = e.linesAt level ++ elementLines (e.levelAfter level) es := by
  cases e with
  | menu id choices => rfl
  | statement id s => cases s <;> rfl

theorem elementLines_singleton (e : Element) : elementLines 0 [e] = e.linesAt 0 := by
  rw [elementLines_cons, elementLines, List.append_nil]

theorem levelText_add (a b : Nat) : levelText (a + b) = levelText a ++ levelText b := by
  simp only [levelText, Nat.mul_add, List.replicate_add]

/-- A menu is written at a level as at the first one, behind the blanks of the level. -/
theorem menuLines_eq_map (level : Nat) (choices : List Choice) :
    menuLines level choices = (menuLines 0 choices).map (levelText level ++ ·) := by
  have deeper : ∀ (k : Nat) (x : List Char),
      levelText level ++ (levelText (0 + k) ++ x) = levelText (level + k) ++ x := by
    intro k x
    rw [Nat.zero_add, levelText_add, List.append_assoc]
  have hhead : levelText level ++ (levelText 0 ++ "menu:".toList) =
      levelText level ++ "menu:".toList := deeper 0 _
  simp only [menuLines, List.map_cons, List.map_flatMap, List.map_filterMap, Option.map_map,
    Function.comp_def, deeper, hhead]

theorem Element.pieces_linesAt (level : Nat) (e : Element) :
    pieces (shown (e.linesAt level)) = pieces (shown (e.linesAt 0)) := by
  cases e with
  | menu id choices =>
    rw [linesAt, menuLines_eq_map, pieces_shown_deeper]
    rfl
  | statement id s =>
    rw [linesAt, linesAt]
    cases s.line? with
    | none => rfl
    | some l =>
      have at_level := pieces_shown_deeper (s.ownLevel level) [l]
      have at_zero := pieces_shown_deeper (s.ownLevel 0) [l]
      exact at_level.trans at_zero.symm

/-! ## What the lines of a statement start with -/

/-- Whether a line of text would start with a blank of its speaker's name. -/
def Element.startsBlank : Element → Bool
  | .statement _ (.dialogue _ (some name)) => name.toList.head?.any isBlank
  | _ => false

/-- The line of a statement starts with a character that is no blank; that is no `m`, as in the head
of a menu, or the line holds a quote. -/
theorem Statement.line?_head {id : String} {s : Statement} {l : List Char} (h : s.line? = some l)
    (hs : (Element.statement id s).startsBlank = false) :
    ∃ c r, l = c :: r ∧ isBlank c = false ∧ (c ≠ 'm' ∨ '"' ∈ l) := by
  cases s with
  | dialogue content speaker =>
    simp only [line?, Option.some.injEq] at h
    subst h
    have hquote : ∃ c r, quotedText content = c :: r ∧ isBlank c = false ∧
        (c ≠ 'm' ∨ '"' ∈ quotedText content) := ⟨'"', _, rfl, rfl, .inl (by decide)⟩
    cases speaker with
    | none => exact hquote
    | some name =>
      rw [dialogueText]
      split
      · exact hquote
      · rename_i hn
        cases hl : name.toList with
        | nil => exact absurd (String.toList_inj.1 hl) hn
        | cons c r =>
          simp only [Element.startsBlank, hl, List.head?_cons, Option.any_some] at hs
          exact ⟨c, _, rfl, hs, .inr (by simp [quotedText])⟩
  | condition test => cases h
  | pause seconds => cases seconds <;> cases h <;> exact ⟨'p', _, rfl, rfl, .inl (by decide)⟩
  | assign name value =>
    simp only [line?, Option.some.injEq] at h
    subst h
    exact ⟨'$', _, trimEnd_cons (c := '$') rfl, rfl, .inl (by decide)⟩
  | scene => cases h; exact ⟨'s', _, rfl, rfl, .inl (by decide)⟩
  | showImage => cases h; exact ⟨'s', _, rfl, rfl, .inl (by decide)⟩
  | hideImage => cases h; exact ⟨'h', _, rfl, rfl, .inl (by decide)⟩
  | label => cases h; exact ⟨'l', _, rfl, rfl, .inl (by decide)⟩
  | jump => cases h; exact ⟨'j', _, rfl, rfl, .inl (by decide)⟩
  | call => cases h; exact ⟨'c', _, rfl, rfl, .inl (by decide)⟩
  | play => cases h; exact ⟨'p', _, rfl, rfl, .inl (by decide)⟩
  | stop => cases h; exact ⟨'s', _, rfl, rfl, .inl (by decide)⟩
  | code => cases h; exact ⟨'$', _, rfl, rfl, .inl (by decide)⟩
  | goBack => cases h; exact ⟨'r', _, rfl, rfl, .inl (by decide)⟩

/-! ## No statement is taken for a menu, and none stands deeper than its level -/

/-- A line that starts with no blank stands at its level. -/
theorem indent_ofRaw_of_head {c : Char} (hc : isBlank c = false) (level : Nat) (r : List Char) :
    (SourceLine.ofRaw 0 (levelText level ++ c :: r)).indent = 4 * level := by
  rw [indent_ofRaw_level]
  show 4 * level + indent (c :: r) = _
  rw [indent_cons hc, Nat.add_zero]

/-- No statement is written as the head of a menu. -/
theorem Statement.read?_line {id : String} {s : Statement} {l : List Char} (h : s.line? = some l)
    (hs : (Element.statement id s).startsBlank = false) : Line.read? (trim l) ≠ some .menu := by
  intro hm
  obtain ⟨c, r, rfl, hc, hne | hq⟩ := line?_head h hs
  · have hhead := Line.head?_of_read?_menu hm
    rw [trim_cons hc, List.head?_cons, Option.some_inj] at hhead
    exact hne hhead
  · exact Line.quote_not_mem_of_read?_menu hm (mem_trim hq (by decide))

theorem Character.read?_line (c : Character) : Line.read? (trim c.line) ≠ some .menu := by
  intro hm
  have hhead := Line.head?_of_read?_menu hm
  have hline : c.line = 'd' :: c.line.tail := rfl
  rw [hline, trim_cons (by decide)] at hhead
  cases hhead

/-- A line that starts with neither a blank nor the mark of a comment is shown. -/
theorem shown_of_head {c : Char} (hc : isBlank c = false) (hm : c ≠ '#') (level : Nat)
    (r : List Char) (raws : List (List Char)) : shown ((levelText level ++ c :: r) :: raws) =
      SourceLine.ofRaw 0 (levelText level ++ c :: r) :: shown raws := by
  have ht : (SourceLine.ofRaw 0 (levelText level ++ c :: r)).text = c :: trimEnd r :=
    (text_ofRaw_level 0 level _).trans (trim_cons hc)
  unfold shown visible
  refine List.filter_cons_of_pos ?_
  simp [SourceLine.isIgnored, ht, hm]

/-- A line that is ignored would say nothing anyway. -/
theorem read?_of_isIgnored {line : SourceLine} (h : line.isIgnored = true) :
    Line.read? line.text = none := by
  simp only [SourceLine.isIgnored, Bool.or_eq_true, List.isEmpty_iff, beq_iff_eq] at h
  rcases h with h | h
  · rw [h]
    rfl
  · obtain ⟨r, hr⟩ := List.head?_eq_some_iff.1 h
    rw [hr, Line.read?_of_not_keyword rfl (by simp)]
    rfl

theorem shown_of_read? {raw : List Char} {l : Line} (h : Line.read? (trim raw) = some l) :
    shown [raw] = [SourceLine.ofRaw 0 raw] := by
  unfold shown visible
  refine List.filter_cons_of_pos ?_
  rw [Bool.not_eq_true', Bool.eq_false_iff]
  intro hi
  have hnone := read?_of_isIgnored hi
  rw [show (SourceLine.ofRaw 0 raw).text = trim raw from rfl, h] at hnone
  cases hnone

/-- The pieces that a line makes up alone. -/
def Line.pieces : Line → List Piece
  | .define c => [.character c]
  | .menu => [.element (.menu "" [])]
  | .statement s => [.element (.statement "" s)]

/-- **A line alone** is read for what it says. -/
theorem pieces_shown_singleton (raw : List Char) :
    pieces (shown [raw]) = ((Line.read? (trim raw)).map Line.pieces).getD [] := by
  cases h : Line.read? (trim raw) with
  | none =>
    have htext : Line.read? (SourceLine.ofRaw 0 raw).text = none := h
    have hshown : shown [raw] = [] ∨ shown [raw] = [SourceLine.ofRaw 0 raw] := by
      cases hi : (SourceLine.ofRaw 0 raw).isIgnored with
      | true => exact .inl (by simp [shown, visible, hi])
      | false => exact .inr (by simp [shown, visible, hi])
    rcases hshown with hs | hs
    · rw [hs, pieces]
      rfl
    · rw [hs, pieces, htext, pieces]
      rfl
  | some l =>
    have htext : Line.read? (SourceLine.ofRaw 0 raw).text = some l := h
    rw [shown_of_read? h, pieces, htext]
    cases l <;> simp [pieces, choices, Line.pieces]

/-- Where an element shows the head of a menu, that stands no less deep than what follows the
element. -/
theorem Element.levelAfter_le_indent {level : Nat} {e : Element} (hs : e.startsBlank = false)
    {line : SourceLine} (h : line ∈ shown (e.linesAt level))
    (hm : Line.read? line.text = some .menu) : 4 * e.levelAfter level ≤ line.indent := by
  obtain ⟨raw, hr, rfl⟩ := mem_shown h
  cases e with
  | menu id choices =>
    rw [linesAt, menuLines_eq_map] at hr
    obtain ⟨l, -, rfl⟩ := List.mem_map.1 hr
    rw [indent_ofRaw_level]
    exact Nat.le_add_right _ _
  | statement id s =>
    simp only [linesAt, Option.mem_toList, Option.map_eq_some_iff] at hr
    obtain ⟨l, hl, rfl⟩ := hr
    rw [text_ofRaw_level] at hm
    exact absurd hm (Statement.read?_line hl hs)

/-- The first line that an element shows stands no deeper than its level. -/
theorem Element.indent_le_of_head?_linesAt {level : Nat} {e : Element}
    (hs : e.startsBlank = false) :
    ∀ line ∈ (shown (e.linesAt level)).head?, line.indent ≤ 4 * level := by
  intro line hline
  cases e with
  | menu id choices =>
    rw [linesAt, menuLines, show "menu:".toList = 'm' :: "enu:".toList from rfl,
      shown_of_head (by decide) (by decide)] at hline
    cases hline
    exact (indent_ofRaw_of_head (by decide) level _).le
  | statement id s =>
    obtain ⟨raw, hr, rfl⟩ := mem_shown (List.mem_of_mem_head? hline)
    simp only [linesAt, Option.mem_toList, Option.map_eq_some_iff] at hr
    obtain ⟨l, hl, rfl⟩ := hr
    obtain ⟨c, r, rfl, hc, -⟩ := Statement.line?_head hl hs
    rw [indent_ofRaw_of_head hc]
    cases s <;> simp [Statement.ownLevel]

/-- An element that shows no line leaves the level as it is. -/
theorem Element.levelAfter_of_shown_eq_nil {level : Nat} {e : Element}
    (h : shown (e.linesAt level) = []) : e.levelAfter level = level := by
  cases e with
  | menu id choices => rfl
  | statement id s =>
    cases s with
    | label name =>
      have hshown := shown_of_head (c := 'l') (by decide) (by decide) 0
        ("abel ".toList ++ name.toList ++ [':']) []
      cases hshown.symm.trans h
    | goBack =>
      have hshown := shown_of_head (c := 'r') (by decide) (by decide) level "eturn".toList []
      cases hshown.symm.trans h
    | _ => rfl

/-- The first line that elements show stands no deeper than their level. -/
theorem indent_le_of_head?_elementLines {level : Nat} {es : List Element}
    (hs : ∀ e ∈ es, e.startsBlank = false) :
    ∀ line ∈ (shown (elementLines level es)).head?, line.indent ≤ 4 * level := by
  induction es generalizing level with
  | nil => simp [elementLines]
  | cons e es ih =>
    have hes : ∀ e ∈ es, e.startsBlank = false := fun e he => hs e (.tail _ he)
    rw [elementLines_cons, shown_append]
    cases h : shown (e.linesAt level) with
    | nil =>
      rw [List.nil_append, Element.levelAfter_of_shown_eq_nil h]
      exact ih hes
    | cons first rest =>
      intro line hline
      refine Element.indent_le_of_head?_linesAt (hs e (.head _)) line ?_
      rw [h]
      exact hline

/-- **Written elements are read one by one.** -/
theorem pieces_elementLines {level : Nat} {es : List Element}
    (hs : ∀ e ∈ es, e.startsBlank = false) :
    pieces (shown (elementLines level es)) = es.flatMap fun e => pieces (shown (e.linesAt 0)) := by
  induction es generalizing level with
  | nil => simp [elementLines, pieces]
  | cons e es ih =>
    have hes : ∀ e ∈ es, e.startsBlank = false := fun e he => hs e (.tail _ he)
    rw [elementLines_cons, shown_append, pieces_append, ih hes, e.pieces_linesAt, List.flatMap_cons]
    intro next hnext line hline hm
    have hle := Element.levelAfter_le_indent (hs e (.head _)) hline hm
    have hnext := indent_le_of_head?_elementLines hes next hnext
    omega

/-! ## The whole text -/

/-- No line of a character is the head of a menu, so the cast is read one by one, whatever
follows. -/
theorem pieces_characterLines (cs : List Character) (bs : List SourceLine) :
    pieces (shown (cs.map Character.line) ++ bs) =
      cs.flatMap (fun c => pieces (shown [c.line])) ++ pieces bs := by
  induction cs with
  | nil => rfl
  | cons c cs ih =>
    have hsplit : shown ((c :: cs).map Character.line) =
        shown [c.line] ++ shown (cs.map Character.line) :=
      shown_append [c.line] (cs.map Character.line)
    rw [hsplit, List.append_assoc, pieces_append, ih, List.flatMap_cons, List.append_assoc]
    intro next _ line hline hm
    obtain ⟨raw, hr, rfl⟩ := mem_shown hline
    rw [List.mem_singleton] at hr
    rw [hr] at hm
    exact absurd hm c.read?_line

/-- The pieces of a written script are those of its characters and those of its elements. -/
theorem Script.pieces_textLines (s : Script) (hs : ∀ e ∈ s.elements, e.startsBlank = false) :
    pieces (shown s.textLines) = s.characters.flatMap (fun c => pieces (shown [c.line])) ++
      s.elements.flatMap fun e => pieces (shown (e.linesAt 0)) := by
  have hgap : shown (if s.characters = [] then [] else [[]]) = [] := by
    split <;> rfl
  rw [textLines, List.append_assoc, shown_append, shown_append, hgap, List.nil_append,
    pieces_characterLines, pieces_elementLines hs]

end NovelScript
