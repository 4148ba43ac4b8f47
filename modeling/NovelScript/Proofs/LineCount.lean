import NovelScript.Proofs.Breaks
import NovelScript.Proofs.Document.RoundTrip
import NovelScript.Proofs.Reread

/-!
# How many lines a script is written on

Each statement is written as one text that is not blank, so a written script has at least as many
lines as statements. It has just as many where none of those texts holds a line break between
characters that are shown (`Script.filledLines_toText`); the strings of a document may.
-/

set_option autoImplicit false

namespace NovelScript

open Text

/-! ## Lines that are not blank -/

namespace Text

/-- Whether something of a line is shown. -/
def isFilled (l : List Char) : Bool :=
  trim l ≠ []

/-- The number of lines of a text that are not blank. -/
def filledLines (s : List Char) : Nat :=
  (lines s).countP isFilled

theorem isFilled_of_mem {l : List Char} {c : Char} (hc : c ∈ l) (hb : isBlank c = false) :
    isFilled l = true :=
  decide_eq_true (List.ne_nil_of_mem (mem_trim hc hb))

/-! ### Lines as pieces -/

theorem mem_cutAt_of_mem {p : Char → Bool} {c : Char} (hc : p c = false) :
    ∀ {s : List Char}, c ∈ s → ∃ w ∈ cutAt p s, c ∈ w
  | d :: s, h => by
    rw [cutAt]
    rcases List.mem_cons.1 h with rfl | h
    · rw [if_neg (by simp [hc])]
      cases cutAt p s <;> simp [consFirst]
    · obtain ⟨w, hw, hcw⟩ := mem_cutAt_of_mem hc h
      split
      · exact ⟨w, .tail _ hw, hcw⟩
      · obtain ⟨v, vs, hv⟩ := List.exists_cons_of_ne_nil (cutAt_ne_nil p s)
        rw [hv] at hw ⊢
        rcases List.mem_cons.1 hw with rfl | hw
        · exact ⟨d :: w, .head _, .tail _ hcw⟩
        · exact ⟨w, .tail _ hw, hcw⟩

theorem filledLines_eq_cutAt (s : List Char) :
    filledLines s = (cutAt isLineBreak s).countP isFilled := by
  have hcount (ws : List (List Char)) :
      ws.countP isFilled = (ws.filter (· ≠ [])).countP isFilled := by
    rw [List.countP_filter]
    refine List.countP_congr fun w _ => ?_
    cases w with
    | nil => simp [isFilled, show trim [] = [] from rfl]
    | cons c w => simp
  rw [filledLines, hcount, filter_lines, ← hcount]

/-! ### Counting -/

theorem filledLines_append_break (a b : List Char) :
    filledLines (a ++ '\n' :: b) = filledLines a + filledLines b := by
  rw [filledLines_eq_cutAt, cutAt_append rfl, List.countP_append, ← filledLines_eq_cutAt,
    ← filledLines_eq_cutAt]

theorem filledLines_join : ∀ ls : List (List Char),
    filledLines (join ['\n'] ls) = (ls.map filledLines).sum
  | [] => rfl
  | [l] => by simp [join]
  | l :: m :: ls => by
    rw [join_cons_cons, List.append_assoc, List.singleton_append, filledLines_append_break,
      filledLines_join (m :: ls)]
    rfl

theorem filledLines_pos {s : List Char} {c : Char} (hc : c ∈ s) (hb : isBlank c = false) :
    0 < filledLines s := by
  obtain ⟨w, hw, hcw⟩ := mem_cutAt_of_mem (isLineBreak_of_not_isBlank hb) hc
  rw [filledLines_eq_cutAt, List.countP_pos_iff]
  exact ⟨w, hw, isFilled_of_mem hcw hb⟩

theorem filledLines_le_one {l : List Char} (h : IsOneLine l) : filledLines l ≤ 1 := by
  cases l with
  | nil => exact Nat.zero_le 1
  | cons c l =>
    rw [filledLines, lines_of_isOneLine (List.cons_ne_nil c l) h]
    exact List.countP_le_length

/-- Texts of which each fills some line fill a line each, or more. -/
theorem length_le_sum_filledLines : ∀ {ls : List (List Char)}, (∀ l ∈ ls, 0 < filledLines l) →
    ls.length ≤ (ls.map filledLines).sum ∧
      ((ls.map filledLines).sum = ls.length ↔ ∀ l ∈ ls, filledLines l ≤ 1)
  | [], _ => by simp
  | l :: ls, h => by
    obtain ⟨hl, hls⟩ := List.forall_mem_cons.1 h
    obtain ⟨hle, heq⟩ := length_le_sum_filledLines hls
    rw [List.forall_mem_cons, ← heq, List.map_cons, List.sum_cons, List.length_cons]
    omega

end Text

/-! ## Statements -/

def Element.isDialogue : Element → Bool
  | .statement _ (.dialogue ..) => true
  | _ => false

/-- The number of lines that are meant for an element: one for each statement but a condition, and
for a menu one for its head, for each choice and for each line of text in them. -/
def Element.lineCount : Element → Nat
  | .menu _ choices => 1 + (choices.map fun c => 1 + c.actions.countP Element.isDialogue).sum
  | .statement _ (.condition _) => 0
  | .statement _ _ => 1

/-- The number of lines that are meant for a script. -/
def Script.lineCount (s : Script) : Nat :=
  s.characters.length + (s.elements.map Element.lineCount).sum

theorem Element.isSome_actionLine? (e : Element) : e.actionLine?.isSome = e.isDialogue := by
  cases e with
  | menu id choices => rfl
  | statement id s => cases s <;> rfl

theorem length_menuLines (level : Nat) (choices : List Choice) : (menuLines level choices).length =
    1 + (choices.map fun c => 1 + c.actions.countP Element.isDialogue).sum := by
  simp [menuLines, List.length_flatMap, List.length_filterMap_eq_countP, Element.isSome_actionLine?,
    Nat.add_comm]

theorem Element.length_linesAt (level : Nat) (e : Element) :
    (e.linesAt level).length = e.lineCount := by
  cases e with
  | menu id choices => exact length_menuLines level choices
  | statement id s =>
    cases s with
    | pause seconds => cases seconds <;> simp [linesAt, Statement.line?, lineCount]
    | _ => rfl

theorem length_elementLines (es : List Element) : ∀ level : Nat,
    (elementLines level es).length = (es.map Element.lineCount).sum := by
  induction es with
  | nil => exact fun _ => rfl
  | cons e es ih =>
    intro level
    rw [elementLines_cons, List.length_append, e.length_linesAt, ih, List.map_cons, List.sum_cons]

/-! ## No line is blank -/

theorem Character.filledLines_pos (c : Character) : 0 < filledLines c.line :=
  Text.filledLines_pos (s := c.line) (c := 'd') (.head _) rfl

theorem quote_mem_dialogueText (content : String) (speaker : Option String) :
    '"' ∈ dialogueText content speaker := by
  unfold dialogueText quotedText
  split
  · simp
  · split <;> simp

theorem Statement.filledLines_line? {s : Statement} {l : List Char} (h : s.line? = some l)
    (b : List Char) : 0 < filledLines (b ++ l) := by
  have hchar : ∃ c ∈ l, isBlank c = false := by
    cases s with
    | dialogue content speaker =>
      cases h
      exact ⟨'"', quote_mem_dialogueText content speaker, rfl⟩
    | condition test => cases h
    | pause seconds => cases seconds <;> cases h <;> exact ⟨'p', .head _, rfl⟩
    | assign name value =>
      simp only [line?, Option.some.injEq] at h
      subst h
      exact ⟨'$', (trimEnd_cons (c := '$') rfl) ▸ .head _, rfl⟩
    | label => cases h; exact ⟨'l', .head _, rfl⟩
    | jump => cases h; exact ⟨'j', .head _, rfl⟩
    | call => cases h; exact ⟨'c', .head _, rfl⟩
    | hideImage => cases h; exact ⟨'h', .head _, rfl⟩
    | play => cases h; exact ⟨'p', .head _, rfl⟩
    | code => cases h; exact ⟨'$', .head _, rfl⟩
    | goBack => cases h; exact ⟨'r', .head _, rfl⟩
    | scene | showImage | stop => cases h; exact ⟨'s', .head _, rfl⟩
  obtain ⟨c, hc, hb⟩ := hchar
  exact Text.filledLines_pos (List.mem_append_right b hc) hb

theorem Element.actionLine?_eq_some {e : Element} {l : List Char} (h : e.actionLine? = some l) :
    ∃ content speaker, l = dialogueText content speaker := by
  unfold actionLine? at h
  split at h
  · cases h
    exact ⟨_, _, rfl⟩
  · cases h

theorem filledLines_menuLines {level : Nat} {choices : List Choice} {l : List Char}
    (hl : l ∈ menuLines level choices) : 0 < filledLines l := by
  rcases List.mem_cons.1 hl with rfl | hl
  · exact Text.filledLines_pos (c := 'm') (List.mem_append_right _ (.head _)) rfl
  obtain ⟨c, -, hl⟩ := List.mem_flatMap.1 hl
  rcases List.mem_cons.1 hl with rfl | hl
  · exact Text.filledLines_pos (c := '"') (List.mem_append_right _ (.head _)) rfl
  obtain ⟨a, -, ha⟩ := List.mem_filterMap.1 hl
  obtain ⟨text, htext, rfl⟩ := Option.map_eq_some_iff.1 ha
  obtain ⟨content, speaker, rfl⟩ := a.actionLine?_eq_some htext
  exact Text.filledLines_pos (List.mem_append_right _ (quote_mem_dialogueText content speaker)) rfl

theorem filledLines_elementLines (es : List Element) : ∀ level : Nat,
    ∀ l ∈ elementLines level es, 0 < filledLines l := by
  induction es with
  | nil => exact fun _ _ h => nomatch h
  | cons e es ih =>
    intro level l hl
    rw [elementLines_cons] at hl
    rcases List.mem_append.1 hl with hl | hl
    · cases e with
      | menu id choices => exact filledLines_menuLines hl
      | statement id s =>
        obtain ⟨text, htext, rfl⟩ := Option.map_eq_some_iff.1 (Option.mem_toList.1 hl)
        exact Statement.filledLines_line? htext _
    · exact ih _ l hl

namespace Script

/-- The lines of the statements, without the empty one between cast and elements. -/
def statementLines (s : Script) : List (List Char) :=
  s.characters.map Character.line ++ elementLines 0 s.elements

theorem length_statementLines (s : Script) : s.statementLines.length = s.lineCount := by
  rw [statementLines, List.length_append, List.length_map, length_elementLines, lineCount]

theorem filledLines_toText_eq_sum (s : Script) :
    filledLines s.toText.toList = (s.statementLines.map filledLines).sum := by
  rw [toText, String.toList_ofList, filledLines_join, textLines, statementLines]
  split
  · simp
  · simp [show filledLines [] = 0 from rfl]

theorem forall_textLines_iff (s : Script) : (∀ l ∈ s.textLines, filledLines l ≤ 1) ↔
    ∀ l ∈ s.statementLines, filledLines l ≤ 1 := by
  rw [textLines, statementLines]
  split
  · simp
  · simp only [List.mem_append, List.mem_singleton, or_imp, forall_and, forall_eq]
    have hempty : filledLines [] ≤ 1 := Nat.zero_le 1
    simp [hempty]

theorem filledLines_statementLines (s : Script) : ∀ l ∈ s.statementLines, 0 < filledLines l := by
  intro l hl
  rcases List.mem_append.1 hl with hl | hl
  · obtain ⟨c, -, rfl⟩ := List.mem_map.1 hl
    exact c.filledLines_pos
  · exact filledLines_elementLines _ _ l hl

/-- Where no written line holds a break, the lines are just those that are meant. -/
theorem filledLines_toText_of_keepsLines {s : Script} (h : s.KeepsLines) :
    filledLines s.toText.toList = s.lineCount := by
  have hle := s.forall_textLines_iff.1 fun l hl => filledLines_le_one (h l hl)
  rw [filledLines_toText_eq_sum, ← length_statementLines]
  exact (length_le_sum_filledLines s.filledLines_statementLines).2.2 hle

/-- **A script is written on as many lines as are meant for it, or more**, blank ones aside: on just
as many if and only if none of the texts that are joined as its lines fills more than one. -/
theorem filledLines_toText (s : Script) : s.lineCount ≤ filledLines s.toText.toList ∧
    (filledLines s.toText.toList = s.lineCount ↔ ∀ l ∈ s.textLines, filledLines l ≤ 1) := by
  rw [filledLines_toText_eq_sum, ← length_statementLines, forall_textLines_iff]
  exact length_le_sum_filledLines s.filledLines_statementLines

/-- A line of text over two lines. -/
def twoLines : Script where
  elements := [.statement "1" (.dialogue "one\ntwo" none)]

/-- So the strings of a document may split a statement. -/
theorem not_forall_filledLines_toText : ¬∀ (text : String) (s : Script),
    ofDocument text = .ok s → filledLines s.toText.toList = s.lineCount := by
  intro h
  have hread : ofDocument twoLines.toDocument = .ok twoLines :=
    ofDocument_toDocument fun _ hv => nomatch hv
  have hcount := h twoLines.toDocument twoLines hread
  revert hcount
  decide

end Script

end NovelScript
