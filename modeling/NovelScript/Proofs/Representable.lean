import NovelScript.Proofs.Pauses

/-!
# Scripts that a text can represent

A piece of a script is well formed if it has the shape that reading gives (`WellFormed`), and
unambiguous if its line has no second reading (`Unambiguous`). A script all of whose pieces are both
is `Representable`: its text is read as the same script, with new ids
(`Script.ofText_toText_of_representable`).
-/

set_option autoImplicit false

namespace NovelScript

open Text Blocks
open Line (ImageSpec)

/-! ## What can be represented -/

/-- A word of the cast, a name on one line and a colour, if any, that is not empty. -/
def Character.WellFormed (c : Character) : Prop :=
  IsName c.id.toList ∧ IsOneLine c.name.toList ∧
    ∀ color ∈ c.color, color.toList ≠ [] ∧ IsOneLine color.toList

/-- A colour ends at the first quote behind its start. -/
def Character.Unambiguous (c : Character) : Prop := ∀ color ∈ c.color, '"' ∉ color.toList

/-- The pieces of a statement are words, images and texts on one line, as reading cuts them. -/
def Statement.WellFormed : Statement → Prop
  | dialogue content speaker => IsOneLine content.toList ∧
      ∀ name ∈ speaker, IsName name.toList ∧ Line.isKeyword name.toList = false
  | scene image transition => IsImage image.toList ∧ ∀ value ∈ transition, IsToken value.toList
  | showImage image position transition => IsImage image.toList ∧ IsToken position.toList ∧
      ∀ value ∈ transition, IsToken value.toList
  | hideImage image transition => IsImage image.toList ∧ ∀ value ∈ transition, IsToken value.toList
  | label name => IsName name.toList
  | jump target => IsName target.toList ∧ target ≠ "expression"
  | call target => IsName target.toList ∧ target ≠ "expression" ∧ target ≠ "screen"
  | play channel audio => IsName channel.toList ∧ audio.toList ≠ [] ∧ IsOneLine audio.toList
  | stop channel => IsName channel.toList
  | pause _ => True
  | assign name value => IsName name.toList ∧ IsOneLine value.toList ∧
      trim value.toList = value.toList
  | condition _ => False
  | code text => text.toList ≠ [] ∧ IsOneLine text.toList ∧ trim text.toList = text.toList ∧
      Line.readAssign? ("$ ".toList ++ text.toList) = none
  | goBack => True

/-- A place is written unless it is the usual one. -/
def writtenPlace (position : String) : Option String :=
  if position = defaultPosition then none else some position

/-- What an image is called does not end in a colon, nor does it start with the word that `show` and
`hide` refuse; a sound ends at its first quote; and seconds are those that their digits say. -/
def Statement.Unambiguous : Statement → Prop
  | scene image transition => (ImageSpec.mk image none transition).lastToken.getLast? ≠ some ':'
  | showImage image position transition =>
    (ImageSpec.mk image (writtenPlace position) transition).lastToken.getLast? ≠ some ':' ∧
      startsWithWord "screen".toList image.toList = false
  | hideImage image transition =>
    (ImageSpec.mk image none transition).lastToken.getLast? ≠ some ':' ∧
      startsWithWord "screen".toList image.toList = false
  | play _ audio => '"' ∉ audio.toList
  | pause (some seconds) => Line.readSeconds? (DecimalStyle.brief.text seconds) = some seconds
  | _ => True

/-- A choice offers one line, perhaps under a condition, and holds lines of text only. -/
def Element.IsSpeech : Element → Prop
  | .statement _ (.dialogue content speaker) => (Statement.dialogue content speaker).WellFormed
  | _ => False

def Choice.WellFormed (c : Choice) : Prop :=
  IsOneLine c.text.toList ∧ (∀ test ∈ c.condition, IsCondition test.toList) ∧
    ∀ a ∈ c.actions, a.IsSpeech

def Element.WellFormed : Element → Prop
  | .statement _ s => s.WellFormed
  | .menu _ choices => ∀ c ∈ choices, c.WellFormed

def Element.Unambiguous : Element → Prop
  | .statement _ s => s.Unambiguous
  | .menu _ _ => True

/-- Every piece of the script is as reading cuts it. -/
def Script.WellFormed (s : Script) : Prop :=
  (∀ c ∈ s.characters, c.WellFormed) ∧ ∀ e ∈ s.elements, e.WellFormed

/-- No line of the script has a second reading. -/
def Script.Unambiguous (s : Script) : Prop :=
  (∀ c ∈ s.characters, c.Unambiguous) ∧ ∀ e ∈ s.elements, e.Unambiguous

/-- **A script that a text can represent.** -/
def Script.Representable (s : Script) : Prop := s.WellFormed ∧ s.Unambiguous

instance (c : Character) : Decidable c.WellFormed := inferInstanceAs (Decidable (_ ∧ _ ∧ _))

instance (c : Character) : Decidable c.Unambiguous :=
  inferInstanceAs (Decidable (∀ color ∈ c.color, '"' ∉ color.toList))

instance : DecidablePred Statement.WellFormed
  | .dialogue .. | .scene .. | .hideImage .. | .jump .. => inferInstanceAs (Decidable (_ ∧ _))
  | .showImage .. | .call .. | .play .. | .assign .. => inferInstanceAs (Decidable (_ ∧ _ ∧ _))
  | .code _ => inferInstanceAs (Decidable (_ ∧ _ ∧ _ ∧ _))
  | .label _ | .stop _ => inferInstanceAs (Decidable (IsName _))
  | .pause _ | .goBack => .isTrue trivial
  | .condition _ => .isFalse id

instance : DecidablePred Statement.Unambiguous
  | .scene .. | .play .. => inferInstanceAs (Decidable (¬_))
  | .showImage .. | .hideImage .. => inferInstanceAs (Decidable (_ ∧ _))
  | .pause (some _) => inferInstanceAs (Decidable (_ = _))
  | .pause none | .dialogue .. | .label _ | .jump _ | .call _ | .stop _ | .assign .. | .condition _
  | .code _ | .goBack => .isTrue trivial

instance : DecidablePred Element.IsSpeech
  | .statement _ (.dialogue content speaker) =>
    inferInstanceAs (Decidable (Statement.dialogue content speaker).WellFormed)
  | .statement _ (.scene ..) | .statement _ (.showImage ..) | .statement _ (.hideImage ..)
  | .statement _ (.label _) | .statement _ (.jump _) | .statement _ (.call _)
  | .statement _ (.play ..) | .statement _ (.stop _) | .statement _ (.pause _)
  | .statement _ (.assign ..) | .statement _ (.condition _) | .statement _ (.code _)
  | .statement _ .goBack | .menu .. => .isFalse id

instance (c : Choice) : Decidable c.WellFormed := inferInstanceAs (Decidable (_ ∧ _ ∧ _))

instance : DecidablePred Element.WellFormed
  | .statement _ s => inferInstanceAs (Decidable s.WellFormed)
  | .menu _ choices => inferInstanceAs (Decidable (∀ c ∈ choices, c.WellFormed))

instance : DecidablePred Element.Unambiguous
  | .statement _ s => inferInstanceAs (Decidable s.Unambiguous)
  | .menu .. => .isTrue trivial

instance (s : Script) : Decidable s.WellFormed := inferInstanceAs (Decidable (_ ∧ _))

instance (s : Script) : Decidable s.Unambiguous := inferInstanceAs (Decidable (_ ∧ _))

instance (s : Script) : Decidable s.Representable := inferInstanceAs (Decidable (_ ∧ _))

/-! ## The line of a statement -/

theorem startsWithWord_of_ne {word name : String} (hw : IsName word.toList)
    (hn : IsName name.toList) (hne : name ≠ word) :
    startsWithWord word.toList name.toList = false := by
  rw [startsWithWord_name hw.2 hn.2, decide_eq_false_iff_not, String.toList_inj]
  exact hne

theorem isToken_writtenPlace {position : String} (h : IsToken position.toList) :
    ∀ value ∈ writtenPlace position, IsToken value.toList := by
  unfold writtenPlace
  split
  · simp
  · simpa using h

theorem getD_writtenPlace (position : String) :
    (writtenPlace position).getD defaultPosition = position := by
  unfold writtenPlace
  split
  · rename_i h
    exact h.symm
  · rfl

/-! ### Lines with images -/

theorem Statement.line?_scene (image : String) (transition : Option String) :
    (scene image transition).line? =
      some ("scene ".toList ++ (ImageSpec.mk image none transition).text) := by
  rw [line?, ImageSpec.text, List.append_assoc, clauseText, List.append_nil]

theorem Statement.line?_hideImage (image : String) (transition : Option String) :
    (hideImage image transition).line? =
      some ("hide ".toList ++ (ImageSpec.mk image none transition).text) := by
  rw [line?, ImageSpec.text, List.append_assoc, clauseText, List.append_nil]

theorem Statement.line?_showImage (image position : String) (transition : Option String) :
    (showImage image position transition).line? =
      some ("show ".toList ++ (ImageSpec.mk image (writtenPlace position) transition).text) := by
  have hplace : (if position = defaultPosition then [] else clauseText "at" (some position)) =
      clauseText "at" (writtenPlace position) := by
    unfold writtenPlace
    split <;> rfl
  simp only [line?, ImageSpec.text, hplace, List.append_assoc]

/-! ### Lines without breaks -/

theorem isOneLine_escape {s : List Char} (h : IsOneLine s) : IsOneLine (Quoted.escape s) := by
  intro c hc
  rcases Quoted.mem_escape hc with hc | rfl
  · exact h c hc
  · rfl

theorem isOneLine_quotedText {s : String} (h : IsOneLine s.toList) : IsOneLine (quotedText s) := by
  rw [quotedText, isOneLine_append, isOneLine_cons]
  exact ⟨⟨rfl, isOneLine_escape h⟩, by decide⟩

/-! ### Lines as reading cuts them -/

theorem isLine_image {c : Char} {r : List Char} (hc : isBlank c = false) (hr : IsOneLine (c :: r))
    {spec : ImageSpec} (h : spec.WellFormed) : IsLine (c :: r ++ spec.text) :=
  isLine_append hc hr h.text_ne_nil h.trimEnd_text h.isOneLine_text

theorem isLine_dialogueText {content : String} {speaker : Option String}
    (h : (Statement.dialogue content speaker).WellFormed) :
    IsLine (dialogueText content speaker) := by
  obtain ⟨hone, hs⟩ := h
  have hlast : ∀ c ∈ (dialogueText content speaker).getLast?, isBlank c = false := by
    rw [Line.getLast?_dialogueText]
    simp [isBlank]
  cases speaker with
  | none => exact ⟨trim_eq_self_iff.2 ⟨by simp [dialogueText, quotedText, isBlank], hlast⟩,
      isOneLine_quotedText hone⟩
  | some name =>
    have hname := (hs name rfl).1.isToken
    have hne : name ≠ "" := by
      rintro rfl
      exact hname.1 rfl
    rw [dialogueText, if_neg hne] at hlast ⊢
    refine ⟨trim_eq_self_iff.2 ⟨?_, hlast⟩, isOneLine_append.2 ⟨isOneLine_of_isToken hname,
      isOneLine_cons.2 ⟨rfl, isOneLine_quotedText hone⟩⟩⟩
    rw [List.head?_append_of_ne_nil _ hname.1]
    exact fun c hc => hname.2 c (List.mem_of_mem_head? hc)

/-! ### Reading a line back -/

/-- **A statement is read off its line.** -/
theorem Statement.read?_written {s : Statement} (hw : s.WellFormed) (hu : s.Unambiguous)
    {l : List Char} (h : s.line? = some l) : Line.read? l = some (.statement s) := by
  cases s with
  | dialogue content speaker =>
    cases h
    exact Line.read?_of_readSpeech? (Line.readSpeech?_written hw.1 hw.2)
  | scene image transition =>
    rw [line?_scene] at h
    cases h
    exact Line.read?_scene ⟨hw.1, by simp, hw.2⟩ hu
  | showImage image position transition =>
    rw [line?_showImage] at h
    cases h
    have hread := Line.read?_show ⟨hw.1, isToken_writtenPlace hw.2.1, hw.2.2⟩ hu.1 hu.2
    rwa [getD_writtenPlace] at hread
  | hideImage image transition =>
    rw [line?_hideImage] at h
    cases h
    exact Line.read?_hide ⟨hw.1, by simp, hw.2⟩ hu.1 hu.2
  | label name =>
    cases h
    have hread := Line.read?_label hw
    rwa [String.ofList_toList] at hread
  | jump target =>
    cases h
    have hread := Line.read?_jump hw.1 (startsWithWord_of_ne (by decide) hw.1 hw.2)
    rwa [String.ofList_toList] at hread
  | call target =>
    cases h
    have hread := Line.read?_call hw.1 (startsWithWord_of_ne (by decide) hw.1 hw.2.1)
      (startsWithWord_of_ne (by decide) hw.1 hw.2.2)
    rwa [String.ofList_toList] at hread
  | play channel audio =>
    cases h
    have hread := Line.read?_play hw.1 ⟨hw.2.1, hu, hw.2.2⟩
    rwa [String.ofList_toList, String.ofList_toList] at hread
  | stop channel =>
    cases h
    have hread := Line.read?_stop hw
    rwa [String.ofList_toList] at hread
  | pause seconds =>
    cases seconds with
    | none =>
      cases h
      rfl
    | some seconds =>
      cases h
      exact Line.read?_pause hu
  | assign name value =>
    cases h
    have hread := Line.read?_assign hw.1 hw.2.1 hw.2.2
    rwa [String.ofList_toList, String.ofList_toList] at hread
  | condition test => exact hw.elim
  | code text =>
    cases h
    have hread := Line.read?_code hw.1 hw.2.1 hw.2.2.1 hw.2.2.2
    rwa [String.ofList_toList] at hread
  | goBack =>
    cases h
    rfl

/-- The line of a statement is one that reading cuts as it is. -/
theorem Statement.isLine_written {s : Statement} (hw : s.WellFormed) {l : List Char}
    (h : s.line? = some l) : IsLine l := by
  cases s with
  | dialogue content speaker =>
    cases h
    exact isLine_dialogueText hw
  | scene image transition =>
    rw [line?_scene] at h
    cases h
    exact isLine_image (c := 's') (r := "cene ".toList) rfl (by decide) ⟨hw.1, by simp, hw.2⟩
  | showImage image position transition =>
    rw [line?_showImage] at h
    cases h
    exact isLine_image (c := 's') (r := "how ".toList) rfl (by decide)
      ⟨hw.1, isToken_writtenPlace hw.2.1, hw.2.2⟩
  | hideImage image transition =>
    rw [line?_hideImage] at h
    cases h
    exact isLine_image (c := 'h') (r := "ide ".toList) rfl (by decide) ⟨hw.1, by simp, hw.2⟩
  | label name =>
    cases h
    have hone : IsOneLine ("label ".toList ++ name.toList) :=
      isOneLine_append.2 ⟨by decide, isOneLine_of_isToken (IsName.isToken hw)⟩
    exact isLine_append_token (t := [':']) (by decide) hone (by decide)
  | jump target =>
    cases h
    exact isLine_append_token (c := 'j') (r := "ump ".toList) rfl (by decide) hw.1.isToken
  | call target =>
    cases h
    exact isLine_append_token (c := 'c') (r := "all ".toList) rfl (by decide) hw.1.isToken
  | play channel audio =>
    cases h
    have hone : IsOneLine ("play ".toList ++ channel.toList ++ " \"".toList ++ audio.toList) :=
      isOneLine_append.2 ⟨isOneLine_append.2 ⟨isOneLine_append.2 ⟨by decide,
        isOneLine_of_isToken hw.1.isToken⟩, by decide⟩, hw.2.2⟩
    exact isLine_append_token (t := ['"']) (by decide) hone (by decide)
  | stop channel =>
    cases h
    exact isLine_append_token (c := 's') (r := "top ".toList) rfl (by decide) (IsName.isToken hw)
  | pause seconds =>
    cases seconds with
    | none =>
      cases h
      exact ⟨rfl, by decide⟩
    | some seconds =>
      cases h
      exact isLine_append_token (c := 'p') (r := "ause ".toList) rfl (by decide)
        (Line.isToken_brief seconds)
  | assign name value =>
    cases h
    obtain ⟨hname, hone, -⟩ := hw
    have hwhole : IsOneLine ("$ ".toList ++ name.toList ++ " = ".toList ++ value.toList) :=
      isOneLine_append.2 ⟨isOneLine_append.2 ⟨isOneLine_append.2 ⟨by decide,
        isOneLine_of_isToken hname.isToken⟩, by decide⟩, hone⟩
    refine ⟨?_, fun c hc => hwhole c ((trimEnd_isPrefix _).subset hc)⟩
    have htrim : trim ("$ ".toList ++ name.toList ++ " = ".toList ++ value.toList) =
        trimEnd ("$ ".toList ++ name.toList ++ " = ".toList ++ value.toList) :=
      congrArg trimEnd (trimStart_cons (by decide))
    rw [← htrim]
    exact trim_trim _
  | condition test => exact hw.elim
  | code text =>
    cases h
    obtain ⟨hne, hone, htrim, -⟩ := hw
    exact isLine_append (c := '$') (r := [' ']) rfl (by decide) hne
      (trimEnd_eq_self_iff.2 (trim_eq_self_iff.1 htrim).2) hone
  | goBack =>
    cases h
    exact ⟨rfl, by decide⟩

theorem Character.read?_written {c : Character} (hw : c.WellFormed) (hu : c.Unambiguous) :
    Line.read? c.line = some (.define c) :=
  Line.read?_define hw.1 hw.2.1 fun color hc =>
    ⟨(hw.2.2 color hc).1, hu color hc, (hw.2.2 color hc).2⟩

theorem Character.isLine_written {c : Character} (hw : c.WellFormed) : IsLine c.line := by
  obtain ⟨hid, hname, hcolor⟩ := hw
  have hoption : IsOneLine (Line.colorOption c.color) := by
    cases hc : c.color with
    | none => exact fun _ h => by cases h
    | some color =>
      rw [Line.colorOption]
      split
      · exact fun _ h => by cases h
      · exact isOneLine_append.2 ⟨isOneLine_append.2 ⟨by decide, (hcolor color hc).2⟩, by decide⟩
  have hkeyword : IsOneLine ("define ".toList ++ c.id.toList) :=
    isOneLine_append.2 ⟨by decide, isOneLine_of_isToken hid.isToken⟩
  have hcall : IsOneLine ("define ".toList ++ c.id.toList ++ " = Character(".toList) :=
    isOneLine_append.2 ⟨hkeyword, by decide⟩
  rw [Line.line_eq_colorOption]
  have hwhole := isOneLine_append.2
    ⟨isOneLine_append.2 ⟨hcall, isOneLine_quotedText hname⟩, hoption⟩
  exact isLine_append_token (t := [')']) (by decide) hwhole (by decide)

/-! ## Menus -/

/-- The lines of actions in a menu at the first level. -/
def actionLines (actions : List Element) : List (List Char) :=
  actions.filterMap fun a => a.actionLine?.map (levelText 2 ++ ·)

/-- The lines of a choice in a menu at the first level. -/
def Choice.lines (c : Choice) : List (List Char) :=
  (levelText 1 ++ c.headText) :: actionLines c.actions

theorem menuLines_zero (choices : List Choice) :
    menuLines 0 choices = "menu:".toList :: choices.flatMap Choice.lines := rfl

theorem isLine_headText {c : Choice} (hw : c.WellFormed) : IsLine c.headText := by
  obtain ⟨hone, hcondition, -⟩ := hw
  refine isLine_append_token (t := [':']) (by decide) ?_ (by decide)
  exact isOneLine_append.2 ⟨isOneLine_quotedText hone,
    Line.isOneLine_clauseText (by decide) fun test ht => (hcondition test ht).2.1⟩

/-- A line of text starts neither with a blank nor with the mark of a comment. -/
theorem dialogueText_head {content : String} {speaker : Option String}
    (h : (Statement.dialogue content speaker).WellFormed) :
    ∃ c r, dialogueText content speaker = c :: r ∧ isBlank c = false ∧ c ≠ '#' := by
  cases speaker with
  | none => exact ⟨'"', _, rfl, rfl, by decide⟩
  | some name =>
    obtain ⟨hne, hword⟩ := (h.2 name rfl).1
    rw [dialogueText]
    split
    · exact ⟨'"', _, rfl, rfl, by decide⟩
    · cases hl : name.toList with
      | nil => exact absurd hl hne
      | cons c r =>
        have hc : isWord c = true := hword c (by rw [hl]; exact .head _)
        refine ⟨c, _, rfl, isBlank_of_isWord hc, ?_⟩
        rintro rfl
        cases hc

theorem Element.exists_dialogue {e : Element} (h : e.IsSpeech) : ∃ id content speaker,
    e = .statement id (.dialogue content speaker) ∧
      (Statement.dialogue content speaker).WellFormed := by
  cases e with
  | menu id choices => exact h.elim
  | statement id s =>
    cases s with
    | dialogue content speaker => exact ⟨id, content, speaker, rfl, h⟩
    | _ => exact h.elim

/-- What a choice at indentation four adds to itself of its own lines. -/
theorem shown_actionLines {actions : List Element} (h : ∀ a ∈ actions, a.IsSpeech) :
    (∀ line ∈ shown (actionLines actions), opensNext 4 line = false) ∧
      (shown (actionLines actions)).filterMap (action? 4) = actions.map Element.bare := by
  induction actions with
  | nil => simp [actionLines]
  | cons a actions ih =>
    obtain ⟨hown, hread⟩ := ih fun b hb => h b (.tail _ hb)
    obtain ⟨id, content, speaker, rfl, hw⟩ := a.exists_dialogue (h a (.head _))
    obtain ⟨c, r, htext, hc, hm⟩ := dialogueText_head hw
    have hraw : (SourceLine.ofRaw 0 (levelText 2 ++ c :: r)).indent = 8 :=
      indent_ofRaw_of_head hc 2 r
    have hline : (SourceLine.ofRaw 0 (levelText 2 ++ c :: r)).text =
        dialogueText content speaker := by
      rw [text_ofRaw_level, ← htext]
      exact (isLine_dialogueText hw).1
    have haction : action? 4 (SourceLine.ofRaw 0 (levelText 2 ++ c :: r)) =
        some (.statement "" (.dialogue content speaker)) := by
      rw [action?_eq (by omega), hline, Line.readAction?_written hw.1 hw.2]
      rfl
    have hcons : actionLines (.statement id (.dialogue content speaker) :: actions) =
        (levelText 2 ++ c :: r) :: actionLines actions := by
      rw [← htext]
      rfl
    rw [hcons, shown_of_head hc hm]
    refine ⟨fun line hl => ?_, ?_⟩
    · rcases List.mem_cons.1 hl with rfl | hl
      · simp [opensNext, hraw]
      · exact hown line hl
    · rw [List.filterMap_cons_some haction, hread]
      rfl

/-- **The choices of a written menu** are read back from its block. -/
theorem choices_written {cs : List Choice} (h : ∀ c ∈ cs, c.WellFormed) :
    choices (shown (cs.flatMap Choice.lines)) = cs.map Choice.bare ∧
      ∀ line ∈ (shown (cs.flatMap Choice.lines)).head?, opensNext 4 line = true := by
  induction cs with
  | nil => simp [choices]
  | cons c cs ih =>
    obtain ⟨hchoices, hopens⟩ := ih fun d hd => h d (.tail _ hd)
    have hw := h c (.head _)
    obtain ⟨hown, hactions⟩ := shown_actionLines hw.2.2
    have hhead : c.headText = '"' :: c.headText.tail := rfl
    have hindent : (SourceLine.ofRaw 0 (levelText 1 ++ c.headText)).indent = 4 :=
      indent_ofRaw_of_head (c := '"') rfl 1 _
    have hread : Line.readChoice? (SourceLine.ofRaw 0 (levelText 1 ++ c.headText)).text =
        some (c.text, c.condition) := by
      rw [text_ofRaw_level]
      show Line.readChoice? (trim c.headText) = _
      rw [(isLine_headText hw).1, Line.readChoice?_written hw.1 hw.2.1]
    have hshown : shown ((c :: cs).flatMap Choice.lines) =
        SourceLine.ofRaw 0 (levelText 1 ++ c.headText) ::
          (shown (actionLines c.actions) ++ shown (cs.flatMap Choice.lines)) := by
      rw [List.flatMap_cons, Choice.lines, List.cons_append, hhead, shown_of_head rfl (by decide),
        shown_append]
    have hstop : ∀ line ∈ (shown (cs.flatMap Choice.lines)).head?, (!opensNext 4 line) = false :=
      fun line hl => by rw [hopens line hl]; rfl
    have hall : ∀ line ∈ shown (actionLines c.actions), (!opensNext 4 line) = true :=
      fun line hl => by rw [hown line hl]; rfl
    rw [hshown]
    refine ⟨?_, fun line hl => ?_⟩
    · rw [choices, hread]
      simp only [hindent]
      rw [takeWhile_append_of_head hstop, dropWhile_append_of_head hstop,
        List.takeWhile_eq_self_iff.2 hall, List.dropWhile_eq_nil_iff.2 hall, List.nil_append,
        hactions, hchoices, List.map_cons, Choice.bare, bareElements_eq_map]
    · cases hl
      simp [opensNext, hindent, hread]

theorem indent_pos_of_mem_shown {cs : List Choice} :
    ∀ line ∈ shown (cs.flatMap Choice.lines), 0 < line.indent := by
  intro line hline
  obtain ⟨raw, hr, rfl⟩ := mem_shown hline
  obtain ⟨c, -, hr⟩ := List.mem_flatMap.1 hr
  rcases List.mem_cons.1 hr with rfl | hr
  · rw [indent_ofRaw_level]
    omega
  · obtain ⟨a, -, ha⟩ := List.mem_filterMap.1 hr
    obtain ⟨l, -, rfl⟩ := Option.map_eq_some_iff.1 ha
    rw [indent_ofRaw_level]
    omega

/-! ## Whole scripts -/

/-- **A written element** is read as itself, without ids. -/
theorem Element.pieces_written {e : Element} (hw : e.WellFormed) (hu : e.Unambiguous) :
    pieces (shown (e.linesAt 0)) = [.element e.bare] := by
  cases e with
  | statement id s =>
    have hzero : s.ownLevel 0 = 0 := by cases s <;> rfl
    cases hl : s.line? with
    | none =>
      cases s with
      | condition test => exact hw.elim
      | pause seconds => cases seconds <;> cases hl
      | _ => cases hl
    | some l =>
      have hlines : (Element.statement id s).linesAt 0 = [l] := by
        rw [linesAt, hl, hzero]
        rfl
      rw [hlines, pieces_shown_singleton, (Statement.isLine_written hw hl).1,
        Statement.read?_written hw hu hl]
      rfl
  | menu id choices =>
    have hhead : shown (menuLines 0 choices) =
        SourceLine.ofRaw 0 "menu:".toList :: shown (choices.flatMap Choice.lines) :=
      shown_of_head (c := 'm') rfl (by decide) 0 "enu:".toList _
    have hread : Line.read? (SourceLine.ofRaw 0 "menu:".toList).text = some .menu := by decide
    have hall : ∀ line ∈ shown (choices.flatMap Choice.lines),
        decide ((SourceLine.ofRaw 0 "menu:".toList).indent < line.indent) = true :=
      fun line hl => decide_eq_true (indent_pos_of_mem_shown line hl)
    rw [linesAt, hhead, pieces, hread]
    simp only [List.takeWhile_eq_self_iff.2 hall, List.dropWhile_eq_nil_iff.2 hall,
      (choices_written hw).1, pieces, bare_menu]

theorem Character.pieces_written {c : Character} (hw : c.WellFormed) (hu : c.Unambiguous) :
    pieces (shown [c.line]) = [.character c] := by
  rw [pieces_shown_singleton, (isLine_written hw).1, read?_written hw hu]
  rfl

theorem Element.startsBlank_of_wellFormed {e : Element} (h : e.WellFormed) :
    e.startsBlank = false := by
  cases e with
  | menu id choices => rfl
  | statement id s =>
    cases s with
    | dialogue content speaker =>
      cases speaker with
      | none => rfl
      | some name =>
        have htoken := (h.2 name rfl).1.isToken
        rw [startsBlank, Option.any_eq_false]
        exact fun c hc => by simpa using htoken.2 c (List.mem_of_mem_head? hc)
    | _ => rfl

/-- **A representable script** shows its own pieces. -/
theorem Script.ofPieces_textLines {s : Script} (h : s.Representable) :
    ofPieces (pieces (shown s.textLines)) = ({ s with assets := {} } : Script).bare := by
  obtain ⟨⟨hcw, hew⟩, hcu, heu⟩ := h
  have hcast : s.characters.flatMap (fun c => pieces (shown [c.line])) =
      s.characters.map .character := by
    rw [List.map_eq_flatMap]
    exact List.flatMap_congr fun c hc => Character.pieces_written (hcw c hc) (hcu c hc)
  have hplay : s.elements.flatMap (fun e => pieces (shown (e.linesAt 0))) =
      s.elements.map (.element ·.bare) := by
    rw [List.map_eq_flatMap]
    exact List.flatMap_congr fun e he => Element.pieces_written (hew e he) (heu e he)
  rw [pieces_textLines s fun e he => Element.startsBlank_of_wellFormed (hew e he), hcast, hplay]
  simp [ofPieces, bare, List.filterMap_map, Function.comp_def, Piece.character?, Piece.element?]

/-! ### Its lines are kept -/

theorem isOneLine_levelText (level : Nat) : IsOneLine (levelText level) := by
  intro c hc
  rw [List.eq_of_mem_replicate hc]
  rfl

theorem Choice.isOneLine_of_mem_lines {c : Choice} (h : c.WellFormed) :
    ∀ line ∈ c.lines, IsOneLine line := by
  intro line hline
  rcases List.mem_cons.1 hline with rfl | hline
  · exact isOneLine_append.2 ⟨isOneLine_levelText 1, (isLine_headText h).2⟩
  · obtain ⟨a, ha, hl⟩ := List.mem_filterMap.1 hline
    obtain ⟨l, hl, rfl⟩ := Option.map_eq_some_iff.1 hl
    refine isOneLine_append.2 ⟨isOneLine_levelText 2, ?_⟩
    obtain ⟨id, content, speaker, rfl, hw⟩ := a.exists_dialogue (h.2.2 a ha)
    cases hl
    exact (isLine_dialogueText hw).2

theorem Element.isOneLine_of_mem_linesAt {level : Nat} {e : Element} (hw : e.WellFormed) :
    ∀ line ∈ e.linesAt level, IsOneLine line := by
  intro line hline
  cases e with
  | statement id s =>
    simp only [linesAt, Option.mem_toList, Option.map_eq_some_iff] at hline
    obtain ⟨l, hl, rfl⟩ := hline
    exact isOneLine_append.2 ⟨isOneLine_levelText _, (Statement.isLine_written hw hl).2⟩
  | menu id choices =>
    rw [linesAt, menuLines_eq_map] at hline
    obtain ⟨l, hl, rfl⟩ := List.mem_map.1 hline
    refine isOneLine_append.2 ⟨isOneLine_levelText _, ?_⟩
    rw [menuLines_zero] at hl
    rcases List.mem_cons.1 hl with rfl | hl
    · decide
    · obtain ⟨c, hc, hl⟩ := List.mem_flatMap.1 hl
      exact Choice.isOneLine_of_mem_lines (hw c hc) l hl

theorem isOneLine_of_mem_elementLines {es : List Element} (hw : ∀ e ∈ es, e.WellFormed)
    (level : Nat) : ∀ line ∈ elementLines level es, IsOneLine line := by
  induction es generalizing level with
  | nil => simp [elementLines]
  | cons e es ih =>
    intro line hline
    rw [elementLines_cons] at hline
    rcases List.mem_append.1 hline with hline | hline
    · exact Element.isOneLine_of_mem_linesAt (hw e (.head _)) line hline
    · exact ih (fun f hf => hw f (.tail _ hf)) _ line hline

/-- A script whose pieces are as reading cuts them has the lines that are written. -/
theorem Script.WellFormed.keepsLines {s : Script} (h : s.WellFormed) : s.KeepsLines := by
  obtain ⟨hcw, hew⟩ := h
  intro line hline
  rw [textLines, List.mem_append, List.mem_append] at hline
  rcases hline with (hline | hline) | hline
  · obtain ⟨c, hc, rfl⟩ := List.mem_map.1 hline
    exact (Character.isLine_written (hcw c hc)).2
  · have hempty : line = [] := by
      split at hline
      · cases hline
      · simpa using hline
    rw [hempty]
    exact fun _ hc => by cases hc
  · exact isOneLine_of_mem_elementLines hew 0 line hline

section
variable {σ : Type} (source : IdSource σ) (ids : σ)

/-- What is read of a representable script is the script, but for its assets and ids. -/
theorem Script.Representable.ofText_bare {s : Script} (h : s.Representable) :
    (Reader.ofText source ids s.toText).script.bare = ({ s with assets := {} } : Script).bare :=
  (Reader.ofText_bare_toText source ids h.1.keepsLines).trans (Script.ofPieces_textLines h)

/-- **From script to text and back.** A representable script is read back as it was, with no assets
and with new ids, which are handed out in the order of the text. -/
theorem Script.ofText_toText_of_representable {s : Script} (h : s.Representable) :
    (Reader.ofText source ids s.toText).script.bare = ({ s with assets := {} } : Script).bare ∧
      (Reader.ofText source ids s.toText).script =
        ({ s with assets := {} } : Script).renew source ids :=
  ⟨h.ofText_bare source ids, Reader.ofText_eq_renew source ids (h.ofText_bare source ids)⟩

end

/-- A representable script of many kinds: escapes, a keyword and a head of a menu as text, clause
words as values, conditions that are a blank and that end in a colon, code that is no assignment. -/
def motley : Script :=
  { characters := [⟨"e", "Eve \"the\\\" \\n", some "#f\\'f"⟩, ⟨"größe_2", "", none⟩]
    elements := [
      .statement "1" (.label "start"),
      .statement "2" (.scene "bg room" none),
      .menu "3" [
        ⟨"4", "Go: \"on\"", some "x == \"y\":",
          [.statement "5" (.dialogue "menu:" (some "menus")),
            .statement "6" (.dialogue "Ends in \\" none)]⟩,
        ⟨"7", "", some " ", []⟩],
      .statement "8" (.showImage "eve at_home" "with" (some "at")),
      .statement "9" (.pause (some (.ofDecimal false [1, 5] (-1)))),
      .statement "10" (.assign "x" "= 1"),
      .statement "11" (.code "x == 1"),
      .statement "12" .goBack,
      .statement "13" (.jump "expressions")]
    assets := { images := [.null] } }

theorem Script.ofText_toText_motley : motley.Representable ∧
    (Reader.ofText .perKind [] motley.toText).script.bare =
      ({ motley with assets := {} } : Script).bare ∧
    (Reader.ofText .perKind [] motley.toText).script =
      ({ motley with assets := {} } : Script).renew .perKind [] :=
  have h : motley.Representable := by decide +kernel
  ⟨h, Script.ofText_toText_of_representable .perKind [] h⟩

end NovelScript
