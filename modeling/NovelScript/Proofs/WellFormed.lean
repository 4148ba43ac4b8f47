import NovelScript.Proofs.Representable

/-!
# What is read is well formed

Whatever the text, each piece that is read off it is well formed (`Script.wellFormed_ofText`): a
line is trimmed and holds no break, and each form cuts its pieces out of the line. So the text of a
script that was read is read as the same script again, ids included, unless one of its lines has a
second reading (`Script.ofText_toText_ofText`).
-/

set_option autoImplicit false

namespace NovelScript

open Text Blocks

namespace Line

/-! ## Lines -/

theorem isToken_position {spec : ImageSpec} (h : ∀ value ∈ spec.position, IsToken value.toList) :
    IsToken (spec.position.getD defaultPosition).toList := by
  cases hp : spec.position with
  | none => exact (by decide : IsToken defaultPosition.toList)
  | some value => exact h value hp

/-- Text that is read is well formed. -/
theorem wellFormed_of_readSpeech? {s : List Char} {t : Statement} (hs : IsOneLine s)
    (h : readSpeech? s = some t) : t.WellFormed ∧ (Element.statement "" t).IsSpeech := by
  obtain ⟨text, hsub, ht⟩ := readSpeech?_eq_some h
  have hone : IsOneLine (Quoted.unescape text) :=
    (hs.mono hsub).mono (Quoted.unescape_subset text)
  obtain ⟨-, -, rfl⟩ | ⟨hname, hkeyword, rfl⟩ := ht
  · have hw : (Statement.dialogue (String.ofList (Quoted.unescape text)) none).WellFormed := by
      rw [Statement.WellFormed, String.toList_ofList]
      exact ⟨hone, by simp⟩
    exact ⟨hw, hw⟩
  · have hw : (Statement.dialogue (String.ofList (Quoted.unescape text))
        (some (String.ofList (firstWord s)))).WellFormed := by
      rw [Statement.WellFormed, String.toList_ofList]
      refine ⟨hone, fun name hn => ?_⟩
      cases hn
      rw [String.toList_ofList]
      exact ⟨hname, hkeyword⟩
    exact ⟨hw, hw⟩

/-- Code is not read as an assignment where it stands behind one blank. -/
theorem wellFormed_of_readCode? {s : List Char} {t : Statement} (hs : IsLine s)
    (ha : readAssign? s = none) (h : readCode? s = some (statement t)) : t.WellFormed := by
  obtain ⟨rest, rfl, hne, ht⟩ := readCode?_eq_some h
  cases ht
  obtain ⟨htrim, hone⟩ := hs
  have hcode : IsOneLine (trimStart rest) :=
    (isOneLine_cons.1 hone).2.mono (trimStart_suffix rest).subset
  rw [upToBreak_eq_self hcode.lf_not_mem] at hne ⊢
  have hstart : trimStart (trimStart rest) = trimStart rest := List.dropWhile_idempotent _ _
  -- The line ends where the code ends, and so does the trimmed code.
  have hend : trimEnd (trimStart rest) = trimStart rest := by
    rw [trimEnd_eq_self_iff]
    obtain ⟨b, hb⟩ := trimStart_suffix rest
    have hlast : ('$' :: rest).getLast? = (trimStart rest).getLast? := by
      rw [← hb, ← List.cons_append, List.getLast?_append_of_ne_nil _ hne, hb]
    rw [← hlast]
    exact (trim_eq_self_iff.1 htrim).2
  have hself : trim (trimStart rest) = trimStart rest := by
    rw [trim, hstart, hend]
  have hassign : readAssign? ("$ ".toList ++ trimStart rest) = readAssign? ('$' :: rest) := by
    have hblank : trimStart (' ' :: trimStart rest) = trimStart rest := hstart
    have hafter : ∀ r, after? ['$'] ('$' :: r) = some r := fun r => rfl
    have hline : "$ ".toList ++ trimStart rest = '$' :: ' ' :: trimStart rest := rfl
    simp only [readAssign?, hline, hafter, Option.bind_eq_bind, Option.bind_some, hblank]
  rw [Statement.WellFormed, String.toList_ofList, hself, hassign]
  exact ⟨hne, hcode, hself, ha⟩

/-- A character that is read is well formed. -/
theorem wellFormed_of_define {s : List Char} {c : Character} (hs : IsLine s)
    (h : read? s = some (define c)) : c.WellFormed := by
  rcases read?_define_or_menu_or_statement h with h | h | ⟨t, ht⟩
  · obtain ⟨d, hd, hid, hname, hcolor⟩ := readDefine?_eq_some h
    cases hd
    exact ⟨hid, hs.2.mono hname, fun color hc =>
      ⟨(hcolor color hc).1, hs.2.mono (hcolor color hc).2⟩⟩
  · cases (readMenu?_eq_some h).1
  · cases ht

/-- **A statement that is read is well formed.** -/
theorem wellFormed_of_read? {s : List Char} {t : Statement} (hs : IsLine s)
    (h : read? s = some (statement t)) : t.WellFormed := by
  rcases read?_eq_some h with h | h | h | h | h | h | h | h | h | h | ⟨ha, h⟩ | h | h | h | h
  · obtain ⟨c, hc, -⟩ := readDefine?_eq_some h
    cases hc
  · obtain ⟨name, ht, hname⟩ := readLabel?_eq_some h
    cases ht
    exact hname
  · obtain ⟨r, spec, hspec, ht⟩ := readScene?_eq_some h
    cases ht
    obtain ⟨himage, -, htransition⟩ := wellFormed_of_image? hspec
    exact ⟨himage, htransition⟩
  · obtain ⟨r, spec, hspec, ht⟩ := readShow?_eq_some h
    cases ht
    obtain ⟨himage, hposition, htransition⟩ := wellFormed_of_image? hspec
    exact ⟨himage, isToken_position hposition, htransition⟩
  · obtain ⟨r, spec, hspec, ht⟩ := readHide?_eq_some h
    cases ht
    obtain ⟨himage, -, htransition⟩ := wellFormed_of_image? hspec
    exact ⟨himage, htransition⟩
  · obtain ⟨channel, audio, ht, hchannel, hne, hsub⟩ := readPlay?_eq_some h
    cases ht
    exact ⟨hchannel, hne, hs.2.mono hsub⟩
  · obtain ⟨channel, ht, hchannel⟩ := readStop?_eq_some h
    cases ht
    exact hchannel
  · obtain ⟨seconds, ht⟩ := readPause?_eq_some h
    cases ht
    trivial
  · cases (readMenu?_eq_some h).1
  · obtain ⟨name, value, ht, hname, hsub, htrim⟩ := readAssign?_eq_some h
    cases ht
    exact ⟨hname, hs.2.mono hsub, htrim⟩
  · exact wellFormed_of_readCode? hs ha h
  · obtain ⟨target, ht, hname, hreserved⟩ := readJump?_eq_some h
    cases ht
    exact ⟨hname, by simpa using hreserved⟩
  · obtain ⟨target, ht, hname, hreserved⟩ := readCall?_eq_some h
    cases ht
    exact ⟨hname, by simpa using hreserved⟩
  · cases readReturn?_eq_some h
    trivial
  · obtain ⟨u, hu, ht⟩ := Option.map_eq_some_iff.1 h
    cases ht
    exact (wellFormed_of_readSpeech? hs.2 hu).1

/-! ## Choices -/

theorem isCondition_of_readCondition? {s : List Char} (hs : IsOneLine s)
    {found : Option (List Char)} (h : readCondition? s = some found) :
    ∀ test ∈ found, IsCondition test := by
  rw [readCondition?] at h
  split at h
  · cases h
    simp
  · simp only [Option.bind_eq_bind, Option.bind_eq_some_iff] at h
    obtain ⟨s1, h1, gap, hgap, test, htest, h⟩ := h
    have hone : IsOneLine gap :=
      hs.mono ((after?_suffix hgap).trans (afterBlanks?_suffix h1)).subset
    split at h
    · -- Blanks alone: the condition is one of them.
      split at h
      · rename_i c hc
        cases h
        have hmem : c ∈ gap :=
          List.mem_of_mem_drop (List.mem_reverse.1 (List.mem_of_find?_eq_some hc))
        rintro _ ⟨⟩
        refine ⟨List.cons_ne_nil c [], fun d hd => ?_, .inr rfl⟩
        rw [List.mem_singleton.1 hd]
        exact hone c hmem
      · cases h
    · rename_i hne
      obtain ⟨b, t, rfl, -, rfl⟩ := afterBlanks?_eq_some htest
      split at h
      · cases h
      · cases h
        rintro _ ⟨⟩
        refine ⟨fun he => hne ?_, ((isOneLine_cons.1 hone).2.mono (trim_subset t)),
          .inl (trim_trim t)⟩
        have hstart : trimStart (trimStart t) = trimStart t := List.dropWhile_idempotent _ _
        have hblank := trimEnd_eq_nil_iff.1 he
        rwa [← trimStart_eq_nil_iff, hstart] at hblank

theorem wellFormed_of_readChoice? {s : List Char} (hs : IsOneLine s) {text : String}
    {condition : Option String} (h : readChoice? s = some (text, condition)) :
    IsOneLine text.toList ∧ ∀ test ∈ condition, IsCondition test.toList := by
  simp only [readChoice?, Option.bind_eq_bind, Option.bind_eq_some_iff] at h
  obtain ⟨⟨quoted, rest⟩, hq, h⟩ := h
  rw [quotedText?_eq_some hq, isOneLine_append, isOneLine_cons, isOneLine_cons] at hs
  obtain ⟨⟨-, hquoted⟩, -, hrest⟩ := hs
  dsimp only at h
  split at h
  · cases h
  · rename_i c before hbefore
    split at h
    · obtain ⟨found, hfound, h⟩ := Option.bind_eq_some_iff.1 h
      cases h
      have hmiddle : IsOneLine before.reverse := by
        refine hrest.mono fun d hd => ?_
        rw [← List.mem_reverse, hbefore]
        exact .tail _ (List.mem_reverse.1 hd)
      rw [String.toList_ofList]
      refine ⟨hquoted.mono (Quoted.unescape_subset quoted), fun test ht => ?_⟩
      obtain ⟨t, hmem, rfl⟩ := Option.map_eq_some_iff.1 ht
      rw [String.toList_ofList]
      exact isCondition_of_readCondition? hmiddle hfound t hmem
    · cases h

end Line

/-! ## Whole texts -/

namespace Blocks

theorem isSpeech_of_action? {k : Nat} {line : SourceLine} (hs : IsOneLine line.text) {e : Element}
    (h : action? k line = some e) : e.IsSpeech := by
  unfold action? at h
  split at h
  · obtain ⟨t, ht, rfl⟩ := Option.map_eq_some_iff.1 h
    exact (Line.wellFormed_of_readSpeech? hs ht).2
  · cases h

/-- The choices of a block are well formed. -/
theorem wellFormed_choices (lines : List SourceLine) (hs : ∀ line ∈ lines, IsLine line.text) :
    ∀ c ∈ choices lines, c.WellFormed := by
  match lines, hs with
  | [], _ => simp [choices]
  | line :: rest, hs =>
    have hrest : ∀ line ∈ rest, IsLine line.text := fun line hl => hs line (.tail _ hl)
    have hlen := (List.dropWhile_suffix (l := rest) (!opensNext line.indent ·)).length_le
    rw [choices]
    split
    · exact wellFormed_choices rest hrest
    · rename_i text condition hread
      intro c hc
      rcases List.mem_cons.1 hc with rfl | hc
      · obtain ⟨htext, hcondition⟩ := Line.wellFormed_of_readChoice? (hs line (.head _)).2 hread
        refine ⟨htext, hcondition, fun a ha => ?_⟩
        obtain ⟨own, hown, ha⟩ := List.mem_filterMap.1 ha
        exact isSpeech_of_action? (hrest own ((List.takeWhile_prefix _).subset hown)).2 ha
      · exact wellFormed_choices (rest.dropWhile (!opensNext line.indent ·))
          (fun l hl => hrest l ((List.dropWhile_suffix _).subset hl)) c hc
termination_by lines.length
decreasing_by
  · simp
  · simp only [List.length_cons]
    omega

end Blocks

/-- Whether a piece of a text is well formed. -/
def Piece.WellFormed : Piece → Prop
  | character c => c.WellFormed
  | element e => e.WellFormed

namespace Blocks

/-- **The pieces of a text** are well formed. -/
theorem wellFormed_pieces (lines : List SourceLine) (hs : ∀ line ∈ lines, IsLine line.text) :
    ∀ p ∈ pieces lines, p.WellFormed := by
  match lines, hs with
  | [], _ => simp [pieces]
  | line :: rest, hs =>
    have hrest : ∀ line ∈ rest, IsLine line.text := fun line hl => hs line (.tail _ hl)
    have hlen := (List.dropWhile_suffix (l := rest) (line.indent < ·.indent)).length_le
    have hline := hs line (.head _)
    rw [pieces]
    split
    · exact wellFormed_pieces rest hrest
    · rename_i c hread
      intro p hp
      rcases List.mem_cons.1 hp with rfl | hp
      · exact Line.wellFormed_of_define hline hread
      · exact wellFormed_pieces rest hrest p hp
    · rename_i s hread
      intro p hp
      rcases List.mem_cons.1 hp with rfl | hp
      · exact Line.wellFormed_of_read? hline hread
      · exact wellFormed_pieces rest hrest p hp
    · intro p hp
      rcases List.mem_cons.1 hp with rfl | hp
      · exact wellFormed_choices _ fun l hl => hrest l ((List.takeWhile_prefix _).subset hl)
      · exact wellFormed_pieces (rest.dropWhile (line.indent < ·.indent))
          (fun l hl => hrest l ((List.dropWhile_suffix _).subset hl)) p hp
termination_by lines.length
decreasing_by
  · simp
  · simp
  · simp
  · simp only [List.length_cons]
    omega

end Blocks

/-! ### Ids play no part -/

theorem Element.isSpeech_of_bare {e : Element} (h : e.bare.IsSpeech) : e.IsSpeech := by
  cases e with
  | statement id s => cases s <;> exact h
  | menu id choices => exact h

theorem Element.wellFormed_of_bare {e : Element} (h : e.bare.WellFormed) : e.WellFormed := by
  cases e with
  | statement id s => exact h
  | menu id choices =>
    rw [bare_menu] at h
    intro c hc
    obtain ⟨htext, hcondition, hactions⟩ := h c.bare (List.mem_map_of_mem hc)
    refine ⟨htext, hcondition, fun a ha => Element.isSpeech_of_bare (hactions a.bare ?_)⟩
    rw [Choice.bare, bareElements_eq_map]
    exact List.mem_map_of_mem ha

theorem isLine_of_mem_sourceLines {text : List Char} {line : SourceLine}
    (h : line ∈ sourceLines text) : IsLine line.text := by
  obtain ⟨⟨raw, i⟩, hraw, rfl⟩ := List.mem_map.1 h
  have hone : IsOneLine raw := isOneLine_of_mem_lines (List.fst_mem_of_mem_zipIdx hraw)
  exact ⟨trim_trim raw, hone.mono (trim_subset raw)⟩

section
variable {σ : Type} (source : IdSource σ) (ids : σ)

/-- **Whatever the text, the script that is read is well formed.** -/
theorem Script.wellFormed_ofText (text : String) :
    (Reader.ofText source ids text).script.WellFormed := by
  have hpieces := wellFormed_pieces (visible (sourceLines text.toList))
    fun line hl => isLine_of_mem_sourceLines (List.mem_filter.1 hl).1
  have hbare : (Reader.ofText source ids text).script.bare = .ofPieces _ := Blocks.script_bare ids _
  have hcast : (Reader.ofText source ids text).script.characters =
      (pieces (visible (sourceLines text.toList))).filterMap Piece.character? :=
    congrArg Script.characters hbare
  have hplay : bareElements (Reader.ofText source ids text).script.elements =
      (pieces (visible (sourceLines text.toList))).filterMap Piece.element? :=
    congrArg Script.elements hbare
  constructor
  · intro c hc
    rw [hcast] at hc
    obtain ⟨p, hp, hpc⟩ := List.mem_filterMap.1 hc
    cases p with
    | character d =>
      cases hpc
      exact hpieces _ hp
    | element e => cases hpc
  · intro e he
    have hmem : e.bare ∈ bareElements (Reader.ofText source ids text).script.elements := by
      rw [bareElements_eq_map]
      exact List.mem_map_of_mem he
    rw [hplay] at hmem
    obtain ⟨p, hp, hpe⟩ := List.mem_filterMap.1 hmem
    cases p with
    | character d => cases hpe
    | element d =>
      cases hpe
      exact Element.wellFormed_of_bare (hpieces _ hp)

/-- **Reading is stable.** Whatever the text, the script that is read off it is read again off its
own text, the ids included, if none of its lines has a second reading; and so its text is written
again. -/
theorem Script.ofText_toText_ofText (text : String)
    (h : (Reader.ofText source ids text).script.Unambiguous) :
    (Reader.ofText source ids (Reader.ofText source ids text).script.toText).script =
        (Reader.ofText source ids text).script ∧
      (Reader.ofText source ids (Reader.ofText source ids text).script.toText).script.toText =
        (Reader.ofText source ids text).script.toText := by
  have hrep : (Reader.ofText source ids text).script.Representable :=
    ⟨Script.wellFormed_ofText source ids text, h⟩
  have hsame : (Reader.ofText source ids (Reader.ofText source ids text).script.toText).script =
      (Reader.ofText source ids text).script :=
    (Reader.ofText_eq_renew source ids (hrep.ofText_bare source ids)).trans
      (Reader.ofText_renew source ids text)
  exact ⟨hsame, congrArg Script.toText hsame⟩

end

/-- A careless text: a choice under a blank condition, a line that says nothing, clause words as
values and colons at the end. -/
def careless : String :=
  "\tmenu :\r\n\t\t\"One\" if  \u00a0:\n\t\t\t e \"deep\" x\n\t\t\tjump out\n" ++
    "\tshow  screens at at with  behind ::\n$x == 1"

theorem Script.ofText_toText_careless :
    (Reader.ofText .perKind [] careless).script.Unambiguous ∧
      (Reader.ofText .perKind [] (Reader.ofText .perKind [] careless).script.toText).script =
        (Reader.ofText .perKind [] careless).script ∧
      (Reader.ofText .perKind [] (Reader.ofText .perKind [] careless).script.toText).script.toText =
        (Reader.ofText .perKind [] careless).script.toText :=
  have h : (Reader.ofText .perKind [] careless).script.Unambiguous := by decide +kernel
  ⟨h, Script.ofText_toText_ofText .perKind [] careless h⟩

end NovelScript
