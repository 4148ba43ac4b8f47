import NovelScript.Proofs.Images
import NovelScript.Proofs.QuotedForms

/-!
# What is written is read back

For each form, the line that is written for it is read as that form again: no earlier form takes the
line, and each piece ends where it was written to end. The pieces are a name, a plain text between
double quotes, an image with its clauses and text with its escapes.
-/

set_option autoImplicit false

namespace NovelScript

open Text

/-! ## Pieces of text -/

namespace Text

/-- A text that stands between double quotes as it is. -/
def IsPlain (v : List Char) : Prop := v ≠ [] ∧ '"' ∉ v ∧ IsOneLine v

instance (v : List Char) : Decidable (IsPlain v) := inferInstanceAs (Decidable (_ ∧ _ ∧ _))

/-- A text without quotes is read in full. -/
theorem IsPlain.plainPart {v : List Char} (hv : IsPlain v) : Quoted.plainPart '"' v = v :=
  Quoted.plainPart_eq_self_iff.2 fun hq => hv.2.1 (List.mem_of_mem_tail hq)

/-- A condition: a trimmed text, or one blank alone. -/
def IsCondition (s : List Char) : Prop := s ≠ [] ∧ IsOneLine s ∧ (trim s = s ∨ s.length = 1)

instance (s : List Char) : Decidable (IsCondition s) := inferInstanceAs (Decidable (_ ∧ _ ∧ _))

end Text

namespace Line

theorem splitWord?_name {w : List Char} (h : IsName w) : splitWord? w = some (w, []) := by
  have := splitWord?_append (r := []) h (by simp)
  rwa [List.append_nil] at this

/-- Once the forms before it are out of the way, a form that reads a line settles it. -/
theorem read?_of_first {s : List Char} {l : Line} {first others : Option Line}
    (h : first = some l) (hread : read? s = (first <|> others)) : read? s = some l := by
  rw [hread, h]
  rfl

/-! ## Statements of one word -/

theorem read?_label {w : List Char} (hw : IsName w) :
    read? ("label ".toList ++ w ++ [':']) = some (statement (.label (String.ofList w))) := by
  have hk : afterKeyword? "label" ("label ".toList ++ w ++ [':']) = some (w ++ [':']) :=
    congrArg some (trimStart_token hw.isToken _)
  have hs : splitWord? (w ++ [':']) = some (w, [':']) := splitWord?_append hw (by simp [isWord])
  have h : readLabel? ("label ".toList ++ w ++ [':']) =
      some (statement (.label (String.ofList w))) := by
    simp only [readLabel?, hk, Option.bind_eq_bind, Option.bind_some, hs]
    rfl
  exact read?_of_first h rfl

theorem read?_jump {w : List Char} (hw : IsName w)
    (hr : startsWithWord "expression".toList w = false) :
    read? ("jump ".toList ++ w) = some (statement (.jump (String.ofList w))) := by
  have hk : afterKeyword? "jump" ("jump ".toList ++ w) = some w :=
    congrArg some hw.isToken.trimStart
  have h : readJump? ("jump ".toList ++ w) = some (statement (.jump (String.ofList w))) := by
    simp only [readJump?, target?, hk, Option.bind_eq_bind, Option.bind_some, List.any_cons, hr,
      List.any_nil, Bool.or_self, Bool.false_eq_true, if_false, splitWord?_name hw]
    rfl
  exact read?_of_first h rfl

theorem read?_call {w : List Char} (hw : IsName w)
    (hr : startsWithWord "expression".toList w = false)
    (hs : startsWithWord "screen".toList w = false) :
    read? ("call ".toList ++ w) = some (statement (.call (String.ofList w))) := by
  have hk : afterKeyword? "call" ("call ".toList ++ w) = some w :=
    congrArg some hw.isToken.trimStart
  have h : readCall? ("call ".toList ++ w) = some (statement (.call (String.ofList w))) := by
    simp only [readCall?, target?, hk, Option.bind_eq_bind, Option.bind_some, List.any_cons, hr, hs,
      List.any_nil, Bool.or_self, Bool.false_eq_true, if_false, splitWord?_name hw]
    rfl
  exact read?_of_first h rfl

theorem read?_stop {w : List Char} (hw : IsName w) :
    read? ("stop ".toList ++ w) = some (statement (.stop (String.ofList w))) := by
  have hk : afterKeyword? "stop" ("stop ".toList ++ w) = some w :=
    congrArg some hw.isToken.trimStart
  have h : readStop? ("stop ".toList ++ w) = some (statement (.stop (String.ofList w))) := by
    simp only [readStop?, hk, Option.bind_eq_bind, Option.bind_some, splitWord?_name hw]
    rfl
  exact read?_of_first h rfl

/-- What is played is read up to the first quote behind its first character. -/
theorem read?_play_plainPart {w v : List Char} (hw : IsName w) (hne : v ≠ []) (hn : '\n' ∉ v) :
    read? ("play ".toList ++ w ++ " \"".toList ++ v ++ ['"']) =
      some (statement (.play (String.ofList w) (String.ofList (Quoted.plainPart '"' v)))) := by
  have hline : "play ".toList ++ w ++ " \"".toList ++ v ++ ['"'] =
      "play ".toList ++ (w ++ ' ' :: '"' :: (v ++ ['"'])) := by simp
  have hk : afterKeyword? "play" ("play ".toList ++ (w ++ ' ' :: '"' :: (v ++ ['"']))) =
      some (w ++ ' ' :: '"' :: (v ++ ['"'])) := congrArg some (trimStart_token hw.isToken _)
  have hs : splitWord? (w ++ ' ' :: '"' :: (v ++ ['"'])) = some (w, ' ' :: '"' :: (v ++ ['"'])) :=
    splitWord?_append hw (by simp [isWord])
  have hb : afterBlanks? (' ' :: '"' :: (v ++ ['"'])) = some ('"' :: (v ++ ['"'])) := rfl
  have hq : splitQuote? ('"' :: (v ++ ['"'])) = some ('"', v ++ ['"']) := rfl
  obtain ⟨rest, ha⟩ := Quoted.splitPlain?_plainPart (q := '"') hne hn []
  have h : readPlay? ("play ".toList ++ (w ++ ' ' :: '"' :: (v ++ ['"']))) =
      some (statement (.play (String.ofList w) (String.ofList (Quoted.plainPart '"' v)))) := by
    simp only [readPlay?, hk, Option.bind_eq_bind, Option.bind_some, hs, hb, hq, ha]
    rfl
  rw [hline]
  exact read?_of_first h rfl

theorem read?_play {w v : List Char} (hw : IsName w) (hv : IsPlain v) :
    read? ("play ".toList ++ w ++ " \"".toList ++ v ++ ['"']) =
      some (statement (.play (String.ofList w) (String.ofList v))) := by
  rw [read?_play_plainPart hw hv.1 hv.2.2.lf_not_mem, hv.plainPart]

/-! ## Pauses, code and returns -/

/-- **What is read as seconds**: digits, or a point with digits behind it and perhaps before it. -/
theorem isSome_readSeconds?_iff {s : List Char} : (readSeconds? s).isSome ↔
    (s ≠ [] ∧ ∀ c ∈ s, (digitValue? c).isSome) ∨ ∃ whole fraction, s = whole ++ '.' :: fraction ∧
      (∀ c ∈ whole, (digitValue? c).isSome) ∧ fraction ≠ [] ∧
        ∀ c ∈ fraction, (digitValue? c).isSome := by
  have hpoint : (digitValue? '.').isSome = false := by decide
  have hsplit := List.takeWhile_append_dropWhile (p := fun c => (digitValue? c).isSome) (l := s)
  have hwhole : ∀ c ∈ s.takeWhile fun c => (digitValue? c).isSome, (digitValue? c).isSome :=
    fun c hc => List.all_eq_true.1 List.all_takeWhile c hc
  constructor
  · intro h
    simp only [readSeconds?] at h
    split at h
    · rename_i hd
      rw [hd, List.append_nil] at hsplit
      rw [hsplit] at h hwhole
      refine .inl ⟨?_, hwhole⟩
      rintro rfl
      cases h
    · rename_i c fraction hd
      split at h
      · rename_i hc
        simp only [Bool.and_eq_true, decide_eq_true_eq, List.all_eq_true] at hc
        obtain ⟨⟨rfl, hne⟩, hall⟩ := hc
        rw [hd] at hsplit
        exact .inr ⟨_, fraction, hsplit.symm, hwhole, hne, hall⟩
      · cases h
  · rintro (⟨hne, hall⟩ | ⟨whole, fraction, rfl, hall, hne, hfraction⟩)
    · have hdrop : s.dropWhile (fun c => (digitValue? c).isSome) = [] :=
        List.dropWhile_eq_nil_iff.2 hall
      rw [hdrop, List.append_nil] at hsplit
      simp only [readSeconds?, hdrop, hsplit, if_neg hne, Option.isSome_some]
    · have hdrop : (whole ++ '.' :: fraction).dropWhile (fun c => (digitValue? c).isSome) =
          '.' :: fraction := by
        rw [List.dropWhile_append_of_pos hall, List.dropWhile_cons_of_neg (by simp [hpoint])]
      have hfits : (decide True && decide (fraction ≠ []) &&
          fraction.all fun c => (digitValue? c).isSome) = true := by
        simpa [hne] using hfraction
      simp only [readSeconds?, hdrop, hfits, if_true, Option.isSome_some]

theorem isBlank_of_isSome_digitValue? {c : Char} (h : (digitValue? c).isSome) :
    isBlank c = false := by
  cases hb : isBlank c with
  | false => rfl
  | true =>
    rw [digitValue?_of_isBlank hb] at h
    cases h

/-- What is read as seconds is made of digits and points. -/
theorem isToken_of_readSeconds? {s : List Char} {d : Binary64} (h : readSeconds? s = some d) :
    IsToken s := by
  rcases isSome_readSeconds?_iff.1 (by rw [h]; rfl) with
    ⟨hne, hall⟩ | ⟨whole, fraction, rfl, hall, -, hfraction⟩
  · exact ⟨hne, fun c hc => isBlank_of_isSome_digitValue? (hall c hc)⟩
  · refine ⟨by simp, fun c hc => ?_⟩
    rcases List.mem_append.1 hc with hc | hc
    · exact isBlank_of_isSome_digitValue? (hall c hc)
    · rcases List.mem_cons.1 hc with rfl | hc
      · rfl
      · exact isBlank_of_isSome_digitValue? (hfraction c hc)

/-- Behind the keyword a token is read as seconds, or the line says nothing. -/
theorem read?_pause_token {t : List Char} (ht : IsToken t) :
    read? ("pause ".toList ++ t) =
      (readSeconds? t).map fun d => statement (.pause (some d)) := by
  have hfirst : firstWord ("pause ".toList ++ t) = "pause".toList :=
    firstWord_of_append_blank (by decide : IsName "pause".toList) (b := ' ') rfl t
  have hb : afterBlanks? (' ' :: t) = some t := congrArg some ht.trimStart
  have hpause : readPause? ("pause ".toList ++ t) =
      (afterBlanks? (' ' :: t)).bind fun r => (readSeconds? r).bind fun d =>
        some (statement (.pause (some d))) := rfl
  rw [read?_of_keyword readPause? (by simp [keywordForms]) hfirst, hpause, hb,
    Option.bind_some, Option.map_eq_bind]
  rfl

theorem read?_pause {t : List Char} {d : Binary64} (h : readSeconds? t = some d) :
    read? ("pause ".toList ++ t) = some (statement (.pause (some d))) := by
  rw [read?_pause_token (isToken_of_readSeconds? h), h, Option.map_some]

/-- An assignment keeps its value, but for the blanks that a line loses at its end. -/
theorem read?_assign {w v : List Char} (hw : IsName w) (hone : IsOneLine v) (hv : trim v = v) :
    read? (trimEnd ("$ ".toList ++ w ++ " = ".toList ++ v)) =
      some (statement (.assign (String.ofList w) (String.ofList v))) := by
  -- What stands behind the equality sign is a blank and the value, or nothing.
  obtain ⟨tail, hline, hhead, htail⟩ : ∃ tail,
      trimEnd ("$ ".toList ++ w ++ " = ".toList ++ v) = "$ ".toList ++ (w ++ ' ' :: '=' :: tail) ∧
        tail.head? ≠ some '=' ∧ trim (upToBreak (trimStart tail)) = v := by
    obtain ⟨hfirst, hlast⟩ := trim_eq_self_iff.1 hv
    by_cases hne : v = []
    · subst hne
      refine ⟨[], ?_, by simp, rfl⟩
      have hcut : "$ ".toList ++ w ++ " = ".toList ++ [] =
          "$ ".toList ++ (w ++ [' ', '=']) ++ [' '] := by simp
      rw [hcut, trimEnd_append_blanks (List.forall_mem_singleton.2 rfl), trimEnd_eq_self_iff]
      have hsign : "$ ".toList ++ (w ++ [' ', '=']) = "$ ".toList ++ w ++ [' '] ++ ['='] := by simp
      rw [hsign, List.getLast?_concat]
      simp [isBlank]
    · refine ⟨' ' :: v, ?_, by simp, ?_⟩
      · have hcut : "$ ".toList ++ w ++ " = ".toList ++ v =
            "$ ".toList ++ (w ++ ' ' :: '=' :: ' ' :: v) := by simp
        rw [← hcut, trimEnd_eq_self_iff, List.getLast?_append_of_ne_nil _ hne]
        exact hlast
      · have hstart : trimStart (' ' :: v) = v := trimStart_eq_self_iff.2 hfirst
        rw [hstart, upToBreak_eq_self hone.lf_not_mem, hv]
  have ht : trimStart (' ' :: (w ++ ' ' :: '=' :: tail)) = w ++ ' ' :: '=' :: tail :=
    trimStart_token hw.isToken _
  have hs : splitWord? (w ++ ' ' :: '=' :: tail) = some (w, ' ' :: '=' :: tail) :=
    splitWord?_append hw (by simp [isWord])
  have ha : afterSign? '=' (' ' :: '=' :: tail) = some tail := rfl
  have hd : after? ['$'] ("$ ".toList ++ (w ++ ' ' :: '=' :: tail)) =
      some (' ' :: (w ++ ' ' :: '=' :: tail)) := rfl
  have h : readAssign? ("$ ".toList ++ (w ++ ' ' :: '=' :: tail)) =
      some (statement (.assign (String.ofList w) (String.ofList v))) := by
    simp only [readAssign?, hd, Option.bind_eq_bind, Option.bind_some, ht, hs, ha, if_neg hhead,
      htail]
    rfl
  rw [hline]
  exact read?_of_first h rfl

/-- Code is read back as code, unless it is an assignment. -/
theorem read?_code {v : List Char} (hne : v ≠ []) (hone : IsOneLine v) (hv : trim v = v)
    (ha : readAssign? ("$ ".toList ++ v) = none) :
    read? ("$ ".toList ++ v) = some (statement (.code (String.ofList v))) := by
  have hd : after? ['$'] ("$ ".toList ++ v) = some (' ' :: v) := rfl
  have ht : trimStart (' ' :: v) = v := trimStart_eq_self_iff.2 (trim_eq_self_iff.1 hv).1
  have h : readCode? ("$ ".toList ++ v) = some (statement (.code (String.ofList v))) := by
    simp only [readCode?, hd, Option.bind_eq_bind, Option.bind_some, ht,
      upToBreak_eq_self hone.lf_not_mem, if_neg hne, hv]
  have hread : read? ("$ ".toList ++ v) =
      (readAssign? ("$ ".toList ++ v) <|> readCode? ("$ ".toList ++ v) <|> _) := rfl
  rw [hread, ha, h]
  rfl

/-! ## Images -/

theorem read?_of_readScene? {s : List Char} {l : Line} (hd : readDefine? s = none)
    (hl : readLabel? s = none) (h : readScene? s = some l) : read? s = some l := by
  rw [read?, hd, hl, h]
  rfl

theorem read?_of_readShow? {s : List Char} {l : Line} (hd : readDefine? s = none)
    (hl : readLabel? s = none) (hs : readScene? s = none) (h : readShow? s = some l) :
    read? s = some l := by
  rw [read?, hd, hl, hs, h]
  rfl

theorem read?_of_readHide? {s : List Char} {l : Line} (hd : readDefine? s = none)
    (hl : readLabel? s = none) (hs : readScene? s = none) (hw : readShow? s = none)
    (h : readHide? s = some l) : read? s = some l := by
  rw [read?, hd, hl, hs, hw, h]
  rfl

section
variable {spec : ImageSpec} (hw : spec.WellFormed) (hend : spec.lastToken.getLast? ≠ some ':')
include hw hend

theorem read?_scene : read? ("scene ".toList ++ spec.text) =
    some (statement (.scene spec.image spec.transition)) := by
  have hk : afterKeyword? "scene" ("scene ".toList ++ spec.text) = some spec.text :=
    congrArg some hw.trimStart_text
  have h : readScene? ("scene ".toList ++ spec.text) =
      some (statement (.scene spec.image spec.transition)) := by
    simp only [readScene?, hk, Option.bind_eq_bind, Option.bind_some, image?_text hw hend]
    rfl
  exact read?_of_readScene? rfl rfl h

variable (hs : startsWithWord "screen".toList spec.image.toList = false)
include hs

theorem read?_show : read? ("show ".toList ++ spec.text) = some (statement
    (.showImage spec.image (spec.position.getD defaultPosition) spec.transition)) := by
  have hscreen := (ImageSpec.startsWithWord_text (by decide)).trans hs
  have hk : afterImageKeyword? "show" ("show ".toList ++ spec.text) = some spec.text :=
    afterImageKeyword?_of_not_screen (congrArg some hw.trimStart_text) hscreen
  have h : readShow? ("show ".toList ++ spec.text) = some (statement
      (.showImage spec.image (spec.position.getD defaultPosition) spec.transition)) := by
    simp only [readShow?, hk, Option.bind_eq_bind, Option.bind_some, image?_text hw hend]
    rfl
  exact read?_of_readShow? rfl rfl rfl h

theorem read?_hide : read? ("hide ".toList ++ spec.text) =
    some (statement (.hideImage spec.image spec.transition)) := by
  have hscreen := (ImageSpec.startsWithWord_text (by decide)).trans hs
  have hk : afterImageKeyword? "hide" ("hide ".toList ++ spec.text) = some spec.text :=
    afterImageKeyword?_of_not_screen (congrArg some hw.trimStart_text) hscreen
  have h : readHide? ("hide ".toList ++ spec.text) =
      some (statement (.hideImage spec.image spec.transition)) := by
    simp only [readHide?, hk, Option.bind_eq_bind, Option.bind_some, image?_text hw hend]
    rfl
  exact read?_of_readHide? rfl rfl rfl rfl h

end

/-! ## The cast -/

/-- A colour is read up to the first quote behind its first character. -/
theorem color?_plainPart {v : List Char} (hne : v ≠ []) (hn : '\n' ∉ v) :
    readDefine?.color? none (", color=\"".toList ++ v ++ ['"']) =
      some (Quoted.plainPart '"' v) := by
  obtain ⟨rest, hq⟩ := Quoted.splitPlain?_plainPart (q := '"') hne hn []
  have hcolor : readDefine?.colorHere? ("color=\"".toList ++ (v ++ ['"'])) =
      some (Quoted.plainPart '"' v) := by
    have heval : readDefine?.colorHere? ("color=\"".toList ++ (v ++ ['"'])) =
        (Quoted.splitPlain? '"' (v ++ ['"'])).bind fun p => some p.1 := rfl
    rw [heval, hq]
    rfl
  -- The comma and the blank before the option start no option.
  have hskip : readDefine?.color? none (", ".toList ++ ("color=\"".toList ++ (v ++ ['"']))) =
      readDefine?.color? (some ' ') ("color=\"".toList ++ (v ++ ['"'])) := rfl
  have hcons : "color=\"".toList ++ (v ++ ['"']) = 'c' :: ("olor=\"".toList ++ (v ++ ['"'])) := rfl
  rw [List.append_assoc]
  refine hskip.trans ?_
  rw [hcons] at hcolor ⊢
  rw [readDefine?.color?, hcolor]
  rfl

/-- What is written between the name of a character and the last parenthesis. -/
def colorOption : Option String → List Char
  | none => []
  | some color => if color = "" then [] else ", color=\"".toList ++ color.toList ++ ['"']

theorem line_eq_colorOption (c : Character) :
    c.line = "define ".toList ++ c.id.toList ++ " = Character(".toList ++ quotedText c.name ++
      colorOption c.color ++ [')'] := by
  obtain ⟨id, name, color⟩ := c
  cases color <;> rfl

theorem readDefine?_written {id name options : List Char} (hid : IsName id) (hname : '\n' ∉ name)
    (hoptions : '\n' ∉ options) :
    readDefine? ("define ".toList ++ (id ++ (" = Character(".toList ++ '"' :: (Quoted.escape name ++
      '"' :: (options ++ [')']))))) =
        some (.define ⟨String.ofList id, String.ofList name,
          (readDefine?.color? none options).map String.ofList⟩) := by
  have hgap : IsGap [' '] := by decide
  have hnone : IsBlanks [] := List.forall_mem_nil _
  have hread := readDefine?_append hgap hid hgap.2 hgap.2 hnone hnone (.head _)
    (Quoted.body_escape hname) (options ++ [')'])
  have hbreak : upToBreak (options ++ [')']) = options ++ [')'] :=
    upToBreak_eq_self (by simpa using hoptions)
  have hcut : ((options ++ [')']).reverse.dropWhile (· != ')')).drop 1 = options.reverse := by simp
  have hparen : (options ++ [')']).contains ')' = true := by simp
  rw [hbreak, hparen, hcut, List.reverse_reverse, Quoted.unescape_escape] at hread
  exact hread

/-- What is read back of a text that is written between quotes as it is. -/
def upToQuote (v : String) : String :=
  String.ofList (Quoted.plainPart '"' v.toList)

/-- **A definition** is read back but for what stands behind a quote in its colour. -/
theorem read?_define_upToQuote {c : Character} (hid : IsName c.id.toList)
    (hname : IsOneLine c.name.toList)
    (hcolor : ∀ color ∈ c.color, color.toList ≠ [] ∧ IsOneLine color.toList) :
    read? c.line = some (.define { c with color := c.color.map upToQuote }) := by
  obtain ⟨id, name, color⟩ := c
  obtain ⟨hone, hread⟩ : '\n' ∉ colorOption color ∧ readDefine?.color? none (colorOption color) =
      color.map (Quoted.plainPart '"' ·.toList) := by
    cases color with
    | none => exact ⟨List.not_mem_nil, rfl⟩
    | some v =>
      have hv := hcolor v rfl
      have hne : v ≠ "" := by
        rintro rfl
        exact hv.1 rfl
      rw [colorOption, if_neg hne]
      exact ⟨by simpa using hv.2.lf_not_mem, color?_plainPart hv.1 hv.2.lf_not_mem⟩
  have regroup : ∀ a i b e o : List Char, a ++ i ++ b ++ ('"' :: e ++ ['"']) ++ o ++ [')'] =
      a ++ (i ++ (b ++ '"' :: (e ++ '"' :: (o ++ [')'])))) := by simp
  have h := readDefine?_written hid hname.lf_not_mem hone
  rw [← regroup, hread] at h
  rw [line_eq_colorOption, read?]
  simp only [quotedText, h]
  cases color <;> simp [Option.map, upToQuote]

theorem read?_define {c : Character} (hid : IsName c.id.toList) (hname : IsOneLine c.name.toList)
    (hcolor : ∀ color ∈ c.color, IsPlain color.toList) : read? c.line = some (.define c) := by
  rw [read?_define_upToQuote hid hname fun color hc => ⟨(hcolor color hc).1, (hcolor color hc).2.2⟩]
  obtain ⟨id, name, color⟩ := c
  cases color with
  | none => rfl
  | some v =>
    have hv : upToQuote v = v := by
      rw [upToQuote, (hcolor v rfl).plainPart, String.ofList_toList]
    rw [Option.map_some, hv]

/-! ## Text -/

theorem quotedText?_written {s : String} (h : IsOneLine s.toList) (r : List Char) :
    quotedText? (quotedText s ++ r) = some (Quoted.escape s.toList, r) := by
  have hq := Quoted.split?_escape h.lf_not_mem r
  rw [quotedText, List.cons_append, List.cons_append, List.append_assoc, List.singleton_append]
  exact hq

theorem readSpeech?_written {content : String} {speaker : Option String}
    (hone : IsOneLine content.toList)
    (hs : ∀ name ∈ speaker, IsName name.toList ∧ isKeyword name.toList = false) :
    readSpeech? (dialogueText content speaker) = some (.dialogue content speaker) := by
  have hq := quotedText?_written hone []
  rw [List.append_nil] at hq
  have htext : String.ofList (Quoted.unescape (Quoted.escape content.toList)) = content := by
    rw [Quoted.unescape_escape, String.ofList_toList]
  cases speaker with
  | none =>
    have hw : splitWord? (quotedText content) = none := splitWord?_eq_none rfl
    simp only [dialogueText, readSpeech?, hw, hq, Option.bind_eq_bind, Option.bind_some, htext]
    rfl
  | some name =>
    obtain ⟨hname, hkeyword⟩ := hs name rfl
    have hne : name ≠ "" := by
      rintro rfl
      exact hname.1 rfl
    have hw : splitWord? (name.toList ++ ' ' :: quotedText content) =
        some (name.toList, ' ' :: quotedText content) := splitWord?_append hname (by simp [isWord])
    have hb : afterBlanks? (' ' :: quotedText content) = some (quotedText content) := rfl
    simp only [dialogueText, if_neg hne, readSpeech?, hw, hb, hq, Option.bind_eq_bind,
      Option.bind_some, hkeyword, Bool.false_eq_true, if_false, htext, String.ofList_toList]
    rfl

/-- The line of a text ends in a quote. -/
theorem getLast?_dialogueText (content : String) (speaker : Option String) :
    (dialogueText content speaker).getLast? = some '"' := by
  have hq : (quotedText content).getLast? = some '"' := List.getLast?_concat
  cases speaker with
  | none => exact hq
  | some name =>
    rw [dialogueText]
    split
    · exact hq
    · rw [List.getLast?_append_of_ne_nil _ (List.cons_ne_nil _ _)]
      exact hq

theorem readAction?_written {content : String} {speaker : Option String}
    (hone : IsOneLine content.toList)
    (hs : ∀ name ∈ speaker, IsName name.toList ∧ isKeyword name.toList = false) :
    readAction? (dialogueText content speaker) = some (.dialogue content speaker) := by
  rw [readAction?, getLast?_dialogueText, if_neg (by simp), readSpeech?_written hone hs]

/-! ## Choices -/

theorem readCondition?_written {condition : Option String}
    (h : ∀ test ∈ condition, IsCondition test.toList) :
    readCondition? (clauseText "if" condition) = some (condition.map String.toList) := by
  cases condition with
  | none => rfl
  | some test =>
    obtain ⟨hne, hone, hform⟩ := h test rfl
    have hempty : test ≠ "" := by
      rintro rfl
      exact hne rfl
    rw [clauseText, if_neg hempty, Option.map_some]
    generalize test.toList = t at hne hone hform
    have hstart : trimStart (' ' :: "if".toList ++ ' ' :: t) ≠ [] := List.cons_ne_nil _ _
    have hb : afterBlanks? (' ' :: "if".toList ++ ' ' :: t) = some ("if".toList ++ ' ' :: t) := rfl
    have ha : after? "if".toList ("if".toList ++ ' ' :: t) = some (' ' :: t) := rfl
    have ht : afterBlanks? (' ' :: t) = some (trimStart t) := rfl
    simp only [readCondition?, if_neg hstart, hb, ha, ht, Option.bind_eq_bind, Option.bind_some]
    rcases hform with htrim | hlen
    · obtain ⟨hfirst, hlast⟩ := trim_eq_self_iff.1 htrim
      rw [trimStart_eq_self_iff.2 hfirst, trimEnd_eq_self_iff.2 hlast, if_neg hne, if_neg]
      simpa using hone.lf_not_mem
    · obtain ⟨c, rfl⟩ := List.length_eq_one_iff.1 hlen
      have hc : c ≠ '\n' := fun h => hone.lf_not_mem (h ▸ .head _)
      cases hb : isBlank c with
      | true => simp [trimStart, hb, hc]
      | false => simp [trimStart, trimEnd, hb, hc.symm]

/-- **The head of a choice** gives its text and its condition. -/
theorem readChoice?_written {c : Choice} (hone : IsOneLine c.text.toList)
    (h : ∀ test ∈ c.condition, IsCondition test.toList) :
    readChoice? c.headText = some (c.text, c.condition) := by
  have hq := quotedText?_written hone (clauseText "if" c.condition ++ [':'])
  rw [← List.append_assoc] at hq
  have hcondition : (c.condition.map String.toList).map String.ofList = c.condition := by
    cases c.condition <;> simp
  simp only [readChoice?, Choice.headText, hq, Option.bind_eq_bind, Option.bind_some,
    List.reverse_append, List.reverse_singleton, List.singleton_append, if_true,
    List.reverse_reverse, readCondition?_written h, Quoted.unescape_escape, String.ofList_toList,
    hcondition]
  rfl

end Line

end NovelScript
