import NovelScript.Proofs.Images
import NovelScript.Proofs.Steps

/-!
# Screens and expressions

Behind `show`, `hide` and `call` the word `screen`, and behind `jump` and `call` the word
`expression`, stand for something that a script does not hold: a `ReservedLine` names no image and no
label. `Reader.readRaw_reserved` settles what is read of such a line outside a menu. Behind a label's
verb nothing is, whatever the blanks are; behind `show` and `hide` nothing is unless two blanks or
more stand there and the last is no LF (`ReservedLine.LeavesBlank`), for then the last blank passes
for the start of an image whose name starts with `screen`.
-/

set_option autoImplicit false

namespace NovelScript

open Text

/-- The image that a statement shows or hides. -/
def Statement.sprite? : Statement → Option String
  | showImage image _ _ => some image
  | hideImage image _ => some image
  | _ => none

/-! ## Ends of texts -/

namespace Text

theorem rdropWhile_append {α : Type} {p : α → Bool} {s : List α} (hs : s.rdropWhile p = s)
    (r : List α) : (s ++ r).rdropWhile p = s ++ r.rdropWhile p := by
  unfold List.rdropWhile at hs ⊢
  rw [List.reverse_append, List.dropWhile_append]
  split
  · rename_i he
    rw [List.isEmpty_iff.1 he, hs]
    simp
  · simp

theorem trimEnd_append {s : List Char} (hs : trimEnd s = s) (r : List Char) :
    trimEnd (s ++ r) = s ++ trimEnd r :=
  rdropWhile_append hs r

/-- What follows a word keeps its end when the blanks behind it are dropped. -/
theorem atWordEnd_of_prefix {r s : List Char} (h : r <+: s) (hs : atWordEnd s = true) :
    atWordEnd r = true := by
  obtain ⟨t, rfl⟩ := h
  cases r with
  | nil => rfl
  | cons c r => exact hs

/-- The blanks that a text starts with separate no words. -/
theorem words_cons_blank {b : Char} (hb : isBlank b = true) (s : List Char) :
    words (b :: s) = words s := by
  simp [words, cutAt, hb]

/-- The first word of a text that starts with a token starts with that token. -/
theorem words_append {t : List Char} (ht : IsToken t) (r : List Char) :
    ∃ u ws, words (t ++ r) = (t ++ u) :: ws := by
  have htoken : IsToken (t ++ r.takeWhile (!isBlank ·)) := by
    refine ⟨by simp [ht.1], fun c hc => ?_⟩
    rcases List.mem_append.1 hc with hc | hc
    · exact ht.2 c hc
    · simpa using List.all_eq_true.1 List.all_takeWhile c hc
  have hsplit : t ++ r = (t ++ r.takeWhile (!isBlank ·)) ++ r.dropWhile (!isBlank ·) := by
    rw [List.append_assoc, List.takeWhile_append_dropWhile]
  rw [hsplit]
  cases hd : r.dropWhile (!isBlank ·) with
  | nil => exact ⟨_, [], by rw [List.append_nil, words_token htoken]⟩
  | cons b r' =>
    have hb := List.head?_dropWhile_not (!isBlank ·) r
    rw [hd] at hb
    exact ⟨_, _, words_token_append htoken (by simpa using hb) r'⟩

end Text

namespace SourceLine

/-- What a line says that starts with a token behind its indentation. -/
theorem ofRaw_lead {lead w : List Char} (hlead : ∀ c ∈ lead, isBlank c = true) (hw : IsToken w)
    (number : Int) (r : List Char) :
    ofRaw number (lead ++ (w ++ r)) = ⟨number, lead.length, trimEnd (w ++ r)⟩ := by
  have hindent : Text.indent (w ++ r) = 0 := by
    cases w with
    | nil => exact absurd rfl hw.1
    | cons c w => exact indent_cons (hw.2 c (.head _))
  rw [ofRaw, indent_append_blanks hlead, hindent, trim_append_blanks hlead, trim,
    trimStart_token hw]
  rfl

/-- A line that starts with a name is neither blank nor a comment. -/
theorem isIgnored_of_name {line : SourceLine} {w r : List Char} (hw : IsName w)
    (h : line.text = w ++ r) : line.isIgnored = false := by
  cases w with
  | nil => exact absurd rfl hw.1
  | cons c w =>
    have hc : c ≠ '#' := by
      rintro rfl
      exact absurd (hw.2 '#' (.head _)) (by decide)
    simp [isIgnored, h, hc]

end SourceLine

namespace Line

/-! ## Pieces behind blanks -/

variable {blanks s : List Char}

theorem startsWithWord_append_self {word rest : List Char} (h : atWordEnd rest = true) :
    startsWithWord word (word ++ rest) = true := by
  rw [startsWithWord, after?_append]
  exact h

theorem firstWord_append_blanks {word : List Char} (hw : IsName word) (hne : blanks ≠ [])
    (hb : ∀ c ∈ blanks, isBlank c = true) (s : List Char) :
    firstWord (word ++ (blanks ++ s)) = word := by
  cases blanks with
  | nil => exact absurd rfl hne
  | cons b t => exact firstWord_of_append_blank hw (hb b (.head _)) (t ++ s)

/-- Behind its verb a label is no reserved word, whatever blanks stand between them. -/
theorem target?_of_reserved (verb : String) (reserved : List String) {word : String}
    {rest : List Char}
    (hword : word ∈ reserved) (htoken : IsToken word.toList) (hne : blanks ≠ [])
    (hb : ∀ c ∈ blanks, isBlank c = true) (hrest : atWordEnd rest = true) :
    target? verb reserved (verb.toList ++ (blanks ++ (word.toList ++ rest))) = none := by
  have hk : afterKeyword? verb (verb.toList ++ (blanks ++ (word.toList ++ rest))) =
      some (word.toList ++ rest) := by
    rw [afterKeyword?, after?_append, Option.bind_some,
      afterBlanks?_append hne hb (trimStart_token htoken rest)]
  have hany : (reserved.any fun w => startsWithWord w.toList (word.toList ++ rest)) = true :=
    List.any_eq_true.2 ⟨word, hword, startsWithWord_append_self hrest⟩
  simp only [target?, hk, Option.bind_eq_bind, Option.bind_some, hany, if_true]

/-! ## Images behind blanks -/

theorem readScene?_eq (s : List Char) : readScene? s =
    ((afterKeyword? "scene" s).bind image?).map fun spec => statement
      (.scene spec.image spec.transition) := by
  rw [Option.map_eq_bind, Option.bind_assoc]
  rfl

theorem readShow?_eq (s : List Char) : readShow? s =
    ((afterImageKeyword? "show" s).bind image?).map fun spec => statement
      (.showImage spec.image (spec.position.getD defaultPosition) spec.transition) := by
  rw [Option.map_eq_bind, Option.bind_assoc]
  rfl

theorem readHide?_eq (s : List Char) : readHide? s =
    ((afterImageKeyword? "hide" s).bind image?).map fun spec => statement
      (.hideImage spec.image spec.transition) := by
  rw [Option.map_eq_bind, Option.bind_assoc]
  rfl

theorem readJump?_eq (s : List Char) : readJump? s =
    (target? "jump" ["expression"] s).map fun label => statement (.jump label) := by
  rw [Option.map_eq_bind]
  rfl

theorem readCall?_eq (s : List Char) : readCall? s =
    (target? "call" ["expression", "screen"] s).map fun label => statement (.call label) := by
  rw [Option.map_eq_bind]
  rfl

/-- Whether the blanks before the word `screen` leave one for an image to start with. -/
def LeavesBlank (blanks : List Char) : Prop :=
  2 ≤ blanks.length ∧ blanks.getLast? ≠ some '\n'

instance (blanks : List Char) : Decidable (LeavesBlank blanks) :=
  inferInstanceAs (Decidable (_ ∧ _))

theorem image?_blank {b : Char} (hb : isBlank b = true) : image? [b] = none := by
  have hcolon : (b == ':') = false := by
    cases hc : b == ':' with
    | false => rfl
    | true =>
      rw [beq_iff_eq.1 hc] at hb
      cases hb
  have hwords : words ((upToBreak [b]).reverse.dropWhile (· == ':')).reverse = [] := by
    by_cases hn : b = '\n'
    · subst hn
      rfl
    · have hup : upToBreak [b] = [b] := upToBreak_eq_self (by simpa using Ne.symm hn)
      rw [hup]
      simp [hcolon, words, cutAt, hb]
  simp [image?, readImage, hwords, join]

/-- No word that starts a clause starts with `screen`. -/
theorem isClauseWord_screen (t : List Char) : isClauseWord ("screen".toList ++ t) = false := by
  simp [isClauseWord, clauseWords, ← String.toList_inj]

/-- Behind a blank the word `screen` is the start of an image like any other. -/
theorem image?_screen {b : Char} (hb : isBlank b = true) (hn : b ≠ '\n') (rest : List Char) :
    ∃ spec, image? (b :: ("screen".toList ++ rest)) = some spec ∧
      "screen".toList <+: spec.image.toList := by
  have hup : upToBreak (b :: ("screen".toList ++ rest)) =
      (b :: "screen".toList) ++ upToBreak rest := by
    rw [upToBreak, ← List.cons_append, List.takeWhile_append_of_pos]
    · rfl
    · simp [hn]
  have hcolons : ((b :: "screen".toList ++ upToBreak rest).reverse.dropWhile (· == ':')).reverse =
      b :: "screen".toList ++ (upToBreak rest).rdropWhile (· == ':') :=
    rdropWhile_append (by simp [List.rdropWhile]) _
  obtain ⟨u, ws, hws⟩ := words_append (t := "screen".toList) (by decide)
    ((upToBreak rest).rdropWhile (· == ':'))
  have hwords : words (((b :: "screen".toList) ++ upToBreak rest).reverse.dropWhile
      (· == ':')).reverse = ("screen".toList ++ u) :: ws := by
    rw [hcolons, List.cons_append, words_cons_blank hb, hws]
  have himage : "screen".toList <+:
      (readImage (upToBreak (b :: ("screen".toList ++ rest)))).image.toList := by
    simp only [hup, readImage, hwords, List.takeWhile_cons, isClauseWord_screen, Bool.not_false,
      if_true, String.toList_ofList]
    cases ws.takeWhile (!isClauseWord ·) with
    | nil => exact List.prefix_append _ _
    | cons w ws' =>
      rw [join_cons_cons, List.append_assoc, List.append_assoc]
      exact List.prefix_append _ _
  refine ⟨readImage (upToBreak (b :: ("screen".toList ++ rest))), ?_, himage⟩
  rw [image?]
  apply if_neg
  intro he
  rw [he] at himage
  exact absurd himage (by decide)

/-- The blanks that are given back to an image: the last of them, unless it is an LF. -/
theorem afterImageKeyword?_screen {verb : String} {rest : List Char} (hne : blanks ≠ [])
    (hb : ∀ c ∈ blanks, isBlank c = true) (hrest : atWordEnd rest = true) :
    afterImageKeyword? verb (verb.toList ++ (blanks ++ ("screen".toList ++ rest))) =
      match (blanks.drop 1).reverse.dropWhile (· == '\n') with
      | last :: _ =>
        if (blanks.drop 1).getLast? = some last then some (last :: ("screen".toList ++ rest))
        else some [last]
      | [] => none := by
  have hgap : afterBlanks? (blanks ++ ("screen".toList ++ rest)) =
      some ("screen".toList ++ rest) :=
    afterBlanks?_append hne hb (trimStart_token (by decide) rest)
  have htake : (blanks ++ ("screen".toList ++ rest)).takeWhile isBlank = blanks := by
    rw [List.takeWhile_append_of_pos hb]
    simp [isBlank]
  have hword : startsWithWord "screen".toList ("screen".toList ++ rest) = true :=
    startsWithWord_append_self hrest
  cases hd : (blanks.drop 1).reverse.dropWhile (· == '\n') <;>
    simp only [afterImageKeyword?, after?_append, Option.bind_eq_bind, Option.bind_some, hgap,
      hword, if_true, htake, hd]

/-- A line that leaves a blank shows or hides an image. -/
theorem image?_of_leavesBlank (verb : String) {rest : List Char}
    (hb : ∀ c ∈ blanks, isBlank c = true) (hrest : atWordEnd rest = true)
    (h : LeavesBlank blanks) : ∃ spec,
      (afterImageKeyword? verb (verb.toList ++ (blanks ++ ("screen".toList ++ rest)))).bind image? =
        some spec ∧ "screen".toList <+: spec.image.toList := by
  obtain ⟨hlen, hlast⟩ := h
  have hne : blanks ≠ [] := List.ne_nil_of_length_pos (by omega)
  rcases List.eq_nil_or_concat (blanks.drop 1) with hd | ⟨init, last, hd⟩
  · have := List.drop_eq_nil_iff.1 hd
    omega
  · have hblanks : blanks = blanks.take 1 ++ init ++ [last] := by
      rw [List.append_assoc, ← List.concat_eq_append, ← hd, List.take_append_drop]
    rw [hblanks, List.getLast?_concat] at hlast
    have hn : last ≠ '\n' := fun he => hlast (by rw [he])
    obtain ⟨spec, himage, hprefix⟩ :=
      image?_screen (hb last (by rw [hblanks]; simp)) hn rest
    refine ⟨spec, ?_, hprefix⟩
    rw [afterImageKeyword?_screen hne hb hrest, hd]
    simpa [hn] using himage

/-- A line that leaves no blank says nothing. -/
theorem image?_of_not_leavesBlank {verb : String} {rest : List Char} (hne : blanks ≠ [])
    (hb : ∀ c ∈ blanks, isBlank c = true) (hrest : atWordEnd rest = true)
    (h : ¬ LeavesBlank blanks) :
    (afterImageKeyword? verb (verb.toList ++ (blanks ++ ("screen".toList ++ rest)))).bind image? =
      none := by
  rw [afterImageKeyword?_screen hne hb hrest]
  split
  · rename_i last before hd
    have hmem : last ∈ blanks := by
      have := (List.dropWhile_suffix (l := (blanks.drop 1).reverse) (· == '\n')).subset
        (by rw [hd]; exact .head _)
      exact List.mem_of_mem_drop (List.mem_reverse.1 this)
    have hn : last ≠ '\n' := by
      have := List.head?_dropWhile_not (· == '\n') (blanks.drop 1).reverse
      rw [hd] at this
      simpa using this
    rw [if_neg]
    · rw [Option.bind_some, image?_blank (hb last hmem)]
    · intro hlast
      rw [List.getLast?_drop] at hlast
      split at hlast
      · cases hlast
      · exact h ⟨by omega, by simpa [hlast] using hn⟩
  · rfl

/-! ## Lines -/

/-- The verbs and what each is not followed by as the name of an image or of a label. -/
def reservedForms : List (String × String) :=
  [("show", "screen"), ("hide", "screen"), ("call", "screen"), ("jump", "expression"),
    ("call", "expression")]

end Line

open Line

/-- A line that starts with a verb and a word that is reserved behind it: its indentation, the two
words with the blanks between them, and any rest. -/
structure ReservedLine where
  lead : List Char
  verb : String
  blanks : List Char
  word : String
  rest : List Char
  isBlank_lead : ∀ c ∈ lead, isBlank c = true
  mem_reservedForms : (verb, word) ∈ reservedForms
  blanks_ne_nil : blanks ≠ []
  isBlank_blanks : ∀ c ∈ blanks, isBlank c = true
  atWordEnd_rest : atWordEnd rest = true

namespace ReservedLine

/-- The line as it is written. -/
def text (l : ReservedLine) : String :=
  String.ofList (l.lead ++ (l.verb.toList ++ (l.blanks ++ (l.word.toList ++ l.rest))))

/-- The words of the line, without its indentation and the blanks at its end. -/
def content (l : ReservedLine) : List Char :=
  l.verb.toList ++ (l.blanks ++ (l.word.toList ++ trimEnd l.rest))

/-- Whether the line leaves a blank for an image to start with. -/
def ShowsImage (l : ReservedLine) : Prop :=
  l.verb ∈ ["show", "hide"] ∧ LeavesBlank l.blanks

instance (l : ReservedLine) : Decidable l.ShowsImage := inferInstanceAs (Decidable (_ ∧ _))

variable (l : ReservedLine)

theorem isName_verb : IsName l.verb.toList :=
  (by decide : ∀ form ∈ reservedForms, IsName form.1.toList) _ l.mem_reservedForms

theorem isName_word : IsName l.word.toList :=
  (by decide : ∀ form ∈ reservedForms, IsName form.2.toList) _ l.mem_reservedForms

theorem atWordEnd_trimEnd_rest : atWordEnd (trimEnd l.rest) = true :=
  atWordEnd_of_prefix (trimEnd_isPrefix l.rest) l.atWordEnd_rest

theorem ofRaw_text (number : Int) :
    SourceLine.ofRaw number l.text.toList = ⟨number, l.lead.length, l.content⟩ := by
  have hword := l.isName_word.isToken
  have hwords : trimEnd (l.verb.toList ++ l.blanks ++ l.word.toList) =
      l.verb.toList ++ l.blanks ++ l.word.toList := by
    rw [trimEnd_eq_self_iff, List.getLast?_append_of_ne_nil _ hword.1]
    exact trimEnd_eq_self_iff.1 hword.trimEnd
  have hend := trimEnd_append hwords l.rest
  simp only [List.append_assoc] at hend
  rw [text, String.toList_ofList, SourceLine.ofRaw_lead l.isBlank_lead l.isName_verb.isToken, hend]
  rfl

/-- The line is neither blank nor a comment. -/
theorem isIgnored_text (number : Int) :
    (SourceLine.ofRaw number l.text.toList).isIgnored = false :=
  SourceLine.isIgnored_of_name l.isName_verb (by rw [l.ofRaw_text, content])

theorem firstWord_content : firstWord l.content = l.verb.toList :=
  firstWord_append_blanks l.isName_verb l.blanks_ne_nil l.isBlank_blanks _

/-- A line that shows an image gives it a name that starts with the reserved word. -/
theorem read?_of_showsImage (h : l.ShowsImage) : ∃ s image, s.sprite? = some image ∧
    l.word.toList <+: image.toList ∧ Line.read? l.content = some (.statement s) := by
  obtain ⟨hverb, hblank⟩ := h
  have hfirst := l.firstWord_content
  have hform := l.mem_reservedForms
  obtain ⟨spec, hspec, hprefix⟩ := image?_of_leavesBlank l.verb l.isBlank_blanks
    l.atWordEnd_trimEnd_rest hblank
  rw [content] at hfirst ⊢
  generalize l.verb = verb at *
  generalize l.word = word at *
  simp only [List.mem_cons, List.not_mem_nil, or_false] at hverb
  rcases hverb with rfl | rfl
  · obtain rfl : word = "screen" := by simpa [reservedForms] using hform
    refine ⟨.showImage spec.image (spec.position.getD defaultPosition) spec.transition, spec.image,
      rfl, hprefix, ?_⟩
    rw [read?_of_keyword readShow? (by simp [keywordForms]) hfirst, readShow?_eq,
      hspec, Option.map_some]
  · obtain rfl : word = "screen" := by simpa [reservedForms] using hform
    refine ⟨.hideImage spec.image spec.transition, spec.image, rfl, hprefix, ?_⟩
    rw [read?_of_keyword readHide? (by simp [keywordForms]) hfirst, readHide?_eq,
      hspec, Option.map_some]

/-- Any other line says nothing. -/
theorem read?_of_not_showsImage (h : ¬ l.ShowsImage) : Line.read? l.content = none := by
  have hfirst := l.firstWord_content
  have hne := l.blanks_ne_nil
  have hblanks := l.isBlank_blanks
  have hrest := l.atWordEnd_trimEnd_rest
  have hform := l.mem_reservedForms
  have hword := l.isName_word.isToken
  rw [ShowsImage] at h
  rw [content] at hfirst ⊢
  generalize l.verb = verb at *
  generalize l.word = word at *
  simp only [reservedForms, List.mem_cons, Prod.mk.injEq, List.not_mem_nil, or_false] at hform
  rcases hform with ⟨rfl, rfl⟩ | ⟨rfl, rfl⟩ | ⟨rfl, rfl⟩ | ⟨rfl, rfl⟩ | ⟨rfl, rfl⟩
  · have hleaves : ¬ LeavesBlank l.blanks := fun hb => h ⟨by decide, hb⟩
    rw [read?_of_keyword readShow? (by simp [keywordForms]) hfirst, readShow?_eq,
      image?_of_not_leavesBlank hne hblanks hrest hleaves, Option.map_none]
  · have hleaves : ¬ LeavesBlank l.blanks := fun hb => h ⟨by decide, hb⟩
    rw [read?_of_keyword readHide? (by simp [keywordForms]) hfirst, readHide?_eq,
      image?_of_not_leavesBlank hne hblanks hrest hleaves, Option.map_none]
  · have hnone := target?_of_reserved "call" ["expression", "screen"] (by decide) hword hne
      hblanks hrest
    rw [read?_of_keyword readCall? (by simp [keywordForms]) hfirst, readCall?_eq, hnone,
      Option.map_none]
  · have hnone := target?_of_reserved "jump" ["expression"] (by decide) hword hne hblanks hrest
    rw [read?_of_keyword readJump? (by simp [keywordForms]) hfirst, readJump?_eq, hnone,
      Option.map_none]
  · have hnone := target?_of_reserved "call" ["expression", "screen"] (by decide) hword hne
      hblanks hrest
    rw [read?_of_keyword readCall? (by simp [keywordForms]) hfirst, readCall?_eq, hnone,
      Option.map_none]

end ReservedLine

namespace Reader

variable {σ : Type} (source : IdSource σ)

/-- **Screens and expressions outside a menu.** Wherever a reader stands, a reserved line that is not
deeper than the open menu closes it and is then skipped, whatever the blanks between its words and
whatever follows them; only `show` and `hide` add a statement when their blanks leave one for an
image, and that image is named by the reserved word. -/
theorem readRaw_reserved (r : Reader σ) (number : Int) (l : ReservedLine)
    (hout : ∀ k ∈ r.phase.menuIndent?, l.lead.length ≤ k) :
    (¬ l.ShowsImage →
      r.readRaw source number l.text =
        (r.close source).skip (.ofRaw number l.text.toList)) ∧
    (l.ShowsImage → ∃ s image, s.sprite? = some image ∧ l.word.toList <+: image.toList ∧
      r.readRaw source number l.text = (r.close source).emit source s) := by
  have hread : r.readRaw source number l.text =
      (r.close source).stepPlain source (.ofRaw number l.text.toList) :=
    readRaw_of_indent_le source (l.isIgnored_text number) (by rw [l.ofRaw_text]; exact hout)
  constructor
  · intro h
    rw [hread, stepPlain, l.ofRaw_text, l.read?_of_not_showsImage h]
  · intro h
    obtain ⟨s, image, hs, hprefix, hstatement⟩ := l.read?_of_showsImage h
    refine ⟨s, image, hs, hprefix, ?_⟩
    rw [hread, stepPlain, l.ofRaw_text]
    cases s with
    | showImage => simp only [hstatement]
    | hideImage => simp only [hstatement]
    | _ => cases hs

end Reader

namespace ReservedLine

/-- A line in a menu's place: `  call`, a tab, `screen(map)`. -/
def screenCall : ReservedLine where
  lead := "  ".toList
  verb := "call"
  blanks := ['\t']
  word := "screen"
  rest := "(map)".toList
  isBlank_lead := by simp [isBlank]
  mem_reservedForms := by decide
  blanks_ne_nil := by decide
  isBlank_blanks := by simp [isBlank]
  atWordEnd_rest := by decide

/-- The line `show  screen x`, with two blanks before the word. -/
def wideShow : ReservedLine where
  lead := []
  verb := "show"
  blanks := "  ".toList
  word := "screen"
  rest := " x".toList
  isBlank_lead := by simp [isBlank]
  mem_reservedForms := by decide
  blanks_ne_nil := by decide
  isBlank_blanks := by simp [isBlank]
  atWordEnd_rest := by decide

end ReservedLine

namespace Reader

open ReservedLine

/-- A reader in a menu that stands at the indentation of `screenCall`. -/
def inMenu : Reader Counters :=
  { start [] with phase := .menu 2 }

theorem readRaw_reserved_inMenu :
    (∀ k ∈ inMenu.phase.menuIndent?, screenCall.lead.length ≤ k) ∧ ¬ screenCall.ShowsImage ∧
      inMenu.readRaw .perKind 7 screenCall.text =
        (inMenu.close .perKind).skip (.ofRaw 7 screenCall.text.toList) := by
  have hout : ∀ k ∈ inMenu.phase.menuIndent?, screenCall.lead.length ≤ k := by
    intro k hk
    cases hk
    decide
  have hnot : ¬ screenCall.ShowsImage := by decide
  exact ⟨hout, hnot, (readRaw_reserved .perKind inMenu 7 screenCall hout).1 hnot⟩

/-- Two blanks are enough for a screen to be shown as an image. -/
theorem not_forall_readRaw_reserved :
    ¬ ∀ (r : Reader Counters) (l : ReservedLine),
      (∀ k ∈ r.phase.menuIndent?, l.lead.length ≤ k) →
        r.readRaw .perKind 1 l.text = (r.close .perKind).skip (.ofRaw 1 l.text.toList) := by
  intro h
  have hskip := h (start []) wideShow (by simp [start, Phase.menuIndent?])
  exact absurd (congrArg (fun r => r.elements.length) hskip) (by decide)

end Reader

end NovelScript
