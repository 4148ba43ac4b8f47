import NovelScript.Proofs.Reserved

/-!
# The order of clauses

An `ImageLine` is a line that shows, hides or sets an image and says more about it in clauses, with
any blanks between its words and perhaps colons at its end. `Reader.readRaw_image`: outside a menu
it adds one statement, with the words of the image, the value of its first clause of place and that
of its first clause of transition. So clauses with different words may change places, and clauses of
other words may come in anywhere, and the statement stays the same (`SameClauses`).
-/

set_option autoImplicit false

namespace NovelScript

open Text

/-! ## Words behind blanks -/

namespace Text

/-- A text in which each word stands behind one blank or more. No blank is an LF, which would end
the line. -/
inductive Spaced : List (List Char) → List Char → Prop
  | nil : Spaced [] []
  | cons {gap w s : List Char} {ws : List (List Char)} (hne : gap ≠ [])
    (hgap : ∀ c ∈ gap, isBlank c = true ∧ c ≠ '\n') (h : Spaced ws s) :
    Spaced (w :: ws) (gap ++ (w ++ s))

namespace Spaced

variable {s r : List Char} {ws : List (List Char)}

/-- What holds of every blank and of the head of the rest holds of the head of the whole. -/
theorem head (h : Spaced ws s) {p : Char → Prop} (hp : ∀ c, isBlank c = true → p c)
    (hr : ∀ c ∈ r.head?, p c) : ∀ c ∈ (s ++ r).head?, p c := by
  cases h with
  | nil => exact hr
  | @cons gap w s ws hne hgap h =>
    cases gap with
    | nil => exact absurd rfl hne
    | cons b gap =>
      intro c hc
      cases hc
      exact hp b (hgap b (.head _)).1

theorem lf_not_mem (h : Spaced ws s) (hws : ∀ w ∈ ws, IsToken w) : '\n' ∉ s := by
  induction h with
  | nil => exact List.not_mem_nil
  | @cons gap w s ws hne hgap h ih =>
    intro hmem
    rcases List.mem_append.1 hmem with hmem | hmem
    · exact (hgap _ hmem).2 rfl
    rcases List.mem_append.1 hmem with hmem | hmem
    · exact absurd ((hws w (.head _)).2 _ hmem) (by decide)
    · exact ih (fun v hv => hws v (.tail _ hv)) hmem

/-- The text ends as its last word does. -/
theorem getLast? (h : Spaced ws s) (hws : ∀ w ∈ ws, IsToken w) :
    s.getLast? = ws.getLast?.bind List.getLast? := by
  induction h with
  | nil => rfl
  | @cons gap w s ws hne hgap h ih =>
    have hw := hws w (.head _)
    have ih := ih fun v hv => hws v (.tail _ hv)
    rw [List.getLast?_append_of_ne_nil _ (by simp [hw.1])]
    cases h with
    | nil => simp
    | cons hne' hgap' h' =>
      rw [List.getLast?_append_of_ne_nil _ (by simp [hne']), ih, List.getLast?_cons_cons]

end Spaced

/-- Words may stand behind one blank each. -/
theorem spaced_flatMap (ws : List (List Char)) : Spaced ws (ws.flatMap fun w => ' ' :: w) := by
  induction ws with
  | nil => exact .nil
  | cons w ws ih =>
    exact @Spaced.cons [' '] w _ ws (List.cons_ne_nil _ _) (by simp [isBlank]) ih

theorem words_append_blanks {b : List Char} (h : ∀ c ∈ b, isBlank c = true) (s : List Char) :
    words (b ++ s) = words s := by
  induction b with
  | nil => rfl
  | cons c b ih =>
    rw [List.cons_append, words_cons_blank (h c (.head _)), ih fun d hd => h d (.tail _ hd)]

theorem words_token_append_of_head {t r : List Char} (ht : IsToken t)
    (hr : ∀ c ∈ r.head?, isBlank c = true) : words (t ++ r) = t :: words r := by
  cases r with
  | nil => rw [List.append_nil, words_token ht]; rfl
  | cons b r => rw [words_token_append ht (hr b rfl), words_cons_blank (hr b rfl)]

/-- **Words behind blanks** are the words of the text, and blanks at its end add none. -/
theorem Spaced.words {s : List Char} {ws : List (List Char)} (h : Spaced ws s)
    (hws : ∀ w ∈ ws, IsToken w) {pad : List Char} (hpad : ∀ c ∈ pad, isBlank c = true) :
    Text.words (s ++ pad) = ws := by
  induction h with
  | nil =>
    have hnil := words_append_blanks hpad []
    rwa [List.append_nil] at hnil
  | @cons gap w s ws hne hgap h ih =>
    have hhead : ∀ c ∈ pad.head?, isBlank c = true := fun c hc => hpad c (List.mem_of_head? hc)
    rw [List.append_assoc, List.append_assoc, words_append_blanks fun c hc => (hgap c hc).1,
      words_token_append_of_head (hws w (.head _)) (h.head (fun _ hc => hc) hhead),
      ih fun v hv => hws v (.tail _ hv)]

end Text

/-! ## Clauses -/

/-- A clause of an image: one of the words that start a clause, and a token, which may be such a
word as well. -/
structure Clause where
  word : String
  value : List Char
  mem_clauseWords : word ∈ Line.clauseWords
  isToken_value : IsToken value

namespace Clause

def tokens (c : Clause) : List (List Char) :=
  [c.word.toList, c.value]

/-- The value of the first clause with this word. -/
def first? (word : String) (cs : List Clause) : Option String :=
  (cs.find? (·.word = word)).map fun c => String.ofList c.value

theorem isToken_of_mem_tokens (c : Clause) : ∀ w ∈ c.tokens, IsToken w := by
  have hwords : ∀ word ∈ Line.clauseWords, IsToken word.toList := by decide
  simpa [tokens] using ⟨hwords _ c.mem_clauseWords, c.isToken_value⟩

theorem isClauseWord_word (c : Clause) : Line.isClauseWord c.word.toList = true := by
  rw [Line.isClauseWord, String.ofList_toList, List.contains_iff_mem]
  exact c.mem_clauseWords

/-- **Each clause** takes the word behind its own as its value, whatever that word is. -/
theorem clauses_tokens (cs : List Clause) :
    Line.clauses (cs.flatMap tokens) = cs.map fun c => (c.word.toList, c.value) := by
  induction cs with
  | nil => rfl
  | cons c cs ih =>
    simp only [List.flatMap_cons, tokens, List.cons_append, List.nil_append, Line.clauses,
      c.isClauseWord_word, if_true, List.map_cons]
    rw [← ih]

theorem clause?_tokens (word : String) (cs : List Clause) :
    Line.clause? word (Line.clauses (cs.flatMap tokens)) = first? word cs := by
  rw [clauses_tokens, Line.clause?, List.find?_map, Option.map_map, first?]
  simp only [Function.comp_def, String.ofList_toList]

end Clause

/-- Whether clauses say the same: those with different words may change places, and those that say
nothing of the place or the transition may come in or go. -/
inductive SameClauses : List Clause → List Clause → Prop
  | refl (cs : List Clause) : SameClauses cs cs
  | symm {cs ds : List Clause} (h : SameClauses cs ds) : SameClauses ds cs
  | trans {cs ds es : List Clause} (h₁ : SameClauses cs ds) (h₂ : SameClauses ds es) :
    SameClauses cs es
  | swap (before after : List Clause) {c d : Clause} (h : c.word ≠ d.word) :
    SameClauses (before ++ c :: d :: after) (before ++ d :: c :: after)
  | insert (before after : List Clause) {c : Clause} (h : c.word ∉ ["at", "with"]) :
    SameClauses (before ++ after) (before ++ c :: after)

/-- What is said of the place and of the transition is what the first such clause says. -/
theorem SameClauses.first?_eq {cs ds : List Clause} (h : SameClauses cs ds) {word : String}
    (hword : word ∈ ["at", "with"]) : Clause.first? word cs = Clause.first? word ds := by
  unfold Clause.first?
  induction h with
  | refl => rfl
  | symm _ ih => exact ih.symm
  | trans _ _ ih₁ ih₂ => exact ih₁.trans ih₂
  | swap before after hne =>
    rename_i c d
    rw [List.find?_append, List.find?_append, List.find?_cons, List.find?_cons, List.find?_cons,
      List.find?_cons]
    by_cases hc : c.word = word
    · simp [hc, (hc ▸ hne).symm]
    · simp [hc]
  | insert before after hc =>
    rename_i c
    have hne : c.word ≠ word := fun he => hc (he ▸ hword)
    simp [List.find?_append, hne]

/-! ## Lines -/

/-- What is done with an image. -/
inductive ImageVerb where
  | scene | showImage | hideImage
  deriving DecidableEq, Repr

namespace ImageVerb

def word : ImageVerb → String
  | scene => "scene"
  | showImage => "show"
  | hideImage => "hide"

/-- The statement of an image and its clauses; only what is shown has a place. -/
def statement : ImageVerb → Line.ImageSpec → Statement
  | scene, spec => .scene spec.image spec.transition
  | showImage, spec => .showImage spec.image (spec.position.getD defaultPosition) spec.transition
  | hideImage, spec => .hideImage spec.image spec.transition

theorem isName_word (v : ImageVerb) : IsName v.word.toList := by cases v <;> decide

theorem statement_ne_label (v : ImageVerb) (spec : Line.ImageSpec) (name : String) :
    v.statement spec ≠ .label name := by
  cases v <;> exact Statement.noConfusion

end ImageVerb

/-- A line about an image: its indentation, its verb, the words of the image and the clauses with
blanks before each of them, and at the end blanks, colons and blanks. -/
structure ImageLine where
  lead : List Char
  verb : ImageVerb
  image : List (List Char)
  clauses : List Clause
  body : List Char
  pad : List Char
  colons : Nat
  trail : List Char
  isBlank_lead : ∀ c ∈ lead, isBlank c = true
  image_ne_nil : image ≠ []
  isToken_image : ∀ w ∈ image, IsToken w
  isClauseWord_image : ∀ w ∈ image, Line.isClauseWord w = false
  not_screen : verb ≠ .scene → ∀ w ∈ image.head?, startsWithWord "screen".toList w = false
  spaced : Spaced (image ++ clauses.flatMap Clause.tokens) body
  no_colon : ∀ w ∈ (image ++ clauses.flatMap Clause.tokens).getLast?, w.getLast? ≠ some ':'
  isBlank_pad : ∀ c ∈ pad, isBlank c = true ∧ c ≠ '\n'
  isBlank_trail : ∀ c ∈ trail, isBlank c = true

namespace ImageLine

variable (l : ImageLine)

/-- The line as it is written. -/
def text : String :=
  String.ofList (l.lead ++ (l.verb.word.toList ++
    (l.body ++ (l.pad ++ (List.replicate l.colons ':' ++ l.trail)))))

/-- What the line says: the words of the image with single blanks between them, and the first of the
clauses of each word that plays a part. -/
def spec : Line.ImageSpec where
  image := String.ofList (join [' '] l.image)
  position := Clause.first? "at" l.clauses
  transition := Clause.first? "with" l.clauses

/-- The statement that the line adds. -/
def statement : Statement :=
  l.verb.statement l.spec

/-- The words behind the verb. -/
def words : List (List Char) :=
  l.image ++ l.clauses.flatMap Clause.tokens

/-- What is left behind the words when the line is trimmed. -/
def close : List Char :=
  if l.colons = 0 then [] else l.pad ++ List.replicate l.colons ':'

theorem isToken_of_mem_words : ∀ w ∈ l.words, IsToken w := by
  intro w hw
  rcases List.mem_append.1 hw with hw | hw
  · exact l.isToken_image w hw
  · obtain ⟨c, -, hc⟩ := List.mem_flatMap.1 hw
    exact c.isToken_of_mem_tokens w hc

theorem words_ne_nil : l.words ≠ [] := by
  simp [words, l.image_ne_nil]

/-- The body ends in a character of its last word. -/
theorem exists_getLast?_body : ∃ c, l.body.getLast? = some c ∧ isBlank c = false ∧ c ≠ ':' := by
  have hend := l.spaced.getLast? l.isToken_of_mem_words
  cases hlast : l.words.getLast? with
  | none => exact absurd (List.getLast?_eq_none_iff.1 hlast) l.words_ne_nil
  | some w =>
    have htoken := l.isToken_of_mem_words w (List.mem_of_getLast? hlast)
    have hcolon := l.no_colon w hlast
    rw [show (l.image ++ l.clauses.flatMap Clause.tokens).getLast? = some w from hlast,
      Option.bind_some, List.getLast?_eq_some_getLast htoken.1] at hend
    rw [List.getLast?_eq_some_getLast htoken.1] at hcolon
    exact ⟨_, hend, htoken.2 _ (List.getLast_mem _), fun he => hcolon (congrArg some he)⟩

theorem body_ne_nil : l.body ≠ [] := by
  obtain ⟨c, hc, -⟩ := l.exists_getLast?_body
  intro hnil
  rw [hnil] at hc
  cases hc

/-- Trimming takes the blanks at the end, and those before colons only if there are none. -/
theorem trimEnd_text (w : List Char) :
    trimEnd (w ++ (l.body ++ (l.pad ++ (List.replicate l.colons ':' ++ l.trail)))) =
      w ++ (l.body ++ l.close) := by
  obtain ⟨c, hc, hblank, -⟩ := l.exists_getLast?_body
  have hbody : trimEnd (w ++ l.body) = w ++ l.body := by
    rw [trimEnd_eq_self_iff, List.getLast?_append_of_ne_nil _ l.body_ne_nil, hc]
    simpa using hblank
  rw [← List.append_assoc, trimEnd_append hbody, ← List.append_assoc,
    trimEnd_append_blanks l.isBlank_trail]
  unfold close
  split
  · rename_i hn
    have hpad : trimEnd l.pad = [] := trimEnd_eq_nil_iff.2 fun c hc => (l.isBlank_pad c hc).1
    rw [hn, List.replicate_zero, List.append_nil, hpad]
    simp
  · rename_i hn
    have hcolon : trimEnd (l.pad ++ List.replicate l.colons ':') =
        l.pad ++ List.replicate l.colons ':' := by
      have hne : List.replicate l.colons ':' ≠ [] := by simpa using hn
      rw [trimEnd_eq_self_iff, List.getLast?_append_of_ne_nil _ hne]
      intro d hd
      rw [List.eq_of_mem_replicate (List.mem_of_getLast? hd)]
      rfl
    rw [hcolon, List.append_assoc]

/-- The blanks before the colons at the end, which the image does not count either. -/
def leftover : List Char :=
  if l.colons = 0 then [] else l.pad

theorem ofRaw_text (number : Int) : SourceLine.ofRaw number l.text.toList =
    ⟨number, l.lead.length, l.verb.word.toList ++ (l.body ++ l.close)⟩ := by
  rw [text, String.toList_ofList, SourceLine.ofRaw_lead l.isBlank_lead l.verb.isName_word.isToken,
    trimEnd_text]

/-- The line is neither blank nor a comment. -/
theorem isIgnored_text (number : Int) :
    (SourceLine.ofRaw number l.text.toList).isIgnored = false :=
  SourceLine.isIgnored_of_name l.verb.isName_word (by rw [l.ofRaw_text])

/-! ### The image -/

theorem not_lf_close : '\n' ∉ l.close := by
  unfold close
  split
  · exact List.not_mem_nil
  · intro hmem
    rcases List.mem_append.1 hmem with hmem | hmem
    · exact (l.isBlank_pad _ hmem).2 rfl
    · exact absurd (List.eq_of_mem_replicate hmem) (by decide)

theorem isBlank_leftover : ∀ c ∈ l.leftover, isBlank c = true := by
  unfold leftover
  split
  · simp
  · exact fun c hc => (l.isBlank_pad c hc).1

/-- Without the colons at its end the line ends in its last word and the blanks behind it. -/
theorem rdropWhile_close {s : List Char} (hs : s.rdropWhile (· == ':') = s) :
    (s ++ l.close).rdropWhile (· == ':') = s ++ l.leftover := by
  rw [rdropWhile_append hs, close, leftover]
  split
  · rfl
  · have hcolons : ∀ n, (l.pad ++ List.replicate n ':').rdropWhile (· == ':') =
        l.pad.rdropWhile (· == ':') := by
      intro n
      induction n with
      | zero => rw [List.replicate_zero, List.append_nil]
      | succ n ih =>
        rw [List.replicate_succ', ← List.append_assoc, List.rdropWhile_concat_pos _ _ _ rfl, ih]
    have hpad : l.pad.rdropWhile (· == ':') = l.pad := by
      refine List.rdropWhile_eq_self_iff.2 fun hne hc => ?_
      have hblank := (l.isBlank_pad _ (List.getLast_mem hne)).1
      rw [beq_iff_eq.1 hc] at hblank
      cases hblank
    rw [hcolons, hpad]

/-- **The image and its clauses** are read off what stands behind the first blanks. -/
theorem image?_close {gap t : List Char} (hbody : l.body = gap ++ t)
    (hgap : ∀ c ∈ gap, isBlank c = true) (hne : t ≠ []) :
    Line.image? (t ++ l.close) = some l.spec := by
  have hlf : '\n' ∉ t ++ l.close := by
    intro hmem
    rcases List.mem_append.1 hmem with hmem | hmem
    · exact l.spaced.lf_not_mem l.isToken_of_mem_words (by rw [hbody]; simp [hmem])
    · exact l.not_lf_close hmem
  have hend : t.rdropWhile (· == ':') = t := by
    obtain ⟨c, hc, -, hcolon⟩ := l.exists_getLast?_body
    rw [hbody, List.getLast?_append_of_ne_nil _ hne, List.getLast?_eq_some_getLast hne] at hc
    refine List.rdropWhile_eq_self_iff.2 fun _ hlast => hcolon ?_
    rw [← Option.some.inj hc]
    exact beq_iff_eq.1 hlast
  have hwords : Text.words ((t ++ l.close).rdropWhile (· == ':')) =
      l.image ++ l.clauses.flatMap Clause.tokens := by
    rw [l.rdropWhile_close hend, ← words_append_blanks hgap, ← List.append_assoc, ← hbody]
    exact l.spaced.words l.isToken_of_mem_words l.isBlank_leftover
  have hfirst : ∀ w ∈ (l.clauses.flatMap Clause.tokens).head?, Line.isClauseWord w = true := by
    cases l.clauses with
    | nil => simp
    | cons c cs => simpa [Clause.tokens] using c.isClauseWord_word
  have hread := Line.readImage_of_words hwords l.isClauseWord_image hfirst
  rw [Clause.clause?_tokens, Clause.clause?_tokens] at hread
  rw [Line.image?, Line.upToBreak_eq_self hlf, hread]
  refine if_neg fun hnil => ?_
  obtain ⟨w, ws, hws⟩ := List.exists_cons_of_ne_nil l.image_ne_nil
  have hjoin := join_ne_nil (l.isToken_image w (by rw [hws]; exact .head _)).1 ws
  rw [← hws] at hjoin
  exact hjoin (String.ofList_inj.1 hnil)

theorem isWord_head_close : ∀ c ∈ l.close.head?, isWord c = false := by
  unfold close
  split
  · simp
  · intro c hc
    cases hpad : l.pad with
    | nil =>
      rw [hpad, List.nil_append] at hc
      rw [List.eq_of_mem_replicate (List.mem_of_head? hc)]
      decide
    | cons b pad =>
      rw [hpad] at hc
      cases hc
      exact isWord_of_isBlank (l.isBlank_pad c (by rw [hpad]; exact .head _)).1

/-- **Behind the verb** and the blanks that follow it stand the image and its clauses, which are no
screen. -/
theorem exists_afterKeyword? : ∃ s,
    Line.afterKeyword? l.verb.word (l.verb.word.toList ++ (l.body ++ l.close)) = some s ∧
      Line.image? s = some l.spec ∧
      (l.verb ≠ .scene → startsWithWord "screen".toList s = false) := by
  obtain ⟨w, ws, hws⟩ := List.exists_cons_of_ne_nil l.image_ne_nil
  have htoken := l.isToken_image w (by rw [hws]; exact .head _)
  have hspaced := l.spaced
  rw [hws, List.cons_append] at hspaced
  generalize hbody : l.body = body at hspaced
  cases hspaced with
  | @cons gap _ s _ hne hgap h =>
    have hblank : ∀ c ∈ gap, isBlank c = true := fun c hc => (hgap c hc).1
    refine ⟨w ++ (s ++ l.close), ?_, ?_, fun hverb => ?_⟩
    · rw [Line.afterKeyword?, after?_append, Option.bind_some, List.append_assoc, List.append_assoc,
        Line.afterBlanks?_append hne hblank (trimStart_token htoken _)]
    · rw [← List.append_assoc]
      exact l.image?_close hbody hblank (by simp [htoken.1])
    · have hhead : ∀ c ∈ (s ++ l.close).head?, isWord c = false :=
        h.head (fun _ hc => isWord_of_isBlank hc) l.isWord_head_close
      have hscreen : IsName "screen".toList := by decide
      rw [startsWithWord_append hhead hscreen.2]
      exact l.not_screen hverb w (by rw [hws]; rfl)

/-! ### The statement -/

/-- The statement rests on the verb, the image and what the clauses say. -/
theorem statement_congr {l' : ImageLine} (hverb : l'.verb = l.verb)
    (himage : l'.image = l.image) (h : SameClauses l.clauses l'.clauses) :
    l'.statement = l.statement := by
  have hspec : l'.spec = l.spec := by
    rw [spec, spec, himage, h.first?_eq (by decide), h.first?_eq (by decide)]
  rw [statement, statement, hverb, hspec]

theorem statement_ne_label (name : String) : l.statement ≠ .label name :=
  l.verb.statement_ne_label l.spec name

theorem read?_text : Line.read? (l.verb.word.toList ++ (l.body ++ l.close)) =
    some (.statement l.statement) := by
  obtain ⟨s, hs, himage, hscreen⟩ := l.exists_afterKeyword?
  have hfirst := Line.firstWord_of_afterKeyword? l.verb.isName_word hs
  have hs' : l.verb ≠ .scene → Line.afterImageKeyword? l.verb.word
      (l.verb.word.toList ++ (l.body ++ l.close)) = some s :=
    fun hverb => Line.afterImageKeyword?_of_not_screen hs (hscreen hverb)
  rw [statement]
  generalize l.verb = verb at *
  cases verb with
  | scene =>
    rw [Line.read?_of_keyword Line.readScene? (by simp [Line.keywordForms, ImageVerb.word]) hfirst,
      Line.readScene?_eq, show Line.afterKeyword? "scene" _ = _ from hs, Option.bind_some, himage]
    rfl
  | showImage =>
    rw [Line.read?_of_keyword Line.readShow? (by simp [Line.keywordForms, ImageVerb.word]) hfirst,
      Line.readShow?_eq, show Line.afterImageKeyword? "show" _ = _ from hs' (by decide),
      Option.bind_some, himage]
    rfl
  | hideImage =>
    rw [Line.read?_of_keyword Line.readHide? (by simp [Line.keywordForms, ImageVerb.word]) hfirst,
      Line.readHide?_eq, show Line.afterImageKeyword? "hide" _ = _ from hs' (by decide),
      Option.bind_some, himage]
    rfl

end ImageLine

namespace Reader

variable {σ : Type} (source : IdSource σ)

/-- **Images outside a menu.** A line about an image that is not deeper than the open menu closes it
and adds one statement, with the words of the image and the first clauses of place and transition.
A line that does the same with the same image adds the same statement if its clauses say the same,
however it is spaced and whatever colons it ends in. -/
theorem readRaw_image (r : Reader σ) (number : Int) (l : ImageLine)
    (hout : ∀ k ∈ r.phase.menuIndent?, l.lead.length ≤ k) :
    r.readRaw source number l.text = (r.close source).emit source l.statement ∧
    ∀ l' : ImageLine, l'.verb = l.verb → l'.image = l.image → SameClauses l.clauses l'.clauses →
      (∀ k ∈ r.phase.menuIndent?, l'.lead.length ≤ k) →
      r.readRaw source number l'.text = r.readRaw source number l.text := by
  have hread : ∀ l : ImageLine, (∀ k ∈ r.phase.menuIndent?, l.lead.length ≤ k) →
      r.readRaw source number l.text = (r.close source).emit source l.statement := by
    intro l hl
    rw [readRaw_of_indent_le source (l.isIgnored_text number) (by rw [l.ofRaw_text]; exact hl),
      stepPlain_of_ne_label source (by rw [l.ofRaw_text, l.read?_text]) l.statement_ne_label]
  refine ⟨hread l hout, fun l' hverb himage hsame hout' => ?_⟩
  rw [hread l' hout', hread l hout, l.statement_congr hverb himage hsame]

end Reader

namespace ImageLine

/-- The line `show eileen happy with with at left at right::`, indented and with blanks of all
sorts. -/
def shown : ImageLine where
  lead := "\t ".toList
  verb := .showImage
  image := ["eileen".toList, "happy".toList]
  clauses := [⟨"with", "with".toList, by decide, by decide⟩,
    ⟨"at", "left".toList, by decide, by decide⟩, ⟨"at", "right".toList, by decide, by decide⟩]
  body := " eileen happy with with at left at right".toList
  pad := ['\t']
  colons := 2
  trail := " \t".toList
  isBlank_lead := by simp [isBlank]
  image_ne_nil := by decide
  isToken_image := by decide
  isClauseWord_image := by decide
  not_screen := by decide
  spaced := spaced_flatMap _
  no_colon := by decide
  isBlank_pad := by simp [isBlank]
  isBlank_trail := by simp [isBlank]

/-- The same image with the place before the transition and a layer order between them. -/
def reshown : ImageLine :=
  { shown with
    clauses := [⟨"at", "left".toList, by decide, by decide⟩,
      ⟨"zorder", "3".toList, by decide, by decide⟩, ⟨"with", "with".toList, by decide, by decide⟩,
      ⟨"at", "right".toList, by decide, by decide⟩]
    body := " eileen happy at left zorder 3 with with at right".toList
    pad := [' ']
    colons := 1
    spaced := spaced_flatMap _
    no_colon := by decide
    isBlank_pad := by simp [isBlank] }

theorem sameClauses_shown : SameClauses shown.clauses reshown.clauses :=
  (SameClauses.swap [] _ (by decide)).trans (SameClauses.insert [_] _ (by decide))

end ImageLine

namespace Reader

open ImageLine

theorem readRaw_image_inMenu :
    (∀ k ∈ inMenu.phase.menuIndent?, shown.lead.length ≤ k) ∧
      inMenu.readRaw .perKind 7 shown.text =
        (inMenu.close .perKind).emit .perKind (.showImage "eileen happy" "left" (some "with")) ∧
      inMenu.readRaw .perKind 7 reshown.text = inMenu.readRaw .perKind 7 shown.text := by
  have hout : ∀ l ∈ [shown, reshown], ∀ k ∈ inMenu.phase.menuIndent?, l.lead.length ≤ k := by
    intro l hl k hk
    cases hk
    revert l
    decide
  have hread := readRaw_image .perKind inMenu 7 shown (hout _ (.head _))
  exact ⟨hout _ (.head _), hread.1,
    hread.2 reshown rfl rfl sameClauses_shown (hout _ (.tail _ (.head _)))⟩

end Reader

end NovelScript
