import NovelScript.Proofs.Requests
import NovelScript.Proofs.Walk
import NovelScript.Proofs.WellFormed

/-!
# The shape of what is read

What other parts of the program may rely on when a script was read off a text, wherever in the
script a statement stands: words are words, images are made of words and their clauses of one word
each, nothing that is given is empty, and menus hold lines of text only (`Script.TextShape`).
`Reader.ofText_textShape`: this holds of every script that is read, and its ids hold no line break
either.
-/

set_option autoImplicit false

namespace NovelScript

open Text

/-! ## The parts of a script -/

/-- Every string of a character. -/
def Character.texts (c : Character) : List String :=
  c.id :: c.name :: c.color.toList

namespace Statement

/-- Every string of a statement. -/
def texts : Statement → List String
  | dialogue content speaker => content :: speaker.toList
  | scene image transition => image :: transition.toList
  | showImage image position transition => image :: position :: transition.toList
  | hideImage image transition => image :: transition.toList
  | label name => [name]
  | jump target => [target]
  | call target => [target]
  | play channel audio => [channel, audio]
  | stop channel => [channel]
  | pause _ => []
  | assign name value => [name, value]
  | condition test => [test]
  | code text => [text]
  | goBack => []

/-- The names of labels, channels and variables. -/
def names : Statement → List String
  | label name => [name]
  | jump target => [target]
  | call target => [target]
  | play channel _ => [channel]
  | stop channel => [channel]
  | assign name _ => [name]
  | _ => []

def images : Statement → List String
  | scene image _ => [image]
  | showImage image _ _ => [image]
  | hideImage image _ => [image]
  | _ => []

/-- Where an image is shown and how it appears or goes. -/
def clauses : Statement → List String
  | scene _ transition => transition.toList
  | showImage _ position transition => position :: transition.toList
  | hideImage _ transition => transition.toList
  | _ => []

end Statement

namespace Element

def statement? : Element → Option Statement
  | statement _ s => some s
  | menu .. => none

def choices : Element → List Choice
  | statement .. => []
  | menu _ choices => choices

end Element

namespace Script

/-- The statements of a script at any depth. -/
def statements (s : Script) : List Statement :=
  (withInner s.elements).filterMap Element.statement?

/-- The choices of a script at any depth. -/
def choices (s : Script) : List Choice :=
  (withInner s.elements).flatMap Element.choices

/-- Every string of a script but its ids. -/
def texts (s : Script) : List String :=
  s.characters.flatMap Character.texts ++ s.statements.flatMap Statement.texts ++
    s.choices.flatMap fun c => c.text :: c.condition.toList

/-- The shape of a script that was read off a text. -/
structure TextShape (s : Script) : Prop where
  oneLine : ∀ t ∈ s.texts, IsOneLine t.toList
  cast : ∀ c ∈ s.characters, IsName c.id.toList
  name : ∀ t ∈ s.statements.flatMap Statement.names, IsName t.toList
  jump : ∀ target, .jump target ∈ s.statements → target ≠ "expression"
  call : ∀ target, .call target ∈ s.statements → target ≠ "expression" ∧ target ≠ "screen"
  speaker : ∀ content name, .dialogue content (some name) ∈ s.statements → name ∉ Line.keywords
  image : ∀ t ∈ s.statements.flatMap Statement.images, t ≠ "" ∧
    join [' '] (words t.toList) = t.toList ∧
      ∀ w ∈ words t.toList, String.ofList w ∉ Line.clauseWords
  clause : ∀ t ∈ s.statements.flatMap Statement.clauses, IsToken t.toList
  color : ∀ c ∈ s.characters, c.color ≠ some ""
  audio : ∀ channel, .play channel "" ∉ s.statements
  condition : ∀ c ∈ s.choices, c.condition ≠ some ""
  value : ∀ name value, .assign name value ∈ s.statements → trim value.toList = value.toList
  code : ∀ text, .code text ∈ s.statements → text ≠ "" ∧ trim text.toList = text.toList ∧
    Line.readAssign? ("$ ".toList ++ text.toList) = none
  noCondition : ∀ test, .condition test ∉ s.statements
  action : ∀ c ∈ s.choices, ∀ a ∈ c.actions,
    ∃ id content speaker, a = .statement id (.dialogue content speaker)
  assets : s.assets.images = [] ∧ s.assets.audio = [] ∧ s.assets.backgrounds = []

end Script

/-! ## Well-formed pieces -/

theorem Character.WellFormed.oneLine {c : Character} (h : c.WellFormed) :
    ∀ t ∈ c.texts, IsOneLine t.toList := by
  obtain ⟨hid, hname, hcolor⟩ := h
  simp only [texts, List.mem_cons, Option.mem_toList]
  rintro t (rfl | rfl | ht)
  · exact isOneLine_of_isToken hid.isToken
  · exact hname
  · exact (hcolor t ht).2

namespace Statement.WellFormed

variable {s : Statement} (h : s.WellFormed)
include h

theorem name : ∀ t ∈ s.names, IsName t.toList := by
  cases s with
  | label name =>
    rw [names, List.forall_mem_singleton]
    exact h
  | stop channel =>
    rw [names, List.forall_mem_singleton]
    exact h
  | jump target => simpa [names] using h.1
  | call target => simpa [names] using h.1
  | play channel audio => simpa [names] using h.1
  | assign name value => simpa [names] using h.1
  | _ => simp [names]

theorem image : ∀ t ∈ s.images, IsImage t.toList := by
  cases s with
  | scene image transition => simpa [images] using h.1
  | showImage image position transition => simpa [images] using h.1
  | hideImage image transition => simpa [images] using h.1
  | _ => simp [images]

theorem clause : ∀ t ∈ s.clauses, IsToken t.toList := by
  cases s with
  | scene image transition => simpa [clauses] using h.2
  | showImage image position transition => simpa [clauses] using h.2
  | hideImage image transition => simpa [clauses] using h.2
  | _ => simp [clauses]

/-- The strings of a statement are names, images and clauses, or they are on one line as they
stand. -/
theorem oneLine : ∀ t ∈ s.texts, IsOneLine t.toList := by
  have hname : ∀ t ∈ s.names, IsOneLine t.toList := fun t ht =>
    isOneLine_of_isToken (h.name t ht).isToken
  have himage : ∀ t ∈ s.images ++ s.clauses, IsOneLine t.toList := by
    intro t ht
    rcases List.mem_append.1 ht with ht | ht
    · exact (h.image t ht).isOneLine
    · exact isOneLine_of_isToken (h.clause t ht)
  cases s with
  | dialogue content speaker =>
    simp only [texts, List.mem_cons, Option.mem_toList]
    rintro t (rfl | ht)
    · exact h.1
    · exact isOneLine_of_isToken (h.2 t ht).1.isToken
  | scene => exact himage
  | showImage => exact himage
  | hideImage => exact himage
  | label => exact hname
  | jump => exact hname
  | call => exact hname
  | play channel audio => simpa [texts, names] using ⟨hname channel (.head _), h.2.2⟩
  | stop => exact hname
  | pause => simp [texts]
  | assign name value => simpa [texts, names] using ⟨hname name (.head _), h.2.1⟩
  | condition => exact h.elim
  | code text => simpa [texts] using h.2.1
  | goBack => simp [texts]

end Statement.WellFormed

theorem Element.IsSpeech.exists_dialogue {e : Element} (h : e.IsSpeech) :
    ∃ id content speaker, e = .statement id (.dialogue content speaker) := by
  unfold IsSpeech at h
  split at h
  · exact ⟨_, _, _, rfl⟩
  · exact h.elim

namespace Script.WellFormed

variable {s : Script} (h : s.WellFormed)
include h

/-- Nothing stands in the choices of a well-formed script but lines of text. -/
theorem element : ∀ e ∈ withInner s.elements, e.WellFormed := by
  intro e he
  obtain ⟨top, htop, he⟩ := mem_withInner.1 he
  have hwf := h.2 top htop
  rcases he with rfl | he
  · exact hwf
  · cases top with
    | statement id t => cases he
    | menu id choices =>
      obtain ⟨c, hc, he⟩ := mem_innerOfChoices.1 he
      obtain ⟨a, ha, he⟩ := mem_withInner.1 he
      have hspeech := (hwf c hc).2.2 a ha
      obtain ⟨id, content, speaker, rfl⟩ := hspeech.exists_dialogue
      rcases he with rfl | he
      · exact hspeech
      · cases he

theorem statement : ∀ t ∈ s.statements, t.WellFormed := by
  intro t ht
  obtain ⟨e, he, het⟩ := List.mem_filterMap.1 ht
  have hwf := h.element e he
  cases e with
  | statement id u =>
    cases het
    exact hwf
  | menu id choices => cases het

theorem choice : ∀ c ∈ s.choices, c.WellFormed := by
  intro c hc
  obtain ⟨e, he, hec⟩ := List.mem_flatMap.1 hc
  have hwf := h.element e he
  cases e with
  | statement id t => cases hec
  | menu id choices => exact hwf c hec

/-- A well-formed script without assets has the shape of scripts that are read. -/
theorem textShape (ha : s.assets.images = [] ∧ s.assets.audio = [] ∧ s.assets.backgrounds = []) :
    s.TextShape where
  oneLine t ht := by
    simp only [texts, List.mem_append, List.mem_flatMap] at ht
    rcases ht with (⟨c, hc, ht⟩ | ⟨u, hu, ht⟩) | ⟨c, hc, ht⟩
    · exact (h.1 c hc).oneLine t ht
    · exact (h.statement u hu).oneLine t ht
    · obtain ⟨htext, hcondition, -⟩ := h.choice c hc
      rcases List.mem_cons.1 ht with rfl | ht
      · exact htext
      · exact (hcondition t (Option.mem_toList.1 ht)).2.1
  cast c hc := (h.1 c hc).1
  name t ht := by
    obtain ⟨u, hu, ht⟩ := List.mem_flatMap.1 ht
    exact (h.statement u hu).name t ht
  jump target ht := (h.statement _ ht).2
  call target ht := (h.statement _ ht).2
  speaker content name ht hk := by
    have hnot := ((h.statement _ ht).2 name rfl).2
    rw [Line.isKeyword, String.ofList_toList, List.contains_eq_mem, decide_eq_false_iff_not] at hnot
    exact hnot hk
  image t ht := by
    obtain ⟨u, hu, ht⟩ := List.mem_flatMap.1 ht
    obtain ⟨hne, hjoin, hclause⟩ := (h.statement u hu).image t ht
    refine ⟨?_, hjoin, fun w hw => ?_⟩
    · rintro rfl
      exact hne rfl
    · have hnot := hclause w hw
      rwa [Line.isClauseWord, List.contains_eq_mem, decide_eq_false_iff_not] at hnot
  clause t ht := by
    obtain ⟨u, hu, ht⟩ := List.mem_flatMap.1 ht
    exact (h.statement u hu).clause t ht
  color c hc hempty := ((h.1 c hc).2.2 "" hempty).1 rfl
  audio channel ht := (h.statement _ ht).2.1 rfl
  condition c hc hempty := ((h.choice c hc).2.1 "" hempty).1 rfl
  value name value ht := (h.statement _ ht).2.2
  code text ht := by
    obtain ⟨hne, -, htrim, hassign⟩ := h.statement _ ht
    refine ⟨?_, htrim, hassign⟩
    rintro rfl
    exact hne rfl
  noCondition test ht := h.statement _ ht
  action c hc a ha := ((h.choice c hc).2.2 a ha).exists_dialogue
  assets := ha

end Script.WellFormed

/-! ## Ids -/

mutual

/-- Ids are asked for elements and for choices. -/
theorem Element.kind_of_mem_requests {request : String × String} : ∀ {e : Element},
    request ∈ e.requests → request.1 ∈ ["element", "choice"]
  | .statement _ _, h => by
    rw [List.mem_singleton.1 h]
    exact .head _
  | .menu _ choices, h => by
    rcases List.mem_append.1 h with h | h
    · exact kind_of_mem_requestsOfChoices h
    · rw [List.mem_singleton.1 h]
      exact .head _

theorem kind_of_mem_requestsOfChoices {request : String × String} : ∀ {cs : List Choice},
    request ∈ requestsOfChoices cs → request.1 ∈ ["element", "choice"]
  | ⟨_, _, _, actions⟩ :: rest, h => by
    rw [requestsOfChoices, List.cons_append, List.mem_cons, List.mem_append] at h
    rcases h with rfl | h | h
    · exact .tail _ (.head _)
    · exact kind_of_mem_requestsOfElements h
    · exact kind_of_mem_requestsOfChoices h

theorem kind_of_mem_requestsOfElements {request : String × String} : ∀ {es : List Element},
    request ∈ requestsOfElements es → request.1 ∈ ["element", "choice"]
  | e :: rest, h => by
    rcases List.mem_append.1 h with h | h
    · exact Element.kind_of_mem_requests h
    · exact kind_of_mem_requestsOfElements h

end

theorem isOneLine_countText (n : Nat) : IsOneLine (countText n).toList := by
  intro c hc
  rw [countText, String.toList_ofList] at hc
  have hdigit := (Json.isDigits_natText n).1.2 c hc
  have hword : isWord c = true := by simp [isWord, Char.isAlphanum, hdigit]
  exact isLineBreak_of_not_isBlank (isBlank_of_isWord hword)

/-- The usual ids are on one line. -/
theorem Script.isOneLine_of_mem_requests {text : String} {request : String × String}
    (h : request ∈ (Script.ofText text).requests) : IsOneLine request.2.toList := by
  obtain ⟨kind, id⟩ := request
  have hkind : kind ∈ ["element", "choice"] := kind_of_mem_requestsOfElements h
  have hid : id ∈ (Script.ofText text).idsOf kind :=
    List.mem_map.2 ⟨(kind, id), List.mem_filter.2 ⟨h, by simp⟩, rfl⟩
  obtain ⟨n, hn⟩ := Script.exists_idsOf_ofText text kind
  rw [hn] at hid
  obtain ⟨i, -, rfl⟩ := List.mem_map.1 hid
  simp only [numberedId, String.toList_append, isOneLine_append]
  refine ⟨⟨?_, by decide⟩, isOneLine_countText i⟩
  simp only [List.mem_cons, List.not_mem_nil, or_false] at hkind
  rcases hkind with rfl | rfl
  · decide
  · decide

/-- **The shape of what is read.** Whatever the text and the source of ids, the script that is read
has the shape of scripts of a text; and with the usual ids, these hold no line break either. -/
theorem Reader.ofText_textShape {σ : Type} (source : IdSource σ) (ids : σ) (text : String) :
    (Reader.ofText source ids text).script.TextShape ∧
      ∀ request ∈ (Script.ofText text).requests, IsOneLine request.2.toList :=
  ⟨(Script.wellFormed_ofText source ids text).textShape ⟨rfl, rfl, rfl⟩,
    fun _ => Script.isOneLine_of_mem_requests⟩

end NovelScript
