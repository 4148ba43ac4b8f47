import Mathlib.Data.List.Nodup
import NovelScript.Proofs.Quoted
import NovelScript.Proofs.Text
import NovelScript.Script.Line

/-!
# The forms of a line

What the pieces of a form find in a line, and how the first word of a line settles its form: every
form but text starts with its keyword or a dollar sign. So a line that starts with a keyword is read
by the form of that keyword alone (`Line.read?_of_keyword`), and a line that starts with another word
is text or says nothing (`Line.read?_of_not_keyword`).
-/

set_option autoImplicit false

namespace NovelScript

namespace Text

/-- A name: some characters, all of them word characters. -/
def IsName (w : List Char) : Prop := w ≠ [] ∧ ∀ c ∈ w, isWord c = true

instance (w : List Char) : Decidable (IsName w) :=
  decidable_of_iff (w ≠ [] ∧ w.all isWord = true) (by simp [IsName])

theorem IsName.isToken {w : List Char} (h : IsName w) : IsToken w :=
  ⟨h.1, fun c hc => isBlank_of_isWord (h.2 c hc)⟩

theorem after?_append (w r : List Char) : after? w (w ++ r) = some r := by
  induction w with
  | nil => rfl
  | cons c w ih => simpa [after?] using ih

theorem after?_eq_some_iff {w s r : List Char} : after? w s = some r ↔ s = w ++ r := by
  constructor
  · intro h
    induction w generalizing s with
    | nil =>
      cases h
      rfl
    | cons c w ih =>
      cases s with
      | nil => cases h
      | cons d s =>
        rw [after?] at h
        split at h
        · rename_i hc
          rw [hc, ih h, List.cons_append]
        · cases h
  · rintro rfl
    exact after?_append w r

theorem takeWhile_append_of_name {w r : List Char} (hw : IsName w)
    (hr : ∀ c ∈ r.head?, isWord c = false) : (w ++ r).takeWhile isWord = w := by
  rw [List.takeWhile_append_of_pos hw.2]
  cases r with
  | nil => simp
  | cons c r => simp [hr c rfl]

theorem dropWhile_append_of_name {w r : List Char} (hw : IsName w)
    (hr : ∀ c ∈ r.head?, isWord c = false) : (w ++ r).dropWhile isWord = r := by
  rw [List.dropWhile_append_of_pos hw.2]
  cases r with
  | nil => simp
  | cons c r => simp [hr c rfl]

/-- Whether a text starts with a word is not changed by what stands behind the text and is no word
character. -/
theorem startsWithWord_append {r : List Char} (hr : ∀ c ∈ r.head?, isWord c = false) :
    ∀ {w : List Char}, (∀ c ∈ w, isWord c = true) → ∀ t : List Char,
      startsWithWord w (t ++ r) = startsWithWord w t
  | [], _, [] => by
    cases r with
    | nil => rfl
    | cons c r => simp [startsWithWord, after?, atWordEnd, hr c rfl]
  | [], _, c :: t => rfl
  | d :: w, hw, [] => by
    cases r with
    | nil => rfl
    | cons c r =>
      have hne : d ≠ c := by
        rintro rfl
        have := hw d (.head _)
        rw [hr d rfl] at this
        cases this
      simp [startsWithWord, after?, hne]
  | d :: w, hw, c :: t => by
    have ih := startsWithWord_append hr (fun c hc => hw c (.tail _ hc)) t
    by_cases hd : d = c
    · simpa [startsWithWord, after?, hd] using ih
    · simp [startsWithWord, after?, hd]

theorem startsWithWord_name {w t : List Char} (hw : ∀ c ∈ w, isWord c = true)
    (ht : ∀ c ∈ t, isWord c = true) : startsWithWord w t = decide (t = w) := by
  induction w generalizing t with
  | nil =>
    cases t with
    | nil => rfl
    | cons c t => simp [startsWithWord, after?, atWordEnd, ht c (.head _)]
  | cons d w ih =>
    cases t with
    | nil => rfl
    | cons c t =>
      have hrest := ih (t := t) (fun e he => hw e (.tail _ he)) fun e he => ht e (.tail _ he)
      by_cases hd : d = c
      · subst hd
        simpa [startsWithWord, after?] using hrest
      · simp [startsWithWord, after?, hd, Ne.symm hd]

end Text

namespace Line

open Text

/-! ## Pieces -/

/-- A name is cut off where no word character follows it. -/
theorem splitWord?_append {w r : List Char} (hw : IsName w) (hr : ∀ c ∈ r.head?, isWord c = false) :
    splitWord? (w ++ r) = some (w, r) := by
  simp [splitWord?, takeWhile_append_of_name hw hr, dropWhile_append_of_name hw hr, hw.1]

theorem splitWord?_eq_some {s w r : List Char} (h : splitWord? s = some (w, r)) :
    IsName w ∧ s = w ++ r ∧ w = s.takeWhile isWord := by
  simp only [splitWord?] at h
  split at h
  · cases h
  · rename_i hw
    cases h
    exact ⟨⟨hw, fun c hc => List.all_eq_true.1 List.all_takeWhile c hc⟩,
      List.takeWhile_append_dropWhile.symm, rfl⟩

theorem splitWord?_eq_none {s : List Char} (h : s.takeWhile isWord = []) : splitWord? s = none := by
  simp [splitWord?, h]

theorem afterBlanks?_eq_some {s r : List Char} (h : afterBlanks? s = some r) :
    ∃ b t, s = b :: t ∧ isBlank b = true ∧ r = trimStart t := by
  cases s with
  | nil => cases h
  | cons b t =>
    rw [afterBlanks?] at h
    split at h
    · rename_i hb
      cases h
      exact ⟨b, t, rfl, hb, rfl⟩
    · cases h

theorem afterBlanks?_append {blanks s : List Char} (hne : blanks ≠ [])
    (hb : ∀ c ∈ blanks, isBlank c = true) (hs : trimStart s = s) :
    afterBlanks? (blanks ++ s) = some s := by
  cases blanks with
  | nil => exact absurd rfl hne
  | cons b t =>
    rw [List.cons_append, afterBlanks?, if_pos (hb b (.head _)),
      trimStart_append_blanks fun c hc => hb c (.tail _ hc), hs]

theorem afterKeyword?_eq_some {word : String} {s r : List Char}
    (h : afterKeyword? word s = some r) :
    ∃ b t, s = word.toList ++ b :: t ∧ isBlank b = true ∧ r = trimStart t := by
  obtain ⟨u, hu, h⟩ := Option.bind_eq_some_iff.1 h
  obtain ⟨b, t, rfl, hb, rfl⟩ := afterBlanks?_eq_some h
  exact ⟨b, t, after?_eq_some_iff.1 hu, hb, rfl⟩

theorem afterSign?_eq_some {c : Char} {s r : List Char} (h : afterSign? c s = some r) :
    trimStart s = c :: r := by
  unfold afterSign? at h
  split at h
  · rename_i d u hd
    split at h
    · rename_i hc
      cases h
      rw [hd, hc]
    · cases h
  · cases h

theorem splitQuote?_eq_some {s r : List Char} {q : Char} (h : splitQuote? s = some (q, r)) :
    s = q :: r := by
  cases s with
  | nil => cases h
  | cons c s =>
    rw [splitQuote?] at h
    split at h
    · cases h
      rfl
    · cases h

theorem upToBreak_eq_self {s : List Char} (h : '\n' ∉ s) : upToBreak s = s :=
  List.takeWhile_eq_self_iff.2 fun _ hc => bne_iff_ne.2 fun he => h (he ▸ hc)

theorem upToBreak_subset (s : List Char) : upToBreak s ⊆ s := (List.takeWhile_prefix _).subset

/-! ## First words -/

/-- The word that the line starts with; it may be empty. -/
def firstWord (s : List Char) : List Char :=
  s.takeWhile isWord

theorem firstWord_of_append_blank {word : List Char} (hw : IsName word) {b : Char}
    (hb : isBlank b = true) (t : List Char) : firstWord (word ++ b :: t) = word :=
  takeWhile_append_of_name hw (by simpa using isWord_of_isBlank hb)

theorem firstWord_of_afterKeyword? {word : String} (hw : IsName word.toList)
    {s r : List Char} (h : afterKeyword? word s = some r) : firstWord s = word.toList := by
  obtain ⟨_, t, rfl, hb, -⟩ := afterKeyword?_eq_some h
  exact firstWord_of_append_blank hw hb t

theorem firstWord_of_afterImageKeyword? {word : String} (hw : IsName word.toList)
    {s r : List Char} (h : afterImageKeyword? word s = some r) : firstWord s = word.toList := by
  obtain ⟨gap, hg, h⟩ := Option.bind_eq_some_iff.1 h
  obtain ⟨rest, hr, -⟩ := Option.bind_eq_some_iff.1 h
  exact firstWord_of_afterKeyword? hw (Option.bind_eq_some_iff.2 ⟨gap, hg, hr⟩)

/-- What follows `show` or `hide` is what follows any keyword, unless it is a screen. -/
theorem afterImageKeyword?_of_not_screen {word : String} {s r : List Char}
    (h : afterKeyword? word s = some r) (hs : startsWithWord "screen".toList r = false) :
    afterImageKeyword? word s = some r := by
  obtain ⟨gap, hg, hr⟩ := Option.bind_eq_some_iff.1 h
  simp only [afterImageKeyword?, hg, Option.bind_eq_bind, Option.bind_some, hr, hs,
    Bool.false_eq_true, if_false]

theorem firstWord_of_readPause? {s : List Char} {l : Line} (h : readPause? s = some l) :
    firstWord s = "pause".toList := by
  obtain ⟨gap, hg, h⟩ := Option.bind_eq_some_iff.1 h
  split at h
  · rw [after?_eq_some_iff.1 hg]
    rfl
  · obtain ⟨rest, hr, -⟩ := Option.bind_eq_some_iff.1 h
    exact firstWord_of_afterKeyword? (by decide) (Option.bind_eq_some_iff.2 ⟨gap, hg, hr⟩)

/-- The head of a menu is its keyword and a colon, with blanks between and behind. -/
theorem readMenu?_eq_some {s : List Char} {l : Line} (h : readMenu? s = some l) :
    l = menu ∧ ∃ a b, s = "menu".toList ++ a ++ ':' :: b ∧ (∀ c ∈ a, isBlank c = true) ∧
      ∀ c ∈ b, isBlank c = true := by
  simp only [readMenu?, Option.bind_eq_bind, Option.bind_eq_some_iff] at h
  obtain ⟨gap, hg, b, hb, h⟩ := h
  split at h
  · rename_i ht
    cases h
    have hgap : ∀ c ∈ gap.takeWhile isBlank, isBlank c = true :=
      fun c hc => List.all_eq_true.1 List.all_takeWhile c hc
    refine ⟨rfl, gap.takeWhile isBlank, b, ?_, hgap, trimStart_eq_nil_iff.1 ht⟩
    rw [after?_eq_some_iff.1 hg, List.append_assoc, ← afterSign?_eq_some hb, trimStart,
      List.takeWhile_append_dropWhile]
  · cases h

theorem firstWord_of_readMenu? {s : List Char} {l : Line} (h : readMenu? s = some l) :
    firstWord s = "menu".toList := by
  obtain ⟨-, a, b, rfl, ha, -⟩ := readMenu?_eq_some h
  rw [List.append_assoc]
  refine takeWhile_append_of_name (by decide) ?_
  cases a with
  | nil => simp [isWord]
  | cons d a => simpa using isWord_of_isBlank (ha d (.head _))

theorem after?_dollar_eq_none {s : List Char} (h : s.head? ≠ some '$') : after? ['$'] s = none := by
  cases ha : after? ['$'] s with
  | none => rfl
  | some r =>
    rw [after?_eq_some_iff.1 ha] at h
    exact absurd rfl h

/-- A form behind a keyword says nothing of a line with another first word. -/
theorem bind_afterKeyword?_eq_none {word : String} {s : List Char} (h : firstWord s ≠ word.toList)
    (hw : IsName word.toList) {α : Type} (k : List Char → Option α) :
    (afterKeyword? word s).bind k = none := by
  cases ha : afterKeyword? word s with
  | none => rfl
  | some r => exact absurd (firstWord_of_afterKeyword? hw ha) h

theorem bind_afterImageKeyword?_eq_none {word : String} {s : List Char}
    (h : firstWord s ≠ word.toList) (hw : IsName word.toList) {α : Type}
    (k : List Char → Option α) : (afterImageKeyword? word s).bind k = none := by
  cases ha : afterImageKeyword? word s with
  | none => rfl
  | some r => exact absurd (firstWord_of_afterImageKeyword? hw ha) h

/-- The forms that start with a keyword, each behind its keyword. -/
def keywordForms : List (String × (List Char → Option Line)) :=
  [("define", readDefine?), ("label", readLabel?), ("scene", readScene?), ("show", readShow?),
    ("hide", readHide?), ("play", readPlay?), ("stop", readStop?), ("pause", readPause?),
    ("menu", readMenu?), ("jump", readJump?), ("call", readCall?), ("return", readReturn?)]

theorem mem_keywords_of_mem_keywordForms : ∀ f ∈ keywordForms, f.1 ∈ keywords := by decide

/-- A form says nothing of a line that starts with another word than its own. -/
theorem eq_none_of_firstWord_ne {s : List Char} {f : String × (List Char → Option Line)}
    (hf : f ∈ keywordForms) (h : firstWord s ≠ f.1.toList) : f.2 s = none := by
  simp only [keywordForms, List.mem_cons, List.not_mem_nil, or_false] at hf
  rcases hf with rfl | rfl | rfl | rfl | rfl | rfl | rfl | rfl | rfl | rfl | rfl | rfl
  · exact bind_afterKeyword?_eq_none h (by decide) _
  · exact bind_afterKeyword?_eq_none h (by decide) _
  · exact bind_afterKeyword?_eq_none h (by decide) _
  · exact bind_afterImageKeyword?_eq_none h (by decide) _
  · exact bind_afterImageKeyword?_eq_none h (by decide) _
  · exact bind_afterKeyword?_eq_none h (by decide) _
  · exact bind_afterKeyword?_eq_none h (by decide) _
  · exact Option.eq_none_iff_forall_ne_some.2 fun l hl => h (firstWord_of_readPause? hl)
  · exact Option.eq_none_iff_forall_ne_some.2 fun l hl => h (firstWord_of_readMenu? hl)
  · simp [readJump?, target?, bind_afterKeyword?_eq_none h (by decide)]
  · simp [readCall?, target?, bind_afterKeyword?_eq_none h (by decide)]
  · refine if_neg fun hs => h ?_
    rw [hs]
    rfl

/-- A line that starts with no dollar sign has the first form that applies behind a keyword, or
else it is text or says nothing. -/
theorem read?_of_head? {s : List Char} (hd : s.head? ≠ some '$') :
    read? s = (keywordForms.findSome? fun f => f.2 s).or ((readSpeech? s).map statement) := by
  have hassign : readAssign? s = none := by simp [readAssign?, after?_dollar_eq_none hd]
  have hcode : readCode? s = none := by simp [readCode?, after?_dollar_eq_none hd]
  have hcons : ∀ (f : String × (List Char → Option Line)) fs,
      ((f :: fs).findSome? fun f => f.2 s) = (f.2 s).or (fs.findSome? fun f => f.2 s) := by
    intro f fs
    rw [List.findSome?_cons]
    cases f.2 s <;> rfl
  simp only [read?, hassign, hcode, keywordForms, hcons, List.findSome?_nil,
    Option.orElse_eq_orElse, Option.orElse_eq_or, Option.none_or, Option.or_none, Option.or_assoc]

/-- **A line that starts with no keyword and no dollar sign** is text or says nothing. -/
theorem read?_of_not_keyword {s : List Char} (hw : isKeyword (firstWord s) = false)
    (hd : s.head? ≠ some '$') : read? s = (readSpeech? s).map statement := by
  have hnone : (keywordForms.findSome? fun f => f.2 s) = none := by
    rw [List.findSome?_eq_none_iff]
    intro f hf
    refine eq_none_of_firstWord_ne hf fun he => ?_
    rw [isKeyword, he, String.ofList_toList, List.contains_eq_mem, decide_eq_false_iff_not] at hw
    exact hw (mem_keywords_of_mem_keywordForms f hf)
  rw [read?_of_head? hd, hnone, Option.none_or]

/-! ## Text -/

theorem quotedText?_eq_some {s text rest : List Char} (h : quotedText? s = some (text, rest)) :
    s = '"' :: text ++ '"' :: rest := by
  obtain ⟨u, hu, h⟩ := Option.bind_eq_some_iff.1 h
  rw [after?_eq_some_iff.1 hu, Quoted.split?_eq_some h]
  rfl

/-- Text is quoted, alone or behind a name that is no keyword. -/
theorem readSpeech?_eq_some {s : List Char} {t : Statement} (h : readSpeech? s = some t) :
    ∃ text, text ⊆ s ∧
      ((firstWord s = [] ∧ s.head? = some '"' ∧
        t = .dialogue (String.ofList (Quoted.unescape text)) none) ∨
      (IsName (firstWord s) ∧ isKeyword (firstWord s) = false ∧
        t = .dialogue (String.ofList (Quoted.unescape text))
          (some (String.ofList (firstWord s))))) := by
  simp only [readSpeech?, Option.bind_eq_bind] at h
  split at h
  · rename_i w r hw
    obtain ⟨hname, hs, hfirst⟩ := splitWord?_eq_some hw
    simp only [Option.bind_eq_some_iff] at h
    obtain ⟨u, hu, ⟨text, rest⟩, hq, h⟩ := h
    obtain ⟨b, v, hr, -, rfl⟩ := afterBlanks?_eq_some hu
    split at h
    · cases h
    · rename_i hk
      cases h
      have hsub : text ⊆ s := by
        intro c hc
        have hv : c ∈ v := (trimStart_suffix v).subset (by rw [quotedText?_eq_some hq]; simp [hc])
        rw [hs, hr]
        simp [hv]
      rw [hfirst] at hname hk
      exact ⟨text, hsub, .inr ⟨hname, by simpa [firstWord] using hk, by rw [hfirst]; rfl⟩⟩
  · rename_i hw
    obtain ⟨⟨text, rest⟩, hq, h⟩ := Option.bind_eq_some_iff.1 h
    cases h
    have hs := quotedText?_eq_some hq
    refine ⟨text, fun c hc => by rw [hs]; simp [hc], .inl ⟨?_, by rw [hs]; rfl, rfl⟩⟩
    rw [hs]
    rfl

theorem readSpeech?_of_keyword {s : List Char} (h : isKeyword (firstWord s) = true)
    (hne : firstWord s ≠ []) : readSpeech? s = none := by
  refine Option.eq_none_iff_forall_ne_some.2 fun t ht => ?_
  obtain ⟨text, -, ⟨hw, -, -⟩ | ⟨-, hk, -⟩⟩ := readSpeech?_eq_some ht
  · exact hne hw
  · rw [h] at hk
    cases hk

/-- Of the forms behind a keyword, only that of the first word can apply. -/
theorem findSome?_keywordForms {s : List Char} {f : String × (List Char → Option Line)}
    (hf : f ∈ keywordForms) (h : firstWord s = f.1.toList) :
    (keywordForms.findSome? fun g => g.2 s) = f.2 s := by
  have hother : ∀ g ∈ keywordForms, ∀ l, g.2 s = some l → g = f := by
    intro g hg l hl
    refine List.inj_on_of_nodup_map (f := Prod.fst) (by decide) hg hf (Decidable.by_contra ?_)
    intro hne
    rw [eq_none_of_firstWord_ne hg fun he => hne (String.toList_inj.1 (he.symm.trans h))] at hl
    cases hl
  cases hs : f.2 s with
  | none =>
    rw [List.findSome?_eq_none_iff]
    intro g hg
    refine Option.eq_none_iff_forall_ne_some.2 fun l hl => ?_
    rw [hother g hg l hl, hs] at hl
    cases hl
  | some l =>
    have hsome := (List.findSome?_isSome_iff (f := fun g => g.2 s)).2 ⟨f, hf, by simp [hs]⟩
    obtain ⟨m, hm⟩ := Option.isSome_iff_exists.1 hsome
    obtain ⟨g, hg, hgm⟩ := List.exists_of_findSome?_eq_some hm
    rw [hm, ← hgm, hother g hg m hgm, hs]

/-- **A line that starts with the keyword of a form** has that form or says nothing. -/
theorem read?_of_keyword {word : String} (form : List Char → Option Line) {s : List Char}
    (hf : (word, form) ∈ keywordForms) (h : firstWord s = word.toList) : read? s = form s := by
  have hkey : word ∈ keywords := mem_keywords_of_mem_keywordForms _ hf
  have hne : firstWord s ≠ [] := by
    intro he
    rw [show word = "" from String.toList_inj.1 (h.symm.trans he)] at hkey
    exact absurd hkey (by decide)
  have hd : s.head? ≠ some '$' := by
    intro hd
    cases s with
    | nil => cases hd
    | cons c s =>
      cases hd
      exact hne rfl
  have hspeech : readSpeech? s = none := by
    refine readSpeech?_of_keyword ?_ hne
    rw [isKeyword, h, String.ofList_toList, List.contains_eq_mem, decide_eq_true_eq]
    exact hkey
  rw [read?_of_head? hd, findSome?_keywordForms hf h, hspeech, Option.map_none, Option.or_none]

/-- A line that is read as text is read as no other form. -/
theorem read?_of_readSpeech? {s : List Char} {t : Statement} (h : readSpeech? s = some t) :
    read? s = some (statement t) := by
  have hfirst : isKeyword (firstWord s) = false ∧ s.head? ≠ some '$' := by
    obtain ⟨text, -, ⟨hw, hq, -⟩ | ⟨hname, hk, -⟩⟩ := readSpeech?_eq_some h
    · rw [hw, hq]
      exact ⟨rfl, by simp⟩
    · refine ⟨hk, fun hd => ?_⟩
      cases s with
      | nil => cases hd
      | cons c s =>
        cases hd
        exact hname.1 rfl
  rw [read?_of_not_keyword hfirst.1 hfirst.2, h]
  rfl

end Line

end NovelScript
