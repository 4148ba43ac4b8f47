import NovelScript.Proofs.Forms

/-!
# Lines that hold quoted text

Four forms of lines hold text between quotes: narration, speech behind the name of its speaker, the
head of a choice, and the definition of a member of the cast with its name. `QuotedForm.Captures`
says of a line, without reading it, what may stand before the opening quote, between the quotes and
behind the closing one. The readers give a text of just these lines, the one between the quotes
(`QuotedForm.text?_eq_some_iff`). `QuotedForm.captures_escape`: where a text was escaped and put
between double quotes, it is what stands between the quotes, in no other way, whatever follows.
-/

set_option autoImplicit false

namespace NovelScript

namespace Text

/-- Blanks, if any. -/
def IsBlanks (s : List Char) : Prop := ∀ c ∈ s, isBlank c = true

/-- Some blanks. -/
def IsGap (s : List Char) : Prop := s ≠ [] ∧ IsBlanks s

instance (s : List Char) : Decidable (IsBlanks s) :=
  decidable_of_iff (s.all isBlank = true) (by simp [IsBlanks])

instance (s : List Char) : Decidable (IsGap s) := inferInstanceAs (Decidable (_ ∧ _))

theorem IsBlanks.isWord_head {a : List Char} (h : IsBlanks a) {c : Char} (hc : isWord c = false)
    (r : List Char) : ∀ d ∈ (a ++ c :: r).head?, isWord d = false := by
  cases a with
  | nil => simpa using hc
  | cons b a => simpa using isWord_of_isBlank (h b (.head _))

end Text

namespace Line

open Text

/-! ## Forms -/

/-- The forms of lines that hold quoted text. -/
inductive QuotedForm where
  | narration
  | speech
  | choice
  | castName
  deriving DecidableEq, Repr

/-- A condition with blanks around it. -/
def IsTest (s : List Char) : Prop :=
  ∃ a test b, IsGap a ∧ test ≠ [] ∧ '\n' ∉ test ∧ IsBlanks b ∧ s = a ++ (test ++ b)

/-- What may stand between the closing quote of a choice and its colon: blanks, or `if` and a
condition. -/
inductive IsGuard : List Char → Prop
  | blanks {a : List Char} (ha : IsBlanks a) : IsGuard a
  | test {a s : List Char} (ha : IsGap a) (hs : IsTest s) : IsGuard (a ++ ("if".toList ++ s))

namespace QuotedForm

/-- The quotes that the text of a form may stand between. -/
def quotes : QuotedForm → List Char
  | castName => ['"', '\'']
  | _ => ['"']

/-- What may stand before the opening quote. -/
inductive Opens : QuotedForm → List Char → Prop
  | narration : Opens narration []
  | speech {speaker gap : List Char} (hspeaker : IsName speaker) (hgap : IsGap gap) :
    Opens speech (speaker ++ gap)
  | choice : Opens choice []
  | castName {gap id a b c d : List Char} (hgap : IsGap gap) (hid : IsName id) (ha : IsBlanks a)
    (hb : IsBlanks b) (hc : IsBlanks c) (hd : IsBlanks d) :
    Opens castName ("define".toList ++ (gap ++ (id ++ (a ++ '=' ::
      (b ++ ("Character".toList ++ (c ++ '(' :: d)))))))

/-- What may stand behind the closing quote. -/
inductive Closes : QuotedForm → List Char → Prop
  | narration (r : List Char) : Closes narration r
  | speech (r : List Char) : Closes speech r
  | choice {guard a : List Char} (hguard : IsGuard guard) (ha : IsBlanks a) :
    Closes choice (guard ++ ':' :: a)
  | castName {options : List Char} (h : '\n' ∉ options) (r : List Char) :
    Closes castName (options ++ ')' :: r)

/-- Whether a line has the form, with `body` between quotes `q`. -/
def Captures (f : QuotedForm) (line : List Char) (q : Char) (body : List Char) : Prop :=
  ∃ before rest, f.Opens before ∧ q ∈ f.quotes ∧ Quoted.Body q body ∧ f.Closes rest ∧
    line = before ++ q :: (body ++ q :: rest)

/-- The text that is read of a line of the form. -/
def text? : QuotedForm → List Char → Option String
  | narration, line =>
    match readSpeech? line with
    | some (.dialogue text none) => some text
    | _ => none
  | speech, line =>
    match readSpeech? line with
    | some (.dialogue text (some _)) => some text
    | _ => none
  | choice, line => (readChoice? line).map (·.1)
  | castName, line =>
    match readDefine? line with
    | some (define c) => some c.name
    | _ => none

end QuotedForm

/-! ## Pieces -/

theorem ne_backslash_of_quote {q : Char} (hq : q ∈ ['"', '\'']) : q ≠ '\\' := by
  rcases List.mem_pair.1 hq with rfl | rfl <;> decide

theorem isWord_of_quote {q : Char} (hq : q ∈ ['"', '\'']) : isWord q = false := by
  rcases List.mem_pair.1 hq with rfl | rfl <;> rfl

theorem isBlank_of_quote {q : Char} (hq : q ∈ ['"', '\'']) : isBlank q = false := by
  rcases List.mem_pair.1 hq with rfl | rfl <;> rfl

section
variable {s body rest : List Char}

theorem quotedText?_eq_some_iff :
    quotedText? s = some (body, rest) ↔
      Quoted.Body '"' body ∧ s = '"' :: (body ++ '"' :: rest) := by
  rw [quotedText?, Option.bind_eq_bind, Option.bind_eq_some_iff]
  constructor
  · rintro ⟨u, hu, h⟩
    obtain ⟨hbody, rfl⟩ := (Quoted.split?_eq_some_iff (by decide)).1 h
    exact ⟨hbody, after?_eq_some_iff.1 hu⟩
  · rintro ⟨hbody, rfl⟩
    exact ⟨_, rfl, (Quoted.split?_eq_some_iff (by decide)).2 ⟨hbody, rfl⟩⟩

/-- What is left of a text starts behind its blanks. -/
theorem exists_blanks_append_trimStart (s : List Char) :
    ∃ a, IsBlanks a ∧ s = a ++ trimStart s :=
  ⟨s.takeWhile isBlank, fun c hc => List.all_eq_true.1 List.all_takeWhile c hc,
    List.takeWhile_append_dropWhile.symm⟩

theorem exists_gap_of_afterBlanks? {r : List Char} (h : afterBlanks? s = some r) :
    ∃ a, IsGap a ∧ s = a ++ r := by
  obtain ⟨b, t, rfl, hb, rfl⟩ := afterBlanks?_eq_some h
  obtain ⟨a, ha, ht⟩ := exists_blanks_append_trimStart t
  exact ⟨b :: a, ⟨List.cons_ne_nil b a, List.forall_mem_cons.2 ⟨hb, ha⟩⟩,
    by rw [List.cons_append, ← ht]⟩

theorem exists_blanks_of_afterSign? {c : Char} {r : List Char} (h : afterSign? c s = some r) :
    ∃ a, IsBlanks a ∧ s = a ++ c :: r := by
  rw [← afterSign?_eq_some h]
  exact exists_blanks_append_trimStart s

theorem afterSign?_append {c : Char} {a : List Char} (ha : IsBlanks a) (hc : isBlank c = false)
    (r : List Char) : afterSign? c (a ++ c :: r) = some r := by
  rw [afterSign?, trimStart_append_blanks ha, trimStart_cons hc]
  simp

end

/-! ## Guards -/

theorem exists_trimEnd_append_blanks (s : List Char) : ∃ a, IsBlanks a ∧ s = trimEnd s ++ a := by
  obtain ⟨a, ha, hs⟩ := exists_blanks_append_trimStart s.reverse
  refine ⟨a.reverse, fun c hc => ha c (List.mem_reverse.1 hc), ?_⟩
  have hend : trimEnd s = (trimStart s.reverse).reverse := rfl
  rw [hend, ← List.reverse_append, ← hs, List.reverse_reverse]

theorem trim_append_blanks_subset {s a : List Char} (ha : IsBlanks a) : trim (s ++ a) ⊆ s := by
  unfold trim trimStart
  rw [List.dropWhile_append]
  split
  · rw [List.dropWhile_eq_nil_iff.2 ha]
    exact List.nil_subset s
  · rw [trimEnd_append_blanks ha]
    exact trim_subset s

/-- Behind its first blank a condition is what is left of the text when it is trimmed, or one of its
blanks when none is left. -/
theorem isTest_cons_iff {b : Char} {t : List Char} : IsTest (b :: t) ↔
    isBlank b = true ∧ if trimStart t = [] then ∃ c ∈ t, c ≠ '\n' else '\n' ∉ trim t := by
  constructor
  · rintro ⟨a, test, c, ⟨hne, ha⟩, htest, hn, hc, hs⟩
    cases a with
    | nil => exact absurd rfl hne
    | cons b' a =>
      obtain ⟨rfl, rfl⟩ : b = b' ∧ t = a ++ (test ++ c) := by simpa using hs
      refine ⟨ha b (.head _), ?_⟩
      split
      · obtain ⟨d, hd⟩ := List.exists_mem_of_ne_nil test htest
        exact ⟨d, by simp [hd], fun h => hn (h ▸ hd)⟩
      · rw [trim_append_blanks fun c hc => ha c (.tail _ hc)]
        exact fun h => hn (trim_append_blanks_subset hc h)
  · rintro ⟨hb, h⟩
    split at h
    · rename_i hblank
      obtain ⟨c, hc, hn⟩ := h
      obtain ⟨u, v, rfl⟩ := List.append_of_mem hc
      have hall := trimStart_eq_nil_iff.1 hblank
      have hu : IsBlanks (b :: u) := List.forall_mem_cons.2 ⟨hb, fun d hd => hall d (by simp [hd])⟩
      have hv : IsBlanks v := fun d hd => hall d (by simp [hd])
      exact ⟨b :: u, [c], v, ⟨List.cons_ne_nil b u, hu⟩, List.cons_ne_nil c [],
        by simpa using hn.symm, hv, rfl⟩
    · rename_i hne
      obtain ⟨u, hu, ht⟩ := exists_blanks_append_trimStart t
      obtain ⟨v, hv, hs⟩ := exists_trimEnd_append_blanks (trimStart t)
      refine ⟨b :: u, trim t, v, ⟨List.cons_ne_nil b u, List.forall_mem_cons.2 ⟨hb, hu⟩⟩, ?_, h, hv,
        ?_⟩
      · intro he
        have hstart : trimStart (trimStart t) = trimStart t := List.dropWhile_idempotent _ _
        rw [← hstart] at hne
        exact hne (trimStart_eq_nil_iff.2 (trimEnd_eq_nil_iff.1 he))
      · rw [trim, ← hs, List.cons_append, ← ht]

theorem isSome_readCondition?_append {a t : List Char} (ha : IsGap a) :
    (readCondition? (a ++ ("if".toList ++ t))).isSome ↔ IsTest t := by
  have hstart : trimStart ("if".toList ++ t) = "if".toList ++ t := trimStart_token (by decide) t
  have hne : trimStart (a ++ ("if".toList ++ t)) ≠ [] := by
    rw [trimStart_append_blanks ha.2, hstart]
    exact List.cons_ne_nil _ _
  rw [readCondition?, if_neg hne]
  simp only [afterBlanks?_append ha.1 ha.2 hstart, after?_append, Option.bind_eq_bind,
    Option.bind_some]
  cases t with
  | nil => simp [afterBlanks?, IsTest, IsGap]
  | cons b t =>
    rw [isTest_cons_iff, afterBlanks?]
    by_cases hb : isBlank b = true
    · rw [if_pos hb, Option.bind_some]
      simp only [hb, true_and]
      split
      · generalize hfind : ((b :: t).drop 1).reverse.find? (· ≠ '\n') = found
        have hfound : found.isSome ↔ ∃ c ∈ t, c ≠ '\n' := by
          rw [← hfind, List.find?_isSome]
          simp
        rw [← hfound]
        cases found <;> exact Iff.rfl
      · by_cases hn : '\n' ∈ trimEnd (trimStart t) <;> simp [trim, hn]
    · simp [hb]

/-- **A guard** is what is read between the closing quote of a choice and its colon. -/
theorem isSome_readCondition?_iff {s : List Char} : (readCondition? s).isSome ↔ IsGuard s := by
  constructor
  · intro h
    by_cases hs : trimStart s = []
    · exact .blanks (trimStart_eq_nil_iff.1 hs)
    · have hread := h
      rw [readCondition?, if_neg hs] at hread
      obtain ⟨found, hread⟩ := Option.isSome_iff_exists.1 hread
      simp only [Option.bind_eq_bind, Option.bind_eq_some_iff] at hread
      obtain ⟨u, hu, t, ht, -⟩ := hread
      obtain ⟨a, ha, rfl⟩ := exists_gap_of_afterBlanks? hu
      rw [after?_eq_some_iff.1 ht] at h ⊢
      exact .test ha ((isSome_readCondition?_append ha).1 h)
  · intro h
    cases h with
    | blanks ha =>
      rw [readCondition?, if_pos (trimStart_eq_nil_iff.2 ha)]
      rfl
    | test ha hs => exact (isSome_readCondition?_append ha).2 hs

/-! ## Readers -/

section
variable {s : List Char} {text : String}

theorem readSpeech?_of_splitWord? {w r : List Char} (h : splitWord? s = some (w, r)) :
    readSpeech? s = if isKeyword w then none else ((afterBlanks? r).bind quotedText?).map fun t =>
      .dialogue (String.ofList (Quoted.unescape t.1)) (some (String.ofList w)) := by
  simp only [readSpeech?, h, Option.bind_eq_bind]
  cases afterBlanks? r with
  | none => simp
  | some u => cases hq : quotedText? u <;> by_cases hk : isKeyword w = true <;> simp [hq, hk]

theorem readSpeech?_of_splitWord?_eq_none (h : splitWord? s = none) :
    readSpeech? s = (quotedText? s).map fun t =>
      .dialogue (String.ofList (Quoted.unescape t.1)) none := by
  simp only [readSpeech?, h, Option.bind_eq_bind, Option.map_eq_bind]
  rfl

/-- **Narration** is quoted text at the start of a line. -/
theorem readSpeech?_narration_iff : readSpeech? s = some (.dialogue text none) ↔
    ∃ body rest, Quoted.Body '"' body ∧ s = '"' :: (body ++ '"' :: rest) ∧
      text = String.ofList (Quoted.unescape body) := by
  constructor
  · intro h
    cases hw : splitWord? s with
    | some found =>
      rw [readSpeech?_of_splitWord? hw] at h
      split at h
      · cases h
      · obtain ⟨_, -, h⟩ := Option.map_eq_some_iff.1 h
        cases h
    | none =>
      rw [readSpeech?_of_splitWord?_eq_none hw, Option.map_eq_some_iff] at h
      obtain ⟨⟨body, rest⟩, hq, h⟩ := h
      cases h
      obtain ⟨hbody, rfl⟩ := quotedText?_eq_some_iff.1 hq
      exact ⟨body, rest, hbody, rfl, rfl⟩
  · rintro ⟨body, rest, hbody, rfl, rfl⟩
    rw [readSpeech?_of_splitWord?_eq_none (splitWord?_eq_none rfl),
      quotedText?_eq_some_iff.2 ⟨hbody, rfl⟩]
    rfl

/-- **Speech** is quoted text behind a name that is no keyword. -/
theorem readSpeech?_speech_iff {speaker : String} :
    readSpeech? s = some (.dialogue text (some speaker)) ↔
      ∃ name gap body rest, IsName name ∧ isKeyword name = false ∧ IsGap gap ∧
        Quoted.Body '"' body ∧ s = name ++ (gap ++ '"' :: (body ++ '"' :: rest)) ∧
        text = String.ofList (Quoted.unescape body) ∧ speaker = String.ofList name := by
  constructor
  · intro h
    cases hw : splitWord? s with
    | none =>
      rw [readSpeech?_of_splitWord?_eq_none hw] at h
      simp at h
    | some found =>
      obtain ⟨name, r⟩ := found
      rw [readSpeech?_of_splitWord? hw] at h
      split at h
      · cases h
      · rename_i hk
        obtain ⟨⟨body, rest⟩, hbind, h⟩ := Option.map_eq_some_iff.1 h
        cases h
        obtain ⟨u, hu, hq⟩ := Option.bind_eq_some_iff.1 hbind
        obtain ⟨hname, rfl, -⟩ := splitWord?_eq_some hw
        obtain ⟨gap, hgap, rfl⟩ := exists_gap_of_afterBlanks? hu
        obtain ⟨hbody, rfl⟩ := quotedText?_eq_some_iff.1 hq
        exact ⟨name, gap, body, rest, hname, by simpa using hk, hgap, hbody, rfl, rfl, rfl⟩
  · rintro ⟨name, gap, body, rest, hname, hk, hgap, hbody, rfl, rfl, rfl⟩
    have hw := splitWord?_append (r := gap ++ '"' :: (body ++ '"' :: rest)) hname
      (hgap.2.isWord_head (by decide) _)
    rw [readSpeech?_of_splitWord? hw, hk, if_neg Bool.false_ne_true,
      afterBlanks?_append hgap.1 hgap.2 (trimStart_cons rfl), Option.bind_some,
      quotedText?_eq_some_iff.2 ⟨hbody, rfl⟩]
    rfl

/-- **The head of a choice** is quoted text with a guard and a colon behind it. -/
theorem readChoice?_iff : (readChoice? s).map (·.1) = some text ↔
    ∃ body guard, Quoted.Body '"' body ∧ IsGuard guard ∧
      s = '"' :: (body ++ '"' :: (guard ++ [':'])) ∧
      text = String.ofList (Quoted.unescape body) := by
  constructor
  · intro h
    obtain ⟨⟨_, condition⟩, hread, rfl⟩ := Option.map_eq_some_iff.1 h
    simp only [readChoice?, Option.bind_eq_bind, Option.bind_eq_some_iff] at hread
    obtain ⟨⟨body, rest⟩, hq, hread⟩ := hread
    obtain ⟨hbody, rfl⟩ := quotedText?_eq_some_iff.1 hq
    dsimp only at hread
    split at hread
    · cases hread
    · rename_i c before hrest
      split at hread
      · rename_i hc
        obtain ⟨found, hfound, hread⟩ := Option.bind_eq_some_iff.1 hread
        cases hread
        have hguard := isSome_readCondition?_iff.1 (by rw [hfound]; rfl)
        refine ⟨body, before.reverse, hbody, hguard, ?_, rfl⟩
        rw [← hc, ← List.reverse_cons, ← hrest, List.reverse_reverse]
      · cases hread
  · rintro ⟨body, guard, hbody, hguard, rfl, rfl⟩
    obtain ⟨found, hfound⟩ := Option.isSome_iff_exists.1 (isSome_readCondition?_iff.2 hguard)
    simp [readChoice?, quotedText?_eq_some_iff.2 ⟨hbody, rfl⟩, hfound]

theorem splitQuote?_eq_some_iff {q : Char} {r : List Char} :
    splitQuote? s = some (q, r) ↔ q ∈ ['"', '\''] ∧ s = q :: r := by
  constructor
  · intro h
    obtain rfl := splitQuote?_eq_some h
    refine ⟨?_, rfl⟩
    by_contra hq
    simp only [List.mem_cons, List.not_mem_nil, or_false] at hq
    simp [splitQuote?, hq] at h
  · rintro ⟨hq, rfl⟩
    simp only [List.mem_cons, List.not_mem_nil, or_false] at hq
    simp [splitQuote?, hq]

/-- Options of a definition are closed by a parenthesis in the same line. -/
theorem contains_upToBreak_iff : (upToBreak s).contains ')' ↔
    ∃ options rest, '\n' ∉ options ∧ s = options ++ ')' :: rest := by
  rw [List.contains_iff_mem]
  constructor
  · intro h
    obtain ⟨options, r, hsplit⟩ := List.append_of_mem h
    refine ⟨options, r ++ s.dropWhile (· != '\n'), fun hn => ?_, ?_⟩
    · have hbreak : '\n' ∈ upToBreak s := by
        rw [hsplit]
        exact List.mem_append_left _ hn
      simpa using List.mem_takeWhile_imp hbreak
    · rw [← List.cons_append, ← List.append_assoc, ← hsplit, upToBreak,
        List.takeWhile_append_dropWhile]
  · rintro ⟨options, rest, hn, rfl⟩
    have hplain : ∀ c ∈ options, (c != '\n') = true := by
      intro c hc
      rw [bne_iff_ne]
      rintro rfl
      exact hn hc
    rw [upToBreak, List.takeWhile_append_of_pos hplain]
    simp

/-- What is read of a definition whose name is quoted, by what stands behind the name. -/
theorem readDefine?_append {gap id a b c d body : List Char} {q : Char} (hgap : IsGap gap)
    (hid : IsName id) (ha : IsBlanks a) (hb : IsBlanks b) (hc : IsBlanks c) (hd : IsBlanks d)
    (hq : q ∈ ['"', '\'']) (hbody : Quoted.Body q body) (tail : List Char) :
    readDefine? ("define".toList ++ (gap ++ (id ++ (a ++ '=' :: (b ++ ("Character".toList ++
      (c ++ '(' :: (d ++ q :: (body ++ q :: tail))))))))) =
        if (upToBreak tail).contains ')' then
          some (define
            { id := String.ofList id
              name := String.ofList (Quoted.unescape body)
              color := (readDefine?.color? none
                (((upToBreak tail).reverse.dropWhile (· != ')')).drop 1).reverse).map
                  String.ofList })
        else none := by
  have hname := hbody.split?_append (ne_backslash_of_quote hq) tail
  have hquote : splitQuote? (trimStart (d ++ q :: (body ++ q :: tail))) =
      some (q, body ++ q :: tail) := by
    rw [trimStart_append_blanks hd, trimStart_cons (isBlank_of_quote hq)]
    exact splitQuote?_eq_some_iff.2 ⟨hq, rfl⟩
  generalize d ++ q :: (body ++ q :: tail) = quoted at hquote ⊢
  have hcall : after? "Character".toList
      (trimStart (b ++ ("Character".toList ++ (c ++ '(' :: quoted)))) =
        some (c ++ '(' :: quoted) := by
    rw [trimStart_append_blanks hb, trimStart_token (by decide), after?_append]
  have hparen := afterSign?_append hc (c := '(') rfl quoted
  have hsign := afterSign?_append ha (c := '=') rfl
    (b ++ ("Character".toList ++ (c ++ '(' :: quoted)))
  generalize b ++ ("Character".toList ++ (c ++ '(' :: quoted)) = call at hcall hsign ⊢
  have hword := splitWord?_append hid (ha.isWord_head (c := '=') (by decide) call)
  have hkeyword : afterKeyword? "define"
      ("define".toList ++ (gap ++ (id ++ (a ++ '=' :: call)))) =
        some (id ++ (a ++ '=' :: call)) := by
    rw [afterKeyword?, after?_append, Option.bind_some,
      afterBlanks?_append hgap.1 hgap.2 (trimStart_token hid.isToken _)]
  simp only [readDefine?, hkeyword, Option.bind_eq_bind, Option.bind_some, hword, hsign, hcall,
    hparen, hquote, hname]

/-- **The definition of a member of the cast** has its name quoted behind what opens it, and a
closing parenthesis further on in the line. -/
theorem exists_readDefine?_iff : (∃ c, readDefine? s = some (define c) ∧ c.name = text) ↔
    ∃ gap id a b c d q body options rest, IsGap gap ∧ IsName id ∧ IsBlanks a ∧ IsBlanks b ∧
      IsBlanks c ∧ IsBlanks d ∧ q ∈ ['"', '\''] ∧ Quoted.Body q body ∧ '\n' ∉ options ∧
      s = "define".toList ++ (gap ++ (id ++ (a ++ '=' :: (b ++ ("Character".toList ++
        (c ++ '(' :: (d ++ q :: (body ++ q :: (options ++ ')' :: rest))))))))) ∧
      text = String.ofList (Quoted.unescape body) := by
  constructor
  · rintro ⟨member, h, rfl⟩
    simp only [readDefine?, Option.bind_eq_bind, Option.bind_eq_some_iff] at h
    obtain ⟨s1, h1, ⟨id, s2⟩, h2, s3, h3, s4, h4, s5, h5, ⟨q, s6⟩, h6, ⟨body, s7⟩, h7, h⟩ := h
    dsimp only at h
    split at h
    · rename_i hclosed
      cases h
      obtain ⟨s0, h0, h1⟩ := Option.bind_eq_some_iff.1 h1
      obtain ⟨gap, hgap, rfl⟩ := exists_gap_of_afterBlanks? h1
      obtain ⟨hid, rfl, -⟩ := splitWord?_eq_some h2
      obtain ⟨a, ha, rfl⟩ := exists_blanks_of_afterSign? h3
      obtain ⟨b, hb, hb'⟩ := exists_blanks_append_trimStart s3
      obtain ⟨c, hc, rfl⟩ := exists_blanks_of_afterSign? h5
      obtain ⟨d, hd, hd'⟩ := exists_blanks_append_trimStart s5
      obtain ⟨hq, hs5⟩ := splitQuote?_eq_some_iff.1 h6
      obtain ⟨hbody, rfl⟩ := (Quoted.split?_eq_some_iff (ne_backslash_of_quote hq)).1 h7
      obtain ⟨options, rest, hn, rfl⟩ := contains_upToBreak_iff.1 hclosed
      refine ⟨gap, id, a, b, c, d, q, body, options, rest, hgap, hid, ha, hb, hc, hd, hq, hbody, hn,
        ?_, rfl⟩
      rw [after?_eq_some_iff.1 h0, hb', after?_eq_some_iff.1 h4, hd', hs5]
    · cases h
  · rintro ⟨gap, id, a, b, c, d, q, body, options, rest, hgap, hid, ha, hb, hc, hd, hq, hbody, hn,
      rfl, rfl⟩
    rw [readDefine?_append hgap hid ha hb hc hd hq hbody,
      if_pos (contains_upToBreak_iff.2 ⟨options, rest, hn, rfl⟩)]
    exact ⟨_, rfl, rfl⟩

end

/-! ## The texts of the forms -/

namespace QuotedForm

variable {f : QuotedForm} {line before body r : List Char} {q : Char} {text : String}

theorem narration_text?_iff :
    narration.text? line = some text ↔ readSpeech? line = some (.dialogue text none) := by
  rw [text?]
  split <;> simp_all

theorem speech_text?_iff : speech.text? line = some text ↔
    ∃ speaker, readSpeech? line = some (.dialogue text (some speaker)) := by
  rw [text?]
  split <;> simp_all

theorem castName_text?_iff : castName.text? line = some text ↔
    ∃ c, readDefine? line = some (define c) ∧ c.name = text := by
  rw [text?]
  split <;> simp_all

theorem quotes_subset (f : QuotedForm) : f.quotes ⊆ ['"', '\''] := by
  cases f <;> decide

/-- The text that is read of a line is the one between its quotes. -/
theorem exists_captures_of_text? (h : f.text? line = some text) :
    ∃ q body, f.Captures line q body ∧ text = String.ofList (Quoted.unescape body) := by
  cases f with
  | narration =>
    obtain ⟨body, r, hbody, rfl, rfl⟩ := readSpeech?_narration_iff.1 (narration_text?_iff.1 h)
    exact ⟨'"', body, ⟨[], r, .narration, .head _, hbody, .narration r, rfl⟩, rfl⟩
  | speech =>
    obtain ⟨speaker, h⟩ := speech_text?_iff.1 h
    obtain ⟨name, gap, body, r, hname, -, hgap, hbody, rfl, rfl, -⟩ := readSpeech?_speech_iff.1 h
    exact ⟨'"', body, ⟨name ++ gap, r, .speech hname hgap, .head _, hbody, .speech r, by simp⟩, rfl⟩
  | choice =>
    obtain ⟨body, guard, hbody, hguard, rfl, rfl⟩ := readChoice?_iff.1 h
    exact ⟨'"', body, ⟨[], guard ++ [':'], .choice, .head _, hbody,
      .choice hguard (List.forall_mem_nil _), rfl⟩, rfl⟩
  | castName =>
    obtain ⟨gap, id, a, b, c, d, q, body, options, r, hgap, hid, ha, hb, hc, hd, hq, hbody, hn, rfl,
      rfl⟩ := exists_readDefine?_iff.1 (castName_text?_iff.1 h)
    exact ⟨q, body, ⟨_, options ++ ')' :: r, .castName hgap hid ha hb hc hd, hq, hbody,
      .castName hn r, by simp⟩, rfl⟩

/-- **Lines that hold quoted text** are those of which a text is read, the one between their quotes:
a choice ends with its colon, since lines are trimmed, and no keyword speaks. -/
theorem text?_eq_some_iff (hend : f = choice → ∀ c ∈ line.getLast?, isBlank c = false)
    (hword : f = speech → isKeyword (firstWord line) = false) :
    f.text? line = some text ↔
      ∃ q body, f.Captures line q body ∧ text = String.ofList (Quoted.unescape body) := by
  refine ⟨exists_captures_of_text?, ?_⟩
  rintro ⟨q, body, ⟨before, rest, hopens, hq, hbody, hcloses, rfl⟩, rfl⟩
  cases hopens with
  | narration =>
    obtain rfl := List.mem_singleton.1 hq
    exact narration_text?_iff.2 (readSpeech?_narration_iff.2 ⟨body, rest, hbody, rfl, rfl⟩)
  | speech hname hgap =>
    rename_i name gap
    obtain rfl := List.mem_singleton.1 hq
    have hfirst : firstWord (name ++ (gap ++ '"' :: (body ++ '"' :: rest))) = name :=
      takeWhile_append_of_name hname (hgap.2.isWord_head (by decide) _)
    have hk := hword rfl
    rw [List.append_assoc, hfirst] at hk
    exact speech_text?_iff.2 ⟨_, readSpeech?_speech_iff.2
      ⟨name, gap, body, rest, hname, hk, hgap, hbody, List.append_assoc _ _ _, rfl, rfl⟩⟩
  | choice =>
    obtain rfl := List.mem_singleton.1 hq
    cases hcloses with
    | choice hguard ha =>
      rename_i guard a
      have hnil : a = [] := by
        by_contra hne
        have hlast := hend rfl (a.getLast hne) (by
          simp [List.getLast?_cons, List.getLast?_append, List.getLast?_eq_some_getLast hne])
        rw [ha _ (List.getLast_mem hne)] at hlast
        cases hlast
      subst hnil
      exact readChoice?_iff.2 ⟨body, guard, hbody, hguard, rfl, rfl⟩
  | castName hgap hid ha hb hc hd =>
    cases hcloses with
    | castName hn r =>
      exact castName_text?_iff.2 (exists_readDefine?_iff.2
        ⟨_, _, _, _, _, _, q, body, _, r, hgap, hid, ha, hb, hc, hd, hq, hbody, hn, by simp, rfl⟩)

/-! ## The text of a line is settled -/

/-- No quote stands before the opening one. -/
theorem Opens.notMem_of_quote (h : f.Opens before) (hq : q ∈ ['"', '\'']) : q ∉ before := by
  have hname {w : List Char} (hw : IsName w) : q ∉ w :=
    fun hm => Bool.false_ne_true ((isWord_of_quote hq).symm.trans (hw.2 q hm))
  have hblanks {a : List Char} (ha : IsBlanks a) : q ∉ a :=
    fun hm => Bool.false_ne_true ((isBlank_of_quote hq).symm.trans (ha q hm))
  cases h with
  | narration => exact List.not_mem_nil
  | speech hspeaker hgap => exact List.mem_append.not.2 (not_or.2 ⟨hname hspeaker, hblanks hgap.2⟩)
  | choice => exact List.not_mem_nil
  | castName hgap hid ha hb hc hd =>
    simp only [List.mem_append, List.mem_cons, hblanks hgap.2, hname hid, hblanks ha, hblanks hb,
      hblanks hc, hblanks hd, false_or, or_false]
    rcases List.mem_pair.1 hq with rfl | rfl <;> decide

/-- Behind what opens a form, its text is the one that stands between the first two quotes, if what
follows closes the form. -/
theorem Opens.captures_iff (hopens : f.Opens before) (hq : q ∈ f.quotes)
    (hbody : Quoted.Body q body) {q' : Char} {body' : List Char} :
    f.Captures (before ++ q :: (body ++ q :: r)) q' body' ↔
      q' = q ∧ body' = body ∧ f.Closes r := by
  constructor
  · rintro ⟨before', rest, hopens', hq', hbody', hcloses, hline⟩
    -- The line is cut at its first quote in both ways, so the bodies start at one place.
    obtain ⟨-, rfl, hbodies⟩ := (append_cons_inj_of_first
      (hopens'.notMem_of_quote (f.quotes_subset hq))
      (hopens.notMem_of_quote (f.quotes_subset hq'))).1 hline
    have hescape := ne_backslash_of_quote (f.quotes_subset hq)
    have hsplit := hbody.split?_append hescape r
    rw [hbodies, hbody'.split?_append hescape rest] at hsplit
    cases hsplit
    exact ⟨rfl, rfl, hcloses⟩
  · rintro ⟨rfl, rfl, hcloses⟩
    exact ⟨before, r, hopens, hq, hbody, hcloses, rfl⟩

/-- **Escaping is undone by reading.** Unescaping gives back any text that was escaped. Where a text
without LF is escaped and put between double quotes behind what opens a form, the line has the form
if what follows closes it, with just that text and in no other way, and no other text is read of it.
At the start of a line it is always read, as narration. -/
theorem captures_escape (s : List Char) :
    Quoted.unescape (Quoted.escape s) = s ∧
    ('\n' ∉ s → ∀ r : List Char,
      (∀ (f : QuotedForm) (before : List Char), f.Opens before →
        (∀ q body, f.Captures (before ++ '"' :: (Quoted.escape s ++ '"' :: r)) q body ↔
          q = '"' ∧ body = Quoted.escape s ∧ f.Closes r) ∧
        ∀ text, f.text? (before ++ '"' :: (Quoted.escape s ++ '"' :: r)) = some text →
          text = String.ofList s) ∧
      narration.Captures ('"' :: (Quoted.escape s ++ '"' :: r)) '"' (Quoted.escape s) ∧
      narration.text? ('"' :: (Quoted.escape s ++ '"' :: r)) = some (String.ofList s)) := by
  refine ⟨Quoted.unescape_escape s, fun hn r => ?_⟩
  have hbody := Quoted.body_escape hn
  have hnarration : narration.Captures ('"' :: (Quoted.escape s ++ '"' :: r)) '"'
      (Quoted.escape s) :=
    ⟨[], r, .narration, .head _, hbody, .narration r, rfl⟩
  refine ⟨fun f before hopens => ?_, hnarration, ?_⟩
  · have hquote : '"' ∈ f.quotes := by cases f <;> exact .head _
    refine ⟨fun q body => hopens.captures_iff hquote hbody, fun text htext => ?_⟩
    obtain ⟨q, body, hcaptures, rfl⟩ := exists_captures_of_text? htext
    obtain ⟨-, rfl, -⟩ := (hopens.captures_iff hquote hbody).1 hcaptures
    rw [Quoted.unescape_escape]
  · exact (text?_eq_some_iff (f := narration) nofun nofun).2
      ⟨'"', Quoted.escape s, hnarration, by rw [Quoted.unescape_escape]⟩

/-- Backslashes before each other, before a quote and at the end, in a choice with quotes in its
condition and in a name with quotes in its options. -/
theorem captures_escape_backslashes :
    '\n' ∉ "\\\\\"\\".toList ∧
    choice.Opens [] ∧
    choice.text? ('"' :: (Quoted.escape "\\\\\"\\".toList ++ '"' :: " if a == \"b\" :".toList)) =
      some "\\\\\"\\" ∧
    castName.Opens "define e = Character(".toList ∧
    castName.Captures ("define e = Character(".toList ++
      '"' :: (Quoted.escape "\\\\\"\\".toList ++ '"' :: ", color=\"#fff\")".toList))
      '"' (Quoted.escape "\\\\\"\\".toList) := by
  have hn : '\n' ∉ "\\\\\"\\".toList := by decide
  have hdefine : castName.Opens ("define".toList ++ ([' '] ++ (['e'] ++ ([' '] ++ '=' ::
      ([' '] ++ ("Character".toList ++ ([] ++ '(' :: []))))))) :=
    .castName (by decide) (by decide) (by decide) (by decide) (by decide) (by decide)
  refine ⟨hn, .choice, ?_, hdefine, ?_⟩
  · obtain ⟨text, htext⟩ : ∃ text, choice.text? ([] ++ '"' :: (Quoted.escape "\\\\\"\\".toList ++
        '"' :: " if a == \"b\" :".toList)) = some text :=
      Option.isSome_iff_exists.1 (by decide)
    have heq := (((captures_escape _).2 hn _).1 choice [] .choice).2 text htext
    rw [heq, String.ofList_toList] at htext
    exact htext
  · have hcloses : castName.Closes (", color=\"#fff\"".toList ++ ')' :: []) :=
      .castName (by decide) []
    exact ((((captures_escape _).2 hn _).1 castName _ hdefine).1 _ _).2 ⟨rfl, rfl, hcloses⟩

end QuotedForm

end Line

end NovelScript
