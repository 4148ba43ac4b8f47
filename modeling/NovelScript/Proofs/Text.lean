import Mathlib.Data.List.DropRight
import NovelScript.Text.Lines
import NovelScript.Text.Word

/-!
# Facts about trimming, words and lines

The classes of characters exclude each other where reading relies on it: a line break is a blank
(`isBlank_of_isLineBreak`), and a blank is neither a word character nor a digit
(`isWord_of_isBlank`, `digitValue?_of_isBlank`). A text is trimmed when neither its first nor its
last character is a blank (`trim_eq_self_iff`); `words` and `join` undo each other on tokens
(`words_join`), `lines` and `join` on lines without a break (`lines_join`).
-/

set_option autoImplicit false

namespace NovelScript.Text

/-! ## Classes of characters -/

theorem isBlank_of_isLineBreak {c : Char} (h : isLineBreak c = true) : isBlank c = true := by
  simp only [isLineBreak, isBlank, Bool.or_eq_true, Bool.and_eq_true, decide_eq_true_eq,
    beq_iff_eq] at h ⊢
  omega

theorem isLineBreak_of_not_isBlank {c : Char} (h : isBlank c = false) : isLineBreak c = false := by
  cases hb : isLineBreak c with
  | false => rfl
  | true => rw [isBlank_of_isLineBreak hb] at h; cases h

/-- The code points of the blanks. -/
def blankCodes : List Nat :=
  List.range' 0x09 5 ++ List.range' 0x1C 5 ++ [0x85, 0xA0, 0x1680] ++ List.range' 0x2000 11 ++
    [0x2028, 0x2029, 0x202F, 0x205F, 0x3000]

theorem mem_blankCodes {c : Char} (h : isBlank c = true) : c.toNat ∈ blankCodes := by
  simp only [isBlank, Bool.or_eq_true, Bool.and_eq_true, decide_eq_true_eq, beq_iff_eq] at h
  simp only [blankCodes, List.mem_append, List.mem_range'_1, List.mem_cons, List.not_mem_nil,
    or_false]
  omega

/-- A property of characters that every blank has. -/
theorem of_isBlank {P : Char → Prop} (h : ∀ n ∈ blankCodes, P (Char.ofNat n)) {c : Char}
    (hc : isBlank c = true) : P c := by
  have := h c.toNat (mem_blankCodes hc)
  rwa [Char.ofNat_toNat] at this

theorem isWord_of_isBlank {c : Char} (h : isBlank c = true) : isWord c = false :=
  of_isBlank (P := fun c => isWord c = false) (by decide +kernel) h

theorem digitValue?_of_isBlank {c : Char} (h : isBlank c = true) : digitValue? c = none :=
  of_isBlank (P := fun c => digitValue? c = none) (by decide +kernel) h

theorem isBlank_of_isWord {c : Char} (h : isWord c = true) : isBlank c = false := by
  cases hb : isBlank c with
  | false => rfl
  | true => rw [isWord_of_isBlank hb] at h; cases h

/-! ## Trimming -/

@[simp] theorem trimStart_nil : trimStart [] = [] := rfl

theorem trimStart_cons {c : Char} {r : List Char} (h : isBlank c = false) :
    trimStart (c :: r) = c :: r := by
  simp [trimStart, h]

theorem trimStart_append_blanks {b s : List Char} (h : ∀ c ∈ b, isBlank c = true) :
    trimStart (b ++ s) = trimStart s :=
  List.dropWhile_append_of_pos h

theorem trimStart_eq_nil_iff {s : List Char} : trimStart s = [] ↔ ∀ c ∈ s, isBlank c = true :=
  List.dropWhile_eq_nil_iff

theorem trimStart_suffix (s : List Char) : trimStart s <:+ s := List.dropWhile_suffix _

/-- What is left of a text starts with no blank. -/
theorem isBlank_of_trimStart_eq_cons {s : List Char} {c : Char} {r : List Char}
    (h : trimStart s = c :: r) : isBlank c = false := by
  have := List.head?_dropWhile_not isBlank s
  rw [show s.dropWhile isBlank = c :: r from h] at this
  simpa using this

theorem trimEnd_eq (s : List Char) : trimEnd s = s.rdropWhile isBlank := rfl

@[simp] theorem trimEnd_nil : trimEnd [] = [] := rfl

theorem trimEnd_append_blanks {b s : List Char} (h : ∀ c ∈ b, isBlank c = true) :
    trimEnd (s ++ b) = trimEnd s := by
  unfold trimEnd
  rw [List.reverse_append, List.dropWhile_append_of_pos (by simpa using h)]

theorem trimEnd_isPrefix (s : List Char) : trimEnd s <+: s := List.rdropWhile_prefix _ s

theorem trimEnd_eq_nil_iff {s : List Char} : trimEnd s = [] ↔ ∀ c ∈ s, isBlank c = true :=
  List.rdropWhile_eq_nil_iff

/-- A text without a blank at its end is left as it is. -/
theorem trimEnd_eq_self_iff {s : List Char} :
    trimEnd s = s ↔ ∀ c ∈ s.getLast?, isBlank c = false := by
  rcases List.eq_nil_or_concat s with rfl | ⟨r, c, rfl⟩
  · simp
  · rw [trimEnd_eq, List.rdropWhile_eq_self_iff]
    simp

theorem trimStart_eq_self_iff {s : List Char} :
    trimStart s = s ↔ ∀ c ∈ s.head?, isBlank c = false := by
  cases s with
  | nil => simp
  | cons c r =>
    simp only [List.head?_cons, Option.mem_some_iff, forall_eq']
    constructor
    · exact isBlank_of_trimStart_eq_cons
    · exact trimStart_cons

/-- Trimming the end opens no blank at the start. -/
theorem isBlank_head_trimEnd {s : List Char} (h : ∀ c ∈ s.head?, isBlank c = false) :
    ∀ c ∈ (trimEnd s).head?, isBlank c = false := by
  intro c hc
  obtain ⟨r, hr⟩ := trimEnd_isPrefix s
  apply h
  cases ht : trimEnd s with
  | nil => rw [ht] at hc; cases hc
  | cons d u =>
    rw [ht] at hc hr
    rw [← hr]
    exact hc

/-- **A text is trimmed** when it has no blank at either end. -/
theorem trim_eq_self_iff {s : List Char} :
    trim s = s ↔ (∀ c ∈ s.head?, isBlank c = false) ∧ ∀ c ∈ s.getLast?, isBlank c = false := by
  constructor
  · intro h
    have hs : trimStart s = s := by
      apply List.IsSuffix.eq_of_length_le (trimStart_suffix s)
      have h1 := (trimEnd_isPrefix (trimStart s)).length_le
      rw [show trimEnd (trimStart s) = s from h] at h1
      exact h1
    refine ⟨trimStart_eq_self_iff.1 hs, trimEnd_eq_self_iff.1 ?_⟩
    unfold trim at h
    rwa [hs] at h
  · rintro ⟨h1, h2⟩
    unfold trim
    rw [trimStart_eq_self_iff.2 h1, trimEnd_eq_self_iff.2 h2]

theorem trim_trim (s : List Char) : trim (trim s) = trim s := by
  rw [trim_eq_self_iff]
  refine ⟨isBlank_head_trimEnd fun c hc => ?_, ?_⟩
  · cases ht : trimStart s with
    | nil => rw [ht] at hc; cases hc
    | cons d r =>
      rw [ht] at hc
      cases hc
      exact isBlank_of_trimStart_eq_cons ht
  · rw [← trimEnd_eq_self_iff]
    exact List.rdropWhile_idempotent _ _

theorem trim_append_blanks {b s : List Char} (h : ∀ c ∈ b, isBlank c = true) :
    trim (b ++ s) = trim s := by
  unfold trim
  rw [trimStart_append_blanks h]

theorem trim_subset (s : List Char) : trim s ⊆ s := fun _ h =>
  (trimStart_suffix s).subset ((trimEnd_isPrefix _).subset h)

theorem mem_dropWhile {α : Type} {p : α → Bool} {a : α} : ∀ {as : List α}, a ∈ as → p a = false →
    a ∈ as.dropWhile p
  | b :: as, h, ha => by
    rw [List.dropWhile_cons]
    split
    · rename_i hb
      rcases List.mem_cons.1 h with rfl | h
      · rw [hb] at ha
        cases ha
      · exact mem_dropWhile h ha
    · exact h

/-- Trimming takes away blanks only. -/
theorem mem_trim {s : List Char} {c : Char} (h : c ∈ s) (hc : isBlank c = false) : c ∈ trim s := by
  unfold trim trimEnd
  rw [List.mem_reverse]
  exact mem_dropWhile (List.mem_reverse.2 (mem_dropWhile h hc)) hc

/-- A text that starts with a character other than a blank keeps it. -/
theorem trimEnd_cons {c : Char} {r : List Char} (h : isBlank c = false) :
    trimEnd (c :: r) = c :: trimEnd r := by
  unfold trimEnd
  rw [List.reverse_cons, List.dropWhile_append]
  split
  · rename_i he
    simp only [List.isEmpty_iff] at he
    simp [he, h]
  · simp

theorem trim_cons {c : Char} {r : List Char} (h : isBlank c = false) :
    trim (c :: r) = c :: trimEnd r := by
  unfold trim
  rw [trimStart_cons h, trimEnd_cons h]

theorem indent_append_blanks {b s : List Char} (h : ∀ c ∈ b, isBlank c = true) :
    indent (b ++ s) = b.length + indent s := by
  unfold indent
  rw [List.takeWhile_append_of_pos h, List.length_append]

theorem indent_cons {c : Char} {r : List Char} (h : isBlank c = false) : indent (c :: r) = 0 := by
  simp [indent, h]

/-! ## Words -/

/-- A piece that `words` can give: some characters, none of them a blank. -/
def IsToken (t : List Char) : Prop := t ≠ [] ∧ ∀ c ∈ t, isBlank c = false

instance (t : List Char) : Decidable (IsToken t) :=
  decidable_of_iff (t ≠ [] ∧ t.all (!isBlank ·) = true) (by simp [IsToken])

theorem trimStart_token {t : List Char} (h : IsToken t) (r : List Char) :
    trimStart (t ++ r) = t ++ r := by
  cases t with
  | nil => exact absurd rfl h.1
  | cons c t => exact trimStart_cons (h.2 c (.head _))

theorem IsToken.trimStart {t : List Char} (h : IsToken t) : Text.trimStart t = t := by
  have := trimStart_token h []
  rwa [List.append_nil] at this

theorem IsToken.trimEnd {t : List Char} (h : IsToken t) : Text.trimEnd t = t :=
  trimEnd_eq_self_iff.2 fun c hc => h.2 c (List.mem_of_getLast? hc)

theorem cutAt_of_none {p : Char → Bool} : ∀ {t : List Char}, (∀ c ∈ t, p c = false) →
    cutAt p t = [t]
  | [], _ => rfl
  | c :: t, h => by
    rw [cutAt, if_neg (by simp [h c]), cutAt_of_none fun d hd => h d (.tail _ hd)]
    rfl

theorem cutAt_append_cons {p : Char → Bool} {b : Char} (hb : p b = true) (r : List Char) :
    ∀ {t : List Char}, (∀ c ∈ t, p c = false) → cutAt p (t ++ b :: r) = t :: cutAt p r
  | [], _ => by simp [cutAt, hb]
  | c :: t, h => by
    rw [List.cons_append, cutAt, if_neg (by simp [h c]),
      cutAt_append_cons hb r fun d hd => h d (.tail _ hd)]
    rfl

/-- What the characters of the pieces have in common is kept when a character is put in front. -/
theorem consFirst_all {P : Char → Prop} {c : Char} {ws : List (List Char)} (hc : P c)
    (h : ∀ w ∈ ws, ∀ d ∈ w, P d) : ∀ w ∈ consFirst c ws, ∀ d ∈ w, P d := by
  intro w hw d hd
  cases ws with
  | nil =>
    rw [consFirst, List.mem_singleton] at hw
    subst hw
    rw [List.mem_singleton] at hd
    exact hd ▸ hc
  | cons v ws =>
    rw [consFirst, List.mem_cons] at hw
    rcases hw with rfl | hw
    · rcases List.mem_cons.1 hd with rfl | hd
      · exact hc
      · exact h v (.head _) d hd
    · exact h w (.tail _ hw) d hd

/-- The pieces hold no character that cuts, and all their characters come from the text. -/
theorem mem_cutAt {p : Char → Bool} : ∀ {s w : List Char}, w ∈ cutAt p s →
    ∀ c ∈ w, p c = false ∧ c ∈ s
  | [], w, hw => by
    rw [cutAt, List.mem_singleton] at hw
    subst hw
    simp
  | d :: s, w, hw => by
    have ih : ∀ v ∈ cutAt p s, ∀ c ∈ v, p c = false ∧ c ∈ d :: s := fun v hv c hc =>
      ⟨(mem_cutAt hv c hc).1, .tail _ (mem_cutAt hv c hc).2⟩
    rw [cutAt] at hw
    split at hw
    · rcases List.mem_cons.1 hw with rfl | hw
      · simp
      · exact ih w hw
    · rename_i hd
      exact consFirst_all ⟨by simpa using hd, .head _⟩ ih w hw

theorem words_token {t : List Char} (h : IsToken t) : words t = [t] := by
  simp [words, cutAt_of_none h.2, h.1]

theorem words_token_append {t : List Char} (h : IsToken t) {b : Char} (hb : isBlank b = true)
    (r : List Char) : words (t ++ b :: r) = t :: words r := by
  simp [words, cutAt_append_cons hb r h.2, h.1]

/-- **Every word is a token** of the text's characters. -/
theorem isToken_of_mem_words {s w : List Char} (h : w ∈ words s) : IsToken w ∧ w ⊆ s := by
  simp only [words, List.mem_filter, decide_eq_true_eq] at h
  exact ⟨⟨h.2, fun c hc => (mem_cutAt h.1 c hc).1⟩, fun c hc => (mem_cutAt h.1 c hc).2⟩

theorem join_cons_cons (glue a b : List Char) (r : List (List Char)) :
    join glue (a :: b :: r) = a ++ glue ++ join glue (b :: r) := rfl

theorem join_append (glue : List Char) {b : List (List Char)} (hb : b ≠ []) :
    ∀ {a : List (List Char)}, a ≠ [] → join glue (a ++ b) = join glue a ++ glue ++ join glue b
  | [], h => absurd rfl h
  | [w], _ => by
    cases b with
    | nil => exact absurd rfl hb
    | cons => rfl
  | w :: v :: a, _ => by
    rw [List.cons_append, List.cons_append, join_cons_cons, join_cons_cons, ← List.cons_append,
      join_append glue hb (List.cons_ne_nil v a)]
    simp only [List.append_assoc]

theorem mem_join {glue : List Char} {c : Char} : ∀ {ws : List (List Char)}, c ∈ join glue ws →
    c ∈ glue ∨ ∃ w ∈ ws, c ∈ w
  | [], h => by cases h
  | [w], h => .inr ⟨w, .head _, h⟩
  | w :: v :: ws, h => by
    rw [join_cons_cons, List.mem_append, List.mem_append] at h
    rcases h with (h | h) | h
    · exact .inr ⟨w, .head _, h⟩
    · exact .inl h
    · rcases mem_join h with h | ⟨u, hu, hc⟩
      · exact .inl h
      · exact .inr ⟨u, .tail _ hu, hc⟩

/-- **Tokens joined by single blanks** are the words of what they make up. -/
theorem words_join : ∀ {ts : List (List Char)}, (∀ t ∈ ts, IsToken t) → words (join [' '] ts) = ts
  | [], _ => rfl
  | [t], h => words_token (h t (.head _))
  | t :: u :: ts, h => by
    rw [join_cons_cons, List.append_assoc, List.singleton_append,
      words_token_append (h t (.head _)) (by decide), words_join fun v hv => h v (.tail _ hv)]

theorem join_ne_nil {t : List Char} (h : t ≠ []) :
    ∀ ts : List (List Char), join [' '] (t :: ts) ≠ []
  | [] => h
  | u :: ts => by
    rw [join_cons_cons]
    simp

/-- Joined tokens start with no blank, whatever follows them. -/
theorem trimStart_join : ∀ {ts : List (List Char)}, ts ≠ [] → (∀ t ∈ ts, IsToken t) → ∀ r,
    trimStart (join [' '] ts ++ r) = join [' '] ts ++ r
  | [], h, _, _ => absurd rfl h
  | [t], _, h, r => trimStart_token (h t (.head _)) r
  | t :: u :: ts, _, h, r => by
    rw [join_cons_cons, List.append_assoc, List.append_assoc]
    exact trimStart_token (h t (.head _)) _

/-- Joined tokens end with no blank. -/
theorem trimEnd_join : ∀ {ts : List (List Char)}, ts ≠ [] → (∀ t ∈ ts, IsToken t) →
    trimEnd (join [' '] ts) = join [' '] ts
  | [], h, _ => absurd rfl h
  | [t], _, h => (h t (.head _)).trimEnd
  | t :: u :: ts, _, h => by
    have ih := trimEnd_join (List.cons_ne_nil u ts) fun v hv => h v (.tail _ hv)
    have hne := join_ne_nil (h u (.tail _ (.head _))).1 ts
    rw [join_cons_cons, trimEnd_eq_self_iff, List.getLast?_append_of_ne_nil _ hne]
    exact trimEnd_eq_self_iff.1 ih

/-! ## Lines -/

/-- A text without a line break. -/
def IsOneLine (s : List Char) : Prop := ∀ c ∈ s, isLineBreak c = false

instance (s : List Char) : Decidable (IsOneLine s) :=
  decidable_of_iff (s.all (!isLineBreak ·) = true) (by simp [IsOneLine])

/-- What is cut out of one line is on one line. -/
theorem IsOneLine.mono {a b : List Char} (h : IsOneLine b) (hs : a ⊆ b) : IsOneLine a :=
  fun c hc => h c (hs hc)

theorem isOneLine_append {a b : List Char} : IsOneLine (a ++ b) ↔ IsOneLine a ∧ IsOneLine b := by
  simp only [IsOneLine, List.mem_append, or_imp, forall_and]

theorem isOneLine_cons {c : Char} {s : List Char} :
    IsOneLine (c :: s) ↔ isLineBreak c = false ∧ IsOneLine s := by
  simp only [IsOneLine, List.mem_cons, forall_eq_or_imp]

theorem isOneLine_of_isToken {t : List Char} (h : IsToken t) : IsOneLine t :=
  fun c hc => isLineBreak_of_not_isBlank (h.2 c hc)

/-- A line of a text: trimmed and without a break. -/
def IsLine (l : List Char) : Prop := trim l = l ∧ IsOneLine l

theorem IsOneLine.lf_not_mem {s : List Char} (h : IsOneLine s) : '\n' ∉ s := by
  intro hn
  cases h _ hn

/-- A text is trimmed if it starts with no blank and ends with a trimmed piece. -/
theorem trim_append_of_trimEnd {c : Char} {r s : List Char} (hc : isBlank c = false) (hne : s ≠ [])
    (hs : trimEnd s = s) : trim (c :: r ++ s) = c :: r ++ s := by
  rw [trim_eq_self_iff]
  refine ⟨by simpa using hc, ?_⟩
  rw [List.getLast?_append_of_ne_nil _ hne]
  exact trimEnd_eq_self_iff.1 hs

theorem isLine_append {c : Char} {r s : List Char} (hc : isBlank c = false)
    (hr : IsOneLine (c :: r)) (hne : s ≠ []) (hs : trimEnd s = s) (hone : IsOneLine s) :
    IsLine (c :: r ++ s) :=
  ⟨trim_append_of_trimEnd hc hne hs, isOneLine_append.2 ⟨hr, hone⟩⟩

theorem isLine_append_token {c : Char} {r t : List Char} (hc : isBlank c = false)
    (hr : IsOneLine (c :: r)) (ht : IsToken t) : IsLine (c :: r ++ t) :=
  isLine_append hc hr ht.1 ht.trimEnd (isOneLine_of_isToken ht)

theorem lines_cons {c : Char} (h : isLineBreak c = false) (r : List Char) :
    lines (c :: r) = consFirst c (lines r) := by
  rw [lines]
  · simp [h]
  · rintro r' rfl _
    cases h

/-- A line break cuts off the line before it. -/
theorem lines_append_break : ∀ {l : List Char}, IsOneLine l → ∀ r,
    lines (l ++ '\n' :: r) = l :: lines r
  | [], _, r => by
    rw [List.nil_append, lines]
    · simp [isLineBreak]
    · simp
  | c :: l, h, r => by
    rw [List.cons_append, lines_cons (h c (.head _)),
      lines_append_break fun d hd => h d (.tail _ hd)]
    rfl

theorem lines_of_isOneLine : ∀ {l : List Char}, l ≠ [] → IsOneLine l → lines l = [l]
  | [], h, _ => absurd rfl h
  | [c], _, h => by
    rw [lines_cons (h c (.head _))]
    rfl
  | c :: d :: l, _, h => by
    rw [lines_cons (h c (.head _)),
      lines_of_isOneLine (List.cons_ne_nil d l) fun e he => h e (.tail _ he)]
    rfl

/-- **Lines without a break** are the lines of what they make up; an empty one at the end is
lost. -/
theorem lines_join : ∀ {ls : List (List Char)}, (∀ l ∈ ls, IsOneLine l) →
    lines (join ['\n'] ls) = if ls.getLast? = some [] then ls.dropLast else ls
  | [], _ => rfl
  | [[]], _ => rfl
  | [c :: l], h => by simpa [join] using lines_of_isOneLine (List.cons_ne_nil c l) (h _ (.head _))
  | l :: m :: ls, h => by
    rw [join_cons_cons, List.append_assoc, List.singleton_append,
      lines_append_break (h l (.head _)), lines_join fun k hk => h k (.tail _ hk),
      List.getLast?_cons_cons]
    split <;> simp

/-- No line holds a break. -/
theorem isOneLine_of_mem_lines : ∀ {s l : List Char}, l ∈ lines s → IsOneLine l := by
  intro s
  induction s using lines.induct with
  | case1 => simp [lines]
  | case2 r ih =>
    intro l hl
    rw [lines, List.mem_cons] at hl
    rcases hl with rfl | hl
    · simp [IsOneLine]
    · exact ih hl
  | case3 c r hne hb ih =>
    intro l hl
    rw [lines, if_pos hb, List.mem_cons] at hl
    · rcases hl with rfl | hl
      · simp [IsOneLine]
      · exact ih hl
    · exact hne
  | case4 c r hne hb ih =>
    intro l hl
    rw [Bool.not_eq_true] at hb
    rw [lines_cons hb] at hl
    exact consFirst_all hb (fun _ hw => ih hw) l hl

/-! ## Marks -/

/-- Two lists that are cut at their first mark are cut alike. -/
theorem append_cons_inj_of_first {α : Type} {a a' b b' : List α} {c c' : α} (hc : c ∉ a')
    (hc' : c' ∉ a) : a ++ c :: b = a' ++ c' :: b' ↔ a = a' ∧ c = c' ∧ b = b' := by
  constructor
  · intro h
    rcases List.append_eq_append_iff.1 h with ⟨u, rfl, hu⟩ | ⟨u, rfl, hu⟩
    · cases u with
      | nil => simpa using hu
      | cons d u =>
        obtain ⟨rfl, -⟩ := List.cons_eq_cons.1 hu
        simp at hc
    · cases u with
      | nil => simpa [eq_comm] using hu
      | cons d u =>
        obtain ⟨rfl, -⟩ := List.cons_eq_cons.1 hu
        simp at hc'
  · rintro ⟨rfl, rfl, rfl⟩
    rfl

/-- Two lists that are cut at the last occurrence of a mark are cut alike. -/
theorem append_cons_inj_of_last {α : Type} {a a' b b' : List α} {c : α} (hb : c ∉ b)
    (hb' : c ∉ b') : a ++ c :: b = a' ++ c :: b' ↔ a = a' ∧ b = b' := by
  have hfirst : b.reverse ++ c :: a.reverse = b'.reverse ++ c :: a'.reverse ↔
      b.reverse = b'.reverse ∧ c = c ∧ a.reverse = a'.reverse :=
    append_cons_inj_of_first (List.mem_reverse.not.2 hb') (List.mem_reverse.not.2 hb)
  rw [← List.reverse_inj]
  simpa [and_comm] using hfirst

end NovelScript.Text
