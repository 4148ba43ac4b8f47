import Mathlib.Data.List.TakeWhile
import NovelScript.Script.Quoted

/-!
# Quoted text is read as it was written

`unescape_escape`: unescaping undoes escaping. `split?_escape`: the closing quote behind an escaped
text is neither taken for an escaped one nor found too early, whatever follows it. The converse
facts say what a piece between quotes consists of (`split?_eq_some_iff`, `splitPlain?_eq_some`).
-/

set_option autoImplicit false

namespace NovelScript.Quoted

/-! ## Escaping -/

/-- Before a character that keeps its backslash, escaping goes on behind that character. -/
theorem escape_of_not_ambiguous {r : List Char} (h : isAmbiguousBefore r = false) :
    ∃ d u, r = d :: u ∧ isEscapable d = false ∧ escape r = d :: escape u := by
  cases r with
  | nil => cases h
  | cons d u =>
    have hd : isEscapable d = false := by
      unfold isAmbiguousBefore at h
      split at h
      · cases h
      · cases h
      · rename_i he
        cases he
        exact h
    refine ⟨d, u, rfl, hd, ?_⟩
    rw [escape, if_neg, if_neg]
    · rintro rfl
      cases hd
    · rintro rfl
      cases hd

theorem unescape_cons {c : Char} (h : c ≠ '\\') (r : List Char) :
    unescape (c :: r) = c :: unescape r := by
  rw [unescape]
  rintro d u rfl
  exact absurd rfl h

/-- **Unescaping undoes escaping.** -/
theorem unescape_escape : ∀ s : List Char, unescape (escape s) = s
  | [] => rfl
  | c :: r => by
    have ih := unescape_escape r
    by_cases hc : c = '\\'
    · subst hc
      cases ha : isAmbiguousBefore r with
      | true => simp [escape, ha, unescape, isEscapable, ih]
      | false =>
        obtain ⟨d, u, rfl, hd, he⟩ := escape_of_not_ambiguous ha
        rw [escape, if_pos rfl, ha, if_neg Bool.false_ne_true, he, unescape, hd,
          if_neg Bool.false_ne_true, ← he, ih]
    · by_cases hq : c = '"'
      · subst hq
        simp [escape, unescape, isEscapable, ih]
      · rw [escape, if_neg hc, if_neg hq, unescape_cons hc, ih]

theorem mem_escape {d : Char} : ∀ {s : List Char}, d ∈ escape s → d ∈ s ∨ d = '\\'
  | [], h => by cases h
  | c :: r, h => by
    have ih : d ∈ escape r → d ∈ c :: r ∨ d = '\\' := fun h => (mem_escape h).imp_left (.tail _)
    rw [escape] at h
    split at h
    · split at h
      · simp only [List.mem_cons] at h
        rcases h with h | h | h
        · exact .inr h
        · exact .inr h
        · exact ih h
      · rcases List.mem_cons.1 h with h | h
        · exact .inr h
        · exact ih h
    · split at h
      · rename_i hc
        simp only [List.mem_cons] at h
        rcases h with h | h | h
        · exact .inr h
        · exact .inl (by rw [h, hc]; exact .head _)
        · exact ih h
      · rcases List.mem_cons.1 h with h | h
        · exact .inl (h ▸ .head _)
        · exact ih h

theorem unescape_subset : ∀ s : List Char, unescape s ⊆ s
  | [] => fun _ h => h
  | c :: r => by
    have ih := unescape_subset r
    by_cases hc : c = '\\'
    · subst hc
      cases r with
      | nil => exact fun _ h => h
      | cons d u =>
        rw [unescape]
        split
        · exact fun _ h => (List.mem_cons.1 h).elim (fun h => h ▸ .tail _ (.head _))
            fun h => .tail _ (.tail _ (unescape_subset u h))
        · exact List.cons_subset_cons _ ih
    · rw [unescape_cons hc]
      exact List.cons_subset_cons _ ih

/-! ## Finding the closing quote -/

theorem split?_cons {q c : Char} (hq : c ≠ q) (hc : c ≠ '\\') (r : List Char) :
    split? q (c :: r) = (split? q r).map fun (body, rest) => (c :: body, rest) := by
  rw [split?, if_neg hq, if_neg hc]
  rintro d u rfl
  exact absurd rfl hc

theorem split?_backslash {q c : Char} (hc : c ≠ '\n') (r : List Char) :
    split? q ('\\' :: c :: r) = (split? q r).map fun (body, rest) => ('\\' :: c :: body, rest) := by
  rw [split?, if_neg hc]

/-- **An escaped text ends at its closing quote**, whatever follows. -/
theorem split?_escape : ∀ {s : List Char}, '\n' ∉ s → ∀ r,
    split? '"' (escape s ++ '"' :: r) = some (escape s, r)
  | [], _, r => rfl
  | c :: s, hn, r => by
    have ih := split?_escape (s := s) (fun h => hn (.tail _ h)) r
    by_cases hc : c = '\\'
    · subst hc
      cases ha : isAmbiguousBefore s with
      | true => simp [escape, ha, split?_backslash, ih]
      | false =>
        obtain ⟨d, u, rfl, -, he⟩ := escape_of_not_ambiguous ha
        have ihu := split?_escape (s := u) (fun h => hn (.tail _ (.tail _ h))) r
        have hd : d ≠ '\n' := by
          rintro rfl
          exact hn (.tail _ (.head _))
        rw [escape, if_pos rfl, ha, if_neg Bool.false_ne_true, he, List.cons_append,
          List.cons_append, split?_backslash hd, ihu]
        rfl
    · by_cases hq : c = '"'
      · subst hq
        simp [escape, split?_backslash, ih]
      · rw [escape, if_neg hc, if_neg hq, List.cons_append, split?_cons hq hc, ih]
        rfl

/-- What is cut off stands before the closing quote. -/
theorem split?_eq_some {q : Char} {s body rest : List Char} (h : split? q s = some (body, rest)) :
    s = body ++ q :: rest := by
  fun_induction split? q s generalizing body with
  | case1 => cases h
  | case2 => cases h
  | case3 c r hc ih =>
    obtain ⟨⟨b, t⟩, hb, he⟩ := Option.map_eq_some_iff.1 h
    cases he
    rw [ih hb]
    rfl
  | case4 r =>
    cases h
    rfl
  | case5 => cases h
  | case6 c r _ hq hc ih =>
    obtain ⟨⟨b, t⟩, hb, he⟩ := Option.map_eq_some_iff.1 h
    cases he
    rw [ih hb]
    rfl

/-- What may stand between two quotes `q`: characters other than the quote and a backslash, and
backslashes, each with a character behind it that is no LF. -/
inductive Body (q : Char) : List Char → Prop
  | nil : Body q []
  | plain {c : Char} {r : List Char} (hq : c ≠ q) (hc : c ≠ '\\') (h : Body q r) : Body q (c :: r)
  | escaped {c : Char} {r : List Char} (hc : c ≠ '\n') (h : Body q r) : Body q ('\\' :: c :: r)

theorem body_of_split? {q : Char} {s body rest : List Char} (h : split? q s = some (body, rest)) :
    Body q body := by
  fun_induction split? q s generalizing body with
  | case1 => cases h
  | case2 => cases h
  | case3 c r hc ih =>
    obtain ⟨⟨b, t⟩, hb, he⟩ := Option.map_eq_some_iff.1 h
    cases he
    exact .escaped hc (ih hb)
  | case4 r =>
    cases h
    exact .nil
  | case5 => cases h
  | case6 c r _ hq hc ih =>
    obtain ⟨⟨b, t⟩, hb, he⟩ := Option.map_eq_some_iff.1 h
    cases he
    exact .plain hq hc (ih hb)

theorem Body.split?_append {q : Char} (hq : q ≠ '\\') {body : List Char} (h : Body q body)
    (r : List Char) : split? q (body ++ q :: r) = some (body, r) := by
  induction h with
  | nil =>
    rw [List.nil_append, split?, if_pos rfl]
    rintro c u rfl
    exact absurd rfl hq
  | plain hcq hc _ ih => rw [List.cons_append, split?_cons hcq hc, ih, Option.map_some]
  | escaped hc _ ih =>
    rw [List.cons_append, List.cons_append, split?_backslash hc, ih, Option.map_some]

/-- **The closing quote** is the one that follows a body, and no other quote does. -/
theorem split?_eq_some_iff {q : Char} (hq : q ≠ '\\') {s body rest : List Char} :
    split? q s = some (body, rest) ↔ Body q body ∧ s = body ++ q :: rest := by
  constructor
  · intro h
    exact ⟨body_of_split? h, split?_eq_some h⟩
  · rintro ⟨h, rfl⟩
    exact h.split?_append hq rest

/-- An escaped text is a body. -/
theorem body_escape {s : List Char} (h : '\n' ∉ s) : Body '"' (escape s) :=
  body_of_split? (split?_escape h [])

/-! ## Pieces without escapes -/

/-- A text up to the first quote `q` behind its first character. -/
def plainPart (q : Char) : List Char → List Char
  | [] => []
  | c :: r => c :: r.takeWhile (· != q)

/-- A text is read in full when no quote stands behind its first character. -/
theorem plainPart_eq_self_iff {q : Char} {v : List Char} : plainPart q v = v ↔ q ∉ v.tail := by
  cases v with
  | nil => simp [plainPart]
  | cons c r =>
    rw [plainPart, List.cons_inj_right, List.takeWhile_eq_self_iff, List.tail_cons]
    constructor
    · intro h hq
      simpa using h q hq
    · intro h d hd
      rw [bne_iff_ne]
      rintro rfl
      exact h hd

/-- **A text without LF between quotes** is read up to the first quote behind its first character. -/
theorem splitPlain?_plainPart {q : Char} {v : List Char} (hv : v ≠ []) (hn : '\n' ∉ v)
    (r : List Char) : ∃ rest, splitPlain? q (v ++ q :: r) = some (plainPart q v, rest) := by
  cases v with
  | nil => exact absurd rfl hv
  | cons c u =>
    have hc : c ≠ '\n' := fun h => hn (h ▸ .head _)
    have hsplit := List.takeWhile_append_dropWhile (p := (· != q)) (l := u)
    obtain ⟨rest, hrest⟩ : ∃ rest, u ++ q :: r = u.takeWhile (· != q) ++ q :: rest := by
      cases hd : u.dropWhile (· != q) with
      | nil =>
        rw [hd, List.append_nil] at hsplit
        exact ⟨r, by rw [hsplit]⟩
      | cons d b =>
        have hstop := List.head?_dropWhile_not (· != q) u
        rw [hd] at hstop hsplit
        obtain rfl : d = q := by simpa using hstop
        exact ⟨b ++ d :: r, by rw [← List.cons_append, ← List.append_assoc, hsplit]⟩
    have hpart : ∀ d ∈ u.takeWhile (· != q), (d != q && d != '\n') = true := by
      intro d hd
      have hn : d ≠ '\n' := fun h => hn (h ▸ .tail _ ((List.takeWhile_prefix _).subset hd))
      simpa [hn] using List.mem_takeWhile_imp hd
    refine ⟨rest, ?_⟩
    simp [splitPlain?, hc, hrest, plainPart, List.takeWhile_append_of_pos hpart,
      List.dropWhile_append_of_pos hpart]

/-- A piece is not empty and stands before a quote. -/
theorem splitPlain?_eq_some {q : Char} {s v r : List Char} (h : splitPlain? q s = some (v, r)) :
    v ≠ [] ∧ s = v ++ q :: r := by
  cases s with
  | nil => cases h
  | cons c u =>
    rw [splitPlain?] at h
    split at h
    · cases h
    · split at h
      · rename_i d rest hd
        split at h
        · rename_i hq
          cases h
          subst hq
          refine ⟨List.cons_ne_nil _ _, ?_⟩
          rw [List.cons_append, ← hd, List.takeWhile_append_dropWhile]
        · cases h
      · cases h

end NovelScript.Quoted
