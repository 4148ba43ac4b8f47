import NovelScript.Proofs.Text

/-!
# Line breaks

The lines of a text are the pieces between its line breaks, but for pieces without any character
(`filter_lines`): CR LF is one break and not two, and nothing stands behind a break at the end. So a
break parts a text into what stands before it and what stands behind it (`filter_lines_append`).
-/

set_option autoImplicit false

namespace NovelScript.Text

theorem cutAt_ne_nil (p : Char → Bool) (s : List Char) : cutAt p s ≠ [] := by
  cases s with
  | nil => simp [cutAt]
  | cons c s =>
    rw [cutAt]
    split
    · simp
    · cases cutAt p s <;> simp [consFirst]

/-- A character that cuts separates the pieces before it from those behind it. -/
theorem cutAt_append {p : Char → Bool} {b : Char} (hb : p b = true) (r : List Char) :
    ∀ t : List Char, cutAt p (t ++ b :: r) = cutAt p t ++ cutAt p r
  | [] => by simp [cutAt, hb]
  | c :: t => by
    have ih := cutAt_append hb r t
    obtain ⟨w, ws, hw⟩ := List.exists_cons_of_ne_nil (cutAt_ne_nil p t)
    rw [List.cons_append, cutAt, cutAt, ih, hw]
    split <;> rfl

theorem consFirst_eq (c : Char) (ws : List (List Char)) :
    consFirst c ws = (c :: ws.headD []) :: ws.tail := by
  cases ws <;> rfl

/-- Where empty pieces do not count, a list without a piece is as good as one whose first piece is
empty. -/
theorem filter_eq_of_headD_tail {a b : List (List Char)} (hhead : a.headD [] = b.headD [])
    (htail : a.tail.filter (· ≠ []) = b.tail.filter (· ≠ [])) :
    a.filter (· ≠ []) = b.filter (· ≠ []) := by
  have hcons (ws : List (List Char)) :
      ws.filter (· ≠ []) = (ws.headD [] :: ws.tail).filter (· ≠ []) := by cases ws <;> simp
  rw [hcons a, hcons b, List.filter_cons, List.filter_cons, hhead, htail]

/-- The first line is the first piece, and the further lines are the further pieces but for empty
ones. -/
theorem headD_tail_lines (s : List Char) :
    (lines s).headD [] = (cutAt isLineBreak s).headD [] ∧
      (lines s).tail.filter (· ≠ []) = (cutAt isLineBreak s).tail.filter (· ≠ []) := by
  induction s using lines.induct with
  | case1 => exact ⟨rfl, rfl⟩
  | case2 r ih =>
    have hcut : cutAt isLineBreak ('\r' :: '\n' :: r) = [] :: [] :: cutAt isLineBreak r := rfl
    rw [lines, hcut]
    refine ⟨rfl, ?_⟩
    simpa using filter_eq_of_headD_tail ih.1 ih.2
  | case3 c r hne hb ih =>
    rw [lines, cutAt, if_pos hb, if_pos hb]
    · exact ⟨rfl, filter_eq_of_headD_tail ih.1 ih.2⟩
    · exact hne
  | case4 c r hne hb ih =>
    rw [Bool.not_eq_true] at hb
    rw [lines_cons hb, cutAt, if_neg (by simp [hb]), consFirst_eq, consFirst_eq, ih.1]
    exact ⟨rfl, ih.2⟩

/-- **Lines are the pieces between line breaks**, empty ones aside. -/
theorem filter_lines (s : List Char) :
    (lines s).filter (· ≠ []) = (cutAt isLineBreak s).filter (· ≠ []) :=
  filter_eq_of_headD_tail (headD_tail_lines s).1 (headD_tail_lines s).2

/-- **A line break** parts the lines before it from those behind it, empty ones aside. -/
theorem filter_lines_append {c : Char} (hc : isLineBreak c = true) (a b : List Char) :
    (lines (a ++ c :: b)).filter (· ≠ []) =
      (lines a).filter (· ≠ []) ++ (lines b).filter (· ≠ []) := by
  simp only [filter_lines, cutAt_append hc, List.filter_append]

end NovelScript.Text
