import NovelScript.Proofs.Texts

/-!
# Line ends

Files write the end of a line as LF, as CR LF or as CR. Texts that differ at most in that
(`SameButEnds`) show the same lines (`SameButEnds.shown_lines`), even where the ends of two lines
come together as one pair of CR and LF. Reading a file changes no more than that about its text
(`unifyBreaks_sameButEnds`).
-/

set_option autoImplicit false

namespace NovelScript

open Text Blocks

namespace Text

/-- The ways to write the end of a line. -/
def lineEnds : List (List Char) := [['\n'], ['\r', '\n'], ['\r']]

/-- Whether texts differ at most in how they write the ends of lines. -/
inductive SameButEnds : List Char → List Char → Prop
  | nil : SameButEnds [] []
  | keep (c : Char) {a b : List Char} (h : SameButEnds a b) : SameButEnds (c :: a) (c :: b)
  | lineEnd {x y a b : List Char} (hx : x ∈ lineEnds) (hy : y ∈ lineEnds) (h : SameButEnds a b) :
    SameButEnds (x ++ a) (y ++ b)

theorem unifyBreaks_sameButEnds (s : List Char) : SameButEnds (unifyBreaks s) s := by
  induction s using unifyBreaks.induct with
  | case1 => exact .nil
  | case2 r ih => exact .lineEnd (x := ['\n']) (y := ['\r', '\n']) (by decide) (by decide) ih
  | case3 c r hne ih =>
    rw [unifyBreaks]
    · split
      · rename_i hc
        rw [hc]
        exact .lineEnd (x := ['\n']) (y := ['\r']) (by decide) (by decide) ih
      · exact .keep c ih
    · exact hne

theorem unifyBreaks_eq_self {s : List Char} (h : ∀ c ∈ s, c ≠ '\r') : unifyBreaks s = s := by
  induction s using unifyBreaks.induct with
  | case1 => rfl
  | case2 r ih => exact absurd rfl (h _ (.head _))
  | case3 c r hne ih =>
    obtain ⟨hc, hr⟩ := List.forall_mem_cons.1 h
    rw [unifyBreaks, if_neg hc, ih hr]
    exact hne

/-- However it is written, the end of a line parts the shown lines of a text. -/
theorem shown_lines_lineEnd {x : List Char} (hx : x ∈ lineEnds) (u a : List Char) :
    shown (lines (u ++ (x ++ a))) = shown (lines u) ++ shown (lines a) := by
  simp only [lineEnds, List.mem_cons, List.not_mem_nil, or_false] at hx
  obtain rfl | rfl | rfl := hx
  · exact shown_lines_append rfl u a
  · have hempty : shown (lines ('\n' :: a)) = shown (lines a) := shown_lines_append rfl [] a
    rw [← hempty]
    exact shown_lines_append rfl u ('\n' :: a)
  · exact shown_lines_append rfl u a

/-- What stands before the texts is kept in view, since it may end in half a line. -/
theorem SameButEnds.shown_lines_append {a b : List Char} (h : SameButEnds a b) (u : List Char) :
    shown (lines (u ++ a)) = shown (lines (u ++ b)) := by
  induction h generalizing u with
  | nil => rfl
  | keep c _ ih => simpa using ih (u ++ [c])
  | lineEnd hx hy _ ih =>
    rw [shown_lines_lineEnd hx, shown_lines_lineEnd hy]
    exact congrArg _ (ih [])

/-- **The ends of lines**, however they are written, play no part in what a text shows. -/
theorem SameButEnds.shown_lines {a b : List Char} (h : SameButEnds a b) :
    shown (lines a) = shown (lines b) :=
  h.shown_lines_append []

end Text

/-! ## Readings -/

/-- Texts that show the same lines are read as the same script. -/
theorem Script.ofText_eq_of_shownLines {a b : String} (h : shownLines a = shownLines b) :
    ofText a = ofText b :=
  (Reader.ofText_agrees .perKind [] (congrArg pieces h) (congrArg List.length h)).script

end NovelScript
