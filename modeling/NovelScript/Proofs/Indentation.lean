import NovelScript.Proofs.Texts

/-!
# Indentation

How deep a line stands plays a part only by comparison with the other lines of its text. Two texts
with a `SameLayout`, which show the same texts of lines in the same order of indentations, are read
alike (`Reader.ofText_agrees_of_layout`); so none of the usual changes of a layout (`LayoutEdit`)
changes what is read.
-/

set_option autoImplicit false

namespace NovelScript

open Text Blocks

/-! ## Layouts -/

/-- Whether lines are as many, have the same texts, and stand in the same order of indentations. -/
structure SameLayout (as bs : List SourceLine) : Prop where
  length : as.length = bs.length
  order : SameOrder Prod.fst Prod.snd (as.zip bs)

instance (as bs : List SourceLine) : Decidable (SameLayout as bs) :=
  decidable_of_iff (as.length = bs.length ∧ (∀ p ∈ as.zip bs, p.1.text = p.2.text) ∧
      ∀ p ∈ as.zip bs, ∀ q ∈ as.zip bs, (p.1.indent < q.1.indent ↔ p.2.indent < q.2.indent))
    ⟨fun ⟨hl, ht, ho⟩ => ⟨hl, ht, ho⟩, fun ⟨hl, ht, ho⟩ => ⟨hl, ht, ho⟩⟩

/-- The indentation of `l` with a space for each tab. -/
def withoutTabs (l : List Char) : List Char :=
  (l.takeWhile isBlank).map (fun c => if c = '\t' then ' ' else c) ++ trimStart l

/-- The line `l` with `n` spaces for each `m` characters of its indentation. -/
def withUnit (m n : Nat) (l : List Char) : List Char :=
  List.replicate (indent l / m * n) ' ' ++ trimStart l

/-- A change in the layout of lines. -/
inductive LayoutEdit : List (List Char) → List (List Char) → Prop
  /-- A blank line or a comment more. -/
  | insert (before after : List (List Char)) {l : List Char}
    (h : (SourceLine.ofRaw 0 l).isIgnored = true) :
    LayoutEdit (before ++ after) (before ++ l :: after)
  /-- Blanks more at the end of a line. -/
  | trail (before after : List (List Char)) (l : List Char) {blanks : List Char}
    (h : ∀ c ∈ blanks, isBlank c = true) :
    LayoutEdit (before ++ l :: after) (before ++ (l ++ blanks) :: after)
  /-- The same blanks more in front of every line. -/
  | deepen (ls : List (List Char)) {blanks : List Char} (h : ∀ c ∈ blanks, isBlank c = true) :
    LayoutEdit ls (ls.map (blanks ++ ·))
  /-- A space for each tab of the indentations. -/
  | untab (ls : List (List Char)) : LayoutEdit ls (ls.map withoutTabs)
  /-- Steps of `n` spaces for steps of `m` blanks, where every line that is shown stands at such a
  step. -/
  | unit {ls : List (List Char)} {m n : Nat} (hm : 0 < m) (hn : 0 < n)
    (h : ∀ l ∈ ls, (SourceLine.ofRaw 0 l).isIgnored = true ∨ m ∣ indent l) :
    LayoutEdit ls (ls.map (withUnit m n))

/-! ## Changes keep the layout -/

namespace SameLayout

/-- Two views of the same lines have the same layout if they have the same order. -/
theorem of_sameOrder {α : Type} {f g : α → SourceLine} {as : List α} (h : SameOrder f g as) :
    SameLayout (as.map f) (as.map g) := by
  have hzip : (as.map f).zip (as.map g) = as.map fun a => (f a, g a) := List.zip_map'
  refine ⟨by simp, ?_, ?_⟩
  · intro p hp
    rw [hzip] at hp
    obtain ⟨a, ha, rfl⟩ := List.mem_map.1 hp
    exact h.text a ha
  · intro p hp q hq
    rw [hzip] at hp hq
    obtain ⟨a, ha, rfl⟩ := List.mem_map.1 hp
    obtain ⟨b, hb, rfl⟩ := List.mem_map.1 hq
    exact h.order a ha b hb

theorem refl (as : List SourceLine) : SameLayout as as := by
  have h : SameOrder id id as := ⟨fun _ _ => rfl, fun _ _ _ _ => Iff.rfl⟩
  simpa using of_sameOrder h

end SameLayout

/-- Lines of which each keeps its text, and those that are shown their order, show the same
layout. -/
theorem sameLayout_shown_map {f : List Char → List Char} {ls : List (List Char)}
    (htext : ∀ l ∈ ls, trim (f l) = trim l)
    (horder : ∀ k ∈ ls, ∀ l ∈ ls, (SourceLine.ofRaw 0 k).isIgnored = false →
      (SourceLine.ofRaw 0 l).isIgnored = false →
      (indent k < indent l ↔ indent (f k) < indent (f l))) :
    SameLayout (shown ls) (shown (ls.map f)) := by
  have hshown : shown (ls.map f) = (ls.filter fun l => !(SourceLine.ofRaw 0 l).isIgnored).map
      (SourceLine.ofRaw 0 ∘ f) := by
    rw [shown, visible, List.map_map, List.filter_map]
    refine congrArg _ (List.filter_congr fun l hl => ?_)
    simp only [Function.comp_apply, SourceLine.isIgnored, SourceLine.ofRaw, htext l hl]
  rw [hshown, shown, visible, List.filter_map]
  refine SameLayout.of_sameOrder ⟨fun l hl => (htext l (List.mem_filter.1 hl).1).symm, ?_⟩
  intro k hk l hl
  obtain ⟨hk, hki⟩ := List.mem_filter.1 hk
  obtain ⟨hl, hli⟩ := List.mem_filter.1 hl
  exact horder k hk l hl (by simpa using hki) (by simpa using hli)

theorem trim_trimStart (l : List Char) : trim (trimStart l) = trim l := by
  rw [trim, trim, trimStart, trimStart, List.dropWhile_idempotent]

theorem indent_trimStart (l : List Char) : indent (trimStart l) = 0 := by
  cases h : trimStart l with
  | nil => rfl
  | cons c r => exact indent_cons (isBlank_of_trimStart_eq_cons h)

/-- What is written on a line stays if its indentation is replaced by other blanks. -/
theorem trim_replaced {margin : List Char} (h : ∀ c ∈ margin, isBlank c = true) (l : List Char) :
    trim (margin ++ trimStart l) = trim l := by
  rw [trim_append_blanks h, trim_trimStart]

theorem indent_replaced {margin : List Char} (h : ∀ c ∈ margin, isBlank c = true) (l : List Char) :
    indent (margin ++ trimStart l) = margin.length := by
  rw [indent_append_blanks h, indent_trimStart, Nat.add_zero]

theorem isBlank_of_mem_margin (l : List Char) :
    ∀ c ∈ (l.takeWhile isBlank).map (fun c => if c = '\t' then ' ' else c), isBlank c = true := by
  intro c hc
  obtain ⟨d, hd, rfl⟩ := List.mem_map.1 hc
  split
  · rfl
  · exact List.mem_takeWhile_imp hd

theorem isBlank_of_mem_replicate (n : Nat) : ∀ c ∈ List.replicate n ' ', isBlank c = true := by
  intro c hc
  rw [List.eq_of_mem_replicate hc]
  rfl

theorem indent_withoutTabs (l : List Char) : indent (withoutTabs l) = indent l := by
  rw [withoutTabs, indent_replaced (isBlank_of_mem_margin l), List.length_map, indent]

theorem indent_withUnit (m n : Nat) (l : List Char) :
    indent (withUnit m n l) = indent l / m * n := by
  rw [withUnit, indent_replaced (isBlank_of_mem_replicate _), List.length_replicate]

theorem shown_singleton_of_isIgnored {l : List Char}
    (h : (SourceLine.ofRaw 0 l).isIgnored = true) : shown [l] = [] := by
  simp [shown, visible, h]

/-- Where a line shows something, its indentation ends before blanks at its end begin. -/
theorem ofRaw_trail {l blanks : List Char} (hl : trimStart l ≠ [])
    (h : ∀ c ∈ blanks, isBlank c = true) :
    SourceLine.ofRaw 0 (l ++ blanks) = SourceLine.ofRaw 0 l := by
  have hstart : trimStart (l ++ blanks) = trimStart l ++ blanks := by
    have hne : ¬(l.dropWhile isBlank).isEmpty = true := by rwa [List.isEmpty_iff]
    rw [trimStart, List.dropWhile_append, if_neg hne]
    rfl
  have hindent : indent (l ++ blanks) = indent l := by
    have hwhole := congrArg List.length
      (List.takeWhile_append_dropWhile (p := isBlank) (l := l ++ blanks))
    have hpart := congrArg List.length (List.takeWhile_append_dropWhile (p := isBlank) (l := l))
    change (l ++ blanks).dropWhile isBlank = l.dropWhile isBlank ++ blanks at hstart
    simp only [hstart, List.length_append] at hwhole hpart
    rw [indent, indent]
    omega
  rw [SourceLine.ofRaw, SourceLine.ofRaw, hindent, trim, hstart, trimEnd_append_blanks h]
  rfl

/-- Blanks at the end of a line are not shown. -/
theorem shown_singleton_trail {blanks : List Char} (h : ∀ c ∈ blanks, isBlank c = true)
    (l : List Char) : shown [l ++ blanks] = shown [l] := by
  by_cases hl : trimStart l = []
  · have hblank : ∀ {w : List Char}, trimStart w = [] → shown [w] = [] := by
      intro w hw
      refine shown_singleton_of_isIgnored ?_
      simp [SourceLine.isIgnored, SourceLine.ofRaw, trim, hw]
    have hboth : trimStart (l ++ blanks) = [] := by
      rw [trimStart_append_blanks (trimStart_eq_nil_iff.1 hl), trimStart_eq_nil_iff]
      exact h
    rw [hblank hl, hblank hboth]
  · rw [shown, shown, List.map_singleton, List.map_singleton, ofRaw_trail hl h]

theorem shown_insert (before after : List (List Char)) (l : List Char) :
    shown (before ++ l :: after) = shown before ++ (shown [l] ++ shown after) := by
  rw [← shown_append, ← shown_append]
  rfl

/-- **A change of the layout** keeps the layout of what is shown. -/
theorem LayoutEdit.sameLayout {ls ls' : List (List Char)} (h : LayoutEdit ls ls') :
    SameLayout (shown ls) (shown ls') := by
  cases h with
  | insert before after hl =>
    rw [shown_insert, shown_singleton_of_isIgnored hl, shown_append]
    exact .refl _
  | trail before after l hb =>
    rw [shown_insert, shown_insert, shown_singleton_trail hb]
    exact .refl _
  | deepen _ hb =>
    refine sameLayout_shown_map (fun l _ => trim_append_blanks hb) fun k _ l _ _ _ => ?_
    rw [indent_append_blanks hb, indent_append_blanks hb]
    omega
  | untab =>
    refine sameLayout_shown_map (fun l _ => trim_replaced (isBlank_of_mem_margin l) l) ?_
    intro k _ l _ _ _
    rw [indent_withoutTabs, indent_withoutTabs]
  | @unit _ m n hm hn hdvd =>
    refine sameLayout_shown_map (fun l _ => trim_replaced (isBlank_of_mem_replicate _) l) ?_
    intro k hk l hl hki hli
    obtain ⟨i, hi⟩ : m ∣ indent k := (hdvd k hk).resolve_left (by simp [hki])
    obtain ⟨j, hj⟩ : m ∣ indent l := (hdvd l hl).resolve_left (by simp [hli])
    rw [indent_withUnit, indent_withUnit, hi, hj, Nat.mul_div_cancel_left _ hm,
      Nat.mul_div_cancel_left _ hm, Nat.mul_lt_mul_left hm, Nat.mul_lt_mul_right hn]

/-! ## Readings -/

theorem SameLayout.pieces_eq {as bs : List SourceLine} (h : SameLayout as bs) :
    pieces as = pieces bs := by
  have hpieces := pieces_congr _ h.order
  rwa [List.map_fst_zip h.length.le, List.map_snd_zip h.length.ge] at hpieces

/-- **Only the order of the indentations matters.** Two texts that show lines of the same texts, in
the same order of indentations, are read alike, whatever the ids; and so are a text and what becomes
of it by a change of its layout: a blank line or a comment more or less, at any indentation and in a
menu, too, blanks at the end of a line, a deeper margin, spaces for tabs, another step of
indentation. -/
theorem Reader.ofText_agrees_of_layout {σ : Type} (source : IdSource σ) (ids : σ) (a b : String) :
    (SameLayout (shownLines a) (shownLines b) →
      (ofText source ids a).Agrees (ofText source ids b)) ∧
    (LayoutEdit (lines a.toList) (lines b.toList) →
      (ofText source ids a).Agrees (ofText source ids b)) := by
  have hsame (h : SameLayout (shownLines a) (shownLines b)) :
      (ofText source ids a).Agrees (ofText source ids b) :=
    ofText_agrees source ids h.pieces_eq h.length
  exact ⟨hsame, fun h => hsame h.sameLayout⟩

/-- A menu that is indented by tabs, and a line that is skipped. -/
def tabbed : String :=
  "\tmenu:\n\t\t\"Go\":\n\t\t\t\"Now\"\n\t\"End\"\nelse\n"

/-- The same with a space for each tab. -/
def spaced : String :=
  " menu:\n  \"Go\":\n   \"Now\"\n \"End\"\nelse\n"

/-- The same with other indentations, a comment, and blanks and no break at the end. -/
def ragged : String :=
  "   menu: \n        \"Go\":\n# B\n         \"Now\"\n   \"End\"\n\n  else"

theorem Reader.ofText_agrees_tabbed :
    SameLayout (shownLines tabbed) (shownLines ragged) ∧
    LayoutEdit (lines tabbed.toList) (lines spaced.toList) ∧
    (ofText .perKind [] tabbed).Agrees (ofText .perKind [] ragged) ∧
    (ofText .perKind [] tabbed).Agrees (ofText .perKind [] spaced) :=
  have hsame : SameLayout (shownLines tabbed) (shownLines ragged) := by decide
  have hlines : lines spaced.toList = (lines tabbed.toList).map withoutTabs := by decide
  have hedit : LayoutEdit (lines tabbed.toList) (lines spaced.toList) := by
    rw [hlines]
    exact .untab _
  ⟨hsame, hedit, (ofText_agrees_of_layout .perKind [] tabbed ragged).1 hsame,
    (ofText_agrees_of_layout .perKind [] tabbed spaced).2 hedit⟩

end NovelScript
