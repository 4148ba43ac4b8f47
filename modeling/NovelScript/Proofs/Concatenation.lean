import NovelScript.Proofs.Requests
import NovelScript.Proofs.Texts

/-!
# Texts one behind the other

A text that ends with its last line can be read by itself, even in the middle of a menu: if what is
shown of the next text begins at the margin, no block goes on there, and the two are read together
as they are read one after the other (`Reader.readText_append`). Nothing of the first text but the
state of the ids plays a part in how the second is read. The ids go on as well, as long as the
factory that both are read with counts as true; otherwise each text has the usual ids from the first
one on (`Reader.not_forall_script_readText_append`).
-/

set_option autoImplicit false

namespace NovelScript

open Text Blocks

/-! ## Scripts one behind the other -/

namespace Script

/-- The cast and the elements of a script and then those of another. -/
def followedBy (s t : Script) : Script where
  characters := s.characters ++ t.characters
  elements := s.elements ++ t.elements

theorem bare_followedBy (s t : Script) : (s.followedBy t).bare = s.bare.followedBy t.bare := by
  simp [bare, followedBy]

theorem size_followedBy (s t : Script) : (s.followedBy t).size = s.size + t.size := by
  simp only [size, followedBy, List.length_append, List.map_append, List.sum_append]
  omega

theorem ofPieces_append (ps qs : List Piece) :
    ofPieces (ps ++ qs) = (ofPieces ps).followedBy (ofPieces qs) := by
  simp only [ofPieces, followedBy, List.filterMap_append]

end Script

/-! ## Texts -/

/-- Behind a line break, or behind nothing, a text shows the lines that it shows alone. -/
theorem shownLines_append {a : String} (ha : ∀ c ∈ a.toList.getLast?, isLineBreak c = true)
    (b : String) : shownLines (a ++ b) = shownLines a ++ shownLines b := by
  rw [shownLines, shownLines, String.toList_append]
  cases hlast : a.toList.getLast? with
  | none =>
    rw [List.getLast?_eq_none_iff.1 hlast]
    rfl
  | some c =>
    have hc : isLineBreak c = true := ha c hlast
    obtain ⟨r, hr⟩ := List.getLast?_eq_some_iff.1 hlast
    rw [hr, shown_lines_concat hc, List.append_assoc, List.singleton_append, shown_lines_append hc]
    rfl

section
variable {a b : String}

/-- Two texts are read with one source as the first and then the second, which is read with the ids
that the first leaves. -/
theorem Reader.ofText_append {σ : Type} (source : IdSource σ) (ids : σ)
    (ha : ∀ c ∈ a.toList.getLast?, isLineBreak c = true)
    (hb : ∀ line ∈ (shownLines b).head?, line.indent = 0) :
    (ofText source ids (a ++ b)).script = (ofText source ids a).script.followedBy
        (ofText source (ofText source ids a).ids b).script ∧
      (ofText source ids (a ++ b)).ids = (ofText source (ofText source ids a).ids b).ids ∧
      (ofText source ids (a ++ b)).skipped =
        (ofText source ids a).skipped + (ofText source (ofText source ids a).ids b).skipped := by
  have hlines := shownLines_append ha b
  have hpieces : pieces (shownLines (a ++ b)) = pieces (shownLines a) ++ pieces (shownLines b) := by
    rw [hlines]
    exact pieces_append fun line hline _ _ _ => (hb line hline).le.trans (Nat.zero_le _)
  generalize hfirst : ofText source ids a = first
  generalize hsecond : ofText source first.ids b = second
  have hbare : (ofText source ids (a ++ b)).script.bare =
      (first.script.followedBy second.script).bare := by
    rw [ofText_bare, hpieces, Script.ofPieces_append, Script.bare_followedBy, ← hfirst, ← hsecond,
      ofText_bare, ofText_bare]
  -- The ids are handed out along the elements, so the second text goes on where the first ends.
  have hrenew : renewElements source ids (first.script.followedBy second.script).elements =
      ((first.script.followedBy second.script).elements, second.ids) := by
    have h₁ := ofText_renewElements source ids a
    have h₂ := ofText_renewElements source first.ids b
    rw [hfirst] at h₁
    rw [hsecond] at h₂
    simp only [Script.followedBy, renewElements_append, h₁, h₂]
  have hscript : (ofText source ids (a ++ b)).script = first.script.followedBy second.script := by
    rw [ofText_eq_renew source ids hbare, Script.renew, hrenew]
  have hids := ofText_renewElements source ids (a ++ b)
  rw [hscript, hrenew, Prod.mk.injEq] at hids
  have hwhole := ofText_size_add_skipped source ids (a ++ b)
  have h₁ := ofText_size_add_skipped source ids a
  have h₂ := ofText_size_add_skipped source first.ids b
  rw [hscript, Script.size_followedBy, hlines, List.length_append] at hwhole
  rw [hfirst] at h₁
  rw [hsecond] at h₂
  exact ⟨hscript, hids.2.symm, by omega⟩

/-- **Reading is compositional.** Whatever the first text is, as long as it is empty or ends in a
line break, and whatever the factory: if the first line that the second text shows stands at the
margin, both together are read as the first and then the second, ids aside, and as many lines are
skipped. The ids are the same, too, if the factory counts as true at the start and behind the first
text, and it is left in the same state. -/
theorem Reader.readText_append (factory : Option IdFactory)
    (ha : ∀ c ∈ a.toList.getLast?, isLineBreak c = true)
    (hb : ∀ line ∈ (shownLines b).head?, line.indent = 0) :
    let whole := readText factory (a ++ b)
    let first := readText factory a
    let second := readText (factory.map (·.behind a)) b
    whole.script.bare = (first.script.followedBy second.script).bare ∧
      whole.skipped = first.skipped + second.skipped ∧
      ∀ f ∈ factory, f.counts f.state = true → f.counts (f.stateBehind a) = true →
        whole.script = first.script.followedBy second.script ∧
          f.stateBehind (a ++ b) = (f.behind a).stateBehind b := by
  intro whole first second
  -- With the usual ids, both texts are read one behind the other.
  obtain ⟨husual, -, hskipped⟩ := ofText_append .perKind [] ha hb
  have hunnamed (g : Option IdFactory) (ids : Counters) (text : String) :
      (readText g text).script.bare = (ofText .perKind ids text).script.bare ∧
        (readText g text).skipped = (ofText .perKind ids text).skipped :=
    ofText_bare_and_skipped _ _ .perKind ids text
  obtain ⟨hwhole, hwhole'⟩ := hunnamed factory [] (a ++ b)
  obtain ⟨hfirst, hfirst'⟩ := hunnamed factory [] a
  obtain ⟨hsecond, hsecond'⟩ :=
    hunnamed (factory.map (·.behind a)) (ofText .perKind [] a).ids b
  refine ⟨?_, ?_, ?_⟩
  · rw [hwhole, husual, Script.bare_followedBy, Script.bare_followedBy, hfirst, hsecond]
  · rw [hwhole', hskipped, ← hfirst', ← hsecond']
  · rintro f ⟨⟩ hstart hbehind
    have hstate := IdFactory.stateBehind_of_counts a hstart
    have hcounts : (f.behind a).counts (f.behind a).state = true := hbehind
    obtain ⟨hscript, hids, -⟩ := ofText_append f.source f.state ha hb
    rw [← hstate] at hscript hids
    constructor
    · exact (script_readText_of_counts (a ++ b) hstart).trans (hscript.trans (congrArg₂ _
        (script_readText_of_counts a hstart).symm (script_readText_of_counts b hcounts).symm))
    · exact (IdFactory.stateBehind_of_counts (a ++ b) hstart).trans
        (hids.trans (IdFactory.stateBehind_of_counts b hcounts).symm)

/-- A text that ends in a choice. -/
def unfinished : String :=
  "define e = Character(\"Eve\")\nmenu:\n    \"Go\":\n        e \"Now\"\n      return\n"

/-- A text that begins with a comment and a blank line and goes on with a choice of no menu. -/
def menuless : String :=
  "  # more\n\n\"Stay\":\n    \"Later\"\nelse\n"

theorem Reader.readText_append_unfinished :
    let f := IdFactory.usual
    (∀ c ∈ unfinished.toList.getLast?, isLineBreak c = true) ∧
    (∀ line ∈ (shownLines menuless).head?, line.indent = 0) ∧
    f.counts f.state = true ∧ f.counts (f.stateBehind unfinished) = true ∧
    (readText (some f) (unfinished ++ menuless)).script =
        (readText (some f) unfinished).script.followedBy
          (readText (some (f.behind unfinished)) menuless).script ∧
      f.stateBehind (unfinished ++ menuless) = (f.behind unfinished).stateBehind menuless ∧
      (readText (some f) (unfinished ++ menuless)).skipped =
        (readText (some f) unfinished).skipped +
          (readText (some (f.behind unfinished)) menuless).skipped := by
  intro f
  have hlast : unfinished.toList.getLast? = some '\n' := by decide
  have hend : ∀ c ∈ unfinished.toList.getLast?, isLineBreak c = true := by
    rw [hlast]
    rintro _ ⟨⟩
    rfl
  have hmargin : ∀ line ∈ (shownLines menuless).head?, line.indent = 0 := by decide
  obtain ⟨-, hskipped, hids⟩ := readText_append (some f) hend hmargin
  obtain ⟨hscript, hstate⟩ := hids f rfl rfl rfl
  exact ⟨hend, hmargin, rfl, rfl, hscript, hstate, hskipped⟩

/-- With a factory that counts as false, the ids of the second text begin anew. -/
theorem Reader.not_forall_script_readText_append : ¬ ∀ (f : IdFactory) (a b : String),
    (∀ c ∈ a.toList.getLast?, isLineBreak c = true) →
    (∀ line ∈ (shownLines b).head?, line.indent = 0) →
    (readText (some f) (a ++ b)).script =
      (readText (some f) a).script.followedBy (readText (some (f.behind a)) b).script := by
  intro h
  have hends : ∀ c ∈ "return\n".toList.getLast?, isLineBreak c = true := by
    have hlast : "return\n".toList.getLast? = some '\n' := by decide
    rw [hlast]
    rintro _ ⟨⟩
    rfl
  have happend := h .unused "return\n" "return" hends (by decide)
  have hwhole : (readText (some .unused) ("return\n" ++ "return")).script =
      { elements := [.statement "element-0" .goBack, .statement "element-1" .goBack] } := rfl
  have hparts : (readText (some .unused) "return\n").script.followedBy
      (readText (some (IdFactory.unused.behind "return\n")) "return").script =
      { elements := [.statement "element-0" .goBack, .statement "element-0" .goBack] } := rfl
  rw [hwhole, hparts] at happend
  exact absurd happend (by simp)

end

end NovelScript
