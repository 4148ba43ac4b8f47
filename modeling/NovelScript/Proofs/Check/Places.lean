import Mathlib.Data.List.Basic
import NovelScript.Check.Validate
import NovelScript.Proofs.Walk

/-!
# Issues place by place

A `Place` is where a walk stands: what it has reached, and the element that comes next. The checks go
through a walk and remember names, or they look names up in lists; but each issue comes of one rule
at one place. `Script.issues_eq`: the issues of a script are those that each `Rule` finds at each
place, and the one about a missing entry.
-/

set_option autoImplicit false

namespace NovelScript

open Check

/-- A place of a walk: what the walk reaches before it, its line and its element. -/
structure Place where
  earlier : List (Nat × Element)
  line : Nat
  element : Element

/-- The places in the rest of a walk. -/
def placesFrom (earlier : List (Nat × Element)) : List (Nat × Element) → List Place
  | [] => []
  | (line, e) :: rest => ⟨earlier, line, e⟩ :: placesFrom (earlier ++ [(line, e)]) rest

/-- The places of a script, one for each element that a walk reaches. -/
def Script.places (s : Script) : List Place :=
  placesFrom [] s.walk

theorem mem_placesFrom {p : Place} {earlier walk : List (Nat × Element)} :
    p ∈ placesFrom earlier walk ↔
      ∃ before after, walk = before ++ (p.line, p.element) :: after ∧
        p.earlier = earlier ++ before := by
  induction walk generalizing earlier with
  | nil => simp [placesFrom]
  | cons x walk ih =>
    obtain ⟨line, e⟩ := x
    rw [placesFrom, List.mem_cons, ih]
    constructor
    · rintro (rfl | ⟨before, after, rfl, he⟩)
      · exact ⟨[], walk, rfl, (List.append_nil _).symm⟩
      · exact ⟨(line, e) :: before, after, rfl, by simp [he]⟩
    · rintro ⟨before, after, hw, he⟩
      cases before with
      | nil =>
        cases hw
        rw [List.append_nil] at he
        exact .inl (by rw [← he])
      | cons y before =>
        cases hw
        exact .inr ⟨before, after, rfl, by simp [he]⟩

/-- What plays no part but line and element is found along the walk. -/
theorem filterMap_placesFrom {α : Type} (f : Nat × Element → Option α)
    (earlier walk : List (Nat × Element)) :
    (placesFrom earlier walk).filterMap (fun p => f (p.line, p.element)) = walk.filterMap f := by
  induction walk generalizing earlier with
  | nil => rfl
  | cons x walk ih => simp only [placesFrom, List.filterMap_cons, ih]

/-! ## Mentions -/

/-- The label of an entry of a walk, if it has a name. -/
def labelMention? : Nat × Element → Option Mention
  | (line, .statement id (.label name)) => if name = "" then none else some ⟨line, id, name⟩
  | _ => none

/-- The jump or call of an entry of a walk. -/
def transferMention? : Nat × Element → Option (Transfer × Mention)
  | (line, .statement id (.jump target)) => some (.jump, ⟨line, id, target⟩)
  | (line, .statement id (.call target)) => some (.call, ⟨line, id, target⟩)
  | _ => none

/-- The names of the labels of a walk. -/
def labelNames (walk : List (Nat × Element)) : List String :=
  (labelMentions walk).map (·.name)

/-- The names that the jumps and calls of a walk lead to. -/
def targetNames (walk : List (Nat × Element)) : List String :=
  (transferMentions walk).map (·.2.name)

theorem labelMentions_eq (walk : List (Nat × Element)) :
    labelMentions walk = walk.filterMap labelMention? := rfl

theorem transferMentions_eq (walk : List (Nat × Element)) :
    transferMentions walk = walk.filterMap transferMention? := rfl

theorem labelMention?_eq_some {line : Nat} {e : Element} {m : Mention}
    (h : labelMention? (line, e) = some m) :
    m.name ≠ "" ∧ m.line = line ∧ e = .statement m.id (.label m.name) := by
  unfold labelMention? at h
  split at h
  · rename_i heq
    cases heq
    split at h
    · cases h
    · rename_i hne
      cases h
      exact ⟨hne, rfl, rfl⟩
  · cases h

theorem labelMention?_label {line : Nat} {id name : String} (h : name ≠ "") :
    labelMention? (line, .statement id (.label name)) = some ⟨line, id, name⟩ := if_neg h

theorem transferMention?_eq_some {line : Nat} {e : Element} {t : Transfer} {m : Mention}
    (h : transferMention? (line, e) = some (t, m)) : m.line = line ∧
      (t = .jump ∧ e = .statement m.id (.jump m.name) ∨
        t = .call ∧ e = .statement m.id (.call m.name)) := by
  unfold transferMention? at h
  split at h
  · rename_i heq
    cases heq
    cases h
    exact ⟨rfl, .inl ⟨rfl, rfl⟩⟩
  · rename_i heq
    cases heq
    cases h
    exact ⟨rfl, .inr ⟨rfl, rfl⟩⟩
  · cases h

theorem labelNames_append (a b : List (Nat × Element)) :
    labelNames (a ++ b) = labelNames a ++ labelNames b := by
  simp [labelNames, labelMentions_eq]

/-! ### Names seen before -/

namespace Place

/-- The label at a place, if an earlier one has its name. -/
def repeated? (p : Place) : Option Mention :=
  (labelMention? (p.line, p.element)).filter (·.name ∈ labelNames p.earlier)

/-- The label at a place, if no earlier one has its name. -/
def first? (p : Place) : Option Mention :=
  (labelMention? (p.line, p.element)).filter (·.name ∉ labelNames p.earlier)

end Place

/-- A name that was seen is the name of an earlier label; so the mentions that repeat a name are the
labels at places where it was reached before, and first mentions are the others. -/
theorem repeats_firsts_placesFrom (known : List String) (earlier : List (Nat × Element))
    (h : ∀ name, name ∈ known ↔ name ∈ labelNames earlier) (walk : List (Nat × Element)) :
    repeats known (labelMentions walk) = (placesFrom earlier walk).filterMap Place.repeated? ∧
      firsts known (labelMentions walk) = (placesFrom earlier walk).filterMap Place.first? := by
  induction walk generalizing known earlier with
  | nil => exact ⟨rfl, rfl⟩
  | cons x walk ih =>
    obtain ⟨line, e⟩ := x
    have hnames : labelNames (earlier ++ [(line, e)]) =
        labelNames earlier ++ (labelMention? (line, e)).toList.map (·.name) := by
      rw [labelNames_append, labelNames, labelNames, labelMentions_eq [(line, e)]]
      cases hm : labelMention? (line, e) <;> simp [hm]
    simp only [placesFrom, labelMentions_eq, List.filterMap_cons, Place.repeated?, Place.first?]
    cases hm : labelMention? (line, e) with
    | none =>
      rw [hm, Option.toList_none, List.map_nil, List.append_nil] at hnames
      exact ih _ _ fun name => by rw [h name, hnames]
    | some m =>
      rw [hm, Option.toList_some, List.map_cons, List.map_nil] at hnames
      by_cases hseen : m.name ∈ labelNames earlier
      · obtain ⟨hr, hf⟩ := ih known (earlier ++ [(line, e)]) fun name => by
          rw [h name, hnames, List.mem_append, List.mem_singleton, iff_self_or]
          rintro rfl
          exact hseen
        have hknown : known.contains m.name = true := by simpa using (h m.name).2 hseen
        simp only [repeats, firsts, hknown, hseen, Option.filter_some, not_true, decide_true,
          decide_false, if_true]
        exact ⟨congrArg _ hr, hf⟩
      · obtain ⟨hr, hf⟩ := ih (m.name :: known) (earlier ++ [(line, e)])
          fun name => by
            rw [List.mem_cons, h name, hnames, List.mem_append, List.mem_singleton, or_comm]
        have hknown : known.contains m.name = false := by
          simpa using fun hk => hseen ((h m.name).1 hk)
        simp only [repeats, firsts, hknown, hseen, Option.filter_some, not_false_iff, decide_true,
          decide_false, if_true, Bool.false_eq_true, if_false]
        exact ⟨hr, congrArg _ hf⟩

/-! ## Rules -/

/-- What can be wrong at a place. -/
inductive Rule where
  /-- A label was defined before. -/
  | repeated
  /-- A jump or call leads nowhere. -/
  | target
  /-- Nothing leads to a label. -/
  | unused
  | speaker
  | text
  | choices
  | assignment
  deriving DecidableEq

/-- What a rule finds at a place of a script. -/
def Rule.finding? (s : Script) (p : Place) : Rule → Option Finding
  | repeated => p.repeated?.map (.duplicateLabel ·.name)
  | target => ((transferMention? (p.line, p.element)).filter
      (!(labelNames s.walk).contains ·.2.name)).map fun t => .undefinedTarget t.1 t.2.name
  | unused => (p.first?.filter fun m =>
      m.name ≠ entryLabel && !(targetNames s.walk).contains m.name).map (.unusedLabel ·.name)
  | speaker => speakerFinding (s.characters.map (·.id)) p.element
  | text => dialogueFinding p.element
  | choices => menuFinding p.element
  | assignment => variableFinding p.element

/-- The issues that a rule finds in a script. -/
def Rule.issues (s : Script) (r : Rule) : List Issue :=
  s.places.filterMap fun p => (r.finding? s p).map (.found p.line p.element.id ·)

/-- The issue of a script without an entry. -/
def Script.entryIssues (s : Script) : List Issue :=
  if (labelNames s.walk).contains entryLabel then [] else [⟨.missingEntry, none, none⟩]

/-- Mentions that were made at places give the issues of these places. -/
theorem map_found_filterMap {α : Type} {g : Place → Option α} (mention : α → Mention)
    (hg : ∀ p a, g p = some a → (mention a).line = p.line ∧ (mention a).id = p.element.id)
    (f : α → Finding) (ps : List Place) :
    (ps.filterMap g).map (fun a => Issue.found (mention a).line (mention a).id (f a)) =
      ps.filterMap fun p => ((g p).map f).map (Issue.found p.line p.element.id ·) := by
  rw [List.map_filterMap]
  refine List.filterMap_congr fun p _ => ?_
  cases ha : g p with
  | none => rfl
  | some a =>
    obtain ⟨hline, hid⟩ := hg p a ha
    simp only [Option.map_some, hline, hid]

theorem labelMention?_place {p : Place} {m : Mention}
    (h : labelMention? (p.line, p.element) = some m) : m.line = p.line ∧ m.id = p.element.id := by
  obtain ⟨-, hline, he⟩ := labelMention?_eq_some h
  rw [he]
  exact ⟨hline, rfl⟩

theorem transferMention?_place {p : Place} {t : Transfer × Mention}
    (h : transferMention? (p.line, p.element) = some t) :
    t.2.line = p.line ∧ t.2.id = p.element.id := by
  obtain ⟨hline, ⟨-, he⟩ | ⟨-, he⟩⟩ := transferMention?_eq_some h
  · rw [he]
    exact ⟨hline, rfl⟩
  · rw [he]
    exact ⟨hline, rfl⟩

section
variable (s : Script)

theorem issues_repeated : Rule.repeated.issues s =
    (repeats [] (labelMentions s.walk)).map fun m =>
      .found m.line m.id (.duplicateLabel m.name) := by
  rw [(repeats_firsts_placesFrom [] [] (fun _ => Iff.rfl) s.walk).1]
  refine (map_found_filterMap id (fun p m hm => ?_) (.duplicateLabel ·.name) _).symm
  exact labelMention?_place (Option.filter_eq_some_iff.1 hm).1

theorem issues_unused : Rule.unused.issues s =
    ((firsts [] (labelMentions s.walk)).filter fun m =>
      m.name ≠ entryLabel && !(targetNames s.walk).contains m.name).map fun m =>
        .found m.line m.id (.unusedLabel m.name) := by
  rw [(repeats_firsts_placesFrom [] [] (fun _ => Iff.rfl) s.walk).2,
    List.filter_filterMap]
  refine (map_found_filterMap id (fun p m hm => ?_) (.unusedLabel ·.name) _).symm
  have hfirst := (Option.filter_eq_some_iff.1 hm).1
  exact labelMention?_place (Option.filter_eq_some_iff.1 hfirst).1

theorem issues_target : Rule.target.issues s =
    ((transferMentions s.walk).filter fun t => !(labelNames s.walk).contains t.2.name).map fun t =>
      .found t.2.line t.2.id (.undefinedTarget t.1 t.2.name) := by
  rw [transferMentions_eq, List.filter_filterMap, ← filterMap_placesFrom _ []]
  refine (map_found_filterMap Prod.snd (fun p t ht => ?_)
    (fun t => .undefinedTarget t.1 t.2.name) _).symm
  exact transferMention?_place (Option.filter_eq_some_iff.1 ht).1

/-- The issues of a check that looks at one element at a time. -/
theorem issuesOf_eq (find : Element → Option Finding) : issuesOf find s.walk =
    s.places.filterMap fun p => (find p.element).map (.found p.line p.element.id ·) :=
  (filterMap_placesFrom (fun x => (find x.2).map (Issue.found x.1 x.2.id ·)) [] s.walk).symm

/-- **The issues of a script** are those that each rule finds at each place, and that about a
missing entry. -/
theorem Script.issues_eq : s.issues =
    [Rule.repeated, .target, .unused].flatMap (·.issues s) ++ s.entryIssues ++
      [Rule.speaker, .text, .choices, .assignment].flatMap (·.issues s) := by
  have hlabels : labelIssues s.walk =
      [Rule.repeated, .target, .unused].flatMap (·.issues s) ++ s.entryIssues := by
    simp only [List.flatMap_cons, List.flatMap_nil, issues_repeated, issues_target, issues_unused,
      List.append_nil, List.append_assoc, entryIssues, labelIssues, labelNames, targetNames]
    rfl
  simp only [issues, Check.all, List.flatMap_cons, List.flatMap_nil, Check.run, hlabels, issuesOf_eq]
  rfl

end

end NovelScript
