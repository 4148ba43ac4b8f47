import Mathlib.Data.List.Perm.Basic
import NovelScript.Proofs.Check.Selection
import NovelScript.Proofs.Ids

/-!
# Scripts that are rearranged

What is wrong with a script does not depend on where its elements stand or how they are named. Every
check draws its findings from the elements that a walk reaches, without their lines and ids
(`Script.reached`), and from these as a multiset: of the labels of one name the first in the walk is
spared, and which one that is depends on their order, but not how many are left
(`perm_map_repeats`). So the verdicts on a rearranged script are those on the script
(`Script.perm_verdicts`).
-/

set_option autoImplicit false

namespace NovelScript

open Check

/-- Whether two scripts differ only in the order of their top-level elements and of their cast, in
the ids of elements and choices, and in their assets. -/
structure Script.Rearranged (s s' : Script) : Prop where
  elements : s.bare.elements.Perm s'.bare.elements
  characters : s.characters.Perm s'.characters

/-- What an issue says but for its place: the severity, the name of the check, and the message. -/
def Issue.verdict (i : Issue) : Severity × String × String :=
  (i.severity, i.check.tag, i.message)

/-! ## What a walk reaches -/

/-- The elements that a walk reaches, without ids. -/
def Script.reached (s : Script) : List Element :=
  s.walk.map fun x => x.2.bare

theorem map_snd_walkFrom : ∀ (es : List Element) (n : Nat),
    (walkFrom n es).map Prod.snd = withInner es
  | [], _ => rfl
  | e :: es, n => by
    rw [walkFrom, withInner, List.map_append, map_snd_walkFrom es, List.map_map]
    exact congrArg (· ++ withInner es) (List.map_id _)

mutual

theorem Element.inner_bare : ∀ e : Element, e.bare.inner = e.inner.map Element.bare
  | .statement _ _ => rfl
  | .menu _ choices => by
    rw [Element.bare, Element.inner, Element.inner, innerOfChoices_bare]

theorem innerOfChoices_bare : ∀ cs : List Choice,
    innerOfChoices (bareChoices cs) = (innerOfChoices cs).map Element.bare
  | [] => rfl
  | ⟨_, _, _, actions⟩ :: cs => by
    rw [bareChoices, innerOfChoices, innerOfChoices, List.map_append, withInner_bare actions,
      innerOfChoices_bare cs]

theorem withInner_bare : ∀ es : List Element,
    withInner (bareElements es) = (withInner es).map Element.bare
  | [] => rfl
  | e :: es => by
    rw [bareElements, withInner, withInner, List.map_append, List.map_cons, Element.inner_bare e,
      withInner_bare es]

end

theorem withInner_eq_flatMap : ∀ es : List Element,
    withInner es = es.flatMap fun e => e :: e.inner
  | [] => rfl
  | e :: es => by rw [withInner, withInner_eq_flatMap es, List.flatMap_cons]

theorem Script.reached_eq (s : Script) :
    s.reached = s.bare.elements.flatMap fun e => e :: e.inner := by
  have hmap : s.reached = (s.walk.map Prod.snd).map Element.bare := by
    rw [List.map_map]
    rfl
  rw [hmap, walk, map_snd_walkFrom, ← withInner_bare, withInner_eq_flatMap]
  rfl

/-! ## Labels and transfers -/

/-- The name of a label that has one. -/
def labelName? : Element → Option String
  | .statement _ (.label name) => if name = "" then none else some name
  | _ => none

/-- The kind and the target of a jump or call. -/
def transfer? : Element → Option (Transfer × String)
  | .statement _ (.jump target) => some (.jump, target)
  | .statement _ (.call target) => some (.call, target)
  | _ => none

/-- What is found of an element without its id is found along a walk. -/
theorem Script.filterMap_walk {α : Type} (s : Script) {f : Nat × Element → Option α}
    {g : Element → Option α} (h : ∀ line e, f (line, e) = g e.bare) :
    s.walk.filterMap f = s.reached.filterMap g := by
  rw [reached, List.filterMap_map]
  exact List.filterMap_congr fun x _ => h x.1 x.2

theorem Script.labelNames_walk (s : Script) :
    labelNames s.walk = s.reached.filterMap labelName? := by
  rw [labelNames, labelMentions_eq, List.map_filterMap]
  refine s.filterMap_walk fun line e => ?_
  cases e with
  | menu id choices => rfl
  | statement id content =>
    cases content with
    | label name =>
      by_cases hname : name = "" <;>
        simp only [labelMention?, Element.bare_statement, labelName?, hname, if_true, if_false,
          Option.map_none, Option.map_some]
    | _ => rfl

/-- The jumps and calls of a walk, without their places. -/
def transferNames (walk : List (Nat × Element)) : List (Transfer × String) :=
  (transferMentions walk).map fun t => (t.1, t.2.name)

theorem Script.transferNames_walk (s : Script) :
    transferNames s.walk = s.reached.filterMap transfer? := by
  rw [transferNames, transferMentions_eq, List.map_filterMap]
  refine s.filterMap_walk fun line e => ?_
  cases e with
  | menu id choices => rfl
  | statement id content => cases content <;> rfl

/-! ## First and further mentions -/

theorem firsts_append_repeats (known : List String) (ms : List Mention) :
    (firsts known ms ++ repeats known ms).Perm ms := by
  induction ms generalizing known with
  | nil => exact .nil
  | cons m ms ih =>
    rw [firsts, repeats]
    split
    · exact List.perm_middle.trans ((ih known).cons m)
    · exact (ih (m.name :: known)).cons m

theorem mem_map_firsts {known : List String} {ms : List Mention} {name : String} :
    name ∈ (firsts known ms).map (·.name) ↔ name ∉ known ∧ name ∈ ms.map (·.name) := by
  induction ms generalizing known with
  | nil => simp [firsts]
  | cons m ms ih =>
    rw [firsts]
    split
    · rename_i hknown
      have hmem : m.name ∈ known := List.contains_iff_mem.1 hknown
      rw [ih, List.map_cons, List.mem_cons]
      refine and_congr_right fun hnew => (or_iff_right ?_).symm
      rintro rfl
      exact hnew hmem
    · rename_i hnew
      have hmem : m.name ∉ known := fun h => hnew (List.contains_iff_mem.2 h)
      rw [List.map_cons, List.mem_cons, ih, List.map_cons, List.mem_cons, List.mem_cons, not_or]
      by_cases hname : name = m.name
      · subst hname
        simp [hmem]
      · simp [hname]

theorem nodup_map_firsts (known : List String) (ms : List Mention) :
    ((firsts known ms).map (·.name)).Nodup := by
  induction ms generalizing known with
  | nil => exact .nil
  | cons m ms ih =>
    rw [firsts]
    split
    · exact ih known
    · refine List.nodup_cons.2 ⟨fun h => ?_, ih (m.name :: known)⟩
      exact (mem_map_firsts.1 h).1 (.head _)

section
variable {ms ms' : List Mention} (h : (ms.map (·.name)).Perm (ms'.map (·.name)))
include h

/-- The names that are mentioned do not depend on the order of the mentions. -/
theorem perm_map_firsts :
    ((firsts [] ms).map (·.name)).Perm ((firsts [] ms').map (·.name)) := by
  refine (List.perm_ext_iff_of_nodup (nodup_map_firsts [] ms) (nodup_map_firsts [] ms')).2
    fun name => ?_
  rw [mem_map_firsts, mem_map_firsts, h.mem_iff]

/-- Nor does how often each of them is mentioned again: the first mention is always one. -/
theorem perm_map_repeats :
    ((repeats [] ms).map (·.name)).Perm ((repeats [] ms').map (·.name)) := by
  have hsplit (ms : List Mention) :
      ((firsts [] ms).map (·.name) ++ (repeats [] ms).map (·.name)).Perm (ms.map (·.name)) := by
    rw [← List.map_append]
    exact (firsts_append_repeats [] ms).map _
  have hfirsts := (perm_map_firsts h).append_right ((repeats [] ms').map (·.name))
  refine (List.perm_append_left_iff ((firsts [] ms).map (·.name))).1 ?_
  exact (hsplit ms).trans (h.trans ((hsplit ms').symm.trans hfirsts.symm))

end

/-! ## Findings -/

/-- The findings of a check that looks at one element at a time and not at its id. -/
theorem Script.map_finding_issuesOf (s : Script) {find : Element → Option Finding}
    (h : ∀ e : Element, find e = find e.bare) :
    (issuesOf find s.walk).map (·.finding) = s.reached.filterMap find := by
  rw [issuesOf, List.map_filterMap]
  refine s.filterMap_walk fun line e => ?_
  rw [← h, Option.map_map]
  exact Option.map_id'

theorem speakerFinding_bare (cast : List String) (e : Element) :
    speakerFinding cast e = speakerFinding cast e.bare := by
  cases e with
  | menu id choices => rfl
  | statement id content =>
    cases content with
    | dialogue content speaker => cases speaker <;> rfl
    | _ => rfl

theorem dialogueFinding_bare (e : Element) : dialogueFinding e = dialogueFinding e.bare := by
  cases e with
  | menu id choices => rfl
  | statement id content => cases content <;> rfl

theorem menuFinding_bare (e : Element) : menuFinding e = menuFinding e.bare := by
  cases e with
  | menu id choices =>
    rw [Element.bare_menu]
    rcases choices with _ | ⟨c, _ | ⟨c', choices⟩⟩ <;> rfl
  | statement id content => rfl

theorem variableFinding_bare (e : Element) : variableFinding e = variableFinding e.bare := by
  cases e with
  | menu id choices => rfl
  | statement id content => cases content <;> rfl

theorem speakerFinding_congr {cast cast' : List String} (h : cast.Perm cast') :
    speakerFinding cast = speakerFinding cast' := by
  funext e
  unfold speakerFinding
  split
  · rw [h.contains_eq]
  · rfl

/-- The findings of the check of labels, by the names of labels and the transfers alone. -/
theorem map_finding_labelIssues (walk : List (Nat × Element)) :
    (labelIssues walk).map (·.finding) =
      ((repeats [] (labelMentions walk)).map (·.name)).map .duplicateLabel ++
        ((transferNames walk).filter fun t => !(labelNames walk).contains t.2).map
          (fun t => .undefinedTarget t.1 t.2) ++
        (((firsts [] (labelMentions walk)).map (·.name)).filter fun name =>
          name ≠ entryLabel && !((transferNames walk).map (·.2)).contains name).map .unusedLabel ++
        if (labelNames walk).contains entryLabel then [] else [.missingEntry] := by
  have hentry : (if (labelNames walk).contains entryLabel then []
      else [⟨.missingEntry, none, none⟩] : List Issue).map (·.finding) =
        if (labelNames walk).contains entryLabel then [] else [.missingEntry] := by
    split <;> rfl
  rw [← hentry]
  simp only [labelIssues, labelNames, transferNames, List.map_append, List.map_map,
    List.filter_map]
  rfl

section
variable {s s' : Script} (h : s.Rearranged s')
include h

theorem Script.Rearranged.perm_reached : s.reached.Perm s'.reached := by
  rw [reached_eq, reached_eq]
  exact h.elements.flatMap_right _

theorem Script.Rearranged.perm_labelNames : (labelNames s.walk).Perm (labelNames s'.walk) := by
  rw [labelNames_walk, labelNames_walk]
  exact h.perm_reached.filterMap _

theorem Script.Rearranged.perm_transferNames :
    (transferNames s.walk).Perm (transferNames s'.walk) := by
  rw [transferNames_walk, transferNames_walk]
  exact h.perm_reached.filterMap _

theorem Script.Rearranged.perm_labelIssues :
    ((labelIssues s.walk).map (·.finding)).Perm
      ((labelIssues s'.walk).map (·.finding)) := by
  simp only [map_finding_labelIssues, h.perm_labelNames.contains_eq,
    (h.perm_transferNames.map Prod.snd).contains_eq]
  refine .append (.append (.append ?_ ?_) ?_) (.refl _)
  · exact (perm_map_repeats h.perm_labelNames).map _
  · exact (h.perm_transferNames.filter _).map _
  · exact ((perm_map_firsts h.perm_labelNames).filter _).map _

/-- Each check finds the same in a rearranged script. -/
theorem Script.Rearranged.perm_run (c : Check) :
    ((c.run s).map (·.finding)).Perm ((c.run s').map (·.finding)) := by
  cases c with
  | labels => exact h.perm_labelIssues
  | characters =>
    simp only [Check.run, map_finding_issuesOf _ (speakerFinding_bare _),
      speakerFinding_congr (h.characters.map (·.id))]
    exact h.perm_reached.filterMap _
  | dialogue =>
    simp only [Check.run, map_finding_issuesOf _ dialogueFinding_bare]
    exact h.perm_reached.filterMap _
  | menus =>
    simp only [Check.run, map_finding_issuesOf _ menuFinding_bare]
    exact h.perm_reached.filterMap _
  | assignments =>
    simp only [Check.run, map_finding_issuesOf _ variableFinding_bare]
    exact h.perm_reached.filterMap _

end

/-! ## Verdicts -/

theorem Issue.counts_congr {issues issues' : List Issue}
    (h : (issues.map (·.finding)).Perm (issues'.map (·.finding))) :
    counts issues = counts issues' := by
  have herrors (issues : List Issue) : issues.countP (·.severity = .error) =
      (issues.map (·.finding)).countP (·.severity = .error) := by
    rw [List.countP_map]
    rfl
  have hlength : issues.length = issues'.length := by
    simpa only [List.length_map] using h.length_eq
  rw [counts, counts, herrors, herrors, h.countP_eq, hlength]

/-- **What is wrong with a script** does not change when it is rearranged: with any choice of checks
the same verdicts come out, each as often as before, and so they are counted and summed up alike. -/
theorem Script.perm_verdicts {s s' : Script} (h : s.Rearranged s') {names : List String}
    (hnames : ∀ name ∈ names, name ∈ all.map Check.name) :
    ∃ issues issues', s.validate names = .ok issues ∧ s'.validate names = .ok issues' ∧
      (issues.map Issue.verdict).Perm (issues'.map Issue.verdict) ∧
      Issue.counts issues = Issue.counts issues' ∧
      Issue.summary issues = Issue.summary issues' := by
  have hvalidate (s : Script) : s.validate names =
      .ok ((all.filter fun c => names.contains c.name).flatMap (·.run s)) :=
    if_pos (unknownNames_eq_nil.2 hnames)
  have hfindings :
      (((all.filter fun c => names.contains c.name).flatMap (·.run s)).map (·.finding)).Perm
        (((all.filter fun c => names.contains c.name).flatMap (·.run s')).map (·.finding)) := by
    rw [List.map_flatMap, List.map_flatMap]
    exact List.Perm.flatMap_left _ fun c _ => h.perm_run c
  have hcounts := Issue.counts_congr hfindings
  refine ⟨_, _, hvalidate s, hvalidate s', ?_, hcounts, ?_⟩
  · have hverdict (issues : List Issue) : issues.map Issue.verdict =
        (issues.map (·.finding)).map fun x => (x.severity, x.check.tag, x.message) := by
      rw [List.map_map]
      rfl
    rw [hverdict, hverdict]
    exact hfindings.map _
  · rw [Issue.summary, Issue.summary, hcounts]

/-- A script that defines a label once at the top and once in a choice. -/
def twoEnds : Script where
  characters := [⟨"e", "Eve", none⟩, ⟨"a", "Ann", none⟩]
  elements := [.statement "1" (.label "start"), .statement "2" (.jump "home"),
    .menu "3" [⟨"4", "Go", none, [.statement "5" (.label "end"), .menu "6" []]⟩],
    .statement "7" (.label "end"), .statement "8" (.dialogue "" (some "x"))]

/-- The same with the last two elements in front, and with other ids. -/
def twoEndsElsewhere : Script where
  characters := [⟨"a", "Ann", none⟩, ⟨"e", "Eve", none⟩]
  elements := [.statement "" (.label "end"), .statement "" (.dialogue "" (some "x")),
    .statement "2" (.label "start"), .statement "1" (.jump "home"),
    .menu "1" [⟨"1", "Go", none, [.statement "1" (.label "end"), .menu "1" []]⟩]]

theorem rearranged_twoEnds : twoEnds.Rearranged twoEndsElsewhere where
  elements := by
    rw [← List.take_append_drop 3 twoEnds.bare.elements]
    exact List.perm_append_comm
  characters := .swap _ _ _

/-- The label that is defined again stands at line 3 in one script and at line 5 in the other. -/
theorem Script.perm_verdicts_twoEnds : twoEnds.Rearranged twoEndsElsewhere ∧
    (∀ name ∈ all.map Check.name, name ∈ all.map Check.name) ∧
    twoEnds.validate (all.map Check.name) ≠ twoEndsElsewhere.validate (all.map Check.name) ∧
    ∃ issues issues', twoEnds.validate (all.map Check.name) = .ok issues ∧
      twoEndsElsewhere.validate (all.map Check.name) = .ok issues' ∧
      (issues.map Issue.verdict).Perm (issues'.map Issue.verdict) ∧
      Issue.counts issues = Issue.counts issues' ∧
      Issue.summary issues = Issue.summary issues' := by
  refine ⟨rearranged_twoEnds, fun _ h => h, ?_, perm_verdicts rearranged_twoEnds fun _ h => h⟩
  rw [validate_all, validate_all]
  decide +kernel

end NovelScript
