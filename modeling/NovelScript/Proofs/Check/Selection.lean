import Mathlib.Data.List.Sort
import Mathlib.Data.String.Basic
import NovelScript.Proofs.Check.Faults

/-!
# Choosing checks

A check writes its own tag into every issue that it finds (`Check.check_of_mem_run`), and the tag is
the name of the check in lower case. So the issues of chosen checks are those of all checks that are
left when the others are filtered out, whatever the order in which the checks are named and however
often (`Script.validate_eq_filter`). Names that no check has are refused together, as a list that
depends on nothing but the set of the names.
-/

set_option autoImplicit false

namespace NovelScript

open Check

/-! ## Names and tags -/

namespace Check

theorem toLower_name (c : Check) : c.name.toLower = c.tag := by
  have hmap : c.name.toLower = c.name.map Char.toLower := rfl
  rw [hmap, ← String.toList_inj, String.toList_map]
  cases c <;> decide

theorem tag_injective : Function.Injective tag := by
  intro c d h
  cases c <;> cases d <;> first | rfl | exact absurd h (by decide)

theorem ofName?_eq_none {name : String} :
    ofName? name = none ↔ name ∉ all.map Check.name := by
  simp [ofName?, List.find?_eq_none]

/-- A check is named just where its tag is a name in lower case, if all names are those of
checks. -/
theorem name_mem_iff {names : List String} (h : ∀ name ∈ names, name ∈ all.map Check.name)
    (c : Check) : c.name ∈ names ↔ c.tag ∈ names.map String.toLower := by
  constructor
  · intro hc
    rw [← toLower_name]
    exact List.mem_map_of_mem hc
  · intro hc
    obtain ⟨name, hname, htag⟩ := List.mem_map.1 hc
    obtain ⟨d, -, rfl⟩ := List.mem_map.1 (h name hname)
    rw [toLower_name] at htag
    rwa [← tag_injective htag]

/-! ## The issues of one check -/

theorem check_of_mem_issuesOf {c : Check} {find : Element → Option Finding}
    {walk : List (Nat × Element)} (h : ∀ e, ∀ x ∈ find e, x.check = c) {i : Issue}
    (hi : i ∈ issuesOf find walk) : i.check = c := by
  obtain ⟨⟨line, e⟩, -, hfound⟩ := List.mem_filterMap.1 hi
  obtain ⟨x, hx, rfl⟩ := Option.map_eq_some_iff.1 hfound
  exact h e x hx

theorem check_of_mem_labelIssues {walk : List (Nat × Element)} {i : Issue}
    (hi : i ∈ labelIssues walk) : i.check = labels := by
  simp only [labelIssues, List.mem_append, List.mem_map] at hi
  rcases hi with ((⟨m, -, rfl⟩ | ⟨t, -, rfl⟩) | ⟨m, -, rfl⟩) | hi
  · rfl
  · rfl
  · rfl
  · split at hi
    · cases hi
    · rw [List.mem_singleton.1 hi]
      rfl

/-- **A check** finds only issues that refer to it. -/
theorem check_of_mem_run {c : Check} {s : Script} {i : Issue} (hi : i ∈ c.run s) :
    i.check = c := by
  cases c with
  | labels => exact check_of_mem_labelIssues hi
  | characters =>
    refine check_of_mem_issuesOf (fun e x hx => ?_) hi
    unfold speakerFinding at hx
    split at hx
    · split at hx <;> cases hx
      rfl
    · cases hx
  | dialogue =>
    refine check_of_mem_issuesOf (fun e x hx => ?_) hi
    unfold dialogueFinding at hx
    split at hx
    · split at hx <;> cases hx
      rfl
    · cases hx
  | menus =>
    refine check_of_mem_issuesOf (fun e x hx => ?_) hi
    unfold menuFinding at hx
    split at hx <;> cases hx
    · rfl
    · rfl
  | assignments =>
    refine check_of_mem_issuesOf (fun e x hx => ?_) hi
    unfold variableFinding at hx
    split at hx
    · split at hx <;> cases hx
      rfl
    · cases hx

theorem filter_run (c : Check) (s : Script) (p : Check → Bool) :
    (c.run s).filter (fun i => p i.check) = if p c then c.run s else [] := by
  split
  · rename_i hp
    exact List.filter_eq_self.2 fun i hi => by rw [check_of_mem_run hi, hp]
  · rename_i hp
    exact List.filter_eq_nil_iff.2 fun i hi => by rwa [check_of_mem_run hi]

/-- The issues of some checks in turn, filtered by check, are those of the checks that are left. -/
theorem flatMap_run_filter (cs : List Check) (s : Script) (p : Check → Bool) :
    (cs.filter p).flatMap (·.run s) = (cs.flatMap (·.run s)).filter fun i => p i.check := by
  induction cs with
  | nil => rfl
  | cons c cs ih =>
    rw [List.flatMap_cons, List.filter_append, filter_run, List.filter_cons, ← ih]
    split <;> simp

end Check

/-! ## Unknown names -/

theorem mem_unknownNames {names : List String} {name : String} :
    name ∈ unknownNames names ↔ name ∈ names ∧ name ∉ all.map Check.name := by
  rw [unknownNames, List.mem_mergeSort, List.mem_eraseDups, List.mem_filter,
    Option.isNone_iff_eq_none, ofName?_eq_none]

theorem unknownNames_eq_nil {names : List String} :
    unknownNames names = [] ↔ ∀ name ∈ names, name ∈ all.map Check.name := by
  simp only [List.eq_nil_iff_forall_not_mem, mem_unknownNames, not_and, Decidable.not_not]

theorem nodup_eraseDups (names : List String) : names.eraseDups.Nodup := by
  match names with
  | [] => exact .nil
  | name :: rest =>
    rw [List.eraseDups_cons]
    refine List.nodup_cons.2 ⟨?_, nodup_eraseDups _⟩
    simp [List.mem_eraseDups]
termination_by names.length
decreasing_by exact Nat.lt_succ_of_le (List.length_filter_le _ _)

/-- The unknown names are listed once each, in the order of their code points. -/
theorem pairwise_unknownNames (names : List String) : (unknownNames names).Pairwise (· < ·) := by
  have hle : (unknownNames names).Pairwise (· ≤ ·) := by
    have hiff (a b : String) : (!decide (b < a)) = true ↔ a ≤ b := by
      rw [Bool.not_eq_true', decide_eq_false_iff_not, not_lt]
    refine (List.pairwise_mergeSort (fun a b c => ?_) (fun a b => ?_) _).imp
      fun {a b} => (hiff a b).1
    · rw [hiff, hiff, hiff]
      exact le_trans
    · rw [Bool.or_eq_true, hiff, hiff]
      exact le_total a b
  have hnodup : (unknownNames names).Nodup := by
    rw [unknownNames, (List.mergeSort_perm _ _).nodup_iff]
    exact nodup_eraseDups _
  exact (hle.and hnodup).imp fun h => lt_of_le_of_ne h.1 h.2

theorem unknownNames_congr {names names' : List String} (h : ∀ name, name ∈ names ↔ name ∈ names') :
    unknownNames names = unknownNames names' := by
  refine (pairwise_unknownNames names).eq_of_mem_iff (pairwise_unknownNames names') fun name => ?_
  rw [mem_unknownNames, mem_unknownNames, h]

/-! ## Chosen checks -/

namespace Script

variable {s : Script} {names names' : List String}

/-- A script is validated just where all names are those of checks. -/
theorem exists_validate_iff :
    (∃ issues, s.validate names = .ok issues) ↔ ∀ name ∈ names, name ∈ all.map Check.name := by
  rw [← unknownNames_eq_nil, validate]
  by_cases h : unknownNames names = [] <;> simp [h]

theorem validate_of_known (h : ∀ name ∈ names, name ∈ all.map Check.name) : s.validate names =
    .ok (s.issues.filter fun i => i.check.tag ∈ names.map String.toLower) := by
  have hchosen : ∀ c ∈ all, names.contains c.name =
      decide (c.tag ∈ names.map String.toLower) := by
    intro c _
    rw [List.contains_eq_mem, decide_eq_decide]
    exact name_mem_iff h c
  rw [validate, if_pos (unknownNames_eq_nil.2 h), List.filter_congr hchosen,
    flatMap_run_filter _ s fun c => decide (c.tag ∈ names.map String.toLower)]
  rfl

theorem validate_of_unknown (h : ∃ name ∈ names, name ∉ all.map Check.name) :
    s.validate names = .error ⟨unknownNames names⟩ := by
  obtain ⟨name, hname, hunknown⟩ := h
  exact if_neg fun hnil => hunknown (unknownNames_eq_nil.1 hnil name hname)

theorem validate_congr (h : ∀ name, name ∈ names ↔ name ∈ names') :
    s.validate names = s.validate names' := by
  have hcontains : ∀ c ∈ all, names.contains c.name = names'.contains c.name := by
    intro c _
    rw [List.contains_eq_mem, List.contains_eq_mem, decide_eq_decide]
    exact h c.name
  rw [validate, validate, unknownNames_congr h, List.filter_congr hcontains]

/-- **Choosing checks is filtering.** Whatever the names are, in any order and with repetitions: if
all are names of checks, the issues are those of all checks, in their order, of which the check has
one of the names in lower case; and if not, the names that no check has are refused, each once and
in the order of their code points. Only the set of the names matters. -/
theorem validate_eq_filter (s : Script) (names : List String) :
    ((∀ name ∈ names, name ∈ all.map Check.name) → ∃ issues,
      s.validate (all.map Check.name) = .ok issues ∧
        s.validate names =
          .ok (issues.filter fun i => i.check.tag ∈ names.map String.toLower)) ∧
    ((∃ name ∈ names, name ∉ all.map Check.name) → ∃ unknown,
      s.validate names = .error ⟨unknown⟩ ∧
        (UnknownChecks.mk unknown).message =
          "Unknown check(s): " ++ String.intercalate ", " unknown ∧
        unknown.Pairwise (· < ·) ∧
        ∀ name, name ∈ unknown ↔ name ∈ names ∧ name ∉ all.map Check.name) ∧
    ∀ names', (∀ name, name ∈ names ↔ name ∈ names') → s.validate names = s.validate names' :=
  ⟨fun h => ⟨s.issues, validate_all s, validate_of_known h⟩,
    fun h => ⟨unknownNames names, validate_of_unknown h, rfl, pairwise_unknownNames names,
      fun _ => mem_unknownNames⟩,
    fun _ => validate_congr⟩

/-- An empty menu and below it an empty line of text. -/
def unkempt : Script where
  elements := [.statement "1" (.label "start"), .menu "2" [], .statement "3" (.dialogue "" none)]

theorem validate_eq_filter_unkempt :
    (∀ name ∈ ["Menus", "Dialogue", "Menus"], name ∈ all.map Check.name) ∧
    unkempt.validate ["Menus", "Dialogue", "Menus"] =
      .ok [.found 3 "3" .emptyDialogue, .found 2 "2" .noChoices] ∧
    (∃ name ∈ ["Notes", "Menus", "Audio", "Notes"], name ∉ all.map Check.name) ∧
    unkempt.validate ["Notes", "Menus", "Audio", "Notes"] = .error ⟨["Audio", "Notes"]⟩ ∧
    (∀ name, name ∈ ["Menus", "Dialogue", "Menus"] ↔ name ∈ ["Dialogue", "Menus"]) ∧
    unkempt.validate ["Menus", "Dialogue", "Menus"] = unkempt.validate ["Dialogue", "Menus"] := by
  have hknown : ∀ name ∈ ["Menus", "Dialogue", "Menus"], name ∈ all.map Check.name := by decide
  have hunknown : ∃ name ∈ ["Notes", "Menus", "Audio", "Notes"], name ∉ all.map Check.name := by
    decide
  have hset : ∀ name, name ∈ ["Menus", "Dialogue", "Menus"] ↔ name ∈ ["Dialogue", "Menus"] := by
    intro name
    simp only [List.mem_cons, List.not_mem_nil, or_false]
    tauto
  obtain ⟨hchosen, -, hsame⟩ := validate_eq_filter unkempt ["Menus", "Dialogue", "Menus"]
  obtain ⟨-, hrefused, -⟩ := validate_eq_filter unkempt ["Notes", "Menus", "Audio", "Notes"]
  obtain ⟨issues, hall, hfilter⟩ := hchosen hknown
  obtain ⟨unknown, herror, -, hsorted, hmem⟩ := hrefused hunknown
  refine ⟨hknown, ?_, hunknown, ?_, hset, hsame _ hset⟩
  · cases (validate_all unkempt).symm.trans hall
    rw [hfilter]
    decide +kernel
  · rw [herror]
    have hnames : unknown = ["Audio", "Notes"] := by
      refine hsorted.eq_of_mem_iff (by decide) fun name => ?_
      rw [hmem]
      simp only [List.mem_cons, List.not_mem_nil, or_false]
      constructor
      · rintro ⟨rfl | rfl | rfl | rfl, hnot⟩
        · exact .inr rfl
        · exact absurd (by decide) hnot
        · exact .inl rfl
        · exact .inr rfl
      · rintro (rfl | rfl)
        · exact ⟨by decide, by decide⟩
        · exact ⟨by decide, by decide⟩
    rw [hnames]

end Script

end NovelScript
