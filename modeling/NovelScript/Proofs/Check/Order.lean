import NovelScript.Proofs.Check.Faults

/-!
# The order of the issues

The checks report in turn, and the check of labels goes through the script more than once: for the
labels that repeat a name, for the jumps and calls, and for the labels that nothing leads to; then
it looks for the entry. Each `Pass` reports line by line (`Pass.pairwise_issues`). So the issues are
sorted by check, and those of a check by line if they are of the same part of its report
(`Script.issues_sorted`), but a label that repeats a name is reported before a jump that stands above
it.
-/

set_option autoImplicit false

namespace NovelScript

open Check

/-! ## Order -/

/-- The place of a check among those that report. -/
def Check.rank (c : Check) : Nat := Check.all.idxOf c

/-- The part of its check's report that a finding stands in; only the report on labels has more than
one. -/
def Finding.part : Finding → Nat
  | undefinedTarget .. => 1
  | unusedLabel _ => 2
  | missingEntry => 3
  | _ => 0

namespace Issue

/-- Whether an issue stands no further down than another; one without a line stands behind all. -/
def LineLE (i j : Issue) : Prop := ∀ n ∈ j.line, ∃ m ∈ i.line, m ≤ n

/-- Whether an issue may be listed before another where they are sorted by check and then by
line. -/
def Precedes (i j : Issue) : Prop :=
  i.check.rank < j.check.rank ∨ i.check = j.check ∧ i.LineLE j

/-- Whether an issue may be listed before another where they are sorted by check, then by part and
then by line. -/
def PrecedesByPart (i j : Issue) : Prop :=
  i.check.rank < j.check.rank ∨
    i.check = j.check ∧
      (i.finding.part < j.finding.part ∨ i.finding.part = j.finding.part ∧ i.LineLE j)

instance (i j : Issue) : Decidable (i.LineLE j) := inferInstanceAs (Decidable (∀ n ∈ _, _))

instance (i j : Issue) : Decidable (i.Precedes j) := inferInstanceAs (Decidable (_ ∨ _))

theorem Precedes.lineLE {i j : Issue} (h : i.Precedes j) (hcheck : i.check = j.check) :
    i.LineLE j := by
  obtain hrank | ⟨-, hle⟩ := h
  · exact absurd hrank (hcheck ▸ Nat.lt_irrefl _)
  · exact hle

theorem PrecedesByPart.part_le {i j : Issue} (h : i.PrecedesByPart j)
    (hcheck : i.check = j.check) : i.finding.part ≤ j.finding.part := by
  obtain hrank | ⟨-, hlt | ⟨heq, -⟩⟩ := h
  · exact absurd hrank (hcheck ▸ Nat.lt_irrefl _)
  · exact Nat.le_of_lt hlt
  · exact Nat.le_of_eq heq

end Issue

/-! ## Passes -/

theorem pairwise_placesFrom {walk : List (Nat × Element)} (h : walk.Pairwise fun x y => x.1 ≤ y.1)
    (earlier : List (Nat × Element)) :
    (placesFrom earlier walk).Pairwise fun p q => p.line ≤ q.line := by
  induction walk generalizing earlier with
  | nil => exact .nil
  | cons x walk ih =>
    obtain ⟨hx, hwalk⟩ := List.pairwise_cons.1 h
    refine List.pairwise_cons.2 ⟨fun q hq => ?_, ih hwalk _⟩
    obtain ⟨before, after, rfl, -⟩ := mem_placesFrom.1 hq
    exact hx _ (List.mem_append_right _ (.head _))

/-- What the checks do in turn: apply a rule at every place, or look for the entry. -/
abbrev Pass := Option Rule

namespace Pass

def all : List Pass :=
  [some .repeated, some .target, some .unused, none, some .speaker, some .text, some .choices,
    some .assignment]

def issues (s : Script) : Pass → List Issue
  | some r => r.issues s
  | none => s.entryIssues

/-- The check that a pass belongs to. -/
def check : Pass → Check
  | some .speaker => .characters
  | some .text => .dialogue
  | some .choices => .menus
  | some .assignment => .assignments
  | _ => .labels

/-- The part of its check's report that a pass makes. -/
def part : Pass → Nat
  | some .target => 1
  | some .unused => 2
  | none => 3
  | _ => 0

theorem check_rule? (x : Finding) : check x.rule? = x.check := by cases x <;> rfl

theorem part_rule? (x : Finding) : part x.rule? = x.part := by cases x <;> rfl

variable {s : Script}

/-- A pass finds only what it looks for, and all but the search for the entry find it on a line. -/
theorem of_mem_issues {p : Pass} {i : Issue} (h : i ∈ p.issues s) :
    i.finding.rule? = p ∧ (i.line = none ↔ p = none) := by
  cases p with
  | none =>
    simp only [issues, Script.entryIssues] at h
    split at h
    · cases h
    · rw [List.mem_singleton.1 h]
      exact ⟨rfl, iff_of_true rfl rfl⟩
  | some r =>
    obtain ⟨place, -, hfound⟩ := List.mem_filterMap.1 h
    obtain ⟨x, hx, rfl⟩ := Option.map_eq_some_iff.1 hfound
    exact ⟨Rule.rule?_of_finding? hx,
      iff_of_false (Option.some_ne_none _) (Option.some_ne_none _)⟩

theorem rule?_of_mem_issues {p : Pass} {i : Issue} (h : i ∈ p.issues s) : i.finding.rule? = p :=
  (of_mem_issues h).1

/-- **A pass** reports line by line. -/
theorem pairwise_issues (s : Script) (p : Pass) : (p.issues s).Pairwise Issue.LineLE := by
  cases p with
  | none =>
    simp only [issues, Script.entryIssues]
    split
    · exact .nil
    · exact List.pairwise_singleton _ _
  | some r =>
    rw [issues, Rule.issues, List.pairwise_filterMap]
    refine (pairwise_placesFrom s.pairwise_walk []).imp fun {p q} hle i hi j hj n hn => ?_
    obtain ⟨x, -, rfl⟩ := Option.map_eq_some_iff.1 hi
    obtain ⟨y, -, rfl⟩ := Option.map_eq_some_iff.1 hj
    cases hn
    exact ⟨p.line, rfl, hle⟩

/-- The passes come check by check, and those of one check part by part. -/
theorem pairwise_all : all.Pairwise fun p q =>
    p.check.rank < q.check.rank ∨ p.check = q.check ∧ p.part < q.part := by decide

end Pass

/-! ## The issues of a script -/

section
variable (s : Script)

theorem Script.issues_eq_passes : s.issues = Pass.all.flatMap (Pass.issues s) := by
  rw [issues_eq]
  simp [Pass.all, Pass.issues]

theorem Script.pairwise_precedesByPart : s.issues.Pairwise Issue.PrecedesByPart := by
  rw [issues_eq_passes, List.pairwise_flatMap]
  refine ⟨fun p _ => ?_, Pass.pairwise_all.imp fun {p q} hpq i hi j hj => ?_⟩
  · refine (Pass.pairwise_issues s p).imp_of_mem fun {i j} hi hj hle => ?_
    have hrule : i.finding.rule? = j.finding.rule? :=
      (Pass.rule?_of_mem_issues hi).trans (Pass.rule?_of_mem_issues hj).symm
    have hcheck : i.check = j.check := by
      rw [Issue.check, Issue.check, ← Pass.check_rule?, hrule, Pass.check_rule?]
    have hpart : i.finding.part = j.finding.part := by
      rw [← Pass.part_rule?, hrule, Pass.part_rule?]
    exact .inr ⟨hcheck, .inr ⟨hpart, hle⟩⟩
  · rw [← Pass.rule?_of_mem_issues hi, ← Pass.rule?_of_mem_issues hj, Pass.check_rule?,
      Pass.check_rule?, Pass.part_rule?, Pass.part_rule?] at hpq
    exact hpq.imp_right fun ⟨hcheck, hpart⟩ => ⟨hcheck, .inl hpart⟩

/-- Only the search for the entry finds an issue without a line. -/
theorem Script.line_eq_none_iff {s : Script} {i : Issue} (h : i ∈ s.issues) :
    i.line = none ↔ i.finding.rule? = none := by
  rw [issues_eq_passes] at h
  obtain ⟨p, -, hi⟩ := List.mem_flatMap.1 h
  obtain ⟨hrule, hline⟩ := Pass.of_mem_issues hi
  rw [hline, hrule]

/-- An issue without a line is the last of its check. -/
theorem Script.pairwise_line_eq_none :
    s.issues.Pairwise fun i j => i.check = j.check → i.line = none → j.line = none := by
  refine s.pairwise_precedesByPart.imp_of_mem fun {i j} hi hj h hcheck hline => ?_
  rw [line_eq_none_iff hi] at hline
  rw [line_eq_none_iff hj]
  have hpart := h.part_le hcheck
  -- The entry is looked for in the last part of the report on labels.
  rw [← Pass.part_rule? i.finding, hline, ← Pass.part_rule? j.finding] at hpart
  rcases hrule : j.finding.rule? with _ | r
  · rfl
  · rw [hrule] at hpart
    cases r <;> exact absurd hpart (by decide)

/-- **The issues** come check by check, those of a check part by part, and those of a part by line;
an issue without a line is the last of its check. So they are sorted by check and then by line if
and only if no issue of an earlier part stands further down than one of a later part. -/
theorem Script.issues_sorted :
    s.issues.Pairwise Issue.PrecedesByPart ∧
    (s.issues.Pairwise fun i j => i.check = j.check → i.line = none → j.line = none) ∧
    (s.issues.Pairwise Issue.Precedes ↔ ∀ i ∈ s.issues, ∀ j ∈ s.issues,
      i.check = j.check → i.finding.part < j.finding.part → i.LineLE j) := by
  have hparts := s.pairwise_precedesByPart
  refine ⟨hparts, s.pairwise_line_eq_none, fun h i hi j hj hcheck hpart => ?_, fun h => ?_⟩
  · obtain ⟨m, hm, rfl⟩ := List.mem_iff_getElem.1 hi
    obtain ⟨n, hn, rfl⟩ := List.mem_iff_getElem.1 hj
    have hmn : m < n := by
      rcases Nat.lt_trichotomy m n with hlt | rfl | hgt
      · exact hlt
      · exact absurd hpart (Nat.lt_irrefl _)
      · -- The later part would come first.
        have hle := (List.pairwise_iff_getElem.1 hparts n m hn hm hgt).part_le hcheck.symm
        exact absurd hpart (Nat.not_lt.2 hle)
    exact (List.pairwise_iff_getElem.1 h m n hm hn hmn).lineLE hcheck
  · refine hparts.imp_of_mem fun {i j} hi hj => ?_
    rintro (hrank | ⟨hcheck, hlt | ⟨-, hle⟩⟩)
    · exact .inl hrank
    · exact .inr ⟨hcheck, h i hi j hj hcheck hlt⟩
    · exact .inr ⟨hcheck, hle⟩

/-- A jump to nowhere, and behind it two labels of one name. -/
def strayJump : Script where
  elements := [.statement "1" (.jump "nowhere"), .statement "2" (.label "start"),
    .statement "3" (.label "start")]

/-- The second label is reported before the jump above it. -/
theorem Script.not_forall_issues_sorted : ¬ ∀ s : Script, s.issues.Pairwise Issue.Precedes := by
  intro h
  have hjump : ¬ strayJump.issues.Pairwise Issue.Precedes := by decide
  exact hjump (h strayJump)

end

end NovelScript
