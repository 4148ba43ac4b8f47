import NovelScript.Proofs.Check.Places

/-!
# What is wrong with a script

`Script.FaultAt` says what is wrong at a place of a script, and `Script.FaultOfAll` what is wrong
with the script as a whole, both without a word on how it is found. `Script.count_issues`: the checks
report each fault once and nothing else, at the id of the element and the number of the top-level
element that holds it.
-/

set_option autoImplicit false

namespace NovelScript

open Check

/-! ## Faults -/

/-- Whether a label of this name is in a walk; a label without a name is none. -/
def HasLabel (walk : List (Nat × Element)) (name : String) : Prop :=
  name ≠ "" ∧ ∃ line id, (line, .statement id (.label name)) ∈ walk

/-- Whether a jump or a call in a walk leads to this name. -/
def HasTransfer (walk : List (Nat × Element)) (name : String) : Prop :=
  ∃ line id, (line, .statement id (.jump name)) ∈ walk ∨ (line, .statement id (.call name)) ∈ walk

/-- Whether a name is an identifier of ASCII: a letter or an underscore, and behind it letters,
digits and underscores. -/
def IsAsciiIdentifier (name : List Char) : Prop :=
  ∃ c rest, name = c :: rest ∧ IsLetter c ∧ ∀ d ∈ rest, IsLetter d ∨ '0' ≤ d ∧ d ≤ '9'
where
  IsLetter (c : Char) : Prop := 'A' ≤ c ∧ c ≤ 'Z' ∨ 'a' ≤ c ∧ c ≤ 'z' ∨ c = '_'

/-- What is wrong at a place of a script, and how severe it is. -/
inductive Script.FaultAt (s : Script) (p : Place) : Severity → Finding → Prop
  | duplicateLabel {id name : String} (he : p.element = .statement id (.label name))
    (hearlier : HasLabel p.earlier name) : FaultAt s p .error (.duplicateLabel name)
  | undefinedJump {id target : String} (he : p.element = .statement id (.jump target))
    (hlabel : ¬ HasLabel s.walk target) : FaultAt s p .error (.undefinedTarget .jump target)
  | undefinedCall {id target : String} (he : p.element = .statement id (.call target))
    (hlabel : ¬ HasLabel s.walk target) : FaultAt s p .error (.undefinedTarget .call target)
  | unusedLabel {id name : String} (he : p.element = .statement id (.label name)) (hne : name ≠ "")
    (hfirst : ¬ HasLabel p.earlier name) (hentry : name ≠ "start")
    (hunused : ¬ HasTransfer s.walk name) : FaultAt s p .warning (.unusedLabel name)
  | undefinedSpeaker {id content name : String}
    (he : p.element = .statement id (.dialogue content (some name))) (hne : name ≠ "")
    (hnarrator : name ≠ "narrator") (hcast : ∀ c ∈ s.characters, c.id ≠ name) :
    FaultAt s p .warning (.undefinedSpeaker name)
  | emptyDialogue {id : String} {speaker : Option String}
    (he : p.element = .statement id (.dialogue "" speaker)) : FaultAt s p .warning .emptyDialogue
  | noChoices {id : String} (he : p.element = .menu id []) : FaultAt s p .error .noChoices
  | oneChoice {id : String} {c : Choice} (he : p.element = .menu id [c]) :
    FaultAt s p .warning .oneChoice
  | invalidVariable {id name value : String} (he : p.element = .statement id (.assign name value))
    (hname : ¬ IsAsciiIdentifier name.toList) : FaultAt s p .error (.invalidVariable name)

/-- What is wrong with a script as a whole. -/
inductive Script.FaultOfAll (s : Script) : Severity → Finding → Prop
  | missingEntry (h : ¬ HasLabel s.walk "start") : FaultOfAll s .warning .missingEntry

/-- Whether an issue names the element and the line of a place. -/
def Issue.IsAt (i : Issue) (p : Place) : Prop :=
  i.elementId = some p.element.id ∧ i.line = some p.line

/-! ## Names -/

theorem mem_labelNames {walk : List (Nat × Element)} {name : String} :
    name ∈ labelNames walk ↔ HasLabel walk name := by
  simp only [labelNames, labelMentions_eq, List.mem_map, List.mem_filterMap]
  constructor
  · rintro ⟨m, ⟨⟨line, e⟩, hx, hm⟩, rfl⟩
    obtain ⟨hne, -, rfl⟩ := labelMention?_eq_some hm
    exact ⟨hne, line, m.id, hx⟩
  · rintro ⟨hne, line, id, hx⟩
    exact ⟨⟨line, id, name⟩, ⟨_, hx, labelMention?_label hne⟩, rfl⟩

theorem mem_targetNames {walk : List (Nat × Element)} {name : String} :
    name ∈ targetNames walk ↔ HasTransfer walk name := by
  simp only [targetNames, transferMentions_eq, List.mem_map, List.mem_filterMap]
  constructor
  · rintro ⟨⟨t, m⟩, ⟨⟨line, e⟩, hx, hm⟩, rfl⟩
    obtain ⟨-, ⟨-, rfl⟩ | ⟨-, rfl⟩⟩ := transferMention?_eq_some hm
    · exact ⟨line, m.id, .inl hx⟩
    · exact ⟨line, m.id, .inr hx⟩
  · rintro ⟨line, id, hx | hx⟩
    · exact ⟨(.jump, ⟨line, id, name⟩), ⟨_, hx, rfl⟩, rfl⟩
    · exact ⟨(.call, ⟨line, id, name⟩), ⟨_, hx, rfl⟩, rfl⟩

theorem isUpper_iff (c : Char) : c.isUpper = true ↔ 'A' ≤ c ∧ c ≤ 'Z' :=
  decide_eq_true_iff

theorem isLower_iff (c : Char) : c.isLower = true ↔ 'a' ≤ c ∧ c ≤ 'z' :=
  Bool.and_eq_true_iff.trans (and_congr decide_eq_true_iff decide_eq_true_iff)

theorem isDigit_iff (c : Char) : c.isDigit = true ↔ '0' ≤ c ∧ c ≤ '9' :=
  Bool.and_eq_true_iff.trans (and_congr decide_eq_true_iff decide_eq_true_iff)

theorem isLetter_iff (c : Char) :
    (c.isAlpha || c == '_') = true ↔ IsAsciiIdentifier.IsLetter c := by
  have halpha : c.isAlpha = true ↔ c.isUpper = true ∨ c.isLower = true := Bool.or_eq_true_iff
  rw [Bool.or_eq_true, halpha, isUpper_iff, isLower_iff, beq_iff_eq, or_assoc]
  exact Iff.rfl

theorem isLetterOrDigit_iff (c : Char) : (c.isAlphanum || c == '_') = true ↔
    IsAsciiIdentifier.IsLetter c ∨ '0' ≤ c ∧ c ≤ '9' := by
  have halphanum : c.isAlphanum = true ↔ c.isAlpha = true ∨ c.isDigit = true :=
    Bool.or_eq_true_iff
  rw [← isLetter_iff, Bool.or_eq_true, Bool.or_eq_true, halphanum, isDigit_iff]
  exact or_right_comm

theorem isIdentifier_iff {name : List Char} :
    isIdentifier name = true ↔ IsAsciiIdentifier name := by
  cases name with
  | nil => simp [isIdentifier, IsAsciiIdentifier]
  | cons c rest =>
    simp only [isIdentifier, IsAsciiIdentifier, Bool.and_eq_true, List.all_eq_true, isLetter_iff,
      isLetterOrDigit_iff, List.cons.injEq]
    constructor
    · rintro ⟨hc, hrest⟩
      exact ⟨c, rest, ⟨rfl, rfl⟩, hc, hrest⟩
    · rintro ⟨c, rest, ⟨rfl, rfl⟩, hc, hrest⟩
      exact ⟨hc, hrest⟩

/-! ## What the rules find -/

namespace Rule

variable {s : Script} {p : Place} {x : Finding}

theorem finding?_repeated : finding? s p .repeated = some x ↔
    ∃ id name, p.element = .statement id (.label name) ∧ HasLabel p.earlier name ∧
      x = .duplicateLabel name := by
  simp only [finding?, Place.repeated?, Option.map_eq_some_iff, Option.filter_eq_some_iff,
    decide_eq_true_eq, mem_labelNames]
  constructor
  · rintro ⟨m, ⟨hm, hlabel⟩, rfl⟩
    exact ⟨m.id, m.name, (labelMention?_eq_some hm).2.2, hlabel, rfl⟩
  · rintro ⟨id, name, he, hlabel, rfl⟩
    refine ⟨⟨p.line, id, name⟩, ⟨?_, hlabel⟩, rfl⟩
    rw [he]
    exact labelMention?_label hlabel.1

theorem finding?_target : finding? s p .target = some x ↔
    ∃ id target, (p.element = .statement id (.jump target) ∧ x = .undefinedTarget .jump target ∨
      p.element = .statement id (.call target) ∧ x = .undefinedTarget .call target) ∧
        ¬ HasLabel s.walk target := by
  simp only [finding?, Option.map_eq_some_iff, Option.filter_eq_some_iff, Bool.not_eq_true',
    List.contains_eq_mem, decide_eq_false_iff_not, mem_labelNames]
  constructor
  · rintro ⟨⟨t, m⟩, ⟨hm, hlabel⟩, rfl⟩
    obtain ⟨-, ⟨rfl, he⟩ | ⟨rfl, he⟩⟩ := transferMention?_eq_some hm
    · exact ⟨m.id, m.name, .inl ⟨he, rfl⟩, hlabel⟩
    · exact ⟨m.id, m.name, .inr ⟨he, rfl⟩, hlabel⟩
  · rintro ⟨id, target, ⟨he, rfl⟩ | ⟨he, rfl⟩, hlabel⟩
    · exact ⟨(.jump, ⟨p.line, id, target⟩), ⟨by rw [he]; rfl, hlabel⟩, rfl⟩
    · exact ⟨(.call, ⟨p.line, id, target⟩), ⟨by rw [he]; rfl, hlabel⟩, rfl⟩

theorem finding?_unused : finding? s p .unused = some x ↔
    ∃ id name, p.element = .statement id (.label name) ∧ name ≠ "" ∧ ¬ HasLabel p.earlier name ∧
      name ≠ "start" ∧ ¬ HasTransfer s.walk name ∧ x = .unusedLabel name := by
  simp only [finding?, Place.first?, Option.map_eq_some_iff, Option.filter_eq_some_iff,
    Bool.and_eq_true, Bool.not_eq_true', List.contains_eq_mem, decide_eq_false_iff_not,
    decide_eq_true_eq, mem_labelNames, mem_targetNames]
  constructor
  · rintro ⟨m, ⟨⟨hm, hfirst⟩, hentry, hunused⟩, rfl⟩
    obtain ⟨hne, -, he⟩ := labelMention?_eq_some hm
    exact ⟨m.id, m.name, he, hne, hfirst, hentry, hunused, rfl⟩
  · rintro ⟨id, name, he, hne, hfirst, hentry, hunused, rfl⟩
    refine ⟨⟨p.line, id, name⟩, ⟨⟨?_, hfirst⟩, hentry, hunused⟩, rfl⟩
    rw [he]
    exact labelMention?_label hne

theorem finding?_speaker : finding? s p .speaker = some x ↔
    ∃ id content name, p.element = .statement id (.dialogue content (some name)) ∧ name ≠ "" ∧
      name ≠ "narrator" ∧ (∀ c ∈ s.characters, c.id ≠ name) ∧ x = .undefinedSpeaker name := by
  simp only [finding?]
  constructor
  · intro h
    unfold speakerFinding at h
    split at h
    · rename_i id content name he
      split at h
      · cases h
      · rename_i hknown
        cases h
        simp only [Bool.or_eq_true, decide_eq_true_eq, List.contains_eq_mem, List.mem_map,
          not_or, not_exists, not_and] at hknown
        exact ⟨id, content, name, he, hknown.1.1, hknown.1.2, hknown.2, rfl⟩
    · cases h
  · rintro ⟨id, content, name, he, hne, hnarrator, hcast, rfl⟩
    have hunknown : (s.characters.map (·.id)).contains name = false := by simpa using hcast
    have hknown : ¬(name = "" || name = narrator || (s.characters.map (·.id)).contains name) := by
      rw [hunknown]
      simp [hne, hnarrator, narrator]
    rw [he, speakerFinding, if_neg hknown]

theorem finding?_text : finding? s p .text = some x ↔
    ∃ id speaker, p.element = .statement id (.dialogue "" speaker) ∧ x = .emptyDialogue := by
  simp only [finding?]
  constructor
  · intro h
    unfold dialogueFinding at h
    split at h
    · rename_i id content speaker he
      split at h
      · rename_i hcontent
        cases h
        exact ⟨id, speaker, hcontent ▸ he, rfl⟩
      · cases h
    · cases h
  · rintro ⟨id, speaker, he, rfl⟩
    rw [he]
    rfl

theorem finding?_choices : finding? s p .choices = some x ↔
    ∃ id, p.element = .menu id [] ∧ x = .noChoices ∨
      ∃ c, p.element = .menu id [c] ∧ x = .oneChoice := by
  simp only [finding?]
  constructor
  · intro h
    unfold menuFinding at h
    split at h
    · rename_i id he
      cases h
      exact ⟨id, .inl ⟨he, rfl⟩⟩
    · rename_i id c he
      cases h
      exact ⟨id, .inr ⟨c, he, rfl⟩⟩
    · cases h
  · rintro ⟨id, ⟨he, rfl⟩ | ⟨c, he, rfl⟩⟩
    · rw [he]
      rfl
    · rw [he]
      rfl

theorem finding?_assignment : finding? s p .assignment = some x ↔
    ∃ id name value, p.element = .statement id (.assign name value) ∧
      ¬ IsAsciiIdentifier name.toList ∧ x = .invalidVariable name := by
  simp only [finding?, ← isIdentifier_iff]
  constructor
  · intro h
    unfold variableFinding at h
    split at h
    · rename_i id name value he
      split at h
      · cases h
      · rename_i hname
        cases h
        exact ⟨id, name, value, he, hname, rfl⟩
    · cases h
  · rintro ⟨id, name, value, he, hname, rfl⟩
    rw [he, variableFinding, if_neg hname]

end Rule

/-- The rule that a finding comes of, if it is about a place. -/
def Finding.rule? : Finding → Option Rule
  | duplicateLabel _ => some .repeated
  | undefinedTarget .. => some .target
  | unusedLabel _ => some .unused
  | missingEntry => none
  | undefinedSpeaker _ => some .speaker
  | emptyDialogue => some .text
  | noChoices => some .choices
  | oneChoice => some .choices
  | invalidVariable _ => some .assignment

theorem Rule.rule?_of_finding? {s : Script} {p : Place} {r : Rule} {x : Finding}
    (h : r.finding? s p = some x) : x.rule? = some r := by
  cases r with
  | repeated =>
    obtain ⟨_, _, _, _, rfl⟩ := finding?_repeated.1 h
    rfl
  | target =>
    obtain ⟨_, _, ⟨_, rfl⟩ | ⟨_, rfl⟩, _⟩ := finding?_target.1 h
    · rfl
    · rfl
  | unused =>
    obtain ⟨_, _, _, _, _, _, _, rfl⟩ := finding?_unused.1 h
    rfl
  | speaker =>
    obtain ⟨_, _, _, _, _, _, _, rfl⟩ := finding?_speaker.1 h
    rfl
  | text =>
    obtain ⟨_, _, _, rfl⟩ := finding?_text.1 h
    rfl
  | choices =>
    obtain ⟨_, ⟨_, rfl⟩ | ⟨_, _, rfl⟩⟩ := finding?_choices.1 h
    · rfl
    · rfl
  | assignment =>
    obtain ⟨_, _, _, _, _, rfl⟩ := finding?_assignment.1 h
    rfl

/-- **Faults at a place** are what the rules find there. -/
theorem Script.faultAt_iff {s : Script} {p : Place} {x : Finding} :
    s.FaultAt p x.severity x ↔ ∃ r : Rule, r.finding? s p = some x := by
  constructor
  · intro h
    generalize x.severity = severity at h
    cases h with
    | duplicateLabel he hearlier =>
      exact ⟨.repeated, Rule.finding?_repeated.2 ⟨_, _, he, hearlier, rfl⟩⟩
    | undefinedJump he hlabel =>
      exact ⟨.target, Rule.finding?_target.2 ⟨_, _, .inl ⟨he, rfl⟩, hlabel⟩⟩
    | undefinedCall he hlabel =>
      exact ⟨.target, Rule.finding?_target.2 ⟨_, _, .inr ⟨he, rfl⟩, hlabel⟩⟩
    | unusedLabel he hne hfirst hentry hunused =>
      exact ⟨.unused, Rule.finding?_unused.2 ⟨_, _, he, hne, hfirst, hentry, hunused, rfl⟩⟩
    | undefinedSpeaker he hne hnarrator hcast =>
      exact ⟨.speaker, Rule.finding?_speaker.2 ⟨_, _, _, he, hne, hnarrator, hcast, rfl⟩⟩
    | emptyDialogue he => exact ⟨.text, Rule.finding?_text.2 ⟨_, _, he, rfl⟩⟩
    | noChoices he => exact ⟨.choices, Rule.finding?_choices.2 ⟨_, .inl ⟨he, rfl⟩⟩⟩
    | oneChoice he => exact ⟨.choices, Rule.finding?_choices.2 ⟨_, .inr ⟨_, he, rfl⟩⟩⟩
    | invalidVariable he hname =>
      exact ⟨.assignment, Rule.finding?_assignment.2 ⟨_, _, _, he, hname, rfl⟩⟩
  · rintro ⟨r, h⟩
    cases r with
    | repeated =>
      obtain ⟨_, _, he, hearlier, rfl⟩ := Rule.finding?_repeated.1 h
      exact .duplicateLabel he hearlier
    | target =>
      obtain ⟨_, _, ⟨he, rfl⟩ | ⟨he, rfl⟩, hlabel⟩ := Rule.finding?_target.1 h
      · exact .undefinedJump he hlabel
      · exact .undefinedCall he hlabel
    | unused =>
      obtain ⟨_, _, he, hne, hfirst, hentry, hunused, rfl⟩ := Rule.finding?_unused.1 h
      exact .unusedLabel he hne hfirst hentry hunused
    | speaker =>
      obtain ⟨_, _, _, he, hne, hnarrator, hcast, rfl⟩ := Rule.finding?_speaker.1 h
      exact .undefinedSpeaker he hne hnarrator hcast
    | text =>
      obtain ⟨_, _, he, rfl⟩ := Rule.finding?_text.1 h
      exact .emptyDialogue he
    | choices =>
      obtain ⟨_, ⟨he, rfl⟩ | ⟨_, he, rfl⟩⟩ := Rule.finding?_choices.1 h
      · exact .noChoices he
      · exact .oneChoice he
    | assignment =>
      obtain ⟨_, _, _, he, hname, rfl⟩ := Rule.finding?_assignment.1 h
      exact .invalidVariable he hname

/-! ## Counting -/

section
open Classical
variable (s : Script)

/-- At how many places of a script an issue names a fault. -/
noncomputable def Script.faultCount (i : Issue) : Nat :=
  s.places.countP fun p => s.FaultAt p i.severity i.finding ∧ i.IsAt p

/-- A rule finds the faults of its own findings, and no others. -/
theorem Rule.count_issuesOf (r : Rule) (i : Issue) : (r.issues s).count i =
    if i.finding.rule? = some r then s.faultCount i else 0 := by
  -- An issue says at which place it was found, so that it stands once for each such place.
  rw [List.count_eq_countP, issues, List.countP_filterMap]
  have hfound (p : Place) :
      (((r.finding? s p).map (Issue.found p.line p.element.id ·)).map (· == i)).getD false = true ↔
        r.finding? s p = some i.finding ∧ i.IsAt p := by
    obtain ⟨x, id, line⟩ := i
    cases r.finding? s p with
    | none => simp
    | some y =>
      simp only [Issue.found, Issue.IsAt, Option.map_some, Option.getD_some, beq_iff_eq,
        Issue.mk.injEq, Option.some.injEq, eq_comm (b := x), eq_comm (a := id), eq_comm (a := line)]
  split
  · rename_i hr
    refine List.countP_congr fun p _ => ?_
    rw [hfound, decide_eq_true_eq]
    refine and_congr_left fun _ => ⟨fun h => Script.faultAt_iff.2 ⟨r, h⟩, fun h => ?_⟩
    obtain ⟨r', h'⟩ := Script.faultAt_iff.1 h
    obtain rfl : r = r' := Option.some.inj (hr.symm.trans (rule?_of_finding? h'))
    exact h'
  · rename_i hr
    exact List.countP_eq_zero.2 fun p _ h => hr (rule?_of_finding? ((hfound p).1 h).1)

/-- A finding that no rule makes is no fault at a place. -/
theorem Script.faultCount_eq_zero {i : Issue} (h : i.finding.rule? = none) :
    s.faultCount i = 0 := by
  refine List.countP_eq_zero.2 fun p _ hp => ?_
  obtain ⟨r, hr⟩ := faultAt_iff.1 (of_decide_eq_true hp).1
  rw [Rule.rule?_of_finding? hr] at h
  cases h

theorem Script.count_entryIssues (i : Issue) : s.entryIssues.count i =
    if s.FaultOfAll i.severity i.finding ∧ i.elementId = none ∧ i.line = none then 1 else 0 := by
  have hlabel : (labelNames s.walk).contains entryLabel = true ↔ HasLabel s.walk "start" := by
    rw [List.contains_iff_mem, mem_labelNames, entryLabel]
  rw [entryIssues]
  by_cases hentry : HasLabel s.walk "start"
  · have hnone : ¬s.FaultOfAll i.severity i.finding := by
      generalize i.severity = severity
      generalize i.finding = x
      rintro ⟨h⟩
      exact h hentry
    rw [if_pos (hlabel.2 hentry), if_neg fun h => hnone h.1, List.count_nil]
  · rw [if_neg fun h => hentry (hlabel.1 h), List.count_singleton]
    refine if_congr ?_ rfl rfl
    obtain ⟨x, id, line⟩ := i
    simp only [beq_iff_eq, Issue.mk.injEq]
    constructor
    · rintro ⟨rfl, rfl, rfl⟩
      exact ⟨.missingEntry hentry, rfl, rfl⟩
    · rintro ⟨hfault, rfl, rfl⟩
      change s.FaultOfAll x.severity x at hfault
      generalize x.severity = severity at hfault
      cases hfault
      exact ⟨rfl, rfl, rfl⟩

theorem Script.validate_all : s.validate (Check.all.map Check.name) = .ok s.issues := by
  have hunknown : unknownNames (Check.all.map Check.name) = [] := by
    have hnone : (Check.all.map Check.name).filter (fun n => (Check.ofName? n).isNone) = [] := by
      decide
    rw [unknownNames, hnone]
    simp
  rw [validate, if_pos hunknown]
  rfl

/-- **The checks** report every fault of a script once, with the id of its element and the number of
the top-level element that holds it, and nothing else. -/
theorem Script.count_issues : s.validate (Check.all.map Check.name) = .ok s.issues ∧
    (∀ line e, (line, e) ∈ s.walk ↔
      ∃ i top, line = i + 1 ∧ s.elements[i]? = some top ∧ e.Within top) ∧
    ∀ i : Issue, s.issues.count i = s.faultCount i +
      if s.FaultOfAll i.severity i.finding ∧ i.elementId = none ∧ i.line = none then 1 else 0 := by
  refine ⟨validate_all s, fun line e => mem_walk, fun i => ?_⟩
  rw [issues_eq, List.count_append, List.count_append, count_entryIssues, Nat.add_right_comm]
  simp only [List.flatMap_cons, List.flatMap_nil, List.count_append, List.count_nil,
    Rule.count_issuesOf]
  congr 1
  -- The finding of an issue is of one rule at most, and the other rules add nothing.
  cases hr : i.finding.rule? with
  | none => simp [faultCount_eq_zero s hr]
  | some r => cases r <;> simp

end

end NovelScript
