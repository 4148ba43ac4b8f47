import NovelScript.Proofs.Files.ScriptFile
import NovelScript.Proofs.Remembered

/-!
# What a validation reports

A validation that gets to work on a script takes its status and its report from the issues
(`runValidate_of_validate`). The text report has one section for the errors and one for the warnings
(`reportLines_eq`), which together are the issues (`Issue.perm_bySeverity`), and says that there are
no issues just when that is so (`noIssues_mem_textReport`). The status does not depend on the
format, so it is the same with both (`run_validate`).

The report is cut short where a text of it holds half a surrogate pair, and then the status is that
of a failure (`not_forall_exit_validate`).
-/

set_option autoImplicit false

namespace NovelScript

/-! ## Issues by severity -/

namespace Issue

theorem filter_warning (issues : List Issue) : issues.filter (·.severity = .warning) =
    issues.filter fun i => !decide (i.severity = .error) := by
  congr 1
  funext i
  cases i.severity <;> rfl

/-- Each issue is an error or a warning. -/
theorem perm_bySeverity (issues : List Issue) :
    (issues.filter (·.severity = .error) ++ issues.filter (·.severity = .warning)).Perm issues := by
  rw [filter_warning]
  exact List.filter_append_perm _ issues

theorem bySeverity_eq_nil {issues : List Issue} :
    issues.filter (·.severity = .error) = [] ∧ issues.filter (·.severity = .warning) = [] ↔
      issues = [] := by
  rw [← List.append_eq_nil_iff, ← List.length_eq_zero_iff, (perm_bySeverity issues).length_eq,
    List.length_eq_zero_iff]

theorem counts_eq (issues : List Issue) : counts issues =
    ((issues.filter (·.severity = .error)).length,
      (issues.filter (·.severity = .warning)).length) := by
  have hlength := (perm_bySeverity issues).length_eq
  rw [List.length_append] at hlength
  rw [counts, List.countP_eq_length_filter, ← hlength, Nat.add_sub_cancel_left]

end Issue

namespace Command

/-! ## The text report -/

variable (painter : Painter)

/-- The count of the issues of a severity, if there are any. -/
def countPart (severity : Severity) (n : Nat) : List String :=
  if n = 0 then []
  else
    [painter.paint { colour := some (severityColour severity) }
      (countText n ++ " " ++ severity.name)]

/-- The section of a text report for the issues of a severity, if there are any. -/
def sectionLines (severity : Severity) (group : List Issue) : List String :=
  if group = [] then []
  else "" :: groupHeading painter severity group.length :: group.map (issueLine painter)

/-- The text report of issues by severity. -/
def textReport (errors warnings : List Issue) : List String :=
  if errors = [] ∧ warnings = [] then ["No issues found."]
  else
    "=== Script Validation Results ===" ::
      String.intercalate ", "
        (countPart painter .error errors.length ++ countPart painter .warning warnings.length) ::
      (sectionLines painter .error errors ++ sectionLines painter .warning warnings)

variable {painter}

theorem countLine_eq (issues : List Issue) : countLine painter issues = String.intercalate ", "
    (countPart painter .error (issues.filter (·.severity = .error)).length ++
      countPart painter .warning (issues.filter (·.severity = .warning)).length) := by
  simp only [countLine, countPart, issuesOf, Severity.all, List.filterMap_cons, List.filterMap_nil]
  by_cases herrors : (issues.filter (·.severity = .error)).length = 0 <;>
    by_cases hwarnings : (issues.filter (·.severity = .warning)).length = 0 <;>
    simp only [herrors, hwarnings, ite_true, ite_false, List.nil_append, List.cons_append,
      List.append_nil]

theorem groupLines_eq (severity : Severity) (issues : List Issue) :
    groupLines painter severity issues =
      sectionLines painter severity (issues.filter (·.severity = severity)) := by
  rw [groupLines, issuesOf, sectionLines]
  cases issues.filter (·.severity = severity) <;> rfl

/-- **The text report** of issues lists the errors before the warnings. -/
theorem reportLines_eq {issues : List Issue} (h : issues ≠ []) : reportLines painter issues =
    textReport painter (issues.filter (·.severity = .error))
      (issues.filter (·.severity = .warning)) := by
  simp only [reportLines, textReport, if_neg (mt Issue.bySeverity_eq_nil.1 h), countLine_eq,
    Severity.all, List.flatMap_cons, List.flatMap_nil, groupLines_eq, List.append_nil]

/-! ## What the lines show -/

/-- Whether a line shows an issue: where it was found, if that is known, its message and its
check. -/
structure Shows (text : String) (i : Issue) : Prop where
  place : ∀ n : Nat, i.line = some n →
    Text.trimEnd ("#" ++ toString n ++ " " ++ i.elementId.getD "").toList <:+: text.toList
  message : i.message.toList <:+: text.toList
  check : ("[" ++ i.check.tag ++ "]").toList <:+: text.toList

theorem infix_append_left {part : List Char} {a b : String} (h : part <:+: a.toList) :
    part <:+: (a ++ b).toList := by
  rw [String.toList_append]
  exact h.trans (List.prefix_append _ _).isInfix

theorem infix_append_right {part : List Char} {a b : String} (h : part <:+: b.toList) :
    part <:+: (a ++ b).toList := by
  rw [String.toList_append]
  exact h.trans (List.suffix_append _ _).isInfix

theorem toList_placeText (n : Nat) (id : Option String) : (placeText n id).toList =
    Text.trimEnd ("#" ++ toString n ++ " " ++ id.getD "").toList := by
  rw [placeText, countText, DecimalStyle.ofList_natText, String.toList_ofList]

/-- **The line of an issue** shows it. -/
theorem shows_issueLine (i : Issue) : Shows (issueLine painter i) i where
  place n hn := by
    rw [← toList_placeText, issueLine, hn]
    exact infix_append_left (infix_append_left (infix_append_left (infix_append_left
      (infix_append_right (painter.keeps _ _)))))
  message := by
    rw [issueLine]
    split
    · exact infix_append_left (infix_append_left (infix_append_right (List.infix_refl _)))
    · exact infix_append_left (infix_append_left (infix_append_right (List.infix_refl _)))
  check := by
    rw [issueLine]
    split
    · exact infix_append_right (painter.keeps _ _)
    · exact infix_append_right (painter.keeps _ _)

/-- **The heading of a group** shows how many issues it has. -/
theorem infix_groupHeading (severity : Severity) (n : Nat) :
    ("-- " ++ severity.title ++ " (" ++ toString n ++ ")").toList <:+:
      (groupHeading painter severity n).toList := by
  rw [groupHeading, ← DecimalStyle.ofList_natText, ← countText]
  have htitle : ("-- " ++ severity.title ++ " (" ++ countText n ++ ") ") =
      ("-- " ++ severity.title ++ " (" ++ countText n ++ ")") ++ " " := by
    simp only [String.append_assoc]
    rfl
  refine infix_append_left (List.IsInfix.trans ?_ (painter.keeps _ _))
  rw [htitle]
  exact infix_append_left (List.infix_refl _)

/-! ## Whether there are none -/

/-- A text with a character that is not in the words for no issues is not these words. -/
theorem ne_noIssues {part : List Char} {text : String} {c : Char} (hc : c ∈ part)
    (hnot : c ∉ "No issues found.".toList) (h : part <:+: text.toList) :
    text ≠ "No issues found." := by
  rintro rfl
  exact hnot (h.subset hc)

theorem r_mem_name (n : Nat) (severity : Severity) :
    'r' ∈ (countText n ++ " " ++ severity.name).toList := by
  rw [String.toList_append]
  exact List.mem_append_right _ (by cases severity <;> decide)

theorem counts_ne_noIssues (errors warnings : Nat) :
    String.intercalate ", " (countPart painter .error errors ++ countPart painter .warning warnings)
      ≠ "No issues found." := by
  have hpainted (severity : Severity) (n : Nat) (style : Style) (rest : String) :
      painter.paint style (countText n ++ " " ++ severity.name) ++ rest ≠ "No issues found." :=
    ne_noIssues (r_mem_name n severity) (by decide) (infix_append_left (painter.keeps _ _))
  unfold countPart
  by_cases herrors : errors = 0 <;> by_cases hwarnings : warnings = 0
  · simp [herrors, hwarnings]
  · simpa [herrors, hwarnings] using hpainted .warning warnings _ ""
  · simpa [herrors, hwarnings] using hpainted .error errors _ ""
  · simpa [herrors, hwarnings, String.append_assoc] using hpainted .error errors _ _

theorem issueLine_ne_noIssues (i : Issue) : issueLine painter i ≠ "No issues found." := by
  refine ne_noIssues (c := '[') ?_ (by decide) (shows_issueLine i).check
  rw [String.toList_append, String.toList_append]
  exact List.mem_append_left _ (List.mem_append_left _ (by decide))

theorem ne_noIssues_of_mem_sectionLines {severity : Severity} {group : List Issue} {text : String}
    (h : text ∈ sectionLines painter severity group) : text ≠ "No issues found." := by
  unfold sectionLines at h
  split at h
  · cases h
  · obtain rfl | h := List.mem_cons.1 h
    · decide
    obtain rfl | h := List.mem_cons.1 h
    · refine ne_noIssues (c := '-') ?_ (by decide) (infix_groupHeading severity group.length)
      simp only [String.toList_append, List.append_assoc]
      exact List.mem_append_left _ (by decide)
    obtain ⟨i, -, rfl⟩ := List.mem_map.1 h
    exact issueLine_ne_noIssues i

/-- **The words that there are no issues** are in the report just when there are none. -/
theorem noIssues_mem_textReport {errors warnings : List Issue} :
    "No issues found." ∈ textReport painter errors warnings ↔ errors = [] ∧ warnings = [] := by
  constructor
  · intro h
    by_contra hsome
    rw [textReport, if_neg hsome] at h
    obtain h | h := List.mem_cons.1 h
    · exact absurd h (by decide)
    obtain h | h := List.mem_cons.1 h
    · exact counts_ne_noIssues _ _ h.symm
    obtain h | h := List.mem_append.1 h
    · exact ne_noIssues_of_mem_sectionLines h rfl
    · exact ne_noIssues_of_mem_sectionLines h rfl
  · intro hnone
    rw [textReport, if_pos hnone]
    exact .head []

/-! ## The JSON report -/

theorem readable_toJson {i : Issue}
    (h : ∀ line : Nat, i.line = some line → Json.digitCount line ≤ Json.maxDigits) :
    i.toJson.Readable := by
  rw [Issue.toJson, Json.readable_obj]
  refine ⟨by simp, ?_⟩
  have hid : ((i.elementId.map Json.str).getD .null).Readable := by
    cases i.elementId with
    | none => exact ⟨trivial, trivial⟩
    | some id => exact Json.readable_str id
  have hline : ((i.line.map fun (n : Nat) => Json.int n).getD .null).Readable := by
    cases hline : i.line with
    | none => exact ⟨trivial, trivial⟩
    | some line => exact ⟨trivial, h line hline⟩
  simp only [List.forall_mem_cons]
  exact ⟨Json.readable_str _, Json.readable_str _, Json.readable_str _, hid, hline,
    List.forall_mem_nil _⟩

/-- **The JSON report** is read back as the list of the issues, unless the number of a line is too
long to be read. -/
theorem ofText_reportJson {issues : List Issue}
    (h : ∀ i ∈ issues, ∀ line : Nat, i.line = some line →
      Json.digitCount line ≤ Json.maxDigits) :
    Json.ofText (reportJson issues ++ "\n") = .ok (.arr (issues.map Issue.toJson)) := by
  have hspace : ∀ c ∈ "\n".toList, Json.isSpace c = true := fun c hc => by
    rw [List.mem_singleton.1 hc]
    rfl
  refine Json.Readable.ofText_pretty_append (Json.readable_arr.2 fun v hv => ?_) hspace
  obtain ⟨i, hi, rfl⟩ := List.mem_map.1 hv
  exact readable_toJson (h i hi)

/-! ## What a run prints -/

/-- What is written to standard output. -/
def Emission.printed? : Emission → Option String
  | .out text => some text
  | _ => none

/-- The texts that a run writes to standard output, in order. -/
def Outcome.printed (o : Outcome) : List String :=
  o.emissions.filterMap Emission.printed?

theorem printed_after (o : Outcome) (records : List Log.Record) :
    (o.after (Outcome.logs records)).printed = o.printed := by
  have hlogs : (Outcome.logs records).filterMap Emission.printed? = [] :=
    List.filterMap_eq_nil_iff.2 fun e he => by
      obtain ⟨r, -, rfl⟩ := List.mem_map.1 he
      rfl
  rw [Outcome.printed, Outcome.after, List.filterMap_append, hlogs]
  rfl

variable {halves : Text.Halves} {o : Outcome}

/-- What can be encoded is written. -/
theorem written_of_encodes (h : ∀ text ∈ o.printed, halves.encodes text = true) :
    o.written halves = o := by
  have hall : o.emissions.dropWhile (·.isWritable halves) = [] := by
    refine List.dropWhile_eq_nil_iff.2 fun e he => ?_
    cases e with
    | out text => exact h text (List.mem_filterMap.2 ⟨_, he, rfl⟩)
    | err text => rfl
    | log record => rfl
  rw [Outcome.written, hall]

/-- Before a text that cannot be encoded, the same is written. -/
theorem takeWhile_of_split {text : String} {before after : List String} {emissions : List Emission}
    (h : emissions.filterMap Emission.printed? = before ++ text :: after)
    (hbefore : ∀ text ∈ before, halves.encodes text = true)
    (htext : halves.encodes text = false) :
    (emissions.takeWhile (·.isWritable halves)).filterMap Emission.printed? = before ∧
      ∃ rest, emissions.dropWhile (·.isWritable halves) = .out text :: rest := by
  -- Only what goes to standard output counts; each such text is the next one of `before`.
  induction emissions generalizing before with
  | nil => cases before <;> cases h
  | cons e emissions ih =>
    cases e with
    | err _ => exact ih h hbefore
    | log _ => exact ih h hbefore
    | out first =>
      have hcons : first :: emissions.filterMap Emission.printed? = before ++ text :: after := h
      cases before with
      | nil =>
        obtain ⟨rfl, -⟩ := List.cons_eq_cons.1 hcons
        have hfirst : ¬(Emission.out first).isWritable halves = true := by
          rw [Emission.isWritable, htext]
          decide
        rw [List.takeWhile_cons_of_neg hfirst, List.dropWhile_cons_of_neg hfirst]
        exact ⟨rfl, emissions, rfl⟩
      | cons b before =>
        obtain ⟨rfl, hrest⟩ := List.cons_eq_cons.1 hcons
        obtain ⟨hencodes, hbefore⟩ := List.forall_mem_cons.1 hbefore
        have hfirst : (Emission.out first).isWritable halves = true := hencodes
        obtain ⟨htake, hdrop⟩ := ih hrest hbefore
        rw [List.takeWhile_cons_of_pos hfirst, List.dropWhile_cons_of_pos hfirst]
        exact ⟨congrArg (first :: ·) htake, hdrop⟩

/-- A text that cannot be encoded ends the run where it should be printed. -/
theorem written_of_split {text : String} {before after : List String}
    (h : o.printed = before ++ text :: after)
    (hbefore : ∀ text ∈ before, halves.encodes text = true) (htext : halves.encodes text = false) :
    (o.written halves).exit = .unencodable text ∧ (o.written halves).printed = before := by
  obtain ⟨htake, rest, hdrop⟩ := takeWhile_of_split h hbefore htext
  rw [Outcome.written, hdrop]
  exact ⟨rfl, htake⟩

theorem exit_written_of_mem {text : String} (h : text ∈ o.printed)
    (htext : halves.encodes text = false) :
    ∃ text, (o.written halves).exit = .unencodable text := by
  obtain ⟨e, he, hprinted⟩ := List.mem_filterMap.1 h
  have hnot : e.isWritable halves = false := by
    cases e <;> cases hprinted
    exact htext
  rcases hdrop : o.emissions.dropWhile (·.isWritable halves) with _ | ⟨first, rest⟩
  · have hall := List.dropWhile_eq_nil_iff.1 hdrop e he
    rw [hnot] at hall
    cases hall
  · have hfirst := List.head?_dropWhile_not (·.isWritable halves) o.emissions
    rw [hdrop] at hfirst
    cases first with
    | out text =>
      rw [Outcome.written, hdrop]
      exact ⟨text, rfl⟩
    | err text => cases hfirst
    | log record => cases hfirst

/-- An issue whose message names a half cannot be reported. -/
theorem encodes_issueLine {i : Issue} {u : Nat} (hlow : 0xD800 ≤ u) (hhigh : u ≤ 0xDFFF)
    (h : halves.char u ∈ i.message.toList) :
    halves.encodes (issueLine painter i ++ "\n") = false :=
  halves.encodes_eq_false hlow hhigh
    ((infix_append_left (shows_issueLine i).message).subset h)

variable {reader : LineReader} {setting : Setting} {settings : Settings} {d : Disk}
  {line : List String} {v : Validation} {path : String} {loaded : ScriptFile.Loaded}
  {issues : List Issue} {format : String}

/-- What a report prints. -/
theorem printed_report (format : String) (issues : List Issue) :
    (report painter format issues).filterMap Emission.printed? =
      if format = "json" then [Json.pretty (.arr (issues.map Issue.toJson)) ++ "\n"]
      else
        (textReport painter (issues.filter (·.severity = .error))
          (issues.filter (·.severity = .warning))).map (· ++ "\n") := by
  unfold report
  split
  · rfl
  · by_cases hnone : issues = []
    · subst hnone
      rfl
    · rw [if_neg hnone, ← reportLines_eq hnone, List.filterMap_append, List.filterMap_map]
      have houtLine : Emission.printed? ∘ Outcome.outLine = fun text => some (text ++ "\n") := rfl
      rw [houtLine, List.filterMap_eq_map']
      exact List.append_nil _

theorem validationStatus_or (strict always : Bool) (issues : List Issue) :
    validationStatus (strict || always) issues =
      if (∃ i ∈ issues, i.severity = .error) ∨
        issues ≠ [] ∧ (strict = true ∨ always = true) then 1 else 0 := by
  unfold validationStatus
  by_cases herror : ∃ i ∈ issues, i.severity = .error <;> simp [herror]

/-- A choice that is made and not empty is kept. -/
theorem filter_ne_empty {choice : Option String} {text : String} (h : choice = some text)
    (hne : text ≠ "") : choice.filter (· ≠ "") = some text := by
  rw [h, Option.filter_some, if_pos (decide_eq_true hne)]

theorem filter_of_empty {choice : Option String} (h : ∀ text, choice = some text → text = "") :
    choice.filter (· ≠ "") = none := by
  rcases choice with _ | text
  · rfl
  · obtain rfl := h text rfl
    rfl

theorem checkNames_of_ne_empty {names : String} (h : v.checks = some names) (hne : names ≠ "") :
    v.checkNames settings =
      (Text.cutAt (· == ',') names.toList).map fun name => String.ofList (Text.trim name) := by
  rw [Validation.checkNames, filter_ne_empty h hne]

theorem checkNames_of_empty (h : ∀ names, v.checks = some names → names = "") :
    v.checkNames settings = (Check.all.map Check.name).filter settings.isEnabled := by
  rw [Validation.checkNames, filter_of_empty h]
  rfl

theorem formatOr_of_ne_empty (h : v.format = some format) (hne : format ≠ "") :
    v.formatOr settings = format := by
  rw [Validation.formatOr, filter_ne_empty h hne, Option.getD_some]

theorem formatOr_of_empty (h : ∀ format, v.format = some format → format = "") :
    v.formatOr settings = settings.outputFormat := by
  rw [Validation.formatOr, filter_of_empty h, Option.getD_none]

/-- **A validation that gets to work** on a script takes its status and its report from the
issues. -/
theorem runValidate_of_validate
    (hpath : v.pathOr? (Settings.load d setting.directory setting.half).1.lastScriptPath =
      some path)
    (hload : ScriptFile.load d (.ofText path) setting.half = .ok loaded)
    (hissues : loaded.script.validate
      (v.checkNames (Settings.load d setting.directory setting.half).1) = .ok issues) :
    (runValidate setting d v).exit = .status (validationStatus
        (v.strict || (Settings.load d setting.directory setting.half).1.failOnWarnings) issues) ∧
      (runValidate setting d v).printed =
        (report setting.painter (v.formatOr (Settings.load d setting.directory setting.half).1)
          issues).filterMap Emission.printed? := by
  simp only [runValidate_eq, hpath, validateAt_of_validate hload hissues]
  refine ⟨rfl, ?_⟩
  rw [printed_after, printed_after]
  exact (printed_after ⟨_, _, _⟩ (_ :: _)).trans rfl

/-- The object of an issue in the JSON report. -/
theorem toJson_eq : Issue.toJson = fun i =>
    .obj [("severity", .str i.severity.name), ("check", .str i.check.tag),
      ("message", .str i.message), ("element_id", i.elementId.elim .null Json.str),
      ("line", i.line.elim .null fun n => Json.int n)] := by
  funext ⟨finding, id, line⟩
  cases id <;> cases line <;> rfl

/-- **A validation** that gets to work on a script has a report of the issues. As JSON it is the
list of the issues, each as an object, which is read back as such unless the number of a line is too
long to be read; as text it is the errors and then the warnings, each in a line that shows it, or
else the words that there are none. The checks are those that are asked for, or else those that the
settings leave on, and the format is the one that is asked for, or else that of the settings.

Where the report can be encoded, it is printed, and the status is one if there is an error, or any
issue where warnings count as well, and else zero. Otherwise the run ends before the first text of
it that cannot be encoded. -/
theorem run_validate (hasks : Asks reader d line (.validate v))
    (hpath : v.pathOr? (Settings.load d setting.directory setting.half).1.lastScriptPath =
      some path)
    (hload : ScriptFile.load d (.ofText path) setting.half = .ok loaded)
    (hknown : ∀ name ∈ v.checkNames (Settings.load d setting.directory setting.half).1,
      name ∈ Check.all.map Check.name) :
    let settings := (Settings.load d setting.directory setting.half).1
    let chosen := v.checkNames settings
    let format := v.formatOr settings
    let o := run reader setting d line
    (∀ names, v.checks = some names → names ≠ "" → chosen =
      (Text.cutAt (· == ',') names.toList).map fun name => String.ofList (Text.trim name)) ∧
    ((∀ names, v.checks = some names → names = "") → chosen =
      (Check.all.map Check.name).filter settings.isEnabled) ∧
    (∀ given, v.format = some given → given ≠ "" → format = given) ∧
    ((∀ given, v.format = some given → given = "") → format = settings.outputFormat) ∧
    ∃ issues report, loaded.script.validate chosen = .ok issues ∧
      let errors := issues.filter (·.severity = .error)
      let warnings := issues.filter (·.severity = .warning)
      (errors ++ warnings).Perm issues ∧
      Issue.counts issues = (errors.length, warnings.length) ∧
      (format = "json" →
        let objects : List Json := issues.map fun i =>
          .obj [("severity", .str i.severity.name), ("check", .str i.check.tag),
            ("message", .str i.message), ("element_id", i.elementId.elim .null Json.str),
            ("line", i.line.elim .null fun n => Json.int n)]
        report = [Json.pretty (.arr objects) ++ "\n"] ∧
          ((∀ i ∈ issues, ∀ line : Nat, i.line = some line →
            Json.digitCount line ≤ Json.maxDigits) →
            Json.ofText (String.join report) = .ok (.arr objects))) ∧
      (format ≠ "json" → report = (textReport setting.painter errors warnings).map (· ++ "\n") ∧
        ("No issues found.\n" ∈ report ↔ issues = []) ∧
        (∀ i ∈ issues, Shows (issueLine setting.painter i) i) ∧
        ∀ severity n, ("-- " ++ Severity.title severity ++ " (" ++ toString n ++ ")").toList <:+:
          (groupHeading setting.painter severity n).toList) ∧
      ((∀ text ∈ report, setting.halves.encodes text = true) →
        o.exit = .status
          (if (∃ i ∈ issues, i.severity = .error) ∨
            issues ≠ [] ∧ (v.strict = true ∨ settings.failOnWarnings = true) then 1 else 0) ∧
        o.printed = report) ∧
      ∀ before text after, report = before ++ text :: after →
        (∀ text ∈ before, setting.halves.encodes text = true) →
        setting.halves.encodes text = false → o.exit = .unencodable text ∧ o.printed = before := by
  intro settings chosen format o
  refine ⟨fun names => checkNames_of_ne_empty, checkNames_of_empty,
    fun given => formatOr_of_ne_empty, formatOr_of_empty, ?_⟩
  obtain ⟨issues, hissues⟩ := (Script.exists_validate_iff (s := loaded.script)).2 hknown
  have ho : o = (runValidate setting d v).written setting.halves := run_of_asks hasks
  obtain ⟨hexit, hprinted⟩ := runValidate_of_validate hpath hload hissues
  rw [validationStatus_or] at hexit
  have hreport := hprinted.trans (printed_report format issues)
  refine ⟨issues, (runValidate setting d v).printed, hissues, Issue.perm_bySeverity issues,
    Issue.counts_eq issues, ?_, ?_, ?_, ?_⟩
  · intro hjson
    rw [hjson, if_pos rfl] at hreport
    rw [← toJson_eq]
    refine ⟨hreport, fun hshort => ?_⟩
    have hjoin (text : String) : String.join [text] = text := by simp
    rw [hreport, hjoin]
    exact ofText_reportJson hshort
  · intro htext
    rw [if_neg htext] at hreport
    refine ⟨hreport, ?_, fun i _ => shows_issueLine i, infix_groupHeading⟩
    rw [hreport, ← Issue.bySeverity_eq_nil, ← @noIssues_mem_textReport setting.painter]
    have hline : "No issues found.\n" = "No issues found." ++ "\n" := by decide
    rw [hline]
    exact List.mem_map_of_injective fun _ _ h => (String.append_left_inj _).1 h
  · intro hencodes
    rw [ho, written_of_encodes hencodes]
    exact ⟨hexit, rfl⟩
  · intro before text after hsplit hbefore htext
    rw [ho]
    exact written_of_split hsplit hbefore htext

/-- A disk with a script that leads nowhere, and an empty settings file. -/
def strayDesk : Disk :=
  (Settings.shelved []).put ["story.rpy"] (.file (Text.Utf8.encode "jump away".toList))

theorem asks_stray : Asks readLine strayDesk ["validate", "/story.rpy", "--format", "text"]
    (.validate ⟨some "/story.rpy", none, some "text", false⟩) :=
  asks_of_split ⟨[], ["validate", "/story.rpy", "--format", "text"]⟩
    ⟨[⟨.format, "text"⟩], ["/story.rpy"]⟩ .validate ["/story.rpy", "--format", "text"]
    (by cbv) rfl rfl (by cbv) rfl rfl

theorem load_stray : ∃ loaded,
    ScriptFile.load strayDesk (.ofText "/story.rpy") deskSetting.half = .ok loaded ∧
      loaded.script = { elements := [.statement "element-0" (.jump "away")] } :=
  ⟨_, rfl, rfl⟩

theorem settings_stray :
    (Settings.load strayDesk deskSetting.directory deskSetting.half).1 = {} := by
  rfl

theorem run_validate_stray :
    let v : Validation := ⟨some "/story.rpy", none, some "text", false⟩
    let o := run readLine deskSetting strayDesk ["validate", "/story.rpy", "--format", "text"]
    Asks readLine strayDesk ["validate", "/story.rpy", "--format", "text"] (.validate v) ∧
      (∃ loaded,
        ScriptFile.load strayDesk (.ofText "/story.rpy") deskSetting.half = .ok loaded) ∧
      (∀ name ∈
          v.checkNames (Settings.load strayDesk deskSetting.directory deskSetting.half).1,
        name ∈ Check.all.map Check.name) ∧
      o.exit = .status 1 ∧
      o.printed = (textReport .ansi [.found 1 "element-0" (.undefinedTarget .jump "away")]
        [⟨.missingEntry, none, none⟩]).map (· ++ "\n") := by
  obtain ⟨loaded, hload, hscript⟩ := load_stray
  have hknown : ∀ name ∈ Validation.checkNames ⟨some "/story.rpy", none, some "text", false⟩
      (Settings.load strayDesk deskSetting.directory deskSetting.half).1,
      name ∈ Check.all.map Check.name := by
    rw [settings_stray]
    decide
  refine ⟨asks_stray, ⟨loaded, hload⟩, hknown, ?_⟩
  obtain ⟨-, hchosen, -, -, issues, report, hissues, -, -, -, htext, hexit, -⟩ :=
    run_validate asks_stray rfl hload hknown
  rw [hchosen nofun, settings_stray, hscript] at hissues
  have hfound : Script.validate { elements := [.statement "element-0" (.jump "away")] }
      ((Check.all.map Check.name).filter (Settings.isEnabled {})) =
      .ok [.found 1 "element-0" (.undefinedTarget .jump "away"), ⟨.missingEntry, none, none⟩] := by
    decide +kernel
  cases hfound.symm.trans hissues
  obtain ⟨hreport, -⟩ := htext (by decide)
  have hlines : report = (textReport .ansi
      [.found 1 "element-0" (.undefinedTarget .jump "away")]
      [⟨.missingEntry, none, none⟩]).map (· ++ "\n") := hreport.trans (by decide +kernel)
  have hencodes : ∀ text ∈ report, deskSetting.halves.encodes text = true := by
    rw [hlines]
    decide +kernel
  obtain ⟨hstatus, hprinted⟩ := hexit hencodes
  rw [settings_stray] at hstatus
  exact ⟨hstatus, hprinted.trans hlines⟩

/-- A document in which a label is half a surrogate pair. -/
def halfText : String :=
  "\x7b\"elements\":[\x7b\"id\":\"1\",\"type\":\"label\",\"label\":\"\\ud800\"\x7d]\x7d"

def halfDesk : Disk :=
  (Settings.shelved []).put ["story.json"] (.file (Text.Utf8.encode halfText.toList))

/-- The text of what stands for the half. -/
def halfLabel : String := String.ofList [deskSetting.half 0xD800]

def halfScript : Script := { elements := [.statement "1" (.label halfLabel)] }

theorem ofText_half (half : Nat → Char) : Json.ofText halfText half =
    .ok (.obj [("elements", .arr [
      .obj [("id", .str "1"), ("type", .str "label"),
        ("label", .str (String.ofList [half 0xD800]))]])]) := by
  simp [Json.ofText, halfText, Json.readText, Json.readValue, Json.readMembers, Json.readItems,
    Json.readKey, Json.readString, Json.readChars, Json.skipSpace, Json.isSpace, Json.consChar,
    Json.ofMembers, Json.setMember, Json.hexUnit?, Json.hexValue?, Json.unitChar]

theorem load_half : ScriptFile.load halfDesk (.ofText "/story.json") deskSetting.half =
    .ok ⟨halfScript,
      [Document.loadedRecord halfScript, ScriptFile.loadedRecord "story.json" halfScript]⟩ := by
  have hread : halfDesk.read (.ofText "/story.json") =
      .ok (Text.Utf8.encode halfText.toList) := rfl
  have hbreaks : Text.unifyBreaks halfText.toList = halfText.toList := by
    refine Text.unifyBreaks_eq_self fun c hc => ?_
    rintro rfl
    simp [halfText] at hc
  have htext : ScriptFile.textOfContent (Text.Utf8.encode halfText.toList) = halfText := by
    rw [ScriptFile.textOfContent_encode, hbreaks, String.ofList_toList]
  have hdocument : ScriptFile.holdsDocument (.ofText "/story.json") = true := by decide
  have hscript : Script.ofJson (.obj [("elements", .arr [
      .obj [("id", .str "1"), ("type", .str "label"),
        ("label", .str (String.ofList [deskSetting.half 0xD800]))]])]) = .ok halfScript := rfl
  simp only [ScriptFile.load, hread, htext, hdocument, ScriptFile.readText, if_true,
    Script.ofDocument, ofText_half, hscript]
  rfl

theorem settings_half : (Settings.load halfDesk deskSetting.directory deskSetting.half).1 = {} := by
  rfl

theorem asks_half : Asks readLine halfDesk ["validate", "/story.json"]
    (.validate ⟨some "/story.json", none, none, false⟩) :=
  asks_of_split ⟨[], ["validate", "/story.json"]⟩ ⟨[], ["/story.json"]⟩ .validate ["/story.json"]
    (by cbv) rfl rfl (by cbv) rfl rfl

theorem validate_half :
    halfScript.validate ((Check.all.map Check.name).filter (Settings.isEnabled {})) =
      .ok [.found 1 "1" (.unusedLabel halfLabel), ⟨.missingEntry, none, none⟩] := by
  decide +kernel

/-- **A validation fails** although it finds nothing worse than warnings: a report that names half a
surrogate pair cannot be printed. -/
theorem not_forall_exit_validate :
    ¬∀ (setting : Setting) (d : Disk) (line : List String) (v : Validation) (path : String)
      (loaded : ScriptFile.Loaded) (issues : List Issue),
      let settings := (Settings.load d setting.directory setting.half).1
      Asks readLine d line (.validate v) → v.pathOr? settings.lastScriptPath = some path →
      ScriptFile.load d (.ofText path) setting.half = .ok loaded →
      loaded.script.validate (v.checkNames settings) = .ok issues →
      (run readLine setting d line).exit = .status
        (if (∃ i ∈ issues, i.severity = .error) ∨
          issues ≠ [] ∧ (v.strict = true ∨ settings.failOnWarnings = true) then 1 else 0) := by
  intro h
  have hissues : halfScript.validate (Validation.checkNames
      ⟨some "/story.json", none, none, false⟩
      (Settings.load halfDesk deskSetting.directory deskSetting.half).1) =
      .ok [.found 1 "1" (.unusedLabel halfLabel), ⟨.missingEntry, none, none⟩] := by
    rw [settings_half]
    exact validate_half
  have hstatus := h deskSetting halfDesk _ _ _ _ _ asks_half rfl load_half hissues
  obtain ⟨-, hprinted⟩ := @runValidate_of_validate deskSetting halfDesk
    ⟨some "/story.json", none, none, false⟩ _ _ _ rfl load_half hissues
  rw [settings_half, printed_report] at hprinted
  have hhalf : deskSetting.half 0xD800 ∈
      (Issue.found 1 "1" (.unusedLabel halfLabel)).message.toList := by
    decide +kernel
  have hmem : issueLine .ansi (.found 1 "1" (.unusedLabel halfLabel)) ++ "\n" ∈
      (runValidate deskSetting halfDesk ⟨some "/story.json", none, none, false⟩).printed := by
    rw [hprinted]
    decide +kernel
  obtain ⟨text, hexit⟩ := exit_written_of_mem hmem
    (encodes_issueLine (by decide) (by decide) hhalf)
  rw [run_of_asks asks_half, Request.run, hexit] at hstatus
  cases hstatus

end Command

end NovelScript
