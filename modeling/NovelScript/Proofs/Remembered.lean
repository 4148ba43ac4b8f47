import NovelScript.Command.Line
import NovelScript.Proofs.Check.Selection
import NovelScript.Proofs.Settings

/-!
# What a run leaves in the settings

A run does what its command line is read as (`run_of_asked`); if that is no request, the disk stays
as it was. A request gets to work on a script when its path is known, the script is read and the
names of the checks are known (`Request.WorksOn`). From there on `parse` and `validate` remember the
path, and the settings are otherwise what they were; up to there they change nothing, and `generate`
does not touch the settings at all (`settings_run`). That is so however command lines are read.

An output that is written over the settings file is the exception (`not_forall_lookup?_generate`).
-/

set_option autoImplicit false

namespace NovelScript

namespace Command

variable {reader : LineReader} {setting : Setting} {d d' : Disk} {line : List String}
  {path : String} {r : Request}

/-! ## Runs -/

@[simp] theorem disk_after (o : Outcome) (earlier : List Emission) :
    (o.after earlier).disk = o.disk := rfl

/-- What is written to the terminal leaves the disk as it is. -/
@[simp] theorem disk_written (halves : Text.Halves) (o : Outcome) :
    (o.written halves).disk = o.disk := by
  unfold Outcome.written
  split <;> rfl

/-- **A run does** what its command line is read as. -/
theorem run_of_asked {asked : Asked} (h : (reader d line).2 = asked) :
    run reader setting d line = (asked.run setting d).written setting.halves := by
  rw [run, h]

/-- Whether a command line is read as a request. -/
def Asks (reader : LineReader) (d : Disk) (line : List String) (r : Request) : Prop :=
  (reader d line).2 = .request r

theorem run_of_asks (h : Asks reader d line r) :
    run reader setting d line = (r.run setting d).written setting.halves :=
  run_of_asked h

/-- A run that is asked for nothing leaves the disk as it was. -/
theorem disk_run_of_not_asks (h : ∀ r, ¬Asks reader d line r) :
    (run reader setting d line).disk = d := by
  rcases hasked : (reader d line).2 with r | ⟨exit, emissions⟩
  · exact absurd hasked (h r)
  · rw [run_of_asked hasked, disk_written, Asked.run]

/-! ## Outputs -/

namespace Request

/-- The file that the output is written to. -/
def output? : Request → Option String
  | parse c => c.output.filter (· ≠ "")
  | generate c => c.output.filter (· ≠ "")
  | validate _ => none

/-- Whether the output is written to another place than that of a path. -/
def Spares (r : Request) (d : Disk) (p : FilePath) : Prop :=
  ∀ output, r.output? = some output → d.resolve p ≠ d.resolve (.ofText output)

end Request

/-- An output leaves what is at other paths as it is. -/
theorem lookup?_deliver {text : String} {output : Option String} {p : FilePath}
    (h : ∀ path, output.filter (· ≠ "") = some path → d.resolve p ≠ d.resolve (.ofText path)) :
    (deliver setting d text output).disk.lookup? p = d.lookup? p := by
  unfold deliver
  split
  · rfl
  · rename_i path hpath
    dsimp only
    split
    · rename_i written hwrite
      split <;> exact Disk.lookup?_write_of_ne (h path hpath) hwrite
    · split <;> rfl

/-! ## Scripts -/

/-- The path of the script to validate: the one that is given, or else the remembered one. -/
def Validation.pathOr? (v : Validation) (remembered : String) : Option String :=
  match v.path with
  | some path => some path
  | none => if remembered = "" then none else some remembered

/-- Whether a request that remembers its script gets to work on the script at a path. -/
inductive Request.WorksOn (setting : Setting) (d : Disk) : Request → String → Prop
  | parse {c : Conversion} {loaded : ScriptFile.Loaded}
      (hload : ScriptFile.load d (.ofText c.path) setting.half = .ok loaded) :
      WorksOn setting d (.parse c) c.path
  | validate {v : Validation} {path : String} {loaded : ScriptFile.Loaded}
      (hpath : v.pathOr? (Settings.load d setting.directory setting.half).1.lastScriptPath =
        some path)
      (hload : ScriptFile.load d (.ofText path) setting.half = .ok loaded)
      (hknown : ∀ name ∈ v.checkNames (Settings.load d setting.directory setting.half).1,
        name ∈ Check.all.map Check.name) : WorksOn setting d (.validate v) path

theorem isFile_of_load {p : FilePath} {half : Nat → Char} {loaded : ScriptFile.Loaded}
    (h : ScriptFile.load d p half = .ok loaded) : d.isFile p = .ok true := by
  unfold ScriptFile.load at h
  rcases hread : d.read p with e | content
  · rw [hread] at h
    cases h
  · simp only [Disk.isFile, Disk.find_of_read hread]

/-! ## Parts of commands -/

theorem withScript_of_load {go : Script → Outcome} {loaded : ScriptFile.Loaded}
    (h : ScriptFile.load d (.ofText path) setting.half = .ok loaded) :
    withScript setting d path go = (go loaded.script).after (Outcome.logs loaded.records) := by
  unfold withScript
  rw [h]

theorem disk_withScript_of_error {go : Script → Outcome} {e : ScriptFile.LoadFailure}
    (h : ScriptFile.load d (.ofText path) setting.half = .error e) :
    (withScript setting d path go).disk = d := by
  unfold withScript
  rw [h]
  cases hexpected : e.isExpected <;> simp only [hexpected] <;> rfl

/-- The settings with a path remembered in them. -/
def remembering (setting : Setting) (d : Disk) (path : String) : Settings :=
  { (Settings.load d setting.directory setting.half).1 with
    lastScriptPath := resolvedPath d path }

theorem wellFormed_remembering : (remembering setting d path).WellFormed :=
  (Settings.wellFormed_load d setting.directory setting.half).withPath _

theorem rememberPath_fst (setting : Setting) (d : Disk) (path : String) :
    (rememberPath setting d path).1 = (setting.store d (remembering setting d path)).1 := by
  rw [rememberPath, remembering]

/-- Settings that are stored are saved. -/
theorem save_of_store {s : Settings} (h : setting.store d s = (d', [])) :
    Settings.save d setting.directory setting.mark s = (d', []) := by
  unfold Setting.store at h
  split at h
  · exact h
  · dsimp only at h
    split at h <;> cases h

/-! ## Requests -/

theorem disk_validateAt_of_not {settings : Settings} {v : Validation}
    (h : ¬((∃ loaded, ScriptFile.load d (.ofText path) setting.half = .ok loaded) ∧
      ∀ name ∈ v.checkNames settings, name ∈ Check.all.map Check.name)) :
    (validateAt setting settings d v path).disk = d := by
  unfold validateAt
  split
  · rfl
  · rfl
  · rcases hload : ScriptFile.load d (.ofText path) setting.half with e | loaded
    · exact disk_withScript_of_error hload
    · rw [withScript_of_load hload, disk_after]
      split
      · rfl
      · rename_i issues hissues
        exact absurd ⟨⟨loaded, hload⟩, Script.exists_validate_iff.1 ⟨issues, hissues⟩⟩ h

/-- A validation of a script that is read, by checks that are known, remembers its path and reports
the issues. -/
theorem validateAt_of_validate {settings : Settings} {v : Validation} {loaded : ScriptFile.Loaded}
    {issues : List Issue} (hload : ScriptFile.load d (.ofText path) setting.half = .ok loaded)
    (hissues : loaded.script.validate (v.checkNames settings) = .ok issues) :
    validateAt setting settings d v path =
      (Outcome.mk (.status (validationStatus (v.strict || settings.failOnWarnings) issues))
        (.log (validatedRecord issues.length (v.checkNames settings).length) ::
          Outcome.logs (rememberPath setting d path).2 ++
          report setting.painter (v.formatOr settings) issues)
        (rememberPath setting d path).1).after (Outcome.logs loaded.records) := by
  unfold validateAt
  rw [isFile_of_load hload]
  dsimp only
  rw [withScript_of_load hload, hissues]

theorem disk_validateAt {settings : Settings} {v : Validation} {loaded : ScriptFile.Loaded}
    (hload : ScriptFile.load d (.ofText path) setting.half = .ok loaded)
    (hknown : ∀ name ∈ v.checkNames settings, name ∈ Check.all.map Check.name) :
    (validateAt setting settings d v path).disk = (rememberPath setting d path).1 := by
  obtain ⟨issues, hissues⟩ := (Script.exists_validate_iff (s := loaded.script)).2 hknown
  rw [validateAt_of_validate hload hissues, disk_after]

/-- A validation works on the script at the path that it has, if any. -/
theorem runValidate_eq (setting : Setting) (d : Disk) (v : Validation) :
    runValidate setting d v =
      (match v.pathOr? (Settings.load d setting.directory setting.half).1.lastScriptPath with
      | some path => validateAt setting (Settings.load d setting.directory setting.half).1 d v path
      | none => Outcome.refuse d "no PATH given and no previous script to validate.").after
        (Outcome.logs (Settings.load d setting.directory setting.half).2) := by
  unfold runValidate Validation.pathOr?
  cases v.path with
  | some path => rfl
  | none =>
    dsimp only
    split <;> rfl

/-- **A request that does not get to work on a script** leaves the disk as it was. -/
theorem disk_run_of_not_worksOn
    (hgenerate : ∀ c loaded, r = .generate c →
      ScriptFile.load d (.ofText c.path) setting.half ≠ .ok loaded)
    (h : ∀ path, ¬r.WorksOn setting d path) : (r.run setting d).disk = d := by
  cases r with
  | generate c =>
    rcases hload : ScriptFile.load d (.ofText c.path) setting.half with e | loaded
    · unfold Request.run runGenerate
      exact disk_withScript_of_error hload
    · exact absurd hload (hgenerate c loaded rfl)
  | parse c =>
    rcases hload : ScriptFile.load d (.ofText c.path) setting.half with e | loaded
    · unfold Request.run runParse
      exact disk_withScript_of_error hload
    · exact absurd (.parse hload) (h c.path)
  | validate v =>
    rw [Request.run, runValidate_eq, disk_after]
    split
    · rename_i path hpath
      apply disk_validateAt_of_not
      rintro ⟨⟨loaded, hload⟩, hknown⟩
      exact h path (.validate hpath hload hknown)
    · rfl

/-- A request that works on a script saves the settings, and writes no more than its output. -/
theorem lookup?_run_of_worksOn {p : FilePath} (h : r.WorksOn setting d path)
    (hhome : (rememberPath setting d path).1.home = d.home) (hspares : r.Spares d p) :
    (r.run setting d).disk.lookup? p = (rememberPath setting d path).1.lookup? p := by
  cases h with
  | parse hload =>
    rename_i c loaded
    simp only [Request.run, runParse, withScript_of_load hload, disk_after]
    apply lookup?_deliver
    intro output houtput
    rw [Disk.resolve, Disk.resolve, hhome]
    exact hspares output houtput
  | validate hpath hload hknown =>
    rw [Request.run, runValidate_eq, disk_after, hpath]
    exact congrArg (·.lookup? p) (disk_validateAt hload hknown)

theorem lookup?_run_generate {c : Conversion} {p : FilePath}
    (hspares : (Request.generate c).Spares d p) :
    ((Request.generate c).run setting d).disk.lookup? p = d.lookup? p := by
  rcases hload : ScriptFile.load d (.ofText c.path) setting.half with e | loaded
  · rw [Request.run, runGenerate, disk_withScript_of_error hload]
  · rw [Request.run, runGenerate, withScript_of_load hload, disk_after]
    exact lookup?_deliver hspares

/-- **A run remembers its script and nothing else**, however command lines are read. -/
theorem settings_run (reader : LineReader) (setting : Setting) (d : Disk) (line : List String) :
    ((∀ r path, Asks reader d line r → ¬r.WorksOn setting d path) →
      (∀ c loaded, Asks reader d line (.generate c) →
        ScriptFile.load d (.ofText c.path) setting.half ≠ .ok loaded) →
      (run reader setting d line).disk = d) ∧
    (∀ r path d', Asks reader d line r → r.WorksOn setting d path →
      r.Spares d (Settings.file setting.directory) →
      setting.store d (remembering setting d path) = (d', []) →
      Settings.load (run reader setting d line).disk setting.directory setting.half =
        (remembering setting d path, [])) ∧
    ∀ c, Asks reader d line (.generate c) →
      (Request.generate c).Spares d (Settings.file setting.directory) →
      (run reader setting d line).disk.lookup? (Settings.file setting.directory) =
        d.lookup? (Settings.file setting.directory) := by
  refine ⟨?_, ?_, ?_⟩
  · intro hworks hgenerate
    by_cases hasked : ∃ r, Asks reader d line r
    · obtain ⟨r, hr⟩ := hasked
      rw [run_of_asks hr, disk_written]
      refine disk_run_of_not_worksOn ?_ fun path => hworks r path hr
      rintro c loaded rfl
      exact hgenerate c loaded hr
    · exact disk_run_of_not_asks fun r hr => hasked ⟨r, hr⟩
  · intro r path d' hr hworks hspares hstore
    -- The output is written elsewhere, so the settings file is as it was saved.
    have hsave := save_of_store hstore
    have hsaved : (rememberPath setting d path).1 = d' := by rw [rememberPath_fst, hstore]
    have hlookup := lookup?_run_of_worksOn hworks
      (hsaved ▸ Settings.home_saveWith hsave) hspares
    rw [hsaved] at hlookup
    rw [run_of_asks hr, disk_written]
    apply Settings.load_of_read wellFormed_remembering
    rw [Disk.read_eq_ok_iff_lookup?, hlookup, ← Disk.read_eq_ok_iff_lookup?]
    exact Settings.read_of_saveWith hsave
  · intro c hc hspares
    rw [run_of_asks hc, disk_written]
    exact lookup?_run_generate hspares

/-! ## Lines that are requests -/

theorem ofText?_text (name : CommandName) : CommandName.ofText? name.text = some name := by
  cases name <;> rfl

/-- A line that is not for help is a request if its words can be read. -/
theorem asks_of_split (words words' : Words OptionKey) (name : CommandName) (rest : List String)
    (hsplit : Scope.program.rules.split line = .ok words) (hhelp : words.has .help = false)
    (hwords : words.arguments = name.text :: rest)
    (hsplit' : (Scope.command name).rules.split rest = .ok words')
    (hhelp' : words'.has .help = false) (hread : name.readWords d words' = .ok r) :
    Asks readLine d line r := by
  have hline : line ≠ [] := by
    rintro rfl
    cases hsplit
    cases hwords
  simp only [Asks, readLine, if_neg hline, hsplit, hhelp, hwords, ofText?_text, readCommand,
    hsplit', hhelp', hread]
  rfl

/-- A disk with a document and a settings file that holds nothing. -/
def desk : Disk :=
  (Settings.shelved []).put ["story.json"] (.file (Text.Utf8.encode "{}".toList))

def deskSetting : Setting := { directory := Settings.shelf, mark := "1" }

theorem asks_validate : Asks readLine desk ["validate"] (.validate ⟨none, none, none, false⟩) :=
  asks_of_split ⟨[], ["validate"]⟩ ⟨[], []⟩ .validate []
    (by cbv) rfl rfl (by cbv) rfl rfl

theorem asks_parse :
    Asks readLine desk ["parse", "/story.json", "-o", "a.json"]
      (.parse ⟨"/story.json", some "a.json"⟩) :=
  asks_of_split ⟨[], ["parse", "/story.json", "-o", "a.json"]⟩
    ⟨[⟨.output, "a.json"⟩], ["/story.json"]⟩ .parse ["/story.json", "-o", "a.json"]
    (by cbv) rfl rfl (by cbv) rfl rfl

theorem asks_generate :
    Asks readLine desk ["generate", "/story.json", "-o", "a.rpy"]
      (.generate ⟨"/story.json", some "a.rpy"⟩) :=
  asks_of_split ⟨[], ["generate", "/story.json", "-o", "a.rpy"]⟩
    ⟨[⟨.output, "a.rpy"⟩], ["/story.json"]⟩ .generate ["/story.json", "-o", "a.rpy"]
    (by cbv) rfl rfl (by cbv) rfl rfl

/-- Without a path and with none remembered there is no script to work on. -/
theorem not_worksOn_desk : ¬(Request.validate ⟨none, none, none, false⟩).WorksOn deskSetting desk
    path := by
  intro hworks
  cases hworks with
  | validate hpath hload hknown => cases hpath

theorem exists_save_desk (s : Settings) :
    ∃ d', Settings.save desk Settings.shelf "1" s = (d', []) :=
  ⟨_, Settings.saveWith_of_effects rfl rfl rfl rfl⟩

theorem exists_store_desk :
    ∃ d', deskSetting.store desk { lastScriptPath := "/story.json" } = (d', []) := by
  have hencodes : deskSetting.halves.encodes
      (Settings.values { lastScriptPath := "/story.json" }).toJson.pretty = true := by
    decide +kernel
  rw [Setting.store, if_pos hencodes]
  exact exists_save_desk _

theorem settings_run_desk :
    (run readLine deskSetting desk ["validate"]).disk = desk ∧
    Settings.load (run readLine deskSetting desk ["parse", "/story.json", "-o", "a.json"]).disk
      Settings.shelf deskSetting.half = ({ lastScriptPath := "/story.json" }, []) ∧
    (run readLine deskSetting desk ["generate", "/story.json", "-o", "a.rpy"]).disk.lookup?
      (Settings.file Settings.shelf) = some (.file []) := by
  refine ⟨?_, ?_, ?_⟩
  · refine (settings_run readLine deskSetting desk ["validate"]).1 (fun r path hr => ?_) ?_
    · cases hr.symm.trans asks_validate
      exact not_worksOn_desk
    · intro c loaded hc
      cases hc.symm.trans asks_validate
  · obtain ⟨d', hstore⟩ := exists_store_desk
    have hworks : (Request.parse ⟨"/story.json", some "a.json"⟩).WorksOn deskSetting desk
        "/story.json" := .parse rfl
    have hspares : (Request.parse ⟨"/story.json", some "a.json"⟩).Spares desk
        (Settings.file Settings.shelf) := by
      rintro output ⟨⟩
      decide
    have hpath : remembering deskSetting desk "/story.json" =
        { lastScriptPath := "/story.json" } := by decide
    rw [← hpath] at hstore ⊢
    exact (settings_run readLine deskSetting desk _).2.1 _ _ d' asks_parse hworks hspares hstore
  · have hspares : (Request.generate ⟨"/story.json", some "a.rpy"⟩).Spares desk
        (Settings.file Settings.shelf) := by
      rintro output ⟨⟩
      decide
    exact (settings_run readLine deskSetting desk _).2.2 _ asks_generate hspares

theorem asks_overwrite :
    Asks readLine desk ["generate", "/story.json", "-o", "/config/novel/settings.json"]
      (.generate ⟨"/story.json", some "/config/novel/settings.json"⟩) :=
  asks_of_split ⟨[], ["generate", "/story.json", "-o", "/config/novel/settings.json"]⟩
    ⟨[⟨.output, "/config/novel/settings.json"⟩], ["/story.json"]⟩ .generate
    ["/story.json", "-o", "/config/novel/settings.json"] (by cbv) rfl rfl (by cbv) rfl rfl

theorem lookup?_overwrite :
    (runGenerate deskSetting desk ⟨"/story.json", some "/config/novel/settings.json"⟩).disk.lookup?
      (Settings.file Settings.shelf) = some (.file (Text.Utf8.encode ['\n'])) := by
  rfl

/-- **`generate` does change the settings file** when it is told to write its output there. -/
theorem not_forall_lookup?_generate :
    ¬∀ (setting : Setting) (d : Disk) (line : List String) (c : Conversion),
      Asks readLine d line (.generate c) →
      (run readLine setting d line).disk.lookup? (Settings.file setting.directory) =
        d.lookup? (Settings.file setting.directory) := by
  intro h
  have hsame := h deskSetting desk _ _ asks_overwrite
  rw [run_of_asks asks_overwrite, disk_written] at hsame
  have hempty : desk.lookup? (Settings.file Settings.shelf) = some (.file []) := rfl
  have hcontents := (lookup?_overwrite.symm.trans hsame).trans hempty
  exact absurd hcontents (by decide)

end Command

end NovelScript
