import NovelScript.Log.Logging
import NovelScript.Proofs.Files.Disk

/-!
# What the log shows

A session is a run of setups and of records (`Log.Session.run`). Its first setup attaches the
handlers, and from then on each event keeps them, all at the level of the last setup
(`Session.Attached`), and adds the line of a record to standard error and to the log file where the
record reaches that level (`Session.Attached.step`). So what a session shows is the list of those
lines, each of them once, and no other place of the disk changes (`Session.run_setup`).
-/

set_option autoImplicit false

namespace NovelScript

/-! ## What a log file adds to a disk -/

namespace Disk

variable {d d' d'' : Disk} {log : FilePath} {log? : Option FilePath} {added more : List UInt8}

/-- The log file that a setup names; an empty name names none. -/
def logPath? (d : Disk) : Option String → Option FilePath
  | none => none
  | some name => if name = "" then none else some (FilePath.normal d.home (.ofText name))

/-- Whether a file that a setup names can be opened. -/
def Openable (d : Disk) (logFile : Option String) : Prop :=
  ∀ log, d.logPath? logFile = some log → d.Writable log

/-- Whether a disk became another one by what was added at the end of a log file, if there is one;
the file may have been made for it. -/
structure Adds (log? : Option FilePath) (added : List UInt8) (d d' : Disk) : Prop where
  home : d'.home = d.home
  content : ∀ log, log? = some log →
    d'.read log = .ok ((d.read log).toOption.getD [] ++ added)
  elsewhere : ∀ place, (∀ log, log? = some log → place ≠ d.resolve log) →
    d'.node? place = d.node? place

theorem Adds.none (d : Disk) : Adds none added d d where
  home := rfl
  content := fun _ h => by cases h
  elsewhere := fun _ _ => rfl

theorem Adds.trans (h : Adds log? added d d') (h' : Adds log? more d' d'') :
    Adds log? (added ++ more) d d'' where
  home := h'.home.trans h.home
  content := fun log hlog => by
    rw [h'.content log hlog, h.content log hlog, Except.toOption, Option.getD_some,
      List.append_assoc]
  elsewhere := fun place hplace => by
    refine (h'.elsewhere place fun log hlog => ?_).trans (h.elsewhere place hplace)
    rw [resolve, h.home]
    exact hplace log hlog

theorem Adds.exists_read (h : Adds log? added d d') :
    ∀ log, log? = some log → ∃ content, d'.read log = .ok content :=
  fun log hlog => ⟨_, h.content log hlog⟩

/-- Nothing is added to a log file that is there. -/
theorem Adds.refl (h : ∀ log, log? = some log → ∃ content, d.read log = .ok content) :
    Adds log? [] d d where
  home := rfl
  content := fun log hlog => by
    obtain ⟨content, hread⟩ := h log hlog
    rw [hread, Except.toOption, Option.getD_some, List.append_nil]
  elsewhere := fun _ _ => rfl

/-- Writing a log file anew adds what comes after its old content. -/
theorem adds_write (h : d.write log ((d.read log).toOption.getD [] ++ added) = .ok d') :
    Adds (some log) added d d' where
  home := home_write h
  content := fun log' hlog => by
    cases hlog
    exact read_write h
  elsewhere := fun place hplace => by
    obtain ⟨target, htarget, -, rfl⟩ := write_eq_ok.1 h
    obtain rfl := eq_resolve_of_locate htarget
    exact node?_put_of_ne (hplace log rfl)

end Disk

namespace Log

/-! ## The loggers of the program -/

/-- Whether a logger is the program's own or one of its parts: its name is that of the program, or
goes on with a dot and then with no other dot. -/
def OfProgram (logger : String) : Prop :=
  logger = rootName ∨ ∃ part : String, logger = loggerOf part ∧ part.toList.head? ≠ some '.'

/-- Which dots lead upwards depends on the loggers in use, but the first one is always reached: the
only character that is passed over is one before a dot. -/
theorem leadsToRoot_part (used : List String) : ∀ part : List Char, part.getLast? ≠ some '.' →
    leadsToRoot used (part ++ '.' :: rootName.toList.reverse) = true
  | [], _ => by simp [rootName, leadsToRoot]
  | [c], h => by
    have hc : c ≠ '.' := by simpa using h
    have hroot := leadsToRoot_part used [] nofun
    rw [List.nil_append] at hroot
    rw [List.cons_append, List.nil_append, leadsToRoot, if_neg hc, hroot]
  | c :: d :: rest, h => by
    have hnext : leadsToRoot used (d :: rest ++ '.' :: rootName.toList.reverse) = true :=
      leadsToRoot_part used (d :: rest) (by rwa [List.getLast?_cons_cons] at h)
    have hover : leadsToRoot used (rest ++ '.' :: rootName.toList.reverse) = true := by
      apply leadsToRoot_part used rest
      cases rest with
      | nil => exact nofun
      | cons e rest => rwa [List.getLast?_cons_cons, List.getLast?_cons_cons] at h
    rw [List.cons_append, List.cons_append, leadsToRoot]
    rw [List.cons_append] at hnext
    simp only [hnext, hover, ite_self]

theorem isOwn_of_ofProgram {logger : String} (h : OfProgram logger) (used : List String) :
    isOwn used logger = true := by
  obtain rfl | ⟨part, rfl, hpart⟩ := h
  · simp [isOwn]
  · have hname : (loggerOf part).toList.reverse =
        part.toList.reverse ++ '.' :: rootName.toList.reverse := by
      simp [loggerOf]
    rw [isOwn, hname, leadsToRoot_part used _ (by rwa [List.getLast?_reverse]), Bool.or_true]

/-! ## Sessions -/

/-- Something that happens to the log: a setup, or a record at a time. -/
inductive Event where
  | setup (verbosity : Verbosity) (logFile : Option String)
  | emit (time : String) (record : Record)

/-- The logging, the disk, and what standard error has shown. -/
structure Session where
  logging : Logging := {}
  disk : Disk
  shown : String := ""

namespace Session

def step (s : Session) : Event → Session
  | .setup verbosity logFile =>
    let (logging, opened) := s.logging.configure s.disk verbosity logFile
    { s with
      logging := logging
      disk := match opened with
        | .ok disk => disk
        | .error _ => s.disk }
  | .emit time record =>
    let (logging, disk, text) := s.logging.emit s.disk time record
    { logging := logging, disk := disk, shown := s.shown ++ text }

def run (s : Session) (events : List Event) : Session :=
  events.foldl step s

end Session

namespace Event

/-- The verbosity in force after an event. -/
def after (v : Verbosity) : Event → Verbosity
  | setup v' _ => v'
  | emit .. => v

/-- The line that an event shows while a verbosity is in force. -/
def line? (v : Verbosity) : Event → Option String
  | setup .. => none
  | emit time r => if reaches r.level v.level then some (line time r) else none

/-- Whether an event is a setup or comes from a logger of the program. -/
def OfProgram : Event → Prop
  | setup .. => True
  | emit _ r => Log.OfProgram r.logger

end Event

/-- The verbosity of the last setup, or the one before if there is none. -/
def verbosityAfter (v : Verbosity) (events : List Event) : Verbosity :=
  events.foldl Event.after v

/-- The lines of the records that reach the level in force when they are emitted, in order. -/
def shownLines (v : Verbosity) : List Event → List String
  | [] => []
  | e :: rest => (e.line? v).toList ++ shownLines (e.after v) rest

/-- The handlers at a level: standard error, and the log file if there is one. -/
def handlersAt (log? : Option FilePath) (level : Level) : List Handler :=
  ⟨.standardError, level⟩ :: log?.toList.map fun log => ⟨.file log, level⟩

/-! ## One event -/

variable {log? : Option FilePath} {v : Verbosity} {logFile : Option String} {l : Logging}
  {d : Disk} {s : Session}

/-- The first setup attaches the handlers and opens the log file. -/
theorem configure_of_openable (hl : l.handlers = []) (hopen : d.Openable logFile) :
    ∃ d', l.configure d v logFile =
        ({ l with
          level := some v.level
          handlers := handlersAt (d.logPath? logFile) v.level }, .ok d') ∧
      d.Adds (d.logPath? logFile) [] d' := by
  obtain _ | name := logFile
  · exact ⟨d, by simp [Logging.configure, hl, handlersAt, Disk.logPath?], .none d⟩
  by_cases hname : name = ""
  · subst hname
    exact ⟨d, by simp [Logging.configure, hl, handlersAt, Disk.logPath?], .none d⟩
  have hlog : d.logPath? (some name) = some (FilePath.normal d.home (.ofText name)) :=
    if_neg hname
  rw [hlog]
  have hwritable := hopen _ hlog
  generalize hpath : FilePath.normal d.home (.ofText name) = log at hwritable ⊢
  rcases hread : d.read log with e | content
  · obtain ⟨d', hwrite⟩ : ∃ d', d.write log [] = .ok d' := Disk.writable_iff.1 hwritable
    refine ⟨d', ?_, Disk.adds_write ?_⟩
    · simp [Logging.configure, hl, hname, hpath, hread, hwrite, handlersAt]
    · rw [hread]
      exact hwrite
  · refine ⟨d, ?_, .refl fun log' hlog' => ?_⟩
    · simp [Logging.configure, hl, hname, hpath, hread, handlersAt]
    · cases hlog'
      exact ⟨content, hread⟩

/-- A later setup moves the level and leaves the disk alone. -/
theorem configure_of_handlers {level : Level} (hl : l.handlers = handlersAt log? level) :
    l.configure d v logFile =
      ({ l with level := some v.level, handlers := handlersAt log? v.level }, .ok d) := by
  have hmoved : (handlersAt log? level).map ({ · with level := v.level }) =
      handlersAt log? v.level := by
    cases log? <;> rfl
  have hne : l.handlers ≠ [] := by
    rw [hl]
    exact List.cons_ne_nil _ _
  rw [Logging.configure, if_pos hne, hl, hmoved]

theorem append_adds {log : FilePath} (text : String) (h : ∃ content, d.read log = .ok content) :
    d.Adds (some log) (Text.Utf8.encode text.toList) (Logging.append d log text) := by
  obtain ⟨content, hread⟩ := h
  obtain ⟨place, hplace, hnode⟩ := Disk.read_eq_ok.1 hread
  have hwritable : d.Writable log := ⟨place, hplace, by rw [hnode]; exact nofun⟩
  obtain ⟨d', hwrite⟩ : ∃ d', d.write log (content ++ Text.Utf8.encode text.toList) = .ok d' :=
    Disk.writable_iff.1 hwritable
  have happend : Logging.append d log text = d' := by
    rw [Logging.append, hread]
    simp only [hwrite]
  rw [happend]
  apply Disk.adds_write
  rw [hread]
  exact hwrite

namespace Session

/-- Whether the handlers of a session are attached and all at a level, and the log file is there. -/
structure Attached (log? : Option FilePath) (level : Level) (s : Session) : Prop where
  logger : s.logging.level = some level
  handlers : s.logging.handlers = handlersAt log? level
  opened : ∀ log, log? = some log → ∃ content, s.disk.read log = .ok content

/-- Whether a session went on to another one by lines on standard error and in the log file. -/
structure Shows (log? : Option FilePath) (lines : List String) (s s' : Session) : Prop where
  shown : s'.shown = s.shown ++ String.join lines
  disk : s.disk.Adds log? (Text.Utf8.encode (String.join lines).toList) s'.disk

theorem Attached.shows_nil {level : Level} (h : s.Attached log? level) : Shows log? [] s s where
  shown := String.append_empty.symm
  disk := .refl h.opened

theorem Shows.trans {lines more : List String} {s' s'' : Session} (h : Shows log? lines s s')
    (h' : Shows log? more s' s'') : Shows log? (lines ++ more) s s'' where
  shown := by rw [h'.shown, h.shown, String.join_append, String.append_assoc]
  disk := by
    have hdisk := h.disk.trans h'.disk
    rwa [Text.Utf8.encode, Text.Utf8.encode, ← List.flatMap_append, ← String.toList_append,
      ← String.join_append] at hdisk

/-- A record of the program goes to each of the handlers, or to none. -/
theorem Attached.targets {level : Level} (h : s.Attached log? level) {r : Record}
    (hr : Log.OfProgram r.logger) :
    Logging.targets { s.logging with used := r.logger :: s.logging.used } r =
      if reaches r.level level then .standardError :: log?.toList.map .file else [] := by
  simp only [Logging.targets, isOwn_of_ofProgram hr, h.logger, h.handlers, handlersAt,
    Option.getD_some, Bool.true_and]
  by_cases hreach : reaches r.level level = true <;> cases log? <;> simp [hreach]

/-- What standard error shows of a record, and what the log file gets. -/
theorem Attached.step_emit {level : Level} (h : s.Attached log? level) (time : String) {r : Record}
    (hr : Log.OfProgram r.logger) : s.step (.emit time r) =
      { logging := { s.logging with used := r.logger :: s.logging.used }
        disk := if reaches r.level level then
          log?.toList.foldl (fun d log => Logging.append d log (line time r)) s.disk else s.disk
        shown := s.shown ++ if reaches r.level level then line time r else "" } := by
  have hne : s.logging.handlers ≠ [] := by
    rw [h.handlers]
    exact List.cons_ne_nil _ _
  have hown := isOwn_of_ofProgram hr (r.logger :: s.logging.used)
  simp only [Session.step, Logging.emit, Logging.writeFiles, Logging.errorText, h.targets hr, hown]
  by_cases hreach : reaches r.level level = true <;> cases log? <;> simp [hreach, hne]

theorem Attached.adds_line {level : Level} (h : s.Attached log? level) (text : String) :
    s.disk.Adds log? (Text.Utf8.encode text.toList)
      (log?.toList.foldl (fun d log => Logging.append d log text) s.disk) := by
  cases log? with
  | none => exact .none s.disk
  | some log => exact append_adds text (h.opened log rfl)

/-- **A step of a session** whose handlers are attached keeps them, at the level then in force, and
shows the line of the event. -/
theorem Attached.step (h : s.Attached log? v.level) {e : Event} (he : e.OfProgram) :
    (s.step e).Attached log? (e.after v).level ∧
      Shows log? (e.line? v).toList s (s.step e) := by
  cases e with
  | setup v' logFile =>
    have hstep : s.step (.setup v' logFile) =
        { s with
          logging :=
            { s.logging with level := some v'.level, handlers := handlersAt log? v'.level } } := by
      simp only [Session.step, configure_of_handlers h.handlers]
    rw [hstep]
    exact ⟨⟨rfl, rfl, h.opened⟩, String.append_empty.symm, .refl h.opened⟩
  | emit time r =>
    rw [h.step_emit time he]
    by_cases hreach : reaches r.level v.level = true
    · have hdisk := h.adds_line (line time r)
      have hline : (Event.line? v (.emit time r)).toList = [line time r] := by
        rw [Event.line?, if_pos hreach, Option.toList_some]
      have htext : String.join [line time r] = line time r := by simp
      rw [if_pos hreach, if_pos hreach, hline]
      refine ⟨⟨h.logger, h.handlers, hdisk.exists_read⟩, ?_, ?_⟩
      · rw [htext]
      · rwa [htext]
    · have hline : (Event.line? v (.emit time r)).toList = [] := by
        rw [Event.line?, if_neg hreach, Option.toList_none]
      rw [if_neg hreach, if_neg hreach, hline]
      exact ⟨⟨h.logger, h.handlers, h.opened⟩, rfl, .refl h.opened⟩

/-- So does a run. -/
theorem Attached.run (h : s.Attached log? v.level) {events : List Event}
    (hevents : ∀ e ∈ events, e.OfProgram) :
    (s.run events).Attached log? (verbosityAfter v events).level ∧
      Shows log? (shownLines v events) s (s.run events) := by
  induction events generalizing s v with
  | nil => exact ⟨h, h.shows_nil⟩
  | cons e rest ih =>
    obtain ⟨hattached, hshows⟩ := h.step (hevents e (.head rest))
    obtain ⟨hattached', hshows'⟩ := ih hattached fun e' he' => hevents e' (.tail e he')
    exact ⟨hattached', hshows.trans hshows'⟩

/-- Before the first setup nothing is attached and the disk is not touched. -/
theorem run_emits (hs : s.logging.handlers = []) (records : List (String × Record)) :
    (s.run (records.map fun r => .emit r.1 r.2)).logging.handlers = [] ∧
      (s.run (records.map fun r => .emit r.1 r.2)).disk = s.disk := by
  induction records generalizing s with
  | nil => exact ⟨hs, rfl⟩
  | cons r records ih =>
    have htargets : Logging.targets { s.logging with used := r.2.logger :: s.logging.used } r.2 =
        [] := by
      simp [Logging.targets, hs]
    have hdisk : (s.step (.emit r.1 r.2)).disk = s.disk := by
      simp only [Session.step, Logging.emit, Logging.writeFiles, htargets, List.foldl_nil]
    obtain ⟨hhandlers, hrest⟩ := ih (s := s.step (.emit r.1 r.2)) hs
    exact ⟨hhandlers, hrest.trans hdisk⟩

/-- The first setup attaches the handlers. -/
theorem attached_setup (hs : s.logging.handlers = []) (hopen : s.disk.Openable logFile) :
    (s.step (.setup v logFile)).Attached (s.disk.logPath? logFile) v.level ∧
      Shows (s.disk.logPath? logFile) [] s (s.step (.setup v logFile)) := by
  obtain ⟨d', hconfigure, hadds⟩ := configure_of_openable (v := v) hs hopen
  have hstep : s.step (.setup v logFile) =
      { s with
        logging := { s.logging with
          level := some v.level
          handlers := handlersAt (s.disk.logPath? logFile) v.level }
        disk := d' } := by
    simp only [Session.step, hconfigure]
  rw [hstep]
  exact ⟨⟨rfl, rfl, hadds.exists_read⟩, String.append_empty.symm, hadds⟩

/-- **The log of a session.** Records may come before the first setup. From then on, whatever comes
after it, the program's logger is at the level of the last setup, and its handlers are one for
standard error and one for the log file that the first setup names, if it does, at the same level.
Each record that reached the level in force is on standard error once, and once in the log file
behind what that held, in order; and the rest of the disk is as it was, so no later log file is made
or opened. -/
theorem run_setup {disk : Disk} (before : List (String × Record)) (v : Verbosity)
    {logFile : Option String} (hopen : disk.Openable logFile) {rest : List Event}
    (hrest : ∀ e ∈ rest, e.OfProgram) :
    let start := Session.run { disk := disk } (before.map fun r => .emit r.1 r.2)
    let s := start.run (.setup v logFile :: rest)
    let level := (verbosityAfter v rest).level
    let text := String.join (shownLines v rest)
    s.logging.level = some level ∧
      s.logging.handlers = ⟨.standardError, level⟩ ::
        (disk.logPath? logFile).toList.map (fun log => ⟨.file log, level⟩) ∧
      s.shown = start.shown ++ text ∧
      (∀ log, disk.logPath? logFile = some log → s.disk.read log =
        .ok ((disk.read log).toOption.getD [] ++ Text.Utf8.encode text.toList)) ∧
      ∀ place, (∀ log, disk.logPath? logFile = some log → place ≠ disk.resolve log) →
        s.disk.node? place = disk.node? place := by
  intro start s level text
  obtain ⟨hhandlers, hdisk⟩ := run_emits (s := { disk := disk }) rfl before
  change start.disk = disk at hdisk
  obtain ⟨hattached, hshows⟩ := attached_setup (s := start) (v := v) hhandlers (hdisk ▸ hopen)
  obtain ⟨hlast, hrun⟩ := hattached.run hrest
  have hall := hshows.trans hrun
  rw [hdisk] at hlast hall
  have hadds := hall.disk
  rw [hdisk] at hadds
  exact ⟨hlast.logger, hlast.handlers, hall.shown, hadds.content, hadds.elsewhere⟩

/-- A record that is shown, a setup that names another log file and asks for less, and two records
of which one is shown. -/
def quieter : List Event :=
  [.emit "<1>" ⟨.info, "renpy_transcoder.parser", "read"⟩, .setup .quiet (some "other.log"),
    .emit "<2>" ⟨.info, "renpy_transcoder.parser", "read"⟩,
    .emit "<3>" ⟨.error, "renpy_transcoder", "lost"⟩]

theorem run_setup_quieter :
    ({} : Disk).Openable (some "run.log") ∧ (∀ e ∈ quieter, e.OfProgram) ∧
      let text := "<1> INFO  renpy_transcoder.parser: read\n<3> ERROR renpy_transcoder: lost\n"
      let s := Session.run { disk := {} }
        (.emit "<0>" ⟨.error, "renpy_transcoder", "early"⟩ :: .setup .normal (some "run.log") ::
          quieter)
      s.logging.level = some .warning ∧
        s.logging.handlers =
          [⟨.standardError, .warning⟩, ⟨.file (.fromRoot ["run.log"]), .warning⟩] ∧
        s.shown = "early\n" ++ text ∧
        s.disk.read (.fromRoot ["run.log"]) = .ok (Text.Utf8.encode text.toList) ∧
        s.disk.node? ["other.log"] = none := by
  have hopen : ({} : Disk).Openable (some "run.log") := by
    intro log hlog
    cases hlog
    exact ⟨["run.log"], by rfl, by decide +kernel⟩
  have hparser : OfProgram "renpy_transcoder.parser" := .inr ⟨"parser", by decide, by decide⟩
  have hrest : ∀ e ∈ quieter, e.OfProgram := by
    simp only [quieter, List.forall_mem_cons, Event.OfProgram]
    exact ⟨hparser, trivial, hparser, .inl rfl, List.forall_mem_nil _⟩
  have htext : String.join (shownLines .normal quieter) =
      "<1> INFO  renpy_transcoder.parser: read\n<3> ERROR renpy_transcoder: lost\n" := by
    decide +kernel
  obtain ⟨hlevel, hhandlers, hshown, hcontent, helsewhere⟩ :=
    run_setup [("<0>", ⟨.error, "renpy_transcoder", "early"⟩)] .normal hopen hrest
  rw [htext] at hshown hcontent
  refine ⟨hopen, hrest, hlevel, hhandlers, hshown, hcontent _ rfl, helsewhere _ ?_⟩
  intro log hlog
  cases hlog
  decide +kernel

end Session

end Log

end NovelScript
