import NovelScript.Files.Disk

/-!
# Writing and reading files

A file can be written at a path that leads to a place without a directory (`Disk.Writable`), and
then it is read back at the same path (`Disk.read_write`): the directories on the way there are not
at that place, so they stay as they were and lead to it again (`Disk.walk_put`). A file that takes
the place of another in its directory is read there (`Disk.read_replace`): no way into a directory
goes through a file in it, so the way stays when that file goes (`Disk.walk_remove`).

At every other place there is afterwards what was there before (`Disk.lookup?_write_of_ne`).
-/

set_option autoImplicit false

namespace NovelScript

namespace Disk

variable {d d' : Disk} {p : FilePath} {place target : Location} {node : Node}
  {content : List UInt8}

/-- Whether a path leads to a place for a file, where one may stand already. -/
def Writable (d : Disk) (p : FilePath) : Prop :=
  ∃ place, d.locate p = .ok place ∧ d.node? place ≠ some .directory

/-! ## Places -/

/-- There is always a directory at the root. -/
theorem ne_nil_of_node?_ne (h : d.node? place ≠ some .directory) : place ≠ [] := by
  rintro rfl
  exact h rfl

theorem node?_put_self (h : target ≠ []) : (d.put target node).node? target = some node := by
  simp [node?, put, h]

theorem node?_put_of_ne (h : place ≠ target) : (d.put target node).node? place = d.node? place := by
  have hfind : (d.nodes.filter fun n => n.1 ≠ target).find? (fun n => n.1 = place) =
      d.nodes.find? fun n => n.1 = place := by
    rw [List.find?_filter]
    congr 1
    funext n
    by_cases hn : n.1 = place
    · simp [hn, h]
    · simp [hn]
  simp only [node?, put]
  rw [List.find?_cons_of_neg (by simpa using h.symm), hfind]

/-! ## Paths -/

/-- A step of a walk leaves a directory, upwards or by a name that is not too long. -/
theorem walk_cons_eq_ok {start : Location} {name : String} {names : List String} :
    d.walk start (name :: names) = .ok place ↔ d.node? start = some .directory ∧
      (name = ".." ∧ d.walk start.dropLast names = .ok place ∨
        name ≠ ".." ∧ isLongName name = false ∧ d.walk (start ++ [name]) names = .ok place) := by
  rw [walk]
  rcases d.node? start with _ | _ | content
  · simp
  · by_cases hup : name = ".." <;> by_cases hlong : isLongName name = true <;> simp [hup, hlong]
  · simp

/-- A walk goes through directories, so what is put in the place of none of them does not change
it. -/
theorem walk_put (htarget : d.node? target ≠ some .directory) {names : List String}
    {start : Location} (h : d.walk start names = .ok place) :
    (d.put target node).walk start names = .ok place := by
  induction names generalizing start with
  | nil => exact h
  | cons name names ih =>
    obtain ⟨hdirectory, hstep⟩ := walk_cons_eq_ok.1 h
    have hne : start ≠ target := by
      rintro rfl
      exact htarget hdirectory
    refine walk_cons_eq_ok.2 ⟨(node?_put_of_ne hne).trans hdirectory, ?_⟩
    obtain ⟨hup, hrest⟩ | ⟨hdown, hshort, hrest⟩ := hstep
    · exact .inl ⟨hup, ih hrest⟩
    · exact .inr ⟨hdown, hshort, ih hrest⟩

theorem locate_eq_ok : d.locate p = .ok place ↔
    holdsNull p.text = false ∧ isLongPath p.text = false ∧
      d.walk (d.start p) p.names = .ok place := by
  rw [locate]
  by_cases hnull : holdsNull p.text = true <;> by_cases hlong : isLongPath p.text = true <;>
    cases hwalk : d.walk (d.start p) p.names <;> simp [hnull, hlong]

theorem locate_put (htarget : d.node? target ≠ some .directory) (h : d.locate p = .ok place) :
    (d.put target node).locate p = .ok place := by
  obtain ⟨hnull, hlong, hwalk⟩ := locate_eq_ok.1 h
  exact locate_eq_ok.2 ⟨hnull, hlong, walk_put htarget hwalk⟩

/-! ## Files -/

theorem write_eq_ok : d.write p content = .ok d' ↔
    ∃ place, d.locate p = .ok place ∧ d.node? place ≠ some .directory ∧
      d.put place (.file content) = d' := by
  rw [write]
  rcases hplace : d.locate p with e | place
  · simp
  · by_cases hnode : d.node? place = some .directory <;> simp [hnode]

/-- Whether a file can be written does not depend on what is to be written. -/
theorem writable_iff : d.Writable p ↔ ∃ d', d.write p content = .ok d' := by
  simp only [Writable, write_eq_ok]
  exact ⟨fun ⟨place, hplace, hnode⟩ => ⟨_, place, hplace, hnode, rfl⟩,
    fun ⟨_, place, hplace, hnode, _⟩ => ⟨place, hplace, hnode⟩⟩

/-- **A file that was written** is read back. -/
theorem read_write (h : d.write p content = .ok d') : d'.read p = .ok content := by
  obtain ⟨place, hplace, hnode, rfl⟩ := write_eq_ok.1 h
  have hnew : (d.put place (.file content)).node? place = some (.file content) :=
    node?_put_self (ne_nil_of_node?_ne hnode)
  simp only [read, locate_put hnode hplace, hnew]

theorem read_eq_ok : d.read p = .ok content ↔
    ∃ place, d.locate p = .ok place ∧ d.node? place = some (.file content) := by
  rw [read]
  rcases d.locate p with e | place
  · simp
  · rcases hnode : d.node? place with _ | _ | content' <;> simp [hnode]

theorem find_of_read (h : d.read p = .ok content) : d.find p = .ok (some (.file content)) := by
  obtain ⟨place, hplace, hnode⟩ := read_eq_ok.1 h
  simp only [find, hplace, hnode]

/-! ## Replacing a file -/

section
variable {old : Location}

theorem node?_remove_of_apart (h : ¬old <+: place) :
    (d.remove old).node? place = d.node? place := by
  have hkept : old.isPrefixOf place = false :=
    Bool.eq_false_iff.2 fun hp => h (List.isPrefixOf_iff_prefix.1 hp)
  have hfind : (d.nodes.filter fun n => !old.isPrefixOf n.1).find? (fun n => n.1 = place) =
      d.nodes.find? fun n => n.1 = place := by
    rw [List.find?_filter]
    congr 1
    funext n
    by_cases hn : n.1 = place
    · simp [hn, hkept]
    · simp [hn]
  simp only [node?, remove, hfind]

/-- A walk that starts below a place where there is no directory does not come out from there: it
would have to go through that place. -/
theorem isPrefix_of_walk (hold : d.node? old ≠ some .directory) {names : List String}
    {start : Location} (h : d.walk start names = .ok place) (hstart : old <+: start) :
    old <+: place := by
  induction names generalizing start with
  | nil =>
    cases h
    exact hstart
  | cons name names ih =>
    obtain ⟨hdirectory, hstep⟩ := walk_cons_eq_ok.1 h
    obtain ⟨-, hrest⟩ | ⟨-, -, hrest⟩ := hstep
    · apply ih hrest
      obtain ⟨below, rfl⟩ := hstart
      have hbelow : below ≠ [] := by
        rintro rfl
        rw [List.append_nil] at hdirectory
        exact hold hdirectory
      rw [List.dropLast_append_of_ne_nil hbelow]
      exact List.prefix_append old below.dropLast
    · exact ih hrest (hstart.trans (List.prefix_append start [name]))

/-- So a walk to another part of the tree stays when that place is cleared. -/
theorem walk_remove (hold : d.node? old ≠ some .directory) {names : List String} {start : Location}
    (h : d.walk start names = .ok place) (hplace : ¬old <+: place) :
    (d.remove old).walk start names = .ok place := by
  induction names generalizing start with
  | nil => exact h
  | cons name names ih =>
    have hstart : ¬old <+: start := fun hp => hplace (isPrefix_of_walk hold h hp)
    obtain ⟨hdirectory, hstep⟩ := walk_cons_eq_ok.1 h
    refine walk_cons_eq_ok.2 ⟨(node?_remove_of_apart hstart).trans hdirectory, ?_⟩
    obtain ⟨hup, hrest⟩ | ⟨hdown, hshort, hrest⟩ := hstep
    · exact .inl ⟨hup, ih hrest⟩
    · exact .inr ⟨hdown, hshort, ih hrest⟩

theorem locate_remove (hold : d.node? old ≠ some .directory) (h : d.locate p = .ok place)
    (hplace : ¬old <+: place) : (d.remove old).locate p = .ok place := by
  obtain ⟨hnull, hlong, hwalk⟩ := locate_eq_ok.1 h
  exact locate_eq_ok.2 ⟨hnull, hlong, walk_remove hold hwalk hplace⟩

theorem replace_eq_ok {source : FilePath} : d.replace source p = .ok d' ↔
    ∃ old new node, d.locate source = .ok old ∧ d.locate p = .ok new ∧ d.node? old = some node ∧
      d.node? new ≠ some .directory ∧ (d.remove old).put new node = d' := by
  rw [replace]
  rcases d.locate source with e | old
  · cases e <;> simp
  · rcases d.locate p with e | new
    · cases e <;> simp
    · rcases hnode : d.node? old with _ | node
      · simp [hnode]
      · by_cases hnew : d.node? new = some .directory <;> simp [hnode, hnew]

end

theorem walk_append {start : Location} {names rest : List String} :
    d.walk start (names ++ rest) = .ok place ↔
      ∃ middle, d.walk start names = .ok middle ∧ d.walk middle rest = .ok place := by
  induction names generalizing start with
  | nil => simp [walk]
  | cons name names ih =>
    rw [List.cons_append, walk_cons_eq_ok, ih, ih]
    constructor
    · rintro ⟨hdirectory, ⟨hup, middle, hmiddle, hrest⟩ | ⟨hdown, hshort, middle, hmiddle, hrest⟩⟩
      · exact ⟨middle, walk_cons_eq_ok.2 ⟨hdirectory, .inl ⟨hup, hmiddle⟩⟩, hrest⟩
      · exact ⟨middle, walk_cons_eq_ok.2 ⟨hdirectory, .inr ⟨hdown, hshort, hmiddle⟩⟩, hrest⟩
    · rintro ⟨middle, hwalk, hrest⟩
      obtain ⟨hdirectory, ⟨hup, hmiddle⟩ | ⟨hdown, hshort, hmiddle⟩⟩ := walk_cons_eq_ok.1 hwalk
      · exact ⟨hdirectory, .inl ⟨hup, middle, hmiddle, hrest⟩⟩
      · exact ⟨hdirectory, .inr ⟨hdown, hshort, middle, hmiddle, hrest⟩⟩

/-- A path of a name below another leads to a place of that name below where the other leads. -/
theorem locate_child {name : String} (hname : name ≠ "..")
    (h : d.locate (p.child name) = .ok place) :
    ∃ above, d.walk (d.start p) p.names = .ok above ∧ place = above ++ [name] := by
  obtain ⟨-, -, hwalk⟩ := locate_eq_ok.1 h
  obtain ⟨above, habove, hlast⟩ := walk_append.1 hwalk
  obtain ⟨-, ⟨hup, -⟩ | ⟨-, -, hstep⟩⟩ := walk_cons_eq_ok.1 hlast
  · exact absurd hup hname
  · cases hstep
    exact ⟨above, habove, rfl⟩

/-- **A file that replaced another** in its directory is read there. -/
theorem read_replace {source target : String} (hsource : source ≠ "..") (htarget : target ≠ "..")
    (hne : source ≠ target) (hread : d.read (p.child source) = .ok content)
    (h : d.replace (p.child source) (p.child target) = .ok d') :
    d'.read (p.child target) = .ok content := by
  obtain ⟨old, new, node, hold, hnew, hnode, hdirectory, rfl⟩ := replace_eq_ok.1 h
  obtain ⟨old', hold', hfile⟩ := read_eq_ok.1 hread
  obtain rfl : old' = old := by
    rw [hold, Except.ok.injEq] at hold'
    exact hold'.symm
  obtain rfl : node = .file content := by
    rw [hnode, Option.some.injEq] at hfile
    exact hfile
  have hapart : ¬old' <+: new := by
    obtain ⟨above, habove, rfl⟩ := locate_child hsource hold
    obtain ⟨above', habove', rfl⟩ := locate_child htarget hnew
    obtain rfl : above = above' := by
      rw [habove, Except.ok.injEq] at habove'
      exact habove'
    simpa using hne
  have hplain : d.node? old' ≠ some .directory := by
    rw [hfile]
    exact nofun
  have hfree : (d.remove old').node? new ≠ some .directory := by
    rwa [node?_remove_of_apart hapart]
  refine read_eq_ok.2 ⟨new, locate_put hfree (locate_remove hplain hnew hapart), ?_⟩
  exact node?_put_self (ne_nil_of_node?_ne hfree)

/-! ## The working directory -/

theorem home_write {q : FilePath} (h : d.write q content = .ok d') : d'.home = d.home := by
  obtain ⟨target, -, -, rfl⟩ := write_eq_ok.1 h
  rfl

theorem home_replace {source : FilePath} (h : d.replace source p = .ok d') : d'.home = d.home := by
  obtain ⟨old, new, node, -, -, -, -, rfl⟩ := replace_eq_ok.1 h
  rfl

theorem home_addDirectories (places : List Location) : (d.addDirectories places).home = d.home := by
  induction places generalizing d with
  | nil => rfl
  | cons place places ih =>
    rw [addDirectories, List.foldl_cons]
    refine ih.trans ?_
    split <;> rfl

theorem ite_error_eq_ok {α : Type} {refused : Prop} [Decidable refused] {e : FileError}
    {step : Except FileError α} {a : α} :
    (if refused then .error e else step) = .ok a ↔ ¬refused ∧ step = .ok a := by
  by_cases h : refused <;> simp [h]

theorem home_makeDirectories (h : d.makeDirectories p = .ok d') : d'.home = d.home := by
  simp only [makeDirectories, ite_error_eq_ok, Except.ok.injEq] at h
  obtain ⟨-, -, -, -, rfl⟩ := h
  exact home_addDirectories _

/-! ## Other places -/

theorem read_eq_ok_iff_lookup? : d.read p = .ok content ↔ d.lookup? p = some (.file content) := by
  rw [read_eq_ok, lookup?]
  rcases d.locate p with e | place <;> simp

theorem eq_follow_of_walk {names : List String} {start : Location}
    (h : d.walk start names = .ok place) : place = FilePath.normal.follow start names := by
  induction names generalizing start with
  | nil =>
    cases h
    rfl
  | cons name names ih =>
    obtain ⟨-, ⟨hup, hrest⟩ | ⟨hdown, -, hrest⟩⟩ := walk_cons_eq_ok.1 h
    · rw [FilePath.normal.follow, if_pos hup]
      exact ih hrest
    · rw [FilePath.normal.follow, if_neg hdown]
      exact ih hrest

/-- A path that leads somewhere leads where its text says. -/
theorem eq_resolve_of_locate (h : d.locate p = .ok place) : place = d.resolve p := by
  obtain ⟨-, -, hwalk⟩ := locate_eq_ok.1 h
  rw [eq_follow_of_walk hwalk, resolve, FilePath.normal, start]
  cases p.start <;> rfl

/-- A file that is written opens no new way. -/
theorem walk_of_walk_put (htarget : d.node? target ≠ some .directory) {names : List String}
    {start : Location} (h : (d.put target (.file content)).walk start names = .ok place) :
    d.walk start names = .ok place := by
  induction names generalizing start with
  | nil => exact h
  | cons name names ih =>
    obtain ⟨hdirectory, hstep⟩ := walk_cons_eq_ok.1 h
    have hne : start ≠ target := by
      rintro rfl
      rw [node?_put_self (ne_nil_of_node?_ne htarget)] at hdirectory
      cases hdirectory
    rw [node?_put_of_ne hne] at hdirectory
    refine walk_cons_eq_ok.2 ⟨hdirectory, ?_⟩
    obtain ⟨hup, hrest⟩ | ⟨hdown, hshort, hrest⟩ := hstep
    · exact .inl ⟨hup, ih hrest⟩
    · exact .inr ⟨hdown, hshort, ih hrest⟩

theorem locate_of_locate_put (htarget : d.node? target ≠ some .directory)
    (h : (d.put target (.file content)).locate p = .ok place) : d.locate p = .ok place := by
  obtain ⟨hnull, hlong, hwalk⟩ := locate_eq_ok.1 h
  exact locate_eq_ok.2 ⟨hnull, hlong, walk_of_walk_put htarget hwalk⟩

/-- **At any other place** there is what was there before a file was written. -/
theorem lookup?_write_of_ne {q : FilePath} (hne : d.resolve p ≠ d.resolve q)
    (h : d.write q content = .ok d') : d'.lookup? p = d.lookup? p := by
  obtain ⟨target, htarget, hfree, rfl⟩ := write_eq_ok.1 h
  rw [← eq_resolve_of_locate htarget] at hne
  rcases hp : d.locate p with e | place
  · rcases hp' : (d.put target (.file content)).locate p with e' | place
    · simp only [lookup?, hp, hp']
    · rw [locate_of_locate_put hfree hp'] at hp
      cases hp
  · have hplace : place ≠ target := by
      rwa [eq_resolve_of_locate hp]
    simp only [lookup?, hp, locate_put hfree hp, node?_put_of_ne hplace]

end Disk

end NovelScript
