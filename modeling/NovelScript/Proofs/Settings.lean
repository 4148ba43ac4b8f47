import NovelScript.Proofs.Json.Characters
import NovelScript.Proofs.Json.LongIntegers
import NovelScript.Proofs.Json.Readable
import NovelScript.Proofs.LineEnds
import NovelScript.Proofs.Saving
import NovelScript.Proofs.Utf8

/-!
# Settings saved and loaded

Whatever is in the settings file, what is loaded is well formed (`Settings.WellFormed`). Settings of
this form are loaded as they were saved (`Settings.load_saveWith`): their file is written in the
place of the old one, and each field is found under its key again. In a file that holds an object
the fields are apart from each other: what is loaded into one is not changed by what stands under
another key (`Settings.Field.value_ofMembers_congr`).

That is so as long as the object is read. An integer that is too long stops the reader wherever it
stands, and then every field has its default (`Settings.not_forall_value_load_congr`).
-/

set_option autoImplicit false

namespace NovelScript

open Text

namespace Settings

variable {d d' : Disk} {directory : FilePath} {members members' : List (String × Json)}
  {half : Nat → Char}

/-- Whether settings are as the program uses them. -/
structure WellFormed (s : Settings) : Prop where
  /-- A check is switched on or off, but not both. -/
  toggles : (s.checkToggles.map Prod.fst).Nodup
  format : s.outputFormat ∈ outputFormats

theorem wellFormed_default : WellFormed {} where
  toggles := List.nodup_nil
  format := .head _

theorem WellFormed.withPath {s : Settings} (h : s.WellFormed) (path : String) :
    WellFormed { s with lastScriptPath := path } where
  toggles := h.toggles
  format := h.format

/-! ## What is in the file -/

/-- Whether the settings file holds the text of an object, and the text is read. -/
def HoldsObject (d : Disk) (directory : FilePath) (members : List (String × Json))
    (half : Nat → Char := Json.replaced) : Prop :=
  ∃ content text, d.read (file directory) = .ok content ∧ Utf8.decode? content = some text ∧
    Json.ofText (String.ofList (unifyBreaks text)) half = .ok (.obj members)

/-- The content of a file with the text of a value. -/
def contentOf (v : Json) : List UInt8 :=
  Utf8.encode v.pretty.toList

theorem textOf_contentOf (v : Json) : Utf8.decode? (contentOf v) = some v.pretty.toList ∧
    String.ofList (unifyBreaks v.pretty.toList) = v.pretty := by
  refine ⟨Utf8.decode?_encode _, ?_⟩
  rw [unifyBreaks_eq_self (Json.ne_return_of_mem_pretty v), String.ofList_toList]

theorem holdsObject_of_read (hreadable : (Json.obj members).Readable)
    (h : d.read (file directory) = .ok (contentOf (.obj members))) :
    HoldsObject d directory members half := by
  obtain ⟨hdecode, htext⟩ := textOf_contentOf (.obj members)
  refine ⟨_, _, h, hdecode, ?_⟩
  rw [htext]
  exact hreadable.ofText_pretty

theorem HoldsObject.readable (h : HoldsObject d directory members half) :
    (Json.obj members).Readable := by
  obtain ⟨-, text, -, -, htext⟩ := h
  exact Json.readable_of_ofText htext

/-- From an object the settings are loaded that are among its members. -/
theorem HoldsObject.load_eq (h : HoldsObject d directory members half) :
    load d directory half = (ofMembers members, memberWarnings members) := by
  obtain ⟨content, text, hread, hdecode, htext⟩ := h
  simp only [load, Disk.find_of_read hread, hread, ofContent, hdecode, htext]

/-- What is loaded is among the members of an object in the file, or it is the default. -/
theorem load_cases (d : Disk) (directory : FilePath) (half : Nat → Char) :
    (∃ members, HoldsObject d directory members half) ∨ (load d directory half).1 = {} := by
  rcases hread : d.read (file directory) with e | content
  · right
    unfold load
    split
    · rfl
    · rfl
    · rw [hread]
  · rcases hdecode : Utf8.decode? content with _ | text
    · right
      simp only [load, Disk.find_of_read hread, hread, ofContent, hdecode]
    · rcases htext : Json.ofText (String.ofList (unifyBreaks text)) half with e | v
      · right
        cases e <;> simp only [load, Disk.find_of_read hread, hread, ofContent, hdecode, htext]
      · cases v with
        | obj members => exact .inl ⟨members, content, text, hread, hdecode, htext⟩
        | _ =>
          right
          simp only [load, Disk.find_of_read hread, hread, ofContent, hdecode, htext]

/-! ## What is loaded -/

theorem map_fst_togglesOf_sublist (members : List (String × Json)) :
    ((togglesOf members).map Prod.fst).Sublist (members.map Prod.fst) := by
  induction members with
  | nil => exact .slnil
  | cons m members ih =>
    obtain ⟨name, v⟩ := m
    cases v with
    | bool on => exact ih.cons_cons name
    | _ => exact ih.cons name

/-- The members of an object give settings that are well formed. -/
theorem wellFormed_ofMembers (h : (Json.obj members).Readable) :
    (ofMembers members).WellFormed where
  toggles := by
    unfold ofMembers
    dsimp only
    split
    · rename_i toggles htoggles
      have hmem : ("check_toggles", Json.obj toggles) ∈ members :=
        Json.mem_of_find?_eq_some htoggles
      have hnodup := (Json.readable_obj.1 ((Json.readable_obj.1 h).2 _ hmem)).1
      exact hnodup.sublist (map_fst_togglesOf_sublist toggles)
    · exact List.nodup_nil
  format := by
    unfold ofMembers
    dsimp only
    split
    · split
      · rename_i hknown
        exact List.contains_iff_mem.1 hknown
      · exact .head _
    · exact .head _

theorem wellFormed_load (d : Disk) (directory : FilePath) (half : Nat → Char) :
    (load d directory half).1.WellFormed := by
  obtain ⟨members, h⟩ | h := load_cases d directory half
  · rw [h.load_eq]
    exact wellFormed_ofMembers h.readable
  · rw [h]
    exact wellFormed_default

/-! ## What is saved -/

/-- The toggles of settings are all truth values. -/
theorem togglesOf_map (toggles : List (String × Bool)) :
    togglesOf (toggles.map fun t => (t.1, .bool t.2)) = toggles := by
  induction toggles with
  | nil => rfl
  | cons t toggles ih =>
    rw [List.map_cons]
    exact congrArg (t :: ·) ih

/-- The members of the object that settings are saved as. -/
def membersOf (s : Settings) : List (String × Json) :=
  [("check_toggles", s.values.checkToggles), ("output_format", s.values.outputFormat),
    ("last_script_path", s.values.lastScriptPath), ("fail_on_warnings", s.values.failOnWarnings)]

theorem content_values (s : Settings) : s.values.content = contentOf (.obj s.membersOf) := rfl

theorem readable_membersOf {s : Settings} (h : s.WellFormed) : (Json.obj s.membersOf).Readable := by
  have htoggles : s.values.checkToggles.Readable := by
    refine Json.readable_obj.2 ⟨?_, fun m hm => ?_⟩
    · rw [List.map_map]
      exact h.toggles
    · obtain ⟨t, -, rfl⟩ := List.mem_map.1 hm
      exact ⟨trivial, trivial⟩
  have hkeys : (s.membersOf.map Prod.fst).Nodup := by
    rw [show s.membersOf.map Prod.fst =
      ["check_toggles", "output_format", "last_script_path", "fail_on_warnings"] from rfl]
    decide
  refine Json.readable_obj.2 ⟨hkeys, ?_⟩
  simp only [membersOf, List.forall_mem_cons]
  exact ⟨htoggles, Json.readable_str _, Json.readable_str _, ⟨trivial, trivial⟩,
    List.forall_mem_nil _⟩

/-- Each field is found under its key. -/
theorem ofMembers_membersOf {s : Settings} (h : s.WellFormed) : ofMembers s.membersOf = s := by
  simp [ofMembers, membersOf, values, Json.find?, togglesOf_map, h.format]

theorem memberWarnings_membersOf {s : Settings} (h : s.WellFormed) :
    memberWarnings s.membersOf = [] := by
  simp [memberWarnings, membersOf, values, Json.find?, h.format]

/-- Settings are loaded from a file with what they are saved as. -/
theorem load_of_read {s : Settings} (hs : s.WellFormed)
    (h : d.read (file directory) = .ok s.values.content) : load d directory half = (s, []) := by
  rw [content_values] at h
  rw [(holdsObject_of_read (readable_membersOf hs) h).load_eq, ofMembers_membersOf hs,
    memberWarnings_membersOf hs]

/-! ## Fields -/

/-- The fields of settings. -/
inductive Field where
  | checkToggles | outputFormat | lastScriptPath | failOnWarnings
  deriving DecidableEq, Repr

namespace Field

/-- The key of a field in the file. -/
def key : Field → String
  | checkToggles => "check_toggles"
  | outputFormat => "output_format"
  | lastScriptPath => "last_script_path"
  | failOnWarnings => "fail_on_warnings"

/-- What settings have in a field. -/
def value (s : Settings) : Field → Json
  | checkToggles => s.values.checkToggles
  | outputFormat => s.values.outputFormat
  | lastScriptPath => s.values.lastScriptPath
  | failOnWarnings => s.values.failOnWarnings

/-- **A field depends on the value under its own key** and on no other member. -/
theorem value_ofMembers_congr {f : Field}
    (h : Json.find? f.key members = Json.find? f.key members') :
    f.value (ofMembers members) = f.value (ofMembers members') := by
  cases f <;> simp only [key] at h <;> simp only [value, values, ofMembers, h]

end Field

/-- **Settings last.** What is loaded is well formed, whatever is in the file. Settings that are
well formed are loaded again once they are saved, and so what was loaded is. From a file with an
object that is read, each field is loaded from the value under its own key: with that value there it
is the same, whatever stands under the other keys. -/
theorem load_saveWith (directory : FilePath) :
    (∀ d, (load d directory).1.WellFormed) ∧
    (∀ d refused mark d', saveWith refused d directory mark (load d directory).1.values = (d', []) →
      load d' directory = ((load d directory).1, [])) ∧
    (∀ s : Settings, s.WellFormed → ∀ d refused mark d',
      saveWith refused d directory mark s.values = (d', []) → load d' directory = (s, [])) ∧
    (∀ d d' members members', HoldsObject d directory members → HoldsObject d' directory members' →
      ∀ f : Field, Json.find? f.key members = Json.find? f.key members' →
        f.value (load d directory).1 = f.value (load d' directory).1) := by
  refine ⟨fun d => wellFormed_load d directory Json.replaced, ?_, ?_, ?_⟩
  · intro d refused mark d' hsave
    exact load_of_read (wellFormed_load d directory Json.replaced) (read_of_saveWith hsave)
  · intro s hs d refused mark d' hsave
    exact load_of_read hs (read_of_saveWith hsave)
  · intro d d' members members' h h' f hf
    rw [h.load_eq, h'.load_eq]
    exact Field.value_ofMembers_congr hf

theorem read_shelved (content : List UInt8) :
    (shelved content).read (file shelf) = .ok content := rfl

/-- Members of which some have the wrong form and one is not known. -/
def careless : List (String × Json) :=
  [("check_toggles", .obj [("Menus", .bool false), ("Labels", .str "no")]),
    ("last_script_path", .int 42), ("future_option", .null), ("output_format", .str "json")]

/-- Members of which all are as they are saved. -/
def careful : List (String × Json) :=
  [("fail_on_warnings", .bool true), ("output_format", .str "json")]

theorem holdsObject_careless :
    HoldsObject (shelved (contentOf (.obj careless))) shelf careless := by
  refine holdsObject_of_read (Json.readable_obj.2 ⟨by decide, ?_⟩) (read_shelved _)
  have hpath : Json.digitCount 42 ≤ Json.maxDigits := by decide
  simp only [careless, List.forall_mem_cons]
  refine ⟨Json.readable_obj.2 ⟨by decide, ?_⟩, ⟨trivial, hpath⟩, ⟨trivial, trivial⟩,
    Json.readable_str _, List.forall_mem_nil _⟩
  simp only [List.forall_mem_cons]
  exact ⟨⟨trivial, trivial⟩, Json.readable_str _, List.forall_mem_nil _⟩

theorem holdsObject_careful :
    HoldsObject (shelved (contentOf (.obj careful))) shelf careful := by
  refine holdsObject_of_read (Json.readable_obj.2 ⟨by decide, ?_⟩) (read_shelved _)
  simp only [careful, List.forall_mem_cons]
  exact ⟨⟨trivial, trivial⟩, Json.readable_str _, List.forall_mem_nil _⟩

theorem exists_saveWith_shelved (content : List UInt8) (v : Values) :
    ∃ d', saveWith (fun _ => none) (shelved content) shelf "1" v = (d', []) :=
  ⟨_, saveWith_of_effects rfl rfl rfl rfl⟩

theorem load_saveWith_careless :
    (∃ d', saveWith (fun _ => none) (shelved (contentOf (.obj careless))) shelf "1"
        (load (shelved (contentOf (.obj careless))) shelf).1.values = (d', []) ∧
      load d' shelf = ((load (shelved (contentOf (.obj careless))) shelf).1, [])) ∧
    (∃ d', saveWith (fun _ => none) (shelved (contentOf (.obj careless))) shelf "1"
        (ofMembers careful).values = (d', []) ∧
      load d' shelf = ({ outputFormat := "json", failOnWarnings := true }, [])) ∧
    Field.outputFormat.value (load (shelved (contentOf (.obj careless))) shelf).1 =
      Field.outputFormat.value (load (shelved (contentOf (.obj careful))) shelf).1 := by
  obtain ⟨-, hreload, hsaved, hfield⟩ := load_saveWith shelf
  have hcareful : (ofMembers careful).WellFormed :=
    wellFormed_ofMembers holdsObject_careful.readable
  obtain ⟨d, hd⟩ := exists_saveWith_shelved (contentOf (.obj careless))
    (load (shelved (contentOf (.obj careless))) shelf).1.values
  obtain ⟨d', hd'⟩ := exists_saveWith_shelved (contentOf (.obj careless)) (ofMembers careful).values
  refine ⟨⟨d, hd, hreload _ _ _ _ hd⟩, ⟨d', hd', hsaved _ hcareful _ _ _ _ hd'⟩, ?_⟩
  exact hfield _ _ _ _ holdsObject_careless holdsObject_careful .outputFormat rfl

/-! ## Integers that are too long -/

/-- Where the file cannot be read because of an integer that is too long, every field has its
default. -/
theorem load_of_longInteger {v : Json} {n : Nat} (h : d.read (file directory) = .ok (contentOf v))
    (hlong : Json.ofText v.pretty = .error (.longInteger n)) : (load d directory).1 = {} := by
  obtain ⟨hdecode, htext⟩ := textOf_contentOf v
  simp only [load, Disk.find_of_read h, h, ofContent, hdecode, htext, hlong]

/-- **The fields are not apart** in every file that holds the text of an object: the format that was
saved is lost beside an unknown member with an integer of one digit too many. -/
theorem not_forall_value_load_congr :
    ¬∀ (d d' : Disk) (directory : FilePath) (members members' : List (String × Json)),
      d.read (file directory) = .ok (contentOf (.obj members)) →
      d'.read (file directory) = .ok (contentOf (.obj members')) →
      ∀ f : Field, Json.find? f.key members = Json.find? f.key members' →
        f.value (load d directory).1 = f.value (load d' directory).1 := by
  intro h
  have hsame := h (shelved _) (shelved _) shelf careful
    (("future_option", .int (Nat.pow 10 Json.maxDigits : Nat)) :: careful) (read_shelved _)
    (read_shelved _) .outputFormat rfl
  have hlong : Json.ofText (Json.obj
      (("future_option", .int (Nat.pow 10 Json.maxDigits : Nat)) :: careful)).pretty = _ :=
    Json.ofText_longInteger (Json.maxDigits_lt_digitCount (Nat.le_refl _)) careful
  rw [holdsObject_careful.load_eq, load_of_longInteger (read_shelved _) hlong] at hsame
  have hformats : Json.str "json" = .str "text" := hsame
  exact absurd (Json.str.inj hformats) (by decide)

end Settings

end NovelScript
