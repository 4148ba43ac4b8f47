import Mathlib.Data.List.Infix
import NovelScript.Proofs.Files.Disk
import NovelScript.Settings

/-!
# Saving the settings

Saving takes its steps in turn, and each of them changes the disk in few places: it makes
directories on the way to the settings, it writes or removes the draft, or it moves the draft over
the settings file (`Disk.Grows`, `Saving.grows_performAll`). So whichever step fails, the settings
file is as it was, and the draft goes when it is removed; and where none fails, the settings file
has the new content and nothing else is left (`Settings.saveWith_allOrNothing`).
-/

set_option autoImplicit false

namespace NovelScript

/-! ## What becomes of a disk -/

namespace Disk

variable {d d' d'' : Disk} {p source target : FilePath} {top place : Location}
  {touched : Location → Prop} {content : List UInt8}

/-- Whether nothing is at a place or below it. -/
def Free (d : Disk) (place : Location) : Prop :=
  ∀ here, place <+: here → d.node? here = none

/-- Whether a directory was made at a place, on the way to `top`. -/
def MadeAt (top : Location) (d d' : Disk) (place : Location) : Prop :=
  place <+: top ∧ d.node? place = none ∧ d'.node? place = some .directory

/-- Whether a disk became another one by directories on the way to `top` and by changes at the
places that are `touched`. -/
structure Grows (top : Location) (touched : Location → Prop) (d d' : Disk) : Prop where
  home : d'.home = d.home
  node : ∀ place, ¬touched place → d'.node? place = d.node? place ∨ MadeAt top d d' place

theorem Grows.refl (top : Location) (touched : Location → Prop) (d : Disk) :
    Grows top touched d d where
  home := rfl
  node := fun _ _ => .inl rfl

theorem Grows.trans (h : Grows top touched d d') (h' : Grows top touched d' d'') :
    Grows top touched d d'' where
  home := h'.home.trans h.home
  node := fun place hplace => by
    obtain hsame | ⟨htop, hnone, hmade⟩ := h.node place hplace
    · obtain hsame' | ⟨htop, hnone, hmade⟩ := h'.node place hplace
      · exact .inl (hsame'.trans hsame)
      · exact .inr ⟨htop, hsame ▸ hnone, hmade⟩
    · obtain hsame' | ⟨-, hnone', -⟩ := h'.node place hplace
      · exact .inr ⟨htop, hnone, hsame'.trans hmade⟩
      · rw [hmade] at hnone'
        cases hnone'

theorem Grows.mono {touched' : Location → Prop} (h : Grows top touched d d')
    (hsub : ∀ place, touched place → touched' place) : Grows top touched' d d' where
  home := h.home
  node := fun place hplace => h.node place fun ht => hplace (hsub place ht)

theorem Grows.resolve (h : Grows top touched d d') (p : FilePath) : d'.resolve p = d.resolve p := by
  rw [Disk.resolve, Disk.resolve, h.home]

/-- What is touched at a place or below it, and is gone in the end, has not changed if there was
nothing there. -/
theorem Grows.of_free {touched' : Location → Prop} (h : Grows top touched d d') (hd : d.Free place)
    (hd' : d'.Free place) (hsub : ∀ here, touched here → place <+: here ∨ touched' here) :
    Grows top touched' d d' where
  home := h.home
  node := fun here hhere => by
    by_cases hbelow : place <+: here
    · exact .inl ((hd' here hbelow).trans (hd here hbelow).symm)
    · exact h.node here fun ht => (hsub here ht).elim hbelow hhere

/-- What is neither touched nor on the way to `top` is as it was. -/
theorem Grows.node_eq (h : Grows top touched d d') (hplace : ¬touched place)
    (htop : ¬place <+: top) : d'.node? place = d.node? place :=
  (h.node place hplace).resolve_right fun hmade => htop hmade.1

theorem Grows.free (h : Grows top touched d d') (hd : d.Free place)
    (htouched : ∀ here, place <+: here → ¬touched here) (htop : ¬place <+: top) :
    d'.Free place := fun here hhere => by
  rw [h.node_eq (htouched here hhere) fun h' => htop (hhere.trans h')]
  exact hd here hhere

/-! ### Directories -/

theorem grows_put (hplace : d.node? place = none) (htop : place <+: top) :
    Grows top touched d (d.put place .directory) where
  home := rfl
  node := fun here _ => by
    by_cases hhere : here = place
    · subst hhere
      have hfree : d.node? here ≠ some .directory := by
        rw [hplace]
        exact nofun
      exact .inr ⟨htop, hplace, node?_put_self (ne_nil_of_node?_ne hfree)⟩
    · exact .inl (node?_put_of_ne hhere)

theorem grows_addDirectories {places : List Location} (h : ∀ place ∈ places, place <+: top) :
    Grows top touched d (d.addDirectories places) := by
  induction places generalizing d with
  | nil => exact .refl top touched d
  | cons place places ih =>
    have hrest := fun here hhere => h here (List.mem_cons_of_mem place hhere)
    rw [addDirectories, List.foldl_cons]
    split
    · rename_i hnone
      exact (grows_put (Option.isNone_iff_eq_none.1 hnone) (h place (.head _))).trans (ih hrest)
    · exact ih hrest

theorem prefix_of_mem_above (h : place ∈ above top) : place <+: top := by
  obtain ⟨n, -, rfl⟩ := List.mem_map.1 h
  exact List.take_prefix n top

theorem grows_makeDirectories (h : d.makeDirectories p = .ok d') :
    Grows (d.resolve p) touched d d' := by
  simp only [makeDirectories, ite_error_eq_ok, Except.ok.injEq] at h
  obtain ⟨-, -, -, -, rfl⟩ := h
  refine grows_addDirectories fun place hplace => ?_
  obtain hplace | hplace := List.mem_append.1 hplace
  · exact prefix_of_mem_above hplace
  · rw [List.mem_singleton.1 hplace]

/-! ### Files -/

theorem grows_write (h : d.write p content = .ok d') (hp : touched (d.resolve p)) :
    Grows top touched d d' := by
  obtain ⟨target, htarget, -, rfl⟩ := write_eq_ok.1 h
  refine ⟨rfl, fun place hplace => .inl (node?_put_of_ne ?_)⟩
  rintro rfl
  rw [eq_resolve_of_locate htarget] at hplace
  exact hplace hp

theorem free_remove (hplace : place ≠ []) : (d.remove place).Free place := by
  intro here hhere
  have hne : here ≠ [] := by
    rintro rfl
    exact hplace (List.prefix_nil.1 hhere)
  have hgone :
      (d.nodes.filter fun n => !place.isPrefixOf n.1).find? (fun n => n.1 = here) = none := by
    rw [List.find?_eq_none]
    rintro ⟨place', node⟩ hmem heq
    rw [decide_eq_true_eq] at heq
    subst heq
    have hkept := (List.mem_filter.1 hmem).2
    rw [List.isPrefixOf_iff_prefix.2 hhere] at hkept
    cases hkept
  simp only [node?, if_neg hne, remove, hgone, Option.map_none]

theorem grows_remove (htouched : ∀ here, place <+: here → touched here) :
    Grows top touched d (d.remove place) where
  home := rfl
  node := fun here hhere => .inl (node?_remove_of_apart fun h => hhere (htouched here h))

theorem grows_replace (h : d.replace source target = .ok d')
    (hsource : ∀ here, d.resolve source <+: here → touched here)
    (htarget : touched (d.resolve target)) : Grows top touched d d' := by
  obtain ⟨old, new, node, hold, hnew, -, -, rfl⟩ := replace_eq_ok.1 h
  obtain rfl := eq_resolve_of_locate hold
  obtain rfl := eq_resolve_of_locate hnew
  refine (grows_remove hsource).trans ⟨rfl, fun place hplace => .inl (node?_put_of_ne ?_)⟩
  rintro rfl
  exact hplace htarget

/-- What was moved is gone from where it was. -/
theorem free_replace (h : d.replace source target = .ok d')
    (hsource : d.resolve source ≠ []) (hapart : ¬d.resolve source <+: d.resolve target) :
    d'.Free (d.resolve source) := by
  obtain ⟨old, new, node, hold, hnew, -, -, rfl⟩ := replace_eq_ok.1 h
  obtain rfl := eq_resolve_of_locate hold
  obtain rfl := eq_resolve_of_locate hnew
  intro here hhere
  rw [node?_put_of_ne]
  · exact free_remove hsource here hhere
  · rintro rfl
    exact hapart hhere

/-! ### Names in a directory -/

theorem follow_append_singleton {name : String} (hname : name ≠ "..") (names : List String)
    (start : Location) : FilePath.normal.follow start (names ++ [name]) =
      FilePath.normal.follow start names ++ [name] := by
  induction names generalizing start with
  | nil => simp [FilePath.normal.follow, hname]
  | cons first names ih =>
    rw [List.cons_append, FilePath.normal.follow, FilePath.normal.follow, ih, ih]
    split <;> rfl

theorem resolve_child {name : String} (hname : name ≠ "..") :
    d.resolve (p.child name) = d.resolve p ++ [name] := by
  simp only [resolve, FilePath.normal, FilePath.child]
  cases p.start <;> exact follow_append_singleton hname p.names _

end Disk

namespace Settings

variable {d d' : Disk} {directory : FilePath}

/-- The draft has another name than the settings file. -/
theorem draft_ne (mark : String) : ".settings-" ++ mark ++ ".tmp" ≠ "settings.json" := by
  intro h
  have hchars := congrArg String.toList h
  simp at hchars

theorem draft_ne_up (mark : String) : ".settings-" ++ mark ++ ".tmp" ≠ ".." := by
  intro h
  have hchars := congrArg String.toList h
  simp at hchars

theorem resolve_file : d.resolve (file directory) = d.resolve directory ++ ["settings.json"] :=
  Disk.resolve_child (by decide)

theorem resolve_draft (mark : String) : d.resolve (draft directory mark) =
    d.resolve directory ++ [".settings-" ++ mark ++ ".tmp"] :=
  Disk.resolve_child (draft_ne_up mark)

/-- What stands at the settings file or below it does not stand at the draft or below it. -/
theorem not_prefix_of_prefix_file {mark : String} {place : Location}
    (h : d.resolve (file directory) <+: place) : ¬d.resolve (draft directory mark) <+: place := by
  intro hdraft
  rw [resolve_file] at h
  rw [resolve_draft] at hdraft
  have hsame := List.prefix_of_prefix_length_le hdraft h (by simp)
  have hname : ".settings-" ++ mark ++ ".tmp" = "settings.json" := by simpa using hsame
  exact draft_ne mark hname

theorem not_prefix_directory {name : String} {place : Location}
    (h : d.resolve directory ++ [name] <+: place) : ¬place <+: d.resolve directory := by
  intro hplace
  have hlength := (h.trans hplace).length_le
  rw [List.length_append] at hlength
  exact absurd hlength (by simp)

/-! ## Steps -/

namespace Saving

variable {w : Saving} {mishaps : SaveStep → Option Mishap}

/-- The steps that store the settings. -/
def steps : List SaveStep := [.makeDirectory, .createDraft, .writeDraft, .replace]

/-- A step that does not fail has its whole effect. -/
theorem perform_eq_ok {mishap : Option Mishap} {step : SaveStep} :
    w.perform mishap step d = (d', .ok ()) ↔ mishap = none ∧ w.effect d step = .ok d' := by
  cases mishap with
  | none =>
    rw [perform]
    rcases w.effect d step with e | d <;> simp
  | some m => simp [perform]

theorem performAll_cons_eq_ok {step : SaveStep} {rest : List SaveStep} :
    w.performAll mishaps (step :: rest) d = (d', .ok ()) ↔
      ∃ d₁, w.perform (mishaps step) step d = (d₁, .ok ()) ∧
        w.performAll mishaps rest d₁ = (d', .ok ()) := by
  rw [performAll]
  rcases w.perform (mishaps step) step d with ⟨d₁, e | ⟨⟩⟩ <;> simp

theorem performAll_append (before rest : List SaveStep) (d : Disk) :
    w.performAll mishaps (before ++ rest) d =
      match w.performAll mishaps before d with
      | (d, .error e) => (d, .error e)
      | (d, .ok ()) => w.performAll mishaps rest d := by
  induction before generalizing d with
  | nil => rfl
  | cons step before ih =>
    rw [List.cons_append, performAll, performAll]
    rcases w.perform (mishaps step) step d with ⟨d₁, e | ⟨⟩⟩
    · rfl
    · exact ih d₁

/-- The first step that fails ends a run of steps. -/
theorem performAll_eq_error {steps : List SaveStep} {e : FileError} :
    w.performAll mishaps steps d = (d', .error e) ↔
      ∃ before step after d₁, steps = before ++ step :: after ∧
        w.performAll mishaps before d = (d₁, .ok ()) ∧
        w.perform (mishaps step) step d₁ = (d', .error e) := by
  constructor
  · intro h
    induction steps generalizing d with
    | nil => cases h
    | cons step rest ih =>
      rw [performAll] at h
      rcases hstep : w.perform (mishaps step) step d with ⟨d₁, e' | ⟨⟩⟩
      · rw [hstep] at h
        cases h
        exact ⟨[], step, rest, d, rfl, rfl, hstep⟩
      · rw [hstep] at h
        obtain ⟨before, failed, after, d₂, rfl, hbefore, hfailed⟩ := ih h
        exact ⟨step :: before, failed, after, d₂, rfl,
          performAll_cons_eq_ok.2 ⟨d₁, hstep, hbefore⟩, hfailed⟩
  · rintro ⟨before, step, after, d₁, rfl, hbefore, hstep⟩
    rw [performAll_append, hbefore]
    simp only [performAll, hstep]

/-- Storing comes out as its steps do; only where one fails is there more to do. -/
theorem store_performAll (d : Disk) :
    (w.store mishaps d).2 = (w.performAll mishaps steps d).2 ∧
      ((w.store mishaps d).2 = .ok () → w.store mishaps d = w.performAll mishaps steps d) := by
  rw [show steps = [.makeDirectory, .createDraft] ++ [.writeDraft, .replace] from rfl,
    performAll_append, store]
  rcases w.performAll mishaps [.makeDirectory, .createDraft] d with ⟨drafted, e | ⟨⟩⟩
  · exact ⟨rfl, nofun⟩
  · dsimp only
    rcases w.performAll mishaps [.writeDraft, .replace] drafted with ⟨replaced, e | ⟨⟩⟩
    · exact ⟨rfl, nofun⟩
    · exact ⟨rfl, fun _ => rfl⟩

theorem performAll_of_store (h : w.store mishaps d = (d', .ok ())) :
    w.performAll mishaps steps d = (d', .ok ()) := by
  rw [← (store_performAll d).2 (by rw [h]), h]

/-- Where no step fails, the disk goes through the effects of all steps. -/
theorem exists_effects_of_store (h : w.store mishaps d = (d', .ok ())) :
    ∃ made drafted written : Disk, d.makeDirectories w.directory = .ok made ∧
      made.write w.draft [] = .ok drafted ∧
      drafted.write w.draft w.values.content = .ok written ∧
      written.replace w.draft w.target = .ok d' := by
  have hsteps := performAll_of_store h
  simp only [steps, performAll_cons_eq_ok, perform_eq_ok] at hsteps
  obtain ⟨made, ⟨-, hmade⟩, drafted, ⟨-, hdrafted⟩, written, ⟨-, hwritten⟩, replaced,
    ⟨-, hreplaced⟩, hend⟩ := hsteps
  cases hend
  exact ⟨made, drafted, written, hmade, hdrafted, hwritten, hreplaced⟩

/-! ### What a step changes -/

/-- The places that a step may touch, besides those where it makes directories. -/
def touches (w : Saving) (d : Disk) : SaveStep → Location → Prop
  | .makeDirectory => fun _ => False
  | .replace => fun place => d.resolve w.draft <+: place ∨ place = d.resolve w.target
  | _ => fun place => d.resolve w.draft <+: place

theorem touches_congr (h : d'.home = d.home) : w.touches d' = w.touches d := by
  funext step place
  cases step <;> simp only [touches, Disk.resolve, h]

section
variable {top : Location} {touched : Location → Prop}

theorem grows_effect {step : SaveStep} (h : w.effect d step = .ok d')
    (htop : d.resolve w.directory = top)
    (htouches : ∀ place, w.touches d step place → touched place) :
    Disk.Grows top touched d d' := by
  cases step with
  | makeDirectory => exact htop ▸ Disk.grows_makeDirectories h
  | createDraft => exact Disk.grows_write h (htouches _ List.prefix_rfl)
  | writeDraft => exact Disk.grows_write h (htouches _ List.prefix_rfl)
  | replace =>
    exact Disk.grows_replace h (fun place hplace => htouches place (.inl hplace))
      (htouches _ (.inr rfl))
  | removeDraft =>
    cases h
    exact Disk.grows_remove htouches

/-- A step that fails may still have made directories or written a part of the draft. -/
theorem grows_perform_error {step : SaveStep} {mishap : Option Mishap} {e : FileError}
    (h : w.perform mishap step d = (d', .error e)) (htop : d.resolve w.directory = top)
    (htouches : step = .writeDraft → touched (d.resolve w.draft)) :
    Disk.Grows top touched d d' := by
  cases mishap with
  | none =>
    rw [perform] at h
    rcases heffect : w.effect d step with e | made
    · rw [heffect] at h
      cases h
      exact .refl top touched d
    · rw [heffect] at h
      cases h
  | some m =>
    cases h
    cases step with
    | makeDirectory =>
      rw [partEffect]
      split
      · refine Disk.grows_addDirectories fun place hplace => ?_
        exact htop ▸ Disk.prefix_of_mem_above (List.mem_of_mem_take hplace)
      · exact .refl top touched d
    | writeDraft =>
      rw [partEffect]
      split
      · rename_i written hwritten
        exact Disk.grows_write hwritten (htouches rfl)
      · exact .refl top touched d
    | _ => exact .refl top touched d

/-- **Steps that do not fail** touch what each of them may touch. -/
theorem grows_performAll {steps : List SaveStep} (h : w.performAll mishaps steps d = (d', .ok ()))
    (htop : d.resolve w.directory = top)
    (htouches : ∀ step ∈ steps, ∀ place, w.touches d step place → touched place) :
    Disk.Grows top touched d d' := by
  induction steps generalizing d with
  | nil =>
    cases h
    exact .refl top touched _
  | cons step steps ih =>
    obtain ⟨d₁, hstep, hsteps⟩ := performAll_cons_eq_ok.1 h
    have hfirst := grows_effect (perform_eq_ok.1 hstep).2 htop (htouches step (.head _))
    refine hfirst.trans (ih hsteps ((hfirst.resolve _).trans htop) fun next hnext => ?_)
    rw [touches_congr hfirst.home]
    exact htouches next (.tail _ hnext)

/-- Of steps of which one fails, the last is not done. -/
theorem grows_performAll_error {steps : List SaveStep} {e : FileError}
    (h : w.performAll mishaps steps d = (d', .error e)) (htop : d.resolve w.directory = top)
    (htouches : ∀ step ∈ steps.dropLast, ∀ place, w.touches d step place → touched place)
    (hwrite : .writeDraft ∈ steps → touched (d.resolve w.draft)) :
    Disk.Grows top touched d d' := by
  obtain ⟨before, step, after, d₁, rfl, hbefore, hstep⟩ := performAll_eq_error.1 h
  have hdone : Disk.Grows top touched d d₁ := by
    refine grows_performAll hbefore htop fun next hnext => htouches next ?_
    rw [List.dropLast_append_cons]
    exact List.mem_append_left _ hnext
  refine hdone.trans (grows_perform_error hstep ((hdone.resolve _).trans htop) ?_)
  rintro rfl
  rw [hdone.resolve]
  exact hwrite (List.mem_append_right _ (.head _))

end

/-! ### Failures -/

/-- Whether saving gets to a step and the step fails. -/
def FailsAt (w : Saving) (mishaps : SaveStep → Option Mishap) (d : Disk) (step : SaveStep)
    (e : FileError) : Prop :=
  ∃ before after d₁ d₂, steps = before ++ step :: after ∧
    w.performAll mishaps before d = (d₁, .ok ()) ∧
    w.perform (mishaps step) step d₁ = (d₂, .error e)

theorem store_snd_of_failsAt {step : SaveStep} {e : FileError} (h : w.FailsAt mishaps d step e) :
    (w.store mishaps d).2 = .error e := by
  obtain ⟨before, after, d₁, d₂, hcut, hbefore, hstep⟩ := h
  rw [(store_performAll d).1,
    performAll_eq_error.2 ⟨before, step, after, d₁, hcut, hbefore, hstep⟩]

/-- Where no step fails, everything is stored. -/
theorem exists_store_eq_ok (h : ∀ step e, ¬w.FailsAt mishaps d step e) :
    ∃ d', w.store mishaps d = (d', .ok ()) := by
  have hstore : (w.store mishaps d).2 = (w.performAll mishaps steps d).2 := (store_performAll d).1
  rcases hsteps : w.performAll mishaps steps d with ⟨d', e | ⟨⟩⟩
  · obtain ⟨before, step, after, d₁, hcut, hbefore, hstep⟩ := performAll_eq_error.1 hsteps
    exact absurd ⟨before, after, d₁, d', hcut, hbefore, hstep⟩ (h step e)
  · rw [hsteps] at hstore
    exact ⟨(w.store mishaps d).1, Prod.ext rfl hstore⟩

/-- Saving fails before there is a draft, and then directories are all that is new; or it fails
later, and then the draft is removed. -/
theorem exists_store_of_error {e : FileError} (h : (w.store mishaps d).2 = .error e) :
    (∃ d', w.store mishaps d = (d', .error e) ∧
      Disk.Grows (d.resolve w.directory) (fun _ => False) d d') ∨
    ∃ d', w.store mishaps d = ((w.perform (mishaps .removeDraft) .removeDraft d').1, .error e) ∧
      Disk.Grows (d.resolve w.directory) (d.resolve w.draft <+: ·) d d' := by
  rw [store] at h ⊢
  rcases hcreate : w.performAll mishaps [.makeDirectory, .createDraft] d with ⟨drafted, e' | ⟨⟩⟩
  · rw [hcreate] at h
    cases h
    refine .inl ⟨drafted, rfl, grows_performAll_error hcreate rfl ?_ fun hwrite => ?_⟩
    · rintro step (_ | ⟨_, hstep⟩) place hplace
      · exact hplace
      · cases hstep
    · exact absurd hwrite (by decide)
  · rw [hcreate] at h
    dsimp only at h ⊢
    have hcreated : Disk.Grows (d.resolve w.directory) (d.resolve w.draft <+: ·) d drafted := by
      refine grows_performAll hcreate rfl ?_
      simp only [List.forall_mem_cons]
      exact ⟨fun _ hplace => hplace.elim, fun _ hplace => hplace, List.forall_mem_nil _⟩
    rcases hreplace : w.performAll mishaps [.writeDraft, .replace] drafted with ⟨d', e' | ⟨⟩⟩
    · rw [hreplace] at h
      cases h
      refine .inr ⟨d', rfl, hcreated.trans ?_⟩
      refine grows_performAll_error hreplace (hcreated.resolve w.directory) ?_ ?_
      · rw [touches_congr hcreated.home]
        rintro step (_ | ⟨_, hstep⟩) place hplace
        · exact hplace
        · cases hstep
      · intro _
        rw [hcreated.resolve]
    · rw [hreplace] at h
      cases h

/-- A draft that is removed leaves nothing, and the rest of the disk as it is. -/
theorem perform_removeDraft (w : Saving) (mishap : Option Mishap) (d : Disk) :
    Disk.Grows (d.resolve w.directory) (d.resolve w.draft <+: ·) d
        (w.perform mishap .removeDraft d).1 ∧
      (mishap = none → d.resolve w.draft ≠ [] →
        (w.perform mishap .removeDraft d).1.Free (d.resolve w.draft)) := by
  cases mishap with
  | none =>
    exact ⟨Disk.grows_remove fun _ hplace => hplace, fun _ hdraft => Disk.free_remove hdraft⟩
  | some m => exact ⟨.refl _ _ d, nofun⟩

end Saving

/-! ## All or nothing -/

section
variable {mishaps : SaveStep → Option Mishap} {mark : String} {v : Values}

/-- Nothing is reported just where everything is done. -/
theorem saveWith_eq_nil : saveWith mishaps d directory mark v = (d', []) ↔
    Saving.store ⟨directory, mark, v⟩ mishaps d = (d', .ok ()) := by
  rw [saveWith]
  rcases Saving.store ⟨directory, mark, v⟩ mishaps d with ⟨disk, e | ⟨⟩⟩ <;> simp

/-- Where nothing comes between, the effects of all steps make up the whole. -/
theorem saveWith_of_effects {made drafted written : Disk}
    (hmade : d.makeDirectories directory = .ok made)
    (hdrafted : made.write (draft directory mark) [] = .ok drafted)
    (hwritten : drafted.write (draft directory mark) v.content = .ok written)
    (hreplaced : written.replace (draft directory mark) (file directory) = .ok d') :
    saveWith (fun _ => none) d directory mark v = (d', []) := by
  simp only [saveWith, Saving.store, Saving.performAll, Saving.perform, Saving.effect, Saving.draft,
    Saving.target, hmade, hdrafted, hwritten, hreplaced]

theorem saveWith_of_error {e : FileError}
    (h : Saving.store ⟨directory, mark, v⟩ mishaps d = (d', .error e)) :
    saveWith mishaps d directory mark v = (d', [saveWarning e]) := by
  rw [saveWith, h]

theorem level_saveWarning (e : FileError) : (saveWarning e).level = .warning := by
  rw [saveWarning]
  split <;> rfl

/-- **What is saved is in the settings file.** -/
theorem read_of_saveWith (h : saveWith mishaps d directory mark v = (d', [])) :
    d'.read (file directory) = .ok v.content := by
  obtain ⟨_, _, written, _, _, hwrite, hreplace⟩ :=
    Saving.exists_effects_of_store (saveWith_eq_nil.1 h)
  exact Disk.read_replace (draft_ne_up mark) (by decide) (draft_ne mark) (Disk.read_write hwrite)
    hreplace

theorem home_saveWith (h : saveWith mishaps d directory mark v = (d', [])) : d'.home = d.home := by
  obtain ⟨made, drafted, written, hmade, hdrafted, hwrite, hreplace⟩ :=
    Saving.exists_effects_of_store (saveWith_eq_nil.1 h)
  rw [Disk.home_replace hreplace, Disk.home_write hwrite, Disk.home_write hdrafted,
    Disk.home_makeDirectories hmade]

/-- The draft is not at the root. -/
theorem resolve_draft_ne_nil : d.resolve (draft directory mark) ≠ [] := by
  rw [resolve_draft]
  simp

/-- What stands at the settings file or below it stays as long as no more than the draft is
touched. -/
theorem node?_file_of_grows {place : Location}
    (h : Disk.Grows (d.resolve directory) (d.resolve (draft directory mark) <+: ·) d d')
    (hplace : d.resolve (file directory) <+: place) : d'.node? place = d.node? place :=
  h.node_eq (not_prefix_of_prefix_file hplace) (not_prefix_directory (resolve_file ▸ hplace))

/-- When a step fails, no more than the draft is touched, and that goes when it is removed. -/
theorem exists_saveWith_of_failsAt {step : SaveStep} {e : FileError}
    (h : Saving.FailsAt ⟨directory, mark, v⟩ mishaps d step e) :
    ∃ d', saveWith mishaps d directory mark v = (d', [saveWarning e]) ∧
      Disk.Grows (d.resolve directory) (d.resolve (draft directory mark) <+: ·) d d' ∧
      (mishaps .removeDraft = none → d.Free (d.resolve (draft directory mark)) →
        d'.Free (d.resolve (draft directory mark))) := by
  obtain ⟨d', hstore, hgrows⟩ | ⟨d₁, hstore, hgrows⟩ :=
    Saving.exists_store_of_error (Saving.store_snd_of_failsAt h)
  · have hdraft : d.resolve directory ++ [".settings-" ++ mark ++ ".tmp"] <+:
        d.resolve (draft directory mark) := by
      rw [resolve_draft]
    exact ⟨d', saveWith_of_error hstore, hgrows.mono fun _ => False.elim,
      fun _ hnew => hgrows.free hnew (fun _ _ => id) (not_prefix_directory hdraft)⟩
  · obtain ⟨hremoved, hfree⟩ :=
      Saving.perform_removeDraft ⟨directory, mark, v⟩ (mishaps .removeDraft) d₁
    rw [hgrows.resolve, hgrows.resolve] at hremoved
    rw [hgrows.resolve] at hfree
    exact ⟨_, saveWith_of_error hstore, hgrows.trans hremoved,
      fun hmishap _ => hfree hmishap resolve_draft_ne_nil⟩

/-- When no step fails, the draft is in the place of the settings file. -/
theorem exists_saveWith_of_not_failsAt
    (h : ∀ step e, ¬Saving.FailsAt ⟨directory, mark, v⟩ mishaps d step e) :
    ∃ d', saveWith mishaps d directory mark v = (d', []) ∧
      Disk.Grows (d.resolve directory) (Saving.touches ⟨directory, mark, v⟩ d .replace) d d' ∧
      d'.Free (d.resolve (draft directory mark)) := by
  obtain ⟨d', hstore⟩ := Saving.exists_store_eq_ok h
  refine ⟨d', saveWith_eq_nil.2 hstore, ?_, ?_⟩
  · refine Saving.grows_performAll (Saving.performAll_of_store hstore) rfl fun step _ place => ?_
    cases step with
    | makeDirectory => exact False.elim
    | replace => exact id
    | _ => exact .inl
  · obtain ⟨made, drafted, written, hmade, hdrafted, hwritten, hreplaced⟩ :=
      Saving.exists_effects_of_store hstore
    have hhome : written.home = d.home := by
      rw [Disk.home_write hwritten, Disk.home_write hdrafted, Disk.home_makeDirectories hmade]
    have hresolve (p : FilePath) : written.resolve p = d.resolve p := by
      rw [Disk.resolve, Disk.resolve, hhome]
    have hfree := Disk.free_replace hreplaced
    rw [hresolve, hresolve] at hfree
    exact hfree resolve_draft_ne_nil (not_prefix_of_prefix_file List.prefix_rfl)

/-- **Saving is all or nothing.** Whichever step fails, one warning is reported and the settings
file is as it was, or the directory of its name with all that is in it; and if the draft had a new
name and is removed, nothing of it is left, and nothing has changed on the disk but for directories
on the way to the settings file. If no step fails, nothing is reported, the settings file has the
new content, and there too nothing of the draft is left and nothing else has changed. -/
theorem saveWith_allOrNothing (mishaps : SaveStep → Option Mishap) (d : Disk)
    (directory : FilePath) (mark : String) (v : Values) :
    (∀ step e, Saving.FailsAt ⟨directory, mark, v⟩ mishaps d step e →
      ∃ d', saveWith mishaps d directory mark v = (d', [saveWarning e]) ∧
        (saveWarning e).level = .warning ∧
        (∀ place, d.resolve (file directory) <+: place → d'.node? place = d.node? place) ∧
        (mishaps .removeDraft = none → d.Free (d.resolve (draft directory mark)) →
          d'.Free (d.resolve (draft directory mark)) ∧
          Disk.Grows (d.resolve directory) (fun _ => False) d d')) ∧
    ((∀ step e, ¬Saving.FailsAt ⟨directory, mark, v⟩ mishaps d step e) →
      ∃ d', saveWith mishaps d directory mark v = (d', []) ∧
        d'.read (file directory) = .ok v.content ∧
        d'.Free (d.resolve (draft directory mark)) ∧
        (d.Free (d.resolve (draft directory mark)) →
          Disk.Grows (d.resolve directory) (· = d.resolve (file directory)) d d')) := by
  refine ⟨fun step e hfails => ?_, fun hfails => ?_⟩
  · obtain ⟨d', hsave, hgrows, hfree⟩ := exists_saveWith_of_failsAt hfails
    refine ⟨d', hsave, level_saveWarning e, fun place => node?_file_of_grows hgrows, ?_⟩
    intro hremove hnew
    exact ⟨hfree hremove hnew, hgrows.of_free hnew (hfree hremove hnew) fun _ => .inl⟩
  · obtain ⟨d', hsave, hgrows, hfree⟩ := exists_saveWith_of_not_failsAt hfails
    exact ⟨d', hsave, read_of_saveWith hsave, hfree,
      fun hnew => hgrows.of_free hnew hfree fun _ => id⟩

end

/-- A directory for settings. -/
def shelf : FilePath := .fromRoot ["config", "novel"]

/-- A disk where the settings file has a content. -/
def shelved (content : List UInt8) : Disk where
  nodes := [(["config"], .directory), (["config", "novel"], .directory),
    (["config", "novel", "settings.json"], .file content)]

/-- The disk is full when five bytes are written. -/
def fullDisk : SaveStep → Option Mishap
  | .writeDraft => some ⟨⟨28, "No space left on device"⟩, 5⟩
  | _ => none

theorem free_shelved (content : List UInt8) :
    (shelved content).Free ((shelved content).resolve (draft shelf "1")) := by
  have hremove : (shelved content).remove ((shelved content).resolve (draft shelf "1")) =
      shelved content := rfl
  rw [← hremove]
  exact Disk.free_remove resolve_draft_ne_nil

/-- Settings that are saved for the first time. -/
def fresh : Saving := ⟨shelf, "1", ({} : Settings).values⟩

/-- The old settings stay when the disk is full, and go when it is not. -/
theorem saveWith_allOrNothing_shelved :
    (∃ e, fresh.FailsAt fullDisk (shelved [1, 2]) .writeDraft e ∧
      ∃ d', saveWith fullDisk (shelved [1, 2]) shelf "1" fresh.values = (d', [saveWarning e]) ∧
        d'.node? ["config", "novel", "settings.json"] = some (.file [1, 2]) ∧
        d'.node? ["config", "novel", ".settings-1.tmp"] = none) ∧
    (∀ step e, ¬fresh.FailsAt (fun _ => none) (shelved [1, 2]) step e) ∧
    ∃ d', saveWith (fun _ => none) (shelved [1, 2]) shelf "1" fresh.values = (d', []) ∧
      d'.read (file shelf) = .ok fresh.values.content ∧
      d'.node? ["config", "novel", ".settings-1.tmp"] = none := by
  have hfails : fresh.FailsAt fullDisk (shelved [1, 2]) .writeDraft
      (.refused ⟨28, "No space left on device"⟩ (draft shelf "1").text none) :=
    ⟨[.makeDirectory, .createDraft], [.replace], _, _, rfl, rfl, rfl⟩
  have hnone : ∀ step e, ¬fresh.FailsAt (fun _ => none) (shelved [1, 2]) step e := by
    intro step e h
    cases Saving.store_snd_of_failsAt h
  refine ⟨⟨_, hfails, ?_⟩, hnone, ?_⟩
  · obtain ⟨hfull, -⟩ := saveWith_allOrNothing fullDisk (shelved [1, 2]) shelf "1" fresh.values
    obtain ⟨d', hsave, -, hfile, hrest⟩ := hfull .writeDraft _ hfails
    obtain ⟨hfree, -⟩ := hrest rfl (free_shelved [1, 2])
    exact ⟨d', hsave, hfile _ List.prefix_rfl, hfree _ List.prefix_rfl⟩
  · obtain ⟨-, hroom⟩ :=
      saveWith_allOrNothing (fun _ => none) (shelved [1, 2]) shelf "1" fresh.values
    obtain ⟨d', hsave, hread, hfree, -⟩ := hroom hnone
    exact ⟨d', hsave, hread, hfree _ List.prefix_rfl⟩

end Settings

end NovelScript
