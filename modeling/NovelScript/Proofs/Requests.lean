import NovelScript.Proofs.Blocks
import NovelScript.Proofs.Json.Numerals

/-!
# What a source of ids is asked for

A reader asks its source of ids once for each node of the script that it reads, and for nothing
else. `Script.requests` lists the nodes in the order in which it asks: a choice before what it
holds, a menu behind all its choices. `Reader.readText_requests`: a factory that keeps a record of
what it was asked for and what it gave (`IdFactory.recorded`) ends up with this list, whatever it
gives, if it counts as true; so the usual source numbers the elements and the choices of a text in
this order, without a gap. A factory that counts as false is asked for nothing
(`Reader.not_forall_stateBehind_recorded`).
-/

set_option autoImplicit false

namespace NovelScript

/-! ## The nodes of a script -/

mutual

/-- The kinds and ids of an element and all that it holds, the element last. -/
def Element.requests : Element → List (String × String)
  | .statement id _ => [("element", id)]
  | .menu id choices => requestsOfChoices choices ++ [("element", id)]

/-- The kinds and ids of choices and all that they hold, each choice first. -/
def requestsOfChoices : List Choice → List (String × String)
  | [] => []
  | ⟨id, _, _, actions⟩ :: rest =>
    ("choice", id) :: requestsOfElements actions ++ requestsOfChoices rest

def requestsOfElements : List Element → List (String × String)
  | [] => []
  | e :: rest => e.requests ++ requestsOfElements rest

end

namespace Script

/-- The kind and id of each node of the script. -/
def requests (s : Script) : List (String × String) :=
  requestsOfElements s.elements

/-- The ids of the nodes of one kind. -/
def idsOf (kind : String) (s : Script) : List String :=
  (s.requests.filter (·.1 = kind)).map (·.2)

end Script

/-! ## A source with a record -/

/-- The source that keeps a record of the kinds it was asked for and the ids it gave. -/
def IdSource.recorded {σ : Type} (source : IdSource σ) :
    IdSource (σ × List (String × String)) where
  next s kind :=
    let (id, ids) := source.next s.1 kind
    (id, ids, s.2 ++ [(kind, id)])

/-- The factory that keeps a record of the kinds it was asked for and the ids it gave. -/
def IdFactory.recorded (f : IdFactory) : IdFactory where
  State := f.State × List (String × String)
  source := f.source.recorded
  state := (f.state, [])
  counts s := f.counts s.1

section
variable {σ : Type} (source : IdSource σ)

theorem IdSource.recorded_next (ids : σ) (record : List (String × String)) (kind : String) :
    source.recorded.next (ids, record) kind = ((source.next ids kind).1,
      ((source.next ids kind).2, record ++ [(kind, (source.next ids kind).1)])) := rfl

mutual

/-- New ids are the same with a record, and all of them are recorded. -/
theorem Element.renew_recorded (ids : σ) (record : List (String × String)) : ∀ e : Element,
    e.renew source.recorded (ids, record) = ((e.renew source ids).1,
      ((e.renew source ids).2, record ++ (e.renew source ids).1.requests))
  | .statement _ _ => rfl
  | .menu _ choices => by
    simp only [Element.renew, renewChoices_recorded ids record choices, IdSource.recorded_next,
      Element.requests, List.append_assoc]

theorem renewChoices_recorded (ids : σ) (record : List (String × String)) : ∀ cs : List Choice,
    renewChoices source.recorded (ids, record) cs = ((renewChoices source ids cs).1,
      ((renewChoices source ids cs).2, record ++ requestsOfChoices (renewChoices source ids cs).1))
  | [] => by simp [renewChoices, requestsOfChoices]
  | ⟨_, _, _, actions⟩ :: rest => by
    simp only [renewChoices, IdSource.recorded_next, renewElements_recorded _ _ actions,
      renewChoices_recorded _ _ rest, requestsOfChoices, List.append_assoc, List.cons_append,
      List.nil_append]

theorem renewElements_recorded (ids : σ) (record : List (String × String)) : ∀ es : List Element,
    renewElements source.recorded (ids, record) es = ((renewElements source ids es).1,
      ((renewElements source ids es).2,
        record ++ requestsOfElements (renewElements source ids es).1))
  | [] => by simp [renewElements, requestsOfElements]
  | e :: rest => by
    simp only [renewElements, Element.renew_recorded _ _ e, renewElements_recorded _ _ rest,
      requestsOfElements, List.append_assoc]

end

/-! ## Texts -/

variable (ids : σ) (text : String)

/-- A record changes nothing in what is read. -/
theorem Reader.ofText_recorded_script : (Reader.ofText source.recorded (ids, []) text).script =
    (Reader.ofText source ids text).script := by
  have hbare : (Reader.ofText source.recorded (ids, []) text).script.bare =
      (Reader.ofText source ids text).script.bare :=
    (Blocks.script_bare _ _).trans (Blocks.script_bare _ _).symm
  rw [Reader.ofText_eq_renew _ _ hbare, Script.renew, renewElements_recorded]
  exact Reader.ofText_renew source ids text

/-- The record is that of the nodes that were read. -/
theorem Reader.ofText_recorded_ids : (Reader.ofText source.recorded (ids, []) text).ids =
    ((Reader.ofText source ids text).ids, (Reader.ofText source ids text).script.requests) := by
  have hrenew := Reader.ofText_renewElements source.recorded (ids, []) text
  rw [Reader.ofText_recorded_script, renewElements_recorded,
    Reader.ofText_renewElements source ids text] at hrenew
  exact (congrArg Prod.snd hrenew).symm

/-- What holds of the ids at the start and is kept by each request holds of them at the end. -/
theorem Reader.ofText_ids_induction {P : σ → Prop} (h : P ids)
    (hnext : ∀ s kind, P s → P (source.next s kind).2) : P (Reader.ofText source ids text).ids := by
  have hclose : ∀ r : Reader σ, P r.ids → P (r.close source).ids := by
    intro r hr
    by_cases hp : r.phase = .idle
    · rwa [close_idle hp]
    · rw [close_open hp]
      exact hnext _ _ hr
  refine hclose _ (readLines_induction (P := fun r => P r.ids) hclose ?_ h)
  intro line _ _ r r' ha hr
  cases ha with
  | skip => exact hr
  | define => exact hr
  | openMenu => exact hr
  | label => exact hnext _ _ hr
  | emit => exact hnext _ _ hr
  | openChoice => exact hnext _ _ hr
  | addAction => exact hnext _ _ hr

end

/-! ## Factories -/

section
variable {f : IdFactory} (text : String)

theorem Reader.script_readText_of_counts (h : f.counts f.state = true) :
    (readText (some f) text).script = (ofText f.source f.state text).script := by
  have hf : IdFactory.orUsual (some f) = f := if_pos h
  rw [readText, hf]

theorem Reader.script_readText_of_not_counts (h : ¬f.counts f.state = true) :
    (readText (some f) text).script = Script.ofText text := by
  have hf : IdFactory.orUsual (some f) = .usual := if_neg h
  rw [readText, hf]
  rfl

theorem Reader.script_readText_recorded :
    (readText (some f.recorded) text).script = (readText (some f) text).script := by
  by_cases h : f.counts f.state = true
  · rw [script_readText_of_counts text h]
    exact (script_readText_of_counts (f := f.recorded) text h).trans
      (ofText_recorded_script f.source f.state text)
  · rw [script_readText_of_not_counts text h]
    exact script_readText_of_not_counts (f := f.recorded) text h

theorem IdFactory.stateBehind_of_counts (h : f.counts f.state = true) :
    f.stateBehind text = (Reader.ofText f.source f.state text).ids :=
  if_pos h

theorem IdFactory.stateBehind_of_not_counts (h : ¬f.counts f.state = true) :
    f.stateBehind text = f.state :=
  if_neg h

/-- The record of a factory is that of the nodes that were read, if it was asked. -/
theorem IdFactory.stateBehind_recorded : f.recorded.stateBehind text = (f.stateBehind text,
    if f.counts f.state then (Reader.readText (some f) text).script.requests else []) := by
  by_cases h : f.counts f.state = true
  · rw [if_pos h, Reader.script_readText_of_counts text h, stateBehind_of_counts text h]
    exact (stateBehind_of_counts (f := f.recorded) text h).trans
      (Reader.ofText_recorded_ids f.source f.state text)
  · rw [if_neg h, stateBehind_of_not_counts text h]
    exact stateBehind_of_not_counts (f := f.recorded) text h

end

/-! ## Numbered ids -/

theorem Counters.count_increment (kind k : String) : ∀ counters : Counters,
    (counters.increment kind).count k = counters.count k + if k = kind then 1 else 0
  | [] => by
    simp only [increment, count, Nat.zero_add, eq_comm]
  | (k', n) :: rest => by
    have ih := count_increment kind k rest
    by_cases hk : k' = kind
    · subst hk
      by_cases h : k' = k
      · simp [increment, count, h]
      · simp [increment, count, h, Ne.symm h]
    · by_cases h : k' = k
      · subst h
        simp [increment, count, hk]
      · simp [increment, count, hk, h, ih]

/-- The `n`th id of a kind. -/
def numberedId (kind : String) (n : Nat) : String :=
  kind ++ "-" ++ countText n

theorem numberedId_eq (kind : String) (n : Nat) :
    numberedId kind n = kind ++ "-" ++ toString n := by
  rw [numberedId, countText, DecimalStyle.ofList_natText]

theorem natText_injective : Function.Injective DecimalStyle.natText := by
  intro m n h
  obtain ⟨-, -, hm⟩ := Json.isDigits_natText m
  obtain ⟨-, -, hn⟩ := Json.isDigits_natText n
  rw [← hm, h, hn]

theorem numberedId_injective (kind : String) : Function.Injective (numberedId kind) := by
  intro m n h
  have htext := congrArg String.toList h
  simp only [numberedId, countText, String.toList_append, String.toList_ofList,
    List.append_cancel_left_eq] at htext
  exact natText_injective htext

/-- Whether the record of a source that counts each kind holds the ids of each kind in order, as
many as the counter says. -/
def Numbered (s : Counters × List (String × String)) : Prop :=
  ∀ kind, (s.2.filter (·.1 = kind)).map (·.2) =
    (List.range (s.1.count kind)).map (numberedId kind)

theorem Numbered.next {s : Counters × List (String × String)} (h : Numbered s) (kind : String) :
    Numbered (IdSource.perKind.recorded.next s kind).2 := by
  intro k
  have hid : (IdSource.perKind.next s.1 kind).1 = numberedId kind (s.1.count kind) := rfl
  have hcounters : (IdSource.perKind.next s.1 kind).2 = s.1.increment kind := rfl
  rw [IdSource.recorded_next, hid, hcounters, List.filter_append, List.map_append, h k,
    Counters.count_increment]
  by_cases hk : k = kind
  · simp [hk, List.range_succ]
  · simp [hk, Ne.symm hk]

/-- The usual ids of one kind are numbered in the order of the requests. -/
theorem Script.exists_idsOf_ofText (text kind : String) :
    ∃ n, (Script.ofText text).idsOf kind = (List.range n).map (numberedId kind) := by
  have hstart : Numbered ([], []) := fun _ => rfl
  have hnumbered := Reader.ofText_ids_induction IdSource.perKind.recorded ([], []) text hstart
    fun _ k h => h.next k
  rw [Reader.ofText_recorded_ids] at hnumbered
  exact ⟨_, hnumbered kind⟩

/-- **What a source of ids is asked for.** Whatever the text and the factory, keeping a record
changes nothing, and in the end the record of a factory that counts as true holds one request for
each node of the script, in the order of `Script.requests`, with the id of the node. One that counts
as false is asked for nothing, and the ids are the usual ones. These give the `n`th node of a kind
its `n`th id, and no id to two nodes. -/
theorem Reader.readText_requests (f : IdFactory) (text : String) :
    (readText (some f.recorded) text).script = (readText (some f) text).script ∧
    f.recorded.stateBehind text = (f.stateBehind text,
      if f.counts f.state then (readText (some f) text).script.requests else []) ∧
    (readText (some f) text).script =
      (if f.counts f.state then (ofText f.source f.state text).script else Script.ofText text) ∧
    ∀ kind, (Script.ofText text).idsOf kind =
        (List.range ((Script.ofText text).idsOf kind).length).map
          (fun n => kind ++ "-" ++ toString n) ∧
      ((Script.ofText text).idsOf kind).Nodup := by
  refine ⟨script_readText_recorded text, IdFactory.stateBehind_recorded text, ?_, fun kind => ?_⟩
  · split
    · rename_i h
      exact script_readText_of_counts text h
    · rename_i h
      exact script_readText_of_not_counts text h
  · obtain ⟨n, hids⟩ := Script.exists_idsOf_ofText text kind
    rw [hids, List.length_map, List.length_range]
    exact ⟨List.map_congr_left fun n _ => numberedId_eq kind n,
      List.nodup_range.map (numberedId_injective kind)⟩

/-- A factory that counts what it gave, and that counts as false as long as this is nothing. -/
def IdFactory.unused : IdFactory where
  State := Int
  source := .numbered "x:"
  state := 0
  counts n := n != 0

/-- A factory that counts as false is not asked for the id of the one element. -/
theorem Reader.not_forall_stateBehind_recorded : ¬ ∀ (f : IdFactory) (text : String),
    (f.recorded.stateBehind text).2 = (readText (some f) text).script.requests := by
  intro h
  have hrecord := h .unused "return"
  have hnone : (IdFactory.unused.recorded.stateBehind "return").2 = [] := rfl
  have hone : (readText (some .unused) "return").script.requests = [("element", "element-0")] := rfl
  rw [hnone, hone] at hrecord
  cases hrecord

end NovelScript
