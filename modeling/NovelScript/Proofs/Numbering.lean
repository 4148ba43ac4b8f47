import NovelScript.Proofs.Requests
import NovelScript.Proofs.Text

/-!
# Ids that count each kind

The usual source of ids writes the kind, a dash and a count. A count holds no dash, so the last dash
of an id tells its kind from its count, whatever the kind is made of (`numberedId_inj_iff`).
Requests of one kind do not touch the counts of the others (`Numbered.next`); so in any sequence of
requests the ids of each kind are numbered in order, and no id is given twice
(`IdSource.take_perKind`).
-/

set_option autoImplicit false

namespace NovelScript

/-! ## What an id tells -/

theorem dash_not_mem_natText (n : Nat) : '-' ∉ DecimalStyle.natText n := by
  intro h
  cases (Json.isDigits_natText n).1.2 _ h

/-- **An id tells its kind and its count.** -/
theorem numberedId_inj_iff {kind kind' : String} {m n : Nat} :
    numberedId kind m = numberedId kind' n ↔ kind = kind' ∧ m = n := by
  constructor
  · intro h
    have htext := congrArg String.toList h
    simp only [numberedId, countText, String.toList_append, String.toList_ofList,
      List.append_assoc] at htext
    obtain ⟨hkind, hcount⟩ := (Text.append_cons_inj_of_last (dash_not_mem_natText m)
      (dash_not_mem_natText n)).1 htext
    exact ⟨String.toList_inj.1 hkind, natText_injective hcount⟩
  · rintro ⟨rfl, rfl⟩
    rfl

/-! ## Runs of requests -/

theorem IdSource.length_take {σ : Type} (source : IdSource σ) :
    ∀ (ids : σ) (kinds : List String), (source.take ids kinds).length = kinds.length
  | _, [] => rfl
  | _, _ :: kinds => congrArg (· + 1) (source.length_take _ kinds)

/-- The record of some requests is that of each kind with the id it was given. -/
theorem IdSource.recorded_foldl {σ : Type} (source : IdSource σ) :
    ∀ (kinds : List String) (ids : σ) (record : List (String × String)),
      (kinds.foldl (fun s kind => (source.recorded.next s kind).2) (ids, record)).2 =
        record ++ kinds.zip (source.take ids kinds)
  | [], _, _ => (List.append_nil _).symm
  | kind :: kinds, ids, record => by
    rw [List.foldl_cons, recorded_next, recorded_foldl source kinds, List.append_assoc]
    rfl

/-- A record of numbered ids goes on with numbered ids, whatever is asked for. -/
theorem Numbered.foldl {s : Counters × List (String × String)} (h : Numbered s) :
    ∀ kinds : List String,
      Numbered (kinds.foldl (fun s kind => (IdSource.perKind.recorded.next s kind).2) s)
  | [] => h
  | kind :: kinds => (h.next kind).foldl kinds

/-- Every id in the record is one of its kind. -/
theorem Numbered.exists_eq {s : Counters × List (String × String)} (h : Numbered s) :
    ∀ p ∈ s.2, ∃ n, p.2 = numberedId p.1 n := by
  intro p hp
  have hkind : p.2 ∈ (s.2.filter (·.1 = p.1)).map (·.2) :=
    List.mem_map_of_mem (List.mem_filter.2 ⟨hp, by simp⟩)
  rw [h p.1] at hkind
  obtain ⟨n, -, hn⟩ := List.mem_map.1 hkind
  exact ⟨n, hn.symm⟩

/-- No id is in the record twice, not even under two kinds. -/
theorem Numbered.nodup {s : Counters × List (String × String)} (h : Numbered s) :
    (s.2.map (·.2)).Nodup := by
  rw [List.nodup_iff_count_le_one]
  intro id
  by_cases hid : id ∈ s.2.map (·.2)
  · obtain ⟨⟨kind, _⟩, hmem, rfl⟩ := List.mem_map.1 hid
    obtain ⟨m, hm⟩ := h.exists_eq _ hmem
    -- The id tells its kind, so it is given as often as it is given for that kind.
    have hcount : (s.2.map (·.2)).count (numberedId kind m) =
        ((s.2.filter (·.1 = kind)).map (·.2)).count (numberedId kind m) := by
      rw [List.count, List.countP_map, List.countP_map, List.countP_filter]
      refine List.countP_congr fun p hp => ?_
      obtain ⟨n, hn⟩ := h.exists_eq p hp
      simp +contextual [hn, numberedId_inj_iff]
    rw [hm, hcount, h kind]
    exact List.nodup_iff_count_le_one.1 (List.nodup_range.map (numberedId_injective kind)) _
  · exact (List.count_eq_zero_of_not_mem hid).trans_le (Nat.zero_le 1)

/-- **Ids that count each kind.** Whatever the kinds that are asked for and in whatever order, each
request is given an id, no two of them the same, and the ids of each kind are its name, a dash and
the numbers from zero on, in the order of the requests. -/
theorem IdSource.take_perKind (kinds : List String) :
    (perKind.take [] kinds).length = kinds.length ∧ (perKind.take [] kinds).Nodup ∧
    ∀ kind, ((kinds.zip (perKind.take [] kinds)).filter (·.1 = kind)).map (·.2) =
      (List.range (kinds.count kind)).map fun n => kind ++ "-" ++ toString n := by
  have hlength := perKind.length_take [] kinds
  have hnumbered := Numbered.foldl (s := ([], [])) (fun _ => rfl) kinds
  have hrecord := perKind.recorded_foldl kinds [] []
  rw [List.nil_append] at hrecord
  have hfst : (kinds.zip (perKind.take [] kinds)).map (·.1) = kinds :=
    List.map_fst_zip hlength.ge
  have hsnd : (kinds.zip (perKind.take [] kinds)).map (·.2) = perKind.take [] kinds :=
    List.map_snd_zip hlength.le
  refine ⟨hlength, ?_, fun kind => ?_⟩
  · have hnodup := hnumbered.nodup
    rwa [hrecord, hsnd] at hnodup
  · have hids := hnumbered kind
    rw [hrecord] at hids
    have hcount : kinds.count kind =
        ((kinds.zip (perKind.take [] kinds)).filter (·.1 = kind)).length := by
      conv_lhs => rw [← hfst]
      rw [List.count, List.countP_map, List.countP_eq_length_filter]
      rfl
    rw [← List.length_map, hids, List.length_map, List.length_range] at hcount
    rw [hids, hcount]
    exact List.map_congr_left fun n _ => numberedId_eq kind n

/-- Kinds that look like ids of each other. -/
example : IdSource.perKind.take [] ["a", "a-1", "", "a", "a-1", "a"] =
    ["a-0", "a-1-0", "-0", "a-1", "a-1-1", "a-2"] := by decide

end NovelScript
