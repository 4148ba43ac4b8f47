import NovelScript.Proofs.Json.Values

/-!
# Values that texts denote

A value is `Readable` if no object in it has a key twice and no integer in it is too long. Those are
the values that texts denote (`readable_iff`).
-/

set_option autoImplicit false

namespace NovelScript.Json

variable {half : Nat → Char}

/-- Whether a value is read back from its texts. -/
def Readable (v : Json) : Prop := v.DistinctKeys ∧ v.ShortIntegers

theorem distinctKeysItems_iff : ∀ {items : List Json},
    DistinctKeysItems items ↔ ∀ v ∈ items, v.DistinctKeys
  | [] => by simp [DistinctKeysItems]
  | v :: items => by simp [DistinctKeysItems, distinctKeysItems_iff]

theorem shortIntegersItems_iff : ∀ {items : List Json},
    ShortIntegersItems items ↔ ∀ v ∈ items, v.ShortIntegers
  | [] => by simp [ShortIntegersItems]
  | v :: items => by simp [ShortIntegersItems, shortIntegersItems_iff]

theorem distinctKeysMembers_iff : ∀ {members : List (String × Json)},
    DistinctKeysMembers members ↔ ∀ m ∈ members, m.2.DistinctKeys
  | [] => by simp [DistinctKeysMembers]
  | (k, v) :: members => by
    rw [DistinctKeysMembers, distinctKeysMembers_iff, List.forall_mem_cons]

theorem shortIntegersMembers_iff : ∀ {members : List (String × Json)},
    ShortIntegersMembers members ↔ ∀ m ∈ members, m.2.ShortIntegers
  | [] => by simp [ShortIntegersMembers]
  | (k, v) :: members => by
    rw [ShortIntegersMembers, shortIntegersMembers_iff, List.forall_mem_cons]

theorem readable_arr {items : List Json} : (arr items).Readable ↔ ∀ v ∈ items, v.Readable := by
  simp only [Readable, DistinctKeys, ShortIntegers, distinctKeysItems_iff, shortIntegersItems_iff,
    forall_and]

theorem readable_obj {members : List (String × Json)} : (obj members).Readable ↔
    (members.map Prod.fst).Nodup ∧ ∀ m ∈ members, m.2.Readable := by
  simp only [Readable, DistinctKeys, ShortIntegers, distinctKeysMembers_iff,
    shortIntegersMembers_iff, forall_and, and_assoc]

theorem readable_str (s : String) : (str s).Readable := ⟨trivial, trivial⟩

theorem readable_float (x : Binary64) : (float x).Readable := ⟨trivial, trivial⟩

theorem mem_of_find?_eq_some {k : String} {v : Json} : ∀ {ms : List (String × Json)},
    find? k ms = some v → (k, v) ∈ ms
  | (k', v') :: ms, h => by
    unfold find? at h
    split at h
    · rename_i hk
      cases h
      exact hk ▸ .head ms
    · exact .tail _ (mem_of_find?_eq_some h)

/-! ## Members that are set -/

theorem forall_mem_setMember {P : Json → Prop} {k : String} {v : Json} (hv : P v) :
    ∀ {ms : List (String × Json)}, (∀ m ∈ ms, P m.2) → ∀ m ∈ setMember k v ms, P m.2
  | [], _ => by simpa [setMember] using hv
  | (k', v') :: ms, h => by
    obtain ⟨h', hms⟩ := List.forall_mem_cons.1 h
    rw [setMember]
    split
    · exact List.forall_mem_cons.2 ⟨hv, hms⟩
    · exact List.forall_mem_cons.2 ⟨h', forall_mem_setMember hv hms⟩

theorem nodup_setMember (k : String) (v : Json) {ms : List (String × Json)}
    (h : (ms.map Prod.fst).Nodup) : ((setMember k v ms).map Prod.fst).Nodup := by
  rw [map_fst_setMember]
  split
  · exact h
  · rename_i hk
    exact List.nodup_append.2 ⟨h, by simp, fun x hx y hy => by
      rw [List.mem_singleton.1 hy]
      rintro rfl
      exact hk hx⟩

/-- The object of members that were read in turn. -/
theorem readable_ofMembers {ms : List (String × Json)} (h : ∀ m ∈ ms, m.2.Readable) :
    (obj (ofMembers ms)).Readable := by
  have hset : ∀ (ms known : List (String × Json)), (∀ m ∈ ms, m.2.Readable) →
      (obj known).Readable →
      (obj (ms.foldl (fun known m => setMember m.1 m.2 known) known)).Readable := by
    intro ms
    induction ms with
    | nil => exact fun _ _ hknown => hknown
    | cons m ms ih =>
      intro known hms hknown
      obtain ⟨hm, hms⟩ := List.forall_mem_cons.1 hms
      obtain ⟨hkeys, hvalues⟩ := readable_obj.1 hknown
      exact ih _ hms
        (readable_obj.2 ⟨nodup_setMember m.1 m.2 hkeys, forall_mem_setMember hm hvalues⟩)
  exact hset ms [] h (readable_obj.2 ⟨List.nodup_nil, by simp⟩)

/-! ## Readings -/

theorem readable_of_readNumber {s r : List Char} {v : Json} (h : readNumber s = .ok (v, r)) :
    v.Readable := by
  obtain ⟨k, rfl, hk⟩ | ⟨x, rfl⟩ := readNumber_eq_ok h
  · exact ⟨trivial, hk⟩
  · exact readable_float x

theorem readable_of_readConstant? {s r : List Char} {v : Json}
    (h : readConstant? s = some (v, r)) : v.Readable := by
  obtain ⟨⟨word, v'⟩, hmem, heq⟩ := List.exists_of_findSome?_eq_some h
  obtain ⟨r', -, hpair⟩ := Option.map_eq_some_iff.1 heq
  cases hpair
  simp only [constants, List.mem_cons, Prod.mk.injEq, List.not_mem_nil, or_false] at hmem
  rcases hmem with ⟨-, rfl⟩ | ⟨-, rfl⟩ | ⟨-, rfl⟩ | ⟨-, rfl⟩ | ⟨-, rfl⟩ | ⟨-, rfl⟩ <;>
    exact ⟨trivial, trivial⟩

/-- What is read, of whatever kind, is readable. -/
theorem readable_of_read : ∀ fuel : Nat,
    (∀ {s r v}, readValue half fuel s = .ok (v, r) → v.Readable) ∧
    (∀ {s r items}, readItems half fuel s = .ok (items, r) → ∀ v ∈ items, v.Readable) ∧
    (∀ {s r members}, readMembers half fuel s = .ok (members, r) → ∀ m ∈ members, m.2.Readable)
  | 0 => by
    refine ⟨?_, ?_, ?_⟩ <;> intro s r x h <;> simp [readValue, readItems, readMembers, stopAt] at h
  | fuel + 1 => by
    obtain ⟨hvalue, hitems, hmembers⟩ := readable_of_read fuel
    refine ⟨?_, ?_, ?_⟩ <;> intro s r x h
    · unfold readValue at h
      split at h
      · -- a string
        split at h
        · cases h
          exact readable_str _
        · cases h
      · -- an array
        split at h
        · cases h
          exact readable_arr.2 (by simp)
        · split at h
          · rename_i hread
            cases h
            exact readable_arr.2 (hitems hread)
          · cases h
      · -- an object
        split at h
        · cases h
          exact readable_obj.2 (by simp)
        · split at h
          · rename_i hread
            cases h
            exact readable_ofMembers (hmembers hread)
          · cases h
      · split at h
        · rename_i hread
          cases h
          exact readable_of_readConstant? hread
        · exact readable_of_readNumber h
    · unfold readItems at h
      split at h
      · cases h
      · rename_i hread
        have hv := hvalue hread
        split at h
        · cases h
          simpa using hv
        · split at h
          · rename_i hrest
            cases h
            exact List.forall_mem_cons.2 ⟨hv, hitems hrest⟩
          · cases h
        · cases h
    · unfold readMembers at h
      split at h
      · cases h
      · split at h
        · cases h
        · rename_i hread
          have hv := hvalue hread
          split at h
          · cases h
            simpa using hv
          · split at h
            · rename_i hrest
              cases h
              exact List.forall_mem_cons.2 ⟨hv, hmembers hrest⟩
            · cases h
          · cases h

theorem readable_of_readText {s : List Char} {v : Json} (h : readText half s = .ok v) :
    v.Readable := by
  unfold readText at h
  split at h
  · cases h
  · split at h
    · cases h
    · rename_i hread
      split at h
      · cases h
        exact (readable_of_read _).1 hread
      · cases h

theorem Readable.ofText_pretty_append {v : Json} (h : v.Readable) {b : String}
    (hb : ∀ c ∈ b.toList, isSpace c = true) : ofText (v.pretty ++ b) half = .ok v := by
  have htext : ofText (String.ofList (_ ++ b.toList)) half = .ok v :=
    ofText_text Layout.blank_pretty h.1 h.2 0 hb
  rwa [String.ofList_append, String.ofList_toList] at htext

theorem Readable.ofText_pretty {v : Json} (h : v.Readable) : ofText v.pretty half = .ok v := by
  have htext : ofText (v.pretty ++ "") half = .ok v := h.ofText_pretty_append (by simp)
  rwa [String.append_empty] at htext

theorem readable_of_ofText {text : String} {v : Json} (h : ofText text half = .ok v) :
    v.Readable := by
  unfold ofText at h
  dsimp only at h
  split at h
  · rename_i hread
    cases h
    exact readable_of_readText hread
  · cases h
  · cases h

/-- **The values that texts denote** are those that are read back from their texts. -/
theorem readable_iff (v : Json) : v.Readable ↔ ∃ text, ofText text = .ok v := by
  constructor
  · exact fun h => ⟨v.pretty, h.ofText_pretty⟩
  · rintro ⟨text, h⟩
    exact readable_of_ofText h

end NovelScript.Json
