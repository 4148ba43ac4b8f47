import NovelScript.Proofs.Json.Numerals
import NovelScript.Proofs.Json.Strings

/-!
# Values in JSON texts

A value is read back from its text in every layout that puts only blanks between the parts
(`ofText_text`), if no object in it has a key twice and no integer in it is too long to be read.
-/

set_option autoImplicit false

namespace NovelScript.Json

variable {half : Nat → Char}

/-! ## What a value is followed by -/

theorem skipSpace_append {b : List Char} (hb : ∀ c ∈ b, isSpace c = true) (s : List Char) :
    skipSpace (b ++ s) = skipSpace s :=
  List.dropWhile_append_of_pos hb

theorem skipSpace_cons {c : Char} (hc : isSpace c = false) (s : List Char) :
    skipSpace (c :: s) = c :: s := by
  simp [skipSpace, hc]

/-- Whether `s` is where a value ends. -/
def EndsValue (s : List Char) : Prop :=
  ∀ c ∈ s.head?, isSpace c = true ∨ c ∈ [',', ']', '}']

theorem EndsValue.endsNumber {s : List Char} (h : EndsValue s) : EndsNumber s := by
  intro c hc
  rcases h c hc with hs | hmem
  · simp only [isSpace, Bool.or_eq_true, beq_iff_eq] at hs
    rcases hs with ((rfl | rfl) | rfl) | rfl <;> decide
  · simp only [List.mem_cons, List.not_mem_nil, or_false] at hmem
    rcases hmem with rfl | rfl | rfl <;> decide

theorem EndsValue.append {b s : List Char} (hb : ∀ c ∈ b, isSpace c = true) (hs : EndsValue s) :
    EndsValue (b ++ s) := by
  cases b with
  | nil => exact hs
  | cons c b =>
    rintro _ ⟨⟩
    exact .inl (hb c (.head _))

theorem endsValue_cons {c : Char} (hc : c ∈ [',', ']', '}']) (s : List Char) :
    EndsValue (c :: s) := by
  rintro _ ⟨⟩
  exact .inr hc

/-! ## How a value starts -/

/-- The characters that values start with, digits aside. -/
def valueStarts : List Char := ['"', '[', '{', '-', 'n', 't', 'f', 'N', 'I']

/-- Whether a value starts at `s`. -/
def StartsValue (s : List Char) : Prop :=
  ∃ c r, s = c :: r ∧ (c.isDigit = true ∨ c ∈ valueStarts)

theorem StartsValue.append {s : List Char} (h : StartsValue s) (r : List Char) :
    StartsValue (s ++ r) := by
  obtain ⟨c, t, rfl, hc⟩ := h
  exact ⟨c, t ++ r, rfl, hc⟩

theorem ne_of_isDigit {c d : Char} (hd : d.isDigit = true) (hc : c.isDigit = false) : c ≠ d := by
  rintro rfl
  rw [hd] at hc
  cases hc

/-- No blank, closing bracket or mark of byte order starts a value. -/
theorem not_start {c : Char} (h : c.isDigit = true ∨ c ∈ valueStarts) :
    isSpace c = false ∧ c ≠ ']' ∧ c ≠ '}' ∧ c ≠ '\ufeff' := by
  rcases h with hd | hmem
  · have hne : ∀ d : Char, d.isDigit = false → c ≠ d := fun d hf => (ne_of_isDigit hd hf).symm
    refine ⟨?_, hne _ rfl, hne _ rfl, hne _ rfl⟩
    simp [isSpace, hne ' ' rfl, hne '\t' rfl, hne '\n' rfl, hne '\r' rfl]
  · simp only [valueStarts, List.mem_cons, List.not_mem_nil, or_false] at hmem
    rcases hmem with rfl | rfl | rfl | rfl | rfl | rfl | rfl | rfl | rfl <;> decide

/-- Blanks up to a value are passed over. -/
theorem StartsValue.skipSpace {b s : List Char} (hb : ∀ c ∈ b, isSpace c = true)
    (hs : StartsValue s) : skipSpace (b ++ s) = s := by
  obtain ⟨c, r, rfl, hc⟩ := hs
  rw [skipSpace_append hb, skipSpace_cons (not_start hc).1]

theorem IsNumber.startsValue {s : List Char} {v : Json} (h : IsNumber s v) : StartsValue s := by
  obtain ⟨d, r, hd, rfl | rfl⟩ := h.exists_digit
  · exact ⟨d, r, rfl, .inl hd⟩
  · exact ⟨'-', d :: r, rfl, .inr (by decide)⟩

/-! ## Words and numbers -/

theorem readConstant?_append {word : List Char} {v : Json} (h : (word, v) ∈ constants)
    (r : List Char) : readConstant? (word ++ r) = some (v, r) := by
  simp only [constants, List.mem_cons, Prod.mk.injEq, List.not_mem_nil, or_false] at h
  rcases h with ⟨rfl, rfl⟩ | ⟨rfl, rfl⟩ | ⟨rfl, rfl⟩ | ⟨rfl, rfl⟩ | ⟨rfl, rfl⟩ | ⟨rfl, rfl⟩ <;>
    simp [readConstant?, constants, afterWord?]

/-- What is neither a string nor a container is a word or a number. -/
theorem readValue_plain {c : Char} (hc : c ∉ ['"', '[', '{']) (fuel : Nat) (s : List Char) :
    readValue half (fuel + 1) (c :: s) =
      match readConstant? (c :: s) with
      | some r => .ok r
      | none => readNumber (c :: s) := by
  have hother : ∀ d ∈ ['"', '[', '{'], ∀ t : List Char, c :: s = d :: t → False := by
    rintro d hd t ⟨⟩
    exact hc hd
  exact readValue.eq_5 half (c :: s) fuel (hother '"' (by simp)) (hother '[' (by simp))
    (hother '{' (by simp))

theorem readValue_constant (word : List Char) {v : Json} (h : (word, v) ∈ constants) (fuel : Nat)
    (r : List Char) : readValue half (fuel + 1) (word ++ r) = .ok (v, r) := by
  obtain ⟨c, s, hs, hc⟩ : ∃ c s, word ++ r = c :: s ∧ c ∉ ['"', '[', '{'] := by
    simp only [constants, List.mem_cons, Prod.mk.injEq, List.not_mem_nil, or_false] at h
    rcases h with ⟨rfl, -⟩ | ⟨rfl, -⟩ | ⟨rfl, -⟩ | ⟨rfl, -⟩ | ⟨rfl, -⟩ | ⟨rfl, -⟩ <;>
      exact ⟨_, _, rfl, by decide⟩
  rw [hs, readValue_plain hc, ← hs, readConstant?_append h]

/-- What begins with a digit, perhaps behind a sign, is a number. -/
theorem readValue_eq_readNumber {d : Char} (hd : d.isDigit = true) (fuel : Nat) {s r : List Char}
    (hs : s = d :: r ∨ s = '-' :: d :: r) : readValue half (fuel + 1) s = readNumber s := by
  have hne : ∀ c : Char, c.isDigit = false → c ≠ d := fun c hc => ne_of_isDigit hd hc
  obtain rfl | rfl := hs
  · have hword : readConstant? (d :: r) = none := by
      simp [readConstant?, constants, afterWord?, hne]
    rw [readValue_plain, hword]
    simpa using ⟨(hne '"' rfl).symm, (hne '[' rfl).symm, (hne '{' rfl).symm⟩
  · have hword : readConstant? ('-' :: d :: r) = none := by
      simp [readConstant?, constants, afterWord?, hne]
    rw [readValue_plain (by decide), hword]

theorem readValue_number {s : List Char} {v : Json} (h : IsNumber s v) (fuel : Nat)
    {r : List Char} (hr : EndsNumber r) : readValue half (fuel + 1) (s ++ r) = .ok (v, r) := by
  obtain ⟨d, t, hd, hs⟩ := h.exists_digit
  rw [readValue_eq_readNumber (r := t ++ r) hd fuel, h.readNumber_append hr]
  obtain rfl | rfl := hs <;> simp

/-- A double is read as it was written. -/
theorem readValue_double (x : Binary64) (fuel : Nat) {r : List Char} (hr : EndsNumber r) :
    readValue half (fuel + 1) (DecimalStyle.json.text x ++ r) = .ok (.float x, r) := by
  cases x with
  | finite negative m => exact readValue_number (isNumber_text negative m) fuel hr
  | infinite negative =>
    cases negative
    · exact readValue_constant "Infinity".toList (by simp [constants]) fuel r
    · exact readValue_constant "-Infinity".toList (by simp [constants]) fuel r
  | nan => exact readValue_constant "NaN".toList (by simp [constants]) fuel r

/-! ## Containers -/

section
variable {fuel : Nat} {s s' b r : List Char} {k : String} {v : Json}

theorem readValue_items {items : List Json} (hb : ∀ c ∈ b, isSpace c = true) (hs : StartsValue s)
    (h : readItems half fuel s = .ok (items, r)) :
    readValue half (fuel + 1) ('[' :: (b ++ s)) = .ok (.arr items, r) := by
  rw [readValue, hs.skipSpace hb]
  obtain ⟨c, t, rfl, hc⟩ := hs
  split
  · rename_i heq
    cases heq
    exact absurd rfl (not_start hc).2.1
  · rw [h]

theorem readValue_members {members : List (String × Json)} (hb : ∀ c ∈ b, isSpace c = true)
    (hs : StartsValue s) (h : readMembers half fuel s = .ok (members, r)) :
    readValue half (fuel + 1) ('{' :: (b ++ s)) = .ok (.obj (ofMembers members), r) := by
  rw [readValue, hs.skipSpace hb]
  obtain ⟨c, t, rfl, hc⟩ := hs
  split
  · rename_i heq
    cases heq
    exact absurd rfl (not_start hc).2.2.1
  · rw [h]

theorem readItems_last (hb : ∀ c ∈ b, isSpace c = true)
    (hv : readValue half fuel s = .ok (v, b ++ ']' :: r)) :
    readItems half (fuel + 1) s = .ok ([v], r) := by
  have hclose : skipSpace (b ++ ']' :: r) = ']' :: r := by
    rw [skipSpace_append hb, skipSpace_cons rfl]
  simp only [readItems, hv, hclose]

theorem readItems_cons {items : List Json} (hb : ∀ c ∈ b, isSpace c = true) (hs' : StartsValue s')
    (hv : readValue half fuel s = .ok (v, ',' :: (b ++ s')))
    (h : readItems half fuel s' = .ok (items, r)) :
    readItems half (fuel + 1) s = .ok (v :: items, r) := by
  have hcomma : skipSpace (',' :: (b ++ s')) = ',' :: (b ++ s') := skipSpace_cons rfl _
  simp only [readItems, hv, hcomma, hs'.skipSpace hb, h]

theorem readMembers_last {t : List Char} (hb : ∀ c ∈ b, isSpace c = true)
    (hk : readKey half s = .ok (k, t)) (hv : readValue half fuel t = .ok (v, b ++ '}' :: r)) :
    readMembers half (fuel + 1) s = .ok ([(k, v)], r) := by
  have hclose : skipSpace (b ++ '}' :: r) = '}' :: r := by
    rw [skipSpace_append hb, skipSpace_cons rfl]
  simp only [readMembers, hk, hv, hclose]

theorem readMembers_cons {t : List Char} {members : List (String × Json)}
    (hb : ∀ c ∈ b, isSpace c = true) (hs' : StartsValue s') (hk : readKey half s = .ok (k, t))
    (hv : readValue half fuel t = .ok (v, ',' :: (b ++ s')))
    (h : readMembers half fuel s' = .ok (members, r)) :
    readMembers half (fuel + 1) s = .ok ((k, v) :: members, r) := by
  have hcomma : skipSpace (',' :: (b ++ s')) = ',' :: (b ++ s') := skipSpace_cons rfl _
  simp only [readMembers, hk, hv, hcomma, hs'.skipSpace hb, h]

/-- A key is read as it was written, up to the value. -/
theorem readKey_text (half : Nat → Char) (k : String) (hs : StartsValue s) :
    readKey half (stringText k ++ ([':', ' '] ++ s)) = .ok (k, s) := by
  obtain ⟨body, htext, hread⟩ := readString_stringText half k ([':', ' '] ++ s)
  have hcolon : skipSpace ([':', ' '] ++ s) = ':' :: ([' '] ++ s) := skipSpace_cons rfl _
  have hspace : skipSpace ([' '] ++ s) = s := hs.skipSpace (by simp [isSpace])
  rw [htext, readKey]
  simp only [hread, hcolon, hspace]

end

/-! ## Members -/

theorem map_fst_setMember (k : String) (v : Json) : ∀ ms : List (String × Json),
    (setMember k v ms).map Prod.fst =
      if k ∈ ms.map Prod.fst then ms.map Prod.fst else ms.map Prod.fst ++ [k]
  | [] => rfl
  | (k', v') :: ms => by
    rw [setMember]
    by_cases hk : k' = k
    · simp [hk]
    · rw [if_neg hk, List.map_cons, map_fst_setMember k v ms]
      split <;> simp_all [Ne.symm hk]

theorem setMember_of_notMem {k : String} (v : Json) : ∀ {ms : List (String × Json)},
    k ∉ ms.map Prod.fst → setMember k v ms = ms ++ [(k, v)]
  | [], _ => rfl
  | (k', v') :: ms, h => by
    simp only [List.map_cons, List.mem_cons, not_or] at h
    rw [setMember, if_neg (Ne.symm h.1), setMember_of_notMem v h.2, List.cons_append]

theorem foldl_setMember (ms : List (String × Json)) : ∀ known : List (String × Json),
    ((known ++ ms).map Prod.fst).Nodup →
      ms.foldl (fun known m => setMember m.1 m.2 known) known = known ++ ms := by
  induction ms with
  | nil => simp
  | cons m ms ih =>
    intro known h
    have hnew : m.1 ∉ known.map Prod.fst := by
      rw [List.map_append, List.map_cons, List.nodup_append] at h
      exact fun hm => h.2.2 _ hm _ (.head _) rfl
    rw [List.foldl_cons, setMember_of_notMem m.2 hnew, ih _ (by simpa using h)]
    simp

/-- Members with distinct keys remain as they are. -/
theorem ofMembers_of_nodup {ms : List (String × Json)} (h : (ms.map Prod.fst).Nodup) :
    ofMembers ms = ms :=
  foldl_setMember ms [] h

/-! ## Layouts -/

/-- Whether a layout puts only blanks between the parts of a container. -/
structure Layout.Blank (layout : Layout) : Prop where
  separator : ∃ b, layout.separator = ',' :: b ∧ ∀ c ∈ b, isSpace c = true
  newLine : ∀ depth, ∀ c ∈ layout.newLine depth, isSpace c = true

theorem Layout.blank_pretty : Layout.pretty.Blank where
  separator := ⟨[], rfl, by simp⟩
  newLine depth c hc := by
    rcases List.mem_cons.1 hc with rfl | hc
    · rfl
    · rw [List.eq_of_mem_replicate hc]
      rfl

theorem Layout.blank_compact : Layout.compact.Blank where
  separator := ⟨[' '], rfl, by simp [isSpace]⟩
  newLine _ _ hc := nomatch hc

/-! ## Reading what is written -/

theorem startsValue_text (layout : Layout) {v : Json} (hn : v.ShortIntegers) (depth : Nat) :
    StartsValue (text layout depth v) := by
  have hchar : ∀ {c : Char} (r : List Char), c ∈ valueStarts → StartsValue (c :: r) :=
    fun r hc => ⟨_, r, rfl, .inr hc⟩
  cases v with
  | null => exact hchar _ (by decide)
  | bool b => cases b <;> exact hchar _ (by decide)
  | int n => exact (isNumber_intText hn).startsValue
  | float x =>
    cases x with
    | finite negative m => exact (isNumber_text negative m).startsValue
    | infinite negative => cases negative <;> exact hchar _ (by decide)
    | nan => exact hchar _ (by decide)
  | str s => exact hchar _ (by decide)
  | arr items => cases items <;> exact hchar _ (by decide)
  | obj members => cases members <;> exact hchar _ (by decide)

theorem startsValue_stringText (s : String) : StartsValue (stringText s) :=
  ⟨'"', _, rfl, .inr (by decide)⟩

section
variable {layout : Layout} (hl : layout.Blank)
include hl

theorem endsValue_itemsText (depth : Nat) (items : List Json) {s : List Char} (hs : EndsValue s) :
    EndsValue (itemsText layout depth items ++ s) := by
  cases items with
  | nil => exact hs
  | cons v items =>
    obtain ⟨b, hb, -⟩ := hl.separator
    simp only [itemsText, hb, List.cons_append]
    exact endsValue_cons (by decide) _

theorem endsValue_membersText (depth : Nat) (members : List (String × Json)) {s : List Char}
    (hs : EndsValue s) : EndsValue (membersText layout depth members ++ s) := by
  cases members with
  | nil => exact hs
  | cons m members =>
    obtain ⟨b, hb, -⟩ := hl.separator
    simp only [membersText, hb, List.cons_append]
    exact endsValue_cons (by decide) _

mutual

/-- A value is read as it was written, where it ends behind its text. -/
theorem readValue_text : ∀ (v : Json), v.DistinctKeys → v.ShortIntegers →
    ∀ (fuel depth : Nat) {r : List Char}, 2 * (text layout depth v).length ≤ fuel + 1 →
      EndsValue r → readValue half (fuel + 1) (text layout depth v ++ r) = .ok (v, r)
  | .null, _, _, fuel, _, r, _, _ =>
    readValue_constant "null".toList (by simp [constants]) fuel r
  | .bool true, _, _, fuel, _, r, _, _ =>
    readValue_constant "true".toList (by simp [constants]) fuel r
  | .bool false, _, _, fuel, _, r, _, _ =>
    readValue_constant "false".toList (by simp [constants]) fuel r
  | .int n, _, hn, fuel, _, r, _, hr => readValue_number (isNumber_intText hn) fuel hr.endsNumber
  | .float x, _, _, fuel, _, r, _, hr => readValue_double x fuel hr.endsNumber
  | .str s, _, _, fuel, _, r, _, _ => by
    obtain ⟨body, htext, hread⟩ := readString_stringText half s r
    rw [text, htext, readValue]
    simp only [hread]
  | .arr [], _, _, fuel, _, r, _, _ => by
    have hclose : skipSpace (']' :: r) = ']' :: r := skipSpace_cons rfl r
    simp only [text, List.cons_append, List.nil_append, readValue, hclose]
  | .arr (v :: rest), hk, hn, fuel, depth, r, hf, hr => by
    simp only [text, List.cons_append, List.append_assoc, List.length_cons,
      List.length_append] at hf ⊢
    obtain ⟨fuel, rfl⟩ : ∃ f, fuel = f + 2 := ⟨fuel - 2, by omega⟩
    have hend : EndsValue (layout.newLine depth ++ ']' :: r) :=
      (endsValue_cons (by decide) r).append (hl.newLine depth)
    have hfirst := readValue_text v hk.1 hn.1 fuel (depth + 1) (by omega)
      (endsValue_itemsText hl (depth + 1) rest hend)
    exact readValue_items (hl.newLine _) ((startsValue_text layout hn.1 _).append _)
      (readItems_text rest hk.2 hn.2 (depth + 1) (hl.newLine depth) (by omega) hfirst)
  | .obj [], _, _, fuel, _, r, _, _ => by
    have hclose : skipSpace ('}' :: r) = '}' :: r := skipSpace_cons rfl r
    simp only [text, List.cons_append, List.nil_append, readValue, hclose]
  | .obj ((k, v) :: rest), hk, hn, fuel, depth, r, hf, hr => by
    simp only [text, List.cons_append, List.append_assoc, List.length_cons,
      List.length_append] at hf ⊢
    obtain ⟨fuel, rfl⟩ : ∃ f, fuel = f + 2 := ⟨fuel - 2, by omega⟩
    have hend : EndsValue (layout.newLine depth ++ '}' :: r) :=
      (endsValue_cons (by decide) r).append (hl.newLine depth)
    have hfirst := readValue_text v hk.2.1 hn.1 fuel (depth + 1) (by omega)
      (endsValue_membersText hl (depth + 1) rest hend)
    have hkey := readKey_text half k ((startsValue_text layout hn.1 (depth + 1)).append
      (membersText layout (depth + 1) rest ++ (layout.newLine depth ++ '}' :: r)))
    have := readValue_members (hl.newLine (depth + 1)) ((startsValue_stringText k).append _)
      (readMembers_text rest hk.2.2 hn.2 (depth + 1) (hl.newLine depth) (by omega) hkey hfirst)
    rwa [ofMembers_of_nodup hk.1] at this

/-- The items behind one that was read are read as they were written. -/
theorem readItems_text : ∀ (rest : List Json), DistinctKeysItems rest → ShortIntegersItems rest →
    ∀ {fuel : Nat} (depth : Nat) {s b r : List Char} {v : Json}, (∀ c ∈ b, isSpace c = true) →
      2 * (itemsText layout depth rest).length ≤ fuel →
      readValue half fuel s = .ok (v, itemsText layout depth rest ++ (b ++ ']' :: r)) →
      readItems half (fuel + 1) s = .ok (v :: rest, r)
  | [], _, _, fuel, depth, s, b, r, v, hb, _, hv => readItems_last hb hv
  | v' :: rest, hk, hn, fuel, depth, s, b, r, v, hb, hf, hv => by
    obtain ⟨blanks, hsep, hblanks⟩ := hl.separator
    simp only [itemsText, hsep, List.cons_append, List.append_assoc, List.length_cons,
      List.length_append] at hf hv
    obtain ⟨fuel, rfl⟩ : ∃ f, fuel = f + 2 := ⟨fuel - 2, by omega⟩
    have hend : EndsValue (b ++ ']' :: r) := (endsValue_cons (by decide) r).append hb
    have hnext := readValue_text v' hk.1 hn.1 fuel depth (by omega)
      (endsValue_itemsText hl depth rest hend)
    rw [← List.append_assoc blanks] at hv
    exact readItems_cons (List.forall_mem_append.2 ⟨hblanks, hl.newLine depth⟩)
      ((startsValue_text layout hn.1 depth).append _) hv
      (readItems_text rest hk.2 hn.2 depth hb (by omega) hnext)

/-- The members behind one that was read are read as they were written. -/
theorem readMembers_text : ∀ (rest : List (String × Json)), DistinctKeysMembers rest →
    ShortIntegersMembers rest →
    ∀ {fuel : Nat} (depth : Nat) {s t b r : List Char} {k : String} {v : Json},
      (∀ c ∈ b, isSpace c = true) → 2 * (membersText layout depth rest).length ≤ fuel →
      readKey half s = .ok (k, t) →
      readValue half fuel t = .ok (v, membersText layout depth rest ++ (b ++ '}' :: r)) →
      readMembers half (fuel + 1) s = .ok ((k, v) :: rest, r)
  | [], _, _, fuel, depth, s, t, b, r, k, v, hb, _, hs, hv => readMembers_last hb hs hv
  | (k', v') :: rest, hk, hn, fuel, depth, s, t, b, r, k, v, hb, hf, hs, hv => by
    obtain ⟨blanks, hsep, hblanks⟩ := hl.separator
    simp only [membersText, hsep, List.cons_append, List.append_assoc, List.length_cons,
      List.length_append] at hf hv
    obtain ⟨fuel, rfl⟩ : ∃ f, fuel = f + 2 := ⟨fuel - 2, by omega⟩
    have hend : EndsValue (b ++ '}' :: r) := (endsValue_cons (by decide) r).append hb
    have hnext := readValue_text v' hk.1 hn.1 fuel depth (by omega)
      (endsValue_membersText hl depth rest hend)
    have hkey := readKey_text half k' ((startsValue_text layout hn.1 depth).append
      (membersText layout depth rest ++ (b ++ '}' :: r)))
    rw [← List.append_assoc blanks] at hv
    exact readMembers_cons (List.forall_mem_append.2 ⟨hblanks, hl.newLine depth⟩)
      ((startsValue_stringText k').append _) hs hv
      (readMembers_text rest hk.2 hn.2 depth hb (by omega) hkey hnext)

end

/-- **A value is read back from its text**, whatever blanks follow it. -/
theorem ofText_text {v : Json} (hk : v.DistinctKeys) (hn : v.ShortIntegers) (depth : Nat)
    {b : List Char} (hb : ∀ c ∈ b, isSpace c = true) :
    ofText (String.ofList (text layout depth v ++ b)) half = .ok v := by
  have hstart := (startsValue_text layout hn depth).append b
  have hspace : skipSpace (text layout depth v ++ b) = text layout depth v ++ b :=
    hstart.skipSpace (b := []) (by simp)
  have hend : EndsValue b := by
    simpa using EndsValue.append hb (s := []) (by simp [EndsValue])
  have hread : readValue half (2 * (text layout depth v ++ b).length + 2)
      (text layout depth v ++ b) = .ok (v, b) :=
    readValue_text hl v hk hn _ depth (by rw [List.length_append]; omega) hend
  have hrest : skipSpace b = [] := by
    rw [skipSpace, List.dropWhile_eq_nil_iff]
    exact hb
  have htext : readText half (text layout depth v ++ b) = .ok v := by
    unfold readText
    obtain ⟨c, t, ht, hc⟩ := hstart
    split
    · rename_i heq
      rw [ht] at heq
      cases heq
      exact absurd rfl (not_start hc).2.2.2
    · simp only [hspace, hread, hrest]
  rw [ofText, String.toList_ofList, htext]

end

end NovelScript.Json
