import NovelScript.Proofs.Forms
import NovelScript.Script.Writer

/-!
# Images and their clauses

An image is written as its words, and its place and its transition as one clause each behind them.
`Line.image?_text`: this is read back if no colon stands at its end. `Line.wellFormed_of_image?`:
whatever is read as an image can be written so.
-/

set_option autoImplicit false

namespace NovelScript

open Text

/-! ## Names of images -/

namespace Text

/-- The name of an image: words between single blanks, none of which starts a clause. -/
def IsImage (s : List Char) : Prop :=
  words s ≠ [] ∧ join [' '] (words s) = s ∧ ∀ w ∈ words s, Line.isClauseWord w = false

instance (s : List Char) : Decidable (IsImage s) := inferInstanceAs (Decidable (_ ∧ _ ∧ _))

namespace IsImage

variable {s : List Char}

theorem isToken (_ : IsImage s) : ∀ w ∈ words s, IsToken w :=
  fun _ hw => (isToken_of_mem_words hw).1

theorem ne_nil (h : IsImage s) : s ≠ [] := by
  rintro rfl
  exact h.1 rfl

theorem trimStart_append (h : IsImage s) (r : List Char) : trimStart (s ++ r) = s ++ r := by
  have hstart := trimStart_join h.1 h.isToken r
  rwa [h.2.1] at hstart

theorem trimEnd (h : IsImage s) : trimEnd s = s := by
  have hend := trimEnd_join h.1 h.isToken
  rwa [h.2.1] at hend

theorem isOneLine (h : IsImage s) : IsOneLine s := by
  rw [← h.2.1]
  intro c hc
  rcases mem_join hc with hc | ⟨w, hw, hc⟩
  · rw [List.mem_singleton] at hc
    rw [hc]
    rfl
  · exact isOneLine_of_isToken (h.isToken w hw) c hc

end IsImage

end Text

namespace Line

/-! ## Clauses -/

/-- The words of a clause. -/
def clauseTokens (word : String) : Option String → List (List Char)
  | none => []
  | some value => [word.toList, value.toList]

theorem isToken_of_mem_clauseTokens {word : String} (hw : IsToken word.toList) {o : Option String}
    (ho : ∀ value ∈ o, IsToken value.toList) : ∀ t ∈ clauseTokens word o, IsToken t := by
  cases o with
  | none => simp [clauseTokens]
  | some value =>
    intro t ht
    simp only [clauseTokens, List.mem_cons, List.not_mem_nil, or_false] at ht
    rcases ht with rfl | rfl
    · exact hw
    · exact ho value rfl

/-- A clause behind words is two more words. -/
theorem join_append_clauseText {ws : List (List Char)} (hne : ws ≠ []) {word : String}
    {o : Option String} (ho : ∀ value ∈ o, IsToken value.toList) :
    join [' '] ws ++ clauseText word o = join [' '] (ws ++ clauseTokens word o) := by
  cases o with
  | none => simp [clauseText, clauseTokens]
  | some value =>
    have hv : value ≠ "" := by
      rintro rfl
      exact (ho "" rfl).1 rfl
    rw [clauseText, if_neg hv, clauseTokens, join_append _ (List.cons_ne_nil _ _) hne,
      join_cons_cons]
    simp [join]

/-- **An image and its clauses** are read off the words that are left without the colons at the
end: those before the first that starts a clause, and the rest. -/
theorem readImage_of_words {s : List Char} {ws extra : List (List Char)}
    (hwords : words (s.rdropWhile (· == ':')) = ws ++ extra)
    (hplain : ∀ w ∈ ws, isClauseWord w = false)
    (hclause : ∀ w ∈ extra.head?, isClauseWord w = true) :
    readImage s =
      { image := String.ofList (join [' '] ws)
        position := clause? "at" (clauses extra)
        transition := clause? "with" (clauses extra) } := by
  have hleft : words (s.reverse.dropWhile (· == ':')).reverse = ws ++ extra := hwords
  have hbefore : ∀ w ∈ ws, (!isClauseWord w) = true := by simpa using hplain
  have hfirst : ∀ w ∈ extra.head?, (!isClauseWord w) = false := by simpa using hclause
  have htake : (ws ++ extra).takeWhile (!isClauseWord ·) = ws := by
    rw [List.takeWhile_append_of_pos hbefore]
    cases extra with
    | nil => simp
    | cons w extra => simpa using hfirst w rfl
  have hdrop : (ws ++ extra).dropWhile (!isClauseWord ·) = extra := by
    rw [List.dropWhile_append_of_pos hbefore]
    cases extra with
    | nil => rfl
    | cons w extra => simpa using hfirst w rfl
  simp only [readImage, hleft, htake, hdrop]

theorem readImage_join {ws extra : List (List Char)} (hws : ∀ w ∈ ws, IsToken w)
    (hplain : ∀ w ∈ ws, isClauseWord w = false) (hextra : ∀ w ∈ extra, IsToken w)
    (hclause : ∀ w ∈ extra.head?, isClauseWord w = true)
    (hend : (join [' '] (ws ++ extra)).getLast? ≠ some ':') :
    readImage (join [' '] (ws ++ extra)) =
      { image := String.ofList (join [' '] ws)
        position := clause? "at" (clauses extra)
        transition := clause? "with" (clauses extra) } := by
  have hcolon : (join [' '] (ws ++ extra)).rdropWhile (· == ':') = join [' '] (ws ++ extra) := by
    refine List.rdropWhile_eq_self_iff.2 fun hne hc => hend ?_
    rw [List.getLast?_eq_some_getLast hne]
    simpa using hc
  refine readImage_of_words ?_ hplain hclause
  rw [hcolon, words_join fun w hw => (List.mem_append.1 hw).elim (hws w) (hextra w)]

theorem clause?_at (place transition : Option String) :
    clause? "at" (clauses (clauseTokens "at" place ++ clauseTokens "with" transition)) = place := by
  cases place with
  | none => cases transition <;> rfl
  | some value => cases transition <;> exact congrArg some String.ofList_toList

theorem clause?_with (place transition : Option String) :
    clause? "with" (clauses (clauseTokens "at" place ++ clauseTokens "with" transition)) =
      transition := by
  cases transition with
  | none => cases place <;> rfl
  | some value => cases place <;> exact congrArg some String.ofList_toList

/-- A clause ends in its last token. -/
theorem getLast?_append_clauseText {word : String} {o : Option String} {s : List Char}
    (ho : ∀ value ∈ o, IsToken value.toList) : (s ++ clauseText word o).getLast? =
      (o.map String.toList |>.getD s).getLast? := by
  cases o with
  | none => simp [clauseText]
  | some value =>
    have htoken := ho value rfl
    have hne : value ≠ "" := by
      rintro rfl
      exact htoken.1 rfl
    have hcut : ' ' :: word.toList ++ ' ' :: value.toList =
        (' ' :: word.toList ++ [' ']) ++ value.toList := by simp
    rw [clauseText, if_neg hne, Option.map_some, Option.getD_some, hcut, ← List.append_assoc,
      List.getLast?_append_of_ne_nil _ htoken.1]

theorem isOneLine_clauseText {word : String} (hw : IsOneLine word.toList) {o : Option String}
    (ho : ∀ value ∈ o, IsOneLine value.toList) : IsOneLine (clauseText word o) := by
  cases o with
  | none => exact fun _ h => by cases h
  | some value =>
    rw [clauseText]
    split
    · exact fun _ h => by cases h
    · rw [isOneLine_append, isOneLine_cons, isOneLine_cons]
      exact ⟨⟨rfl, hw⟩, rfl, ho value rfl⟩

/-- What stands behind an image is no word character. -/
theorem not_isWord_clauseText (word : String) {o : Option String} {r : List Char}
    (hr : ∀ c ∈ r.head?, isWord c = false) : ∀ c ∈ (clauseText word o ++ r).head?,
      isWord c = false := by
  cases o with
  | none => exact hr
  | some value =>
    rw [clauseText]
    split
    · exact hr
    · simp [isWord]

/-! ## What is written of an image -/

namespace ImageSpec

/-- The image is made of words, and so is what its clauses say. -/
def WellFormed (spec : ImageSpec) : Prop :=
  IsImage spec.image.toList ∧ (∀ value ∈ spec.position, IsToken value.toList) ∧
    ∀ value ∈ spec.transition, IsToken value.toList

/-- What stands behind the keyword. -/
def text (spec : ImageSpec) : List Char :=
  spec.image.toList ++ clauseText "at" spec.position ++ clauseText "with" spec.transition

/-- The last token that is written. -/
def lastToken (spec : ImageSpec) : List Char :=
  (spec.transition.getD (spec.position.getD spec.image)).toList

variable {spec : ImageSpec}

theorem WellFormed.getLast?_text (h : spec.WellFormed) :
    spec.text.getLast? = spec.lastToken.getLast? := by
  obtain ⟨image, position, transition⟩ := spec
  obtain ⟨-, hp, ht⟩ := h
  refine (getLast?_append_clauseText ht).trans ?_
  cases transition with
  | some value => rfl
  | none =>
    refine (getLast?_append_clauseText hp).trans ?_
    cases position <;> rfl

theorem WellFormed.trimStart_text (h : spec.WellFormed) : trimStart spec.text = spec.text := by
  rw [text, List.append_assoc]
  exact h.1.trimStart_append _

theorem WellFormed.trimEnd_text (h : spec.WellFormed) : trimEnd spec.text = spec.text := by
  rw [trimEnd_eq_self_iff, h.getLast?_text, ← trimEnd_eq_self_iff]
  obtain ⟨image, position, transition⟩ := spec
  obtain ⟨hi, hp, ht⟩ := h
  cases transition with
  | some value => exact (ht value rfl).trimEnd
  | none =>
    cases position with
    | some value => exact (hp value rfl).trimEnd
    | none => exact hi.trimEnd

theorem WellFormed.isOneLine_text (h : spec.WellFormed) : IsOneLine spec.text := by
  obtain ⟨hi, hp, ht⟩ := h
  rw [text, isOneLine_append, isOneLine_append]
  exact ⟨⟨hi.isOneLine,
    isOneLine_clauseText (by decide) fun value hv => isOneLine_of_isToken (hp value hv)⟩,
    isOneLine_clauseText (by decide) fun value hv => isOneLine_of_isToken (ht value hv)⟩

theorem WellFormed.text_ne_nil (h : spec.WellFormed) : spec.text ≠ [] := by
  simp [text, h.1.ne_nil]

/-- The clauses change nothing in what word an image starts with. -/
theorem startsWithWord_text {word : String} (hw : IsName word.toList) :
    startsWithWord word.toList spec.text = startsWithWord word.toList spec.image.toList := by
  have hwith := not_isWord_clauseText "with" (o := spec.transition) (r := []) (by simp)
  rw [List.append_nil] at hwith
  rw [text, List.append_assoc, startsWithWord_append (not_isWord_clauseText "at" hwith) hw.2]

end ImageSpec

/-- **A written image is read back**, if it does not end in a colon. -/
theorem image?_text {spec : ImageSpec} (h : spec.WellFormed)
    (hend : spec.lastToken.getLast? ≠ some ':') : image? spec.text = some spec := by
  rw [← h.getLast?_text] at hend
  have hone := h.isOneLine_text
  obtain ⟨image, position, transition⟩ := spec
  obtain ⟨hi, hp, ht⟩ := h
  have hline : ImageSpec.text ⟨image, position, transition⟩ = join [' '] (words image.toList ++
      (clauseTokens "at" position ++ clauseTokens "with" transition)) := by
    rw [ImageSpec.text, ← List.append_assoc, ← join_append_clauseText (by simp [hi.1]) ht,
      ← join_append_clauseText hi.1 hp, hi.2.1]
  have hclauses : ∀ w ∈ clauseTokens "at" position ++ clauseTokens "with" transition, IsToken w :=
    fun w hw => (List.mem_append.1 hw).elim (isToken_of_mem_clauseTokens (by decide) hp w)
      (isToken_of_mem_clauseTokens (by decide) ht w)
  have hfirst : ∀ w ∈ (clauseTokens "at" position ++ clauseTokens "with" transition).head?,
      isClauseWord w = true := by
    cases position <;> cases transition <;> simp [clauseTokens] <;> decide
  have himage : image ≠ "" := by
    rintro rfl
    exact hi.1 rfl
  rw [image?, upToBreak_eq_self hone.lf_not_mem]
  rw [hline] at hend ⊢
  simp only [readImage_join hi.isToken hi.2.2 hclauses hfirst hend, hi.2.1, String.ofList_toList,
    clause?_at, clause?_with, if_neg himage]

/-! ## What is read as an image -/

/-- What a clause says is one of the words. -/
theorem mem_clauses {k v : List Char} {ws : List (List Char)} (h : (k, v) ∈ clauses ws) :
    v ∈ ws := by
  fun_induction clauses ws with
  | case1 => cases h
  | case2 => cases h
  | case3 k' v' rest hk ih =>
    rcases List.mem_cons.1 h with h | h
    · cases h
      exact .tail _ (.head _)
    · exact .tail _ (.tail _ (ih h))
  | case4 k' v' rest hk ih => exact .tail _ (ih h)

theorem isToken_of_clause? {word : String} {ws : List (List Char)} (hw : ∀ w ∈ ws, IsToken w) :
    ∀ value ∈ clause? word (clauses ws), IsToken value.toList := by
  intro value hv
  obtain ⟨⟨k, v⟩, hfound, rfl⟩ := Option.map_eq_some_iff.1 hv
  rw [String.toList_ofList]
  exact hw v (mem_clauses (List.mem_of_find?_eq_some hfound))

/-- **An image that is read** consists of words, and so do its clauses. -/
theorem wellFormed_of_image? {s : List Char} {spec : ImageSpec} (h : image? s = some spec) :
    spec.WellFormed := by
  simp only [image?] at h
  split at h
  · cases h
  · rename_i hne
    cases h
    simp only [readImage] at hne ⊢
    generalize hws : words ((upToBreak s).reverse.dropWhile (· == ':')).reverse = ws at hne ⊢
    have htokens : ∀ w ∈ ws, IsToken w := by
      rw [← hws]
      exact fun w hw => (isToken_of_mem_words hw).1
    have hname : ∀ w ∈ ws.takeWhile (!isClauseWord ·), IsToken w :=
      fun w hw => htokens w ((List.takeWhile_prefix _).subset hw)
    have hrest : ∀ w ∈ ws.dropWhile (!isClauseWord ·), IsToken w :=
      fun w hw => htokens w ((List.dropWhile_suffix _).subset hw)
    refine ⟨?_, isToken_of_clause? hrest, isToken_of_clause? hrest⟩
    rw [IsImage, String.toList_ofList, words_join hname]
    refine ⟨fun he => hne ?_, rfl, fun w hw => ?_⟩
    · rw [he]
      rfl
    · simpa using List.all_eq_true.1 List.all_takeWhile w hw

end Line

end NovelScript
