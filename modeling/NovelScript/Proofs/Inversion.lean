import NovelScript.Proofs.Forms

/-!
# What is read off a line

What follows from a form being read: one lemma for each form says which words it holds, and that
the texts in it are cut out of the line. `Line.read?_eq_some` goes through the forms in their order;
only two of them give no statement (`Line.read?_define_or_menu_or_statement`).
-/

set_option autoImplicit false

namespace NovelScript

namespace Line

open Text

/-! ## What follows a piece -/

variable {s r : List Char}

theorem after?_suffix {w : List Char} (h : after? w s = some r) : r <:+ s :=
  ⟨w, (after?_eq_some_iff.1 h).symm⟩

theorem afterBlanks?_suffix (h : afterBlanks? s = some r) : r <:+ s := by
  obtain ⟨b, t, rfl, -, rfl⟩ := afterBlanks?_eq_some h
  exact (trimStart_suffix t).trans (List.suffix_cons b t)

theorem afterKeyword?_suffix {word : String} (h : afterKeyword? word s = some r) : r <:+ s := by
  obtain ⟨u, hu, h⟩ := Option.bind_eq_some_iff.1 h
  exact (afterBlanks?_suffix h).trans (after?_suffix hu)

theorem afterSign?_suffix {c : Char} (h : afterSign? c s = some r) : r <:+ s := by
  have hstart := trimStart_suffix s
  rw [afterSign?_eq_some h] at hstart
  exact (List.suffix_cons c r).trans hstart

theorem splitWord?_suffix {w : List Char} (h : splitWord? s = some (w, r)) : r <:+ s :=
  ⟨w, (splitWord?_eq_some h).2.1.symm⟩

theorem splitQuote?_suffix {q : Char} (h : splitQuote? s = some (q, r)) : r <:+ s :=
  ⟨[q], (splitQuote?_eq_some h).symm⟩

theorem splitPlain?_subset {q : Char} {v : List Char} (h : Quoted.splitPlain? q s = some (v, r)) :
    v ⊆ s := by
  rw [(Quoted.splitPlain?_eq_some h).2]
  exact List.subset_append_left v _

theorem split?_subset {q : Char} {v : List Char} (h : Quoted.split? q s = some (v, r)) :
    v ⊆ s := by
  rw [Quoted.split?_eq_some h]
  exact List.subset_append_left v _

theorem split?_suffix {q : Char} {v : List Char} (h : Quoted.split? q s = some (v, r)) :
    r <:+ s := by
  rw [Quoted.split?_eq_some h]
  exact (List.suffix_cons q r).trans (List.suffix_append v _)

/-- A word is cut off where it ends. -/
theorem splitWord?_rest {w : List Char} (h : splitWord? s = some (w, r)) :
    ∀ c ∈ r.head?, isWord c = false := by
  simp only [splitWord?] at h
  split at h
  · cases h
  · cases h
    intro c hc
    have hnot := List.head?_dropWhile_not isWord s
    rw [Option.mem_def.1 hc] at hnot
    simpa using hnot

theorem isName_of_splitWord? {w : List Char} (h : splitWord? s = some (w, r)) :
    IsName (String.ofList w).toList := by
  rw [String.toList_ofList]
  exact (splitWord?_eq_some h).1

/-! ## The cast -/

theorem colorHere?_eq_some {v : List Char} (h : readDefine?.colorHere? s = some v) :
    v ≠ [] ∧ v ⊆ s := by
  simp only [readDefine?.colorHere?, Option.bind_eq_bind, Option.bind_eq_some_iff] at h
  obtain ⟨a, ha, b, hb, ⟨q, c⟩, hc, ⟨value, rest⟩, hv, h⟩ := h
  cases h
  have hvalue : c <:+ s := (splitQuote?_suffix hc).trans <| (trimStart_suffix b).trans <|
    (afterSign?_suffix hb).trans (after?_suffix ha)
  exact ⟨(Quoted.splitPlain?_eq_some hv).1, fun d hd => hvalue.subset (splitPlain?_subset hv hd)⟩

theorem color?_eq_some {before : Option Char} {v : List Char}
    (h : readDefine?.color? before s = some v) : v ≠ [] ∧ v ⊆ s := by
  induction s generalizing before with
  | nil => cases h
  | cons c r ih =>
    have hrest : readDefine?.color? (some c) r = some v → v ≠ [] ∧ v ⊆ c :: r := fun h =>
      ⟨(ih h).1, List.subset_cons_of_subset c (ih h).2⟩
    rw [readDefine?.color?] at h
    split at h
    · exact hrest h
    · split at h
      · rename_i value hv
        cases h
        exact colorHere?_eq_some hv
      · exact hrest h

theorem readDefine?_eq_some {l : Line} (h : readDefine? s = some l) :
    ∃ c, l = define c ∧ IsName c.id.toList ∧ c.name.toList ⊆ s ∧
      ∀ color ∈ c.color, color.toList ≠ [] ∧ color.toList ⊆ s := by
  simp only [readDefine?, Option.bind_eq_bind, Option.bind_eq_some_iff] at h
  obtain ⟨s1, h1, ⟨id, s2⟩, h2, s3, h3, s4, h4, s5, h5, ⟨q, s6⟩, h6, ⟨name, s7⟩, h7, h⟩ := h
  have hsign : s3 <:+ s := (afterSign?_suffix h3).trans <|
    (splitWord?_suffix h2).trans (afterKeyword?_suffix h1)
  have hcall : s5 <:+ s := (afterSign?_suffix h5).trans <| (after?_suffix h4).trans <|
    (trimStart_suffix s3).trans hsign
  have hquoted : s6 <:+ s := (splitQuote?_suffix h6).trans <| (trimStart_suffix s5).trans hcall
  have hoptions : (((upToBreak s7).reverse.dropWhile (· != ')')).drop 1).reverse ⊆ s := by
    intro c hc
    have hc := (List.dropWhile_suffix _).subset (List.mem_of_mem_drop (List.mem_reverse.1 hc))
    have hrest := upToBreak_subset s7 (List.mem_reverse.1 hc)
    exact ((split?_suffix h7).trans hquoted).subset hrest
  dsimp only at h
  split at h
  · cases h
    refine ⟨_, rfl, isName_of_splitWord? h2, ?_, fun color hc => ?_⟩
    · rw [String.toList_ofList]
      exact fun c hc => hquoted.subset (split?_subset h7 (Quoted.unescape_subset name hc))
    · obtain ⟨value, hv, rfl⟩ := Option.map_eq_some_iff.1 hc
      obtain ⟨hne, hsub⟩ := color?_eq_some hv
      rw [String.toList_ofList]
      exact ⟨hne, fun c hc => hoptions (hsub hc)⟩
  · cases h

/-! ## Statements -/

theorem readLabel?_eq_some {l : Line} (h : readLabel? s = some l) :
    ∃ name : String, l = statement (.label name) ∧ IsName name.toList := by
  simp only [readLabel?, Option.bind_eq_bind, Option.bind_eq_some_iff] at h
  obtain ⟨_, -, ⟨w, r⟩, hw, _, -, h⟩ := h
  cases h
  exact ⟨_, rfl, isName_of_splitWord? hw⟩

theorem readScene?_eq_some {l : Line} (h : readScene? s = some l) :
    ∃ r spec, image? r = some spec ∧ l = statement (.scene spec.image spec.transition) := by
  simp only [readScene?, Option.bind_eq_bind, Option.bind_eq_some_iff] at h
  obtain ⟨r, -, spec, hspec, h⟩ := h
  cases h
  exact ⟨r, spec, hspec, rfl⟩

theorem readShow?_eq_some {l : Line} (h : readShow? s = some l) :
    ∃ r spec, image? r = some spec ∧ l = statement
      (.showImage spec.image (spec.position.getD defaultPosition) spec.transition) := by
  simp only [readShow?, Option.bind_eq_bind, Option.bind_eq_some_iff] at h
  obtain ⟨r, -, spec, hspec, h⟩ := h
  cases h
  exact ⟨r, spec, hspec, rfl⟩

theorem readHide?_eq_some {l : Line} (h : readHide? s = some l) :
    ∃ r spec, image? r = some spec ∧ l = statement (.hideImage spec.image spec.transition) := by
  simp only [readHide?, Option.bind_eq_bind, Option.bind_eq_some_iff] at h
  obtain ⟨r, -, spec, hspec, h⟩ := h
  cases h
  exact ⟨r, spec, hspec, rfl⟩

theorem readPlay?_eq_some {l : Line} (h : readPlay? s = some l) :
    ∃ channel audio : String, l = statement (.play channel audio) ∧ IsName channel.toList ∧
      audio.toList ≠ [] ∧ audio.toList ⊆ s := by
  simp only [readPlay?, Option.bind_eq_bind, Option.bind_eq_some_iff] at h
  obtain ⟨s1, h1, ⟨w, s2⟩, hw, s3, h3, ⟨q, s4⟩, h4, ⟨v, r⟩, hv, h⟩ := h
  cases h
  have hquoted : s4 <:+ s := (splitQuote?_suffix h4).trans <| (afterBlanks?_suffix h3).trans <|
    (splitWord?_suffix hw).trans (afterKeyword?_suffix h1)
  refine ⟨_, _, rfl, isName_of_splitWord? hw, ?_⟩
  rw [String.toList_ofList]
  exact ⟨(Quoted.splitPlain?_eq_some hv).1, fun c hc => hquoted.subset (splitPlain?_subset hv hc)⟩

theorem readStop?_eq_some {l : Line} (h : readStop? s = some l) :
    ∃ channel : String, l = statement (.stop channel) ∧ IsName channel.toList := by
  simp only [readStop?, Option.bind_eq_bind, Option.bind_eq_some_iff] at h
  obtain ⟨_, -, ⟨w, r⟩, hw, h⟩ := h
  cases h
  exact ⟨_, rfl, isName_of_splitWord? hw⟩

theorem readPause?_eq_some {l : Line} (h : readPause? s = some l) :
    ∃ seconds, l = statement (.pause seconds) := by
  simp only [readPause?, Option.bind_eq_bind, Option.bind_eq_some_iff] at h
  obtain ⟨_, -, h⟩ := h
  split at h
  · cases h
    exact ⟨none, rfl⟩
  · simp only [Option.bind_eq_some_iff] at h
    obtain ⟨_, -, d, -, h⟩ := h
    cases h
    exact ⟨some d, rfl⟩

theorem readAssign?_eq_some {l : Line} (h : readAssign? s = some l) :
    ∃ name value : String, l = statement (.assign name value) ∧ IsName name.toList ∧
      value.toList ⊆ s ∧ trim value.toList = value.toList := by
  simp only [readAssign?, Option.bind_eq_bind, Option.bind_eq_some_iff] at h
  obtain ⟨s1, h1, ⟨w, s2⟩, hw, value, hvalue, h⟩ := h
  split at h
  · cases h
  · cases h
    have hsub : trimStart value <:+ s := (trimStart_suffix value).trans <|
      (afterSign?_suffix hvalue).trans <| (splitWord?_suffix hw).trans <|
      (trimStart_suffix s1).trans (after?_suffix h1)
    refine ⟨_, _, rfl, isName_of_splitWord? hw, ?_⟩
    rw [String.toList_ofList]
    exact ⟨fun c hc => hsub.subset (upToBreak_subset _ (trim_subset _ hc)), trim_trim _⟩

theorem readCode?_eq_some {l : Line} (h : readCode? s = some l) :
    ∃ rest, s = '$' :: rest ∧ upToBreak (trimStart rest) ≠ [] ∧
      l = statement (.code (String.ofList (trim (upToBreak (trimStart rest))))) := by
  simp only [readCode?, Option.bind_eq_bind, Option.bind_eq_some_iff] at h
  obtain ⟨rest, hrest, h⟩ := h
  split at h
  · cases h
  · rename_i hne
    cases h
    exact ⟨rest, after?_eq_some_iff.1 hrest, hne, rfl⟩

/-- The label behind a keyword is none of the words that are refused there. -/
theorem target?_eq_some {keyword : String} {reserved : List String} {t : String}
    (h : target? keyword reserved s = some t) : IsName t.toList ∧ t ∉ reserved := by
  simp only [target?, Option.bind_eq_bind, Option.bind_eq_some_iff] at h
  obtain ⟨s1, -, h⟩ := h
  split at h
  · cases h
  · rename_i hany
    obtain ⟨⟨w, r⟩, hw, h⟩ := Option.bind_eq_some_iff.1 h
    cases h
    obtain ⟨hname, hs, -⟩ := splitWord?_eq_some hw
    refine ⟨isName_of_splitWord? hw, fun hmem => hany (List.any_eq_true.2 ⟨_, hmem, ?_⟩)⟩
    rw [String.toList_ofList, hs, startsWithWord_append (splitWord?_rest hw) hname.2,
      startsWithWord_name hname.2 hname.2, decide_eq_true_iff]

theorem readJump?_eq_some {l : Line} (h : readJump? s = some l) :
    ∃ target, l = statement (.jump target) ∧ IsName target.toList ∧ target ∉ ["expression"] := by
  obtain ⟨target, ht, h⟩ := Option.bind_eq_some_iff.1 h
  cases h
  exact ⟨target, rfl, target?_eq_some ht⟩

theorem readCall?_eq_some {l : Line} (h : readCall? s = some l) :
    ∃ target, l = statement (.call target) ∧ IsName target.toList ∧
      target ∉ ["expression", "screen"] := by
  obtain ⟨target, ht, h⟩ := Option.bind_eq_some_iff.1 h
  cases h
  exact ⟨target, rfl, target?_eq_some ht⟩

theorem readReturn?_eq_some {l : Line} (h : readReturn? s = some l) : l = statement .goBack := by
  unfold readReturn? at h
  split at h
  · exact (Option.some_inj.1 h).symm
  · cases h

/-! ## The order of the forms -/

/-- What is read is read as one of the forms; code is what is no assignment. -/
theorem read?_eq_some {l : Line} (h : read? s = some l) :
    readDefine? s = some l ∨ readLabel? s = some l ∨ readScene? s = some l ∨ readShow? s = some l ∨
      readHide? s = some l ∨ readPlay? s = some l ∨ readStop? s = some l ∨ readPause? s = some l ∨
      readMenu? s = some l ∨ readAssign? s = some l ∨
      (readAssign? s = none ∧ readCode? s = some l) ∨ readJump? s = some l ∨
      readCall? s = some l ∨ readReturn? s = some l ∨ (readSpeech? s).map statement = some l := by
  simp only [read?, Option.orElse_eq_orElse, Option.orElse_eq_or, Option.or_eq_some_iff] at h
  grind

/-- All forms but two give statements. -/
theorem read?_define_or_menu_or_statement {l : Line} (h : read? s = some l) :
    readDefine? s = some l ∨ readMenu? s = some l ∨ ∃ t, l = statement t := by
  rcases read?_eq_some h with h | h | h | h | h | h | h | h | h | h | ⟨-, h⟩ | h | h | h | h
  · exact .inl h
  · obtain ⟨name, rfl, -⟩ := readLabel?_eq_some h
    exact .inr (.inr ⟨_, rfl⟩)
  · obtain ⟨r, spec, -, rfl⟩ := readScene?_eq_some h
    exact .inr (.inr ⟨_, rfl⟩)
  · obtain ⟨r, spec, -, rfl⟩ := readShow?_eq_some h
    exact .inr (.inr ⟨_, rfl⟩)
  · obtain ⟨r, spec, -, rfl⟩ := readHide?_eq_some h
    exact .inr (.inr ⟨_, rfl⟩)
  · obtain ⟨channel, audio, rfl, -⟩ := readPlay?_eq_some h
    exact .inr (.inr ⟨_, rfl⟩)
  · obtain ⟨channel, rfl, -⟩ := readStop?_eq_some h
    exact .inr (.inr ⟨_, rfl⟩)
  · obtain ⟨seconds, rfl⟩ := readPause?_eq_some h
    exact .inr (.inr ⟨_, rfl⟩)
  · exact .inr (.inl h)
  · obtain ⟨name, value, rfl, -⟩ := readAssign?_eq_some h
    exact .inr (.inr ⟨_, rfl⟩)
  · obtain ⟨rest, -, -, rfl⟩ := readCode?_eq_some h
    exact .inr (.inr ⟨_, rfl⟩)
  · obtain ⟨target, rfl, -⟩ := readJump?_eq_some h
    exact .inr (.inr ⟨_, rfl⟩)
  · obtain ⟨target, rfl, -⟩ := readCall?_eq_some h
    exact .inr (.inr ⟨_, rfl⟩)
  · exact .inr (.inr ⟨_, readReturn?_eq_some h⟩)
  · obtain ⟨t, -, rfl⟩ := Option.map_eq_some_iff.1 h
    exact .inr (.inr ⟨t, rfl⟩)

/-- Only the form of the head of a menu gives a menu. -/
theorem readMenu?_of_read? (h : read? s = some menu) : readMenu? s = some menu := by
  rcases read?_define_or_menu_or_statement h with h | h | ⟨t, ht⟩
  · obtain ⟨c, hc, -⟩ := readDefine?_eq_some h
    cases hc
  · exact h
  · cases ht

/-- The head of a menu starts with its keyword. -/
theorem head?_of_read?_menu (h : read? s = some menu) : s.head? = some 'm' := by
  obtain ⟨-, a, b, rfl, -⟩ := readMenu?_eq_some (readMenu?_of_read? h)
  rfl

/-- The head of a menu holds no quote. -/
theorem quote_not_mem_of_read?_menu (h : read? s = some menu) : '"' ∉ s := by
  obtain ⟨-, a, b, rfl, ha, hb⟩ := readMenu?_eq_some (readMenu?_of_read? h)
  intro hq
  have hblank : isBlank '"' = false := by decide
  simp only [List.mem_append, List.mem_cons] at hq
  rcases hq with (hq | hq) | hq | hq
  · exact absurd hq (by decide)
  · rw [ha _ hq] at hblank
    cases hblank
  · exact absurd hq (by decide)
  · rw [hb _ hq] at hblank
    cases hblank

end Line

end NovelScript
