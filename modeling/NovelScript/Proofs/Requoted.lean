import NovelScript.Proofs.Shape

/-!
# Texts that are quoted again

Sounds and colours are written between double quotes as they are, without escapes, and read up to
the first quote behind their first character. `Script.reread_quoted` says for every text what comes
back of each sound that is played and of each member of the cast: the channel, the word and the name
always, the sound and the colour up to such a quote.
-/

set_option autoImplicit false

namespace NovelScript

open Text

theorem Line.upToQuote_eq_self_iff {v : String} : upToQuote v = v ↔ '"' ∉ v.toList.tail := by
  rw [upToQuote, ← String.toList_inj, String.toList_ofList, Quoted.plainPart_eq_self_iff]

/-- What stands within a well-formed element is well formed. -/
theorem Element.WellFormed.of_within {e top : Element} (h : top.WellFormed) (hw : e.Within top) :
    e.WellFormed := by
  induction hw with
  | self => exact h
  | action hc ha hw ih =>
    obtain ⟨id, content, speaker, rfl, hspeech⟩ := Element.exists_dialogue ((h _ hc).2.2 _ ha)
    exact ih hspeech

theorem Script.WellFormed.of_mem_walk {s : Script} (h : s.WellFormed) {line : Nat} {e : Element}
    (he : (line, e) ∈ s.walk) : e.WellFormed := by
  obtain ⟨i, top, -, htop, hw⟩ := Script.mem_walk.1 he
  exact (h.2 top (List.mem_of_getElem? htop)).of_within hw

variable {σ : Type} (source : IdSource σ) (ids : σ)

/-- A sound is played again up to a quote. -/
theorem Script.reread_play {channel audio : String} (h : (Statement.play channel audio).WellFormed)
    (id : String) :
    reread source ids { elements := [.statement id (.play channel audio)] } =
      { elements := [.statement "" (.play channel (Line.upToQuote audio))] } := by
  have hline := Statement.isLine_written (s := .play channel audio) h rfl
  obtain ⟨hname, hne, hone⟩ := show IsName channel.toList ∧ audio.toList ≠ [] ∧
    IsOneLine audio.toList from h
  rw [reread_statement source ids id rfl hline rfl,
    Line.read?_play_plainPart hname hne hone.lf_not_mem, String.ofList_toList]
  rfl

/-- A member of the cast is defined again, with its colour up to a quote. -/
theorem Script.reread_member {c : Character} (h : c.WellFormed) :
    reread source ids { characters := [c] } =
      { characters := [{ c with color := c.color.map Line.upToQuote }] } := by
  rw [reread_cast source ids (Character.isLine_written h),
    Line.read?_define_upToQuote h.1 h.2.1 h.2.2]
  rfl

/-- A colour is kept if no quote stands behind its first character. -/
theorem Line.map_upToQuote_eq_self_iff {color : Option String} :
    color.map upToQuote = color ↔ ∀ value ∈ color, '"' ∉ value.toList.tail := by
  cases color with
  | none => simp
  | some value => simp [upToQuote_eq_self_iff]

/-- **Sounds and colours quoted again.** Whatever the text, each sound that is played in it and each
member of its cast is written on a line that is read as one statement and one definition again. Of
the sound and of the colour everything comes back if no quote stands behind the first character. -/
theorem Script.reread_quoted (text : String) :
    (∀ line id channel audio,
      (line, .statement id (.play channel audio)) ∈ (Reader.ofText source ids text).script.walk →
        reread source ids { elements := [.statement id (.play channel audio)] } =
            { elements := [.statement "" (.play channel (Line.upToQuote audio))] } ∧
          (Line.upToQuote audio = audio ↔ '"' ∉ audio.toList.tail)) ∧
    ∀ c ∈ (Reader.ofText source ids text).script.characters,
      reread source ids { characters := [c] } =
          { characters := [{ c with color := c.color.map Line.upToQuote }] } ∧
        (c.color.map Line.upToQuote = c.color ↔ ∀ color ∈ c.color, '"' ∉ color.toList.tail) := by
  have hwf := Script.wellFormed_ofText source ids text
  constructor
  · intro line id channel audio hmem
    exact ⟨reread_play source ids (hwf.of_mem_walk hmem) id, Line.upToQuote_eq_self_iff⟩
  · intro c hc
    exact ⟨reread_member source ids (hwf.1 c hc), Line.map_upToQuote_eq_self_iff⟩

/-! ## Texts with both quotes -/

/-- A script with one element that is a statement has it in its walk. -/
theorem Script.exists_mem_walk {s : Script} {t : Statement}
    (h : s.elements.map Element.statement? = [some t]) : ∃ id, (1, .statement id t) ∈ s.walk := by
  obtain ⟨e, he, ht⟩ := List.map_eq_singleton_iff.1 h
  cases e with
  | menu id choices => cases ht
  | statement id u =>
    cases ht
    exact ⟨id, Script.mem_walk.2 ⟨0, _, rfl, by rw [he]; rfl, .self⟩⟩

/-- A text in which a sound and a colour stand between single quotes and start with a double one. -/
def inverted : String :=
  "define e = Character('E', color='\"f')\nplay music '\"a'"

/-- Both come back. -/
theorem Script.reread_quoted_inverted :
    (∃ id, (1, .statement id (.play "music" "\"a")) ∈
        (Reader.ofText .perKind [] inverted).script.walk ∧
      reread .perKind [] { elements := [.statement id (.play "music" "\"a")] } =
        { elements := [.statement "" (.play "music" "\"a")] }) ∧
    ⟨"e", "E", some "\"f"⟩ ∈ (Reader.ofText .perKind [] inverted).script.characters ∧
      reread .perKind [] { characters := [⟨"e", "E", some "\"f"⟩] } =
        { characters := [⟨"e", "E", some "\"f"⟩] } := by
  obtain ⟨id, hwalk⟩ := exists_mem_walk (s := (Reader.ofText .perKind [] inverted).script)
    (t := .play "music" "\"a") (by decide)
  have hcast : ⟨"e", "E", some "\"f"⟩ ∈ (Reader.ofText .perKind [] inverted).script.characters := by
    decide
  obtain ⟨hplays, hmembers⟩ := Script.reread_quoted .perKind [] inverted
  obtain ⟨hplay, hsound⟩ := hplays _ _ _ _ hwalk
  obtain ⟨hmember, hcolor⟩ := hmembers _ hcast
  rw [hsound.2 (by decide)] at hplay
  rw [hcolor.2 (by decide)] at hmember
  exact ⟨⟨id, hwalk, hplay⟩, hcast, hmember⟩

/-- A sound between single quotes loses what stands behind a double one. -/
theorem Script.not_forall_reread_quoted : ¬ ∀ text : String,
    (∀ line id channel audio,
      (line, .statement id (.play channel audio)) ∈ (ofText text).walk →
        reread .perKind [] { elements := [.statement id (.play channel audio)] } =
          { elements := [.statement "" (.play channel audio)] }) ∧
    ∀ c ∈ (ofText text).characters,
      reread .perKind [] { characters := [c] } = { characters := [c] } := by
  intro h
  obtain ⟨id, hwalk⟩ := exists_mem_walk (s := ofText "play music 'a\"b'")
    (t := .play "music" "a\"b") (by decide)
  have hplay := (h "play music 'a\"b'").1 _ _ _ _ hwalk
  rw [reread_play .perKind [] (by decide)] at hplay
  exact absurd (congrArg (fun s => s.elements.map Element.statement?) hplay) (by decide)

end NovelScript
