import NovelScript.Proofs.Number.SixDigits
import NovelScript.Proofs.Reread
import NovelScript.Proofs.Written

/-!
# Pauses

Seconds are written to six digits, with an exponent where the number is great or small, and read
without sign and exponent. So the text of a number is read as seconds exactly if the number is
`Moderate` (`Line.isSome_readSeconds?_brief`), and a pause of any other length is lost when its
script is written and read again (`Script.reread_pause`).
-/

set_option autoImplicit false

namespace NovelScript

open Text

namespace Line

open DecimalStyle

/-! ## Seconds -/

/-- A text with a character that is neither a digit nor a point is not read as seconds. -/
theorem not_isSome_readSeconds? {s : List Char} {c : Char} (hc : c ∈ s)
    (hd : (digitValue? c).isSome = false) (hp : c ≠ '.') : ¬ (readSeconds? s).isSome := by
  intro h
  rcases isSome_readSeconds?_iff.1 h with ⟨-, hall⟩ | ⟨whole, fraction, rfl, hwhole, -, hfraction⟩
  · rw [hall c hc] at hd
    cases hd
  · rcases List.mem_append.1 hc with hc | hc
    · rw [hwhole c hc] at hd
      cases hd
    · rcases List.mem_cons.1 hc with rfl | hc
      · exact hp rfl
      · rw [hfraction c hc] at hd
        cases hd

theorem isSome_digitValue?_digitChar : ∀ {d : Nat}, d < 10 →
    (digitValue? (digitChar d)).isSome := by decide

/-- The digits of a natural are no blanks. -/
theorem isBlank_natText (n : Nat) : ∀ c ∈ natText n, isBlank c = false := by
  unfold natText
  split
  · simp [isBlank]
  · intro c hc
    obtain ⟨d, hd, rfl⟩ := List.mem_map.1 hc
    exact isBlank_of_isSome_digitValue? (isSome_digitValue?_digitChar (lt_ten_of_mem_decimalDigits hd))

theorem isBlank_exponentText (e : Int) : ∀ c ∈ exponentText e, isBlank c = false := by
  have hdigits := isBlank_natText e.natAbs
  unfold exponentText
  dsimp only
  refine List.forall_mem_cons.2 ⟨rfl, List.forall_mem_cons.2 ⟨?_, ?_⟩⟩
  · split <;> rfl
  · split
    · exact List.forall_mem_cons.2 ⟨rfl, hdigits⟩
    · exact hdigits

theorem mem_exponentText (e : Int) : 'e' ∈ exponentText e := .head _

section
variable {d : Decimal} (hd : d.IsNormal)
include hd

theorem isSome_digitValue?_of_mem_digits :
    ∀ c ∈ d.digits.map digitChar, (digitValue? c).isSome := by
  intro c hc
  obtain ⟨n, hn, rfl⟩ := List.mem_map.1 hc
  exact isSome_digitValue?_digitChar (hd.lt_ten n hn)

/-- In positional notation a decimal is read as seconds, with an exponent it is not. -/
theorem isSome_readSeconds?_decimalText :
    (readSeconds? (brief.decimalText d)).isSome ↔ -3 ≤ d.point ∧ d.point ≤ 6 := by
  have hdigits := isSome_digitValue?_of_mem_digits hd
  have hne : d.digits.map digitChar ≠ [] := by simpa using hd.ne_nil
  have hzeros : ∀ n, ∀ c ∈ List.replicate n '0', (digitValue? c).isSome := by
    intro n c hc
    rw [List.eq_of_mem_replicate hc]
    rfl
  have hbound : brief.positionalBelow = 6 := rfl
  have hmark : brief.wholeMark = [] := rfl
  unfold decimalText
  generalize d.digits.map digitChar = digits at *
  dsimp only
  rw [hbound, hmark]
  split
  · refine iff_of_false (not_isSome_readSeconds? (c := 'e') ?_ (by decide) (by decide)) (by omega)
    split
    · exact absurd rfl hne
    · exact .tail _ (mem_exponentText _)
    · exact List.mem_append_right _ (mem_exponentText _)
  · refine iff_of_true (isSome_readSeconds?_iff.2 ?_) (by omega)
    split
    · refine .inr ⟨['0'], _, rfl, hzeros 1, by simp [hne], fun c hc => ?_⟩
      exact (List.mem_append.1 hc).elim (hzeros _ c) (hdigits c)
    · split
      · rw [List.append_nil]
        refine .inl ⟨by simp [hne], fun c hc => ?_⟩
        exact (List.mem_append.1 hc).elim (hdigits c) (hzeros _ c)
      · refine .inr ⟨_, _, rfl, fun c hc => hdigits c (List.mem_of_mem_take hc), ?_,
          fun c hc => hdigits c (List.mem_of_mem_drop hc)⟩
        rw [ne_eq, List.drop_eq_nil_iff]
        omega

theorem isToken_decimalText : IsToken (brief.decimalText d) := by
  have hdigits : ∀ c ∈ d.digits.map digitChar, isBlank c = false := fun c hc =>
    isBlank_of_isSome_digitValue? (isSome_digitValue?_of_mem_digits hd c hc)
  have hne : d.digits.map digitChar ≠ [] := by simpa using hd.ne_nil
  have hzeros : ∀ n, ∀ c ∈ List.replicate n '0', isBlank c = false := by
    intro n c hc
    rw [List.eq_of_mem_replicate hc]
    rfl
  have hmark : brief.wholeMark = [] := rfl
  unfold decimalText
  generalize d.digits.map digitChar = digits at *
  dsimp only
  rw [hmark]
  split
  · have hexponent := isBlank_exponentText (d.point - 1)
    split
    · exact absurd rfl hne
    · simp only [List.forall_mem_cons] at hdigits
      exact ⟨List.cons_ne_nil _ _, List.forall_mem_cons.2 ⟨hdigits.1, hexponent⟩⟩
    · simp only [List.forall_mem_cons] at hdigits
      refine ⟨List.cons_ne_nil _ _, ?_⟩
      simp only [List.forall_mem_cons, List.forall_mem_append]
      exact ⟨⟨hdigits.1, rfl, hdigits.2⟩, hexponent⟩
  · split
    · refine ⟨List.cons_ne_nil _ _, ?_⟩
      simp only [List.forall_mem_cons, List.forall_mem_append]
      exact ⟨⟨rfl, rfl, hzeros _⟩, hdigits⟩
    · split
      · rw [List.append_nil]
        exact ⟨by simp [hne], List.forall_mem_append.2 ⟨hdigits, hzeros _⟩⟩
      · refine ⟨by simp, ?_⟩
        simp only [List.forall_mem_cons, List.forall_mem_append]
        exact ⟨fun c hc => hdigits c (List.mem_of_mem_take hc), rfl,
          fun c hc => hdigits c (List.mem_of_mem_drop hc)⟩

end

/-- **A number is read as seconds** when it is written without a sign and without an exponent. -/
theorem isSome_readSeconds?_brief (x : Binary64) :
    (readSeconds? (brief.text x)).isSome ↔ x.Moderate := by
  cases x with
  | nan => exact iff_of_false (by decide) id
  | infinite negative => cases negative <;> exact iff_of_false (by decide) id
  | finite negative m =>
    cases negative with
    | true =>
      refine iff_of_false (not_isSome_readSeconds? (c := '-') ?_ (by decide) (by decide)) id
      exact .head _
    | false =>
      show (readSeconds? (brief.magnitudeText m)).isSome ↔ _
      rw [magnitudeText]
      split
      · rename_i hm
        exact iff_of_true (by decide) (.inl hm)
      · rename_i hm
        have hpoint := isSome_readSeconds?_decimalText (Decimal.isNormal_rounded 6 hm
          (by decide))
        refine (hpoint.trans (Decimal.point_rounded_six hm)).trans ?_
        exact ⟨.inr, fun h => h.resolve_left hm⟩

theorem isToken_magnitudeText (m : Magnitude) : IsToken (brief.magnitudeText m) := by
  unfold magnitudeText
  split
  · decide
  · rename_i hm
    exact isToken_decimalText (Decimal.isNormal_rounded 6 hm (by decide))

/-- A number is written without blanks. -/
theorem isToken_brief (x : Binary64) : IsToken (brief.text x) := by
  cases x with
  | nan => decide
  | infinite negative => cases negative <;> decide
  | finite negative m =>
    obtain ⟨hne, hblank⟩ := isToken_magnitudeText m
    cases negative with
    | true => exact ⟨List.cons_ne_nil _ _, List.forall_mem_cons.2 ⟨rfl, hblank⟩⟩
    | false => exact ⟨hne, hblank⟩

end Line

variable {σ : Type} (source : IdSource σ) (ids : σ)

/-- **Pauses written and read again.** A numeral behind `pause` is read as some seconds, and the line
that is written for these is read as a pause of some seconds again, if they are moderate; if they are
not, nothing is read of it. -/
theorem Script.reread_pause {t : List Char} {seconds : Binary64}
    (h : Line.readSeconds? t = some seconds) (id : String) :
    Line.read? ("pause ".toList ++ t) = some (.statement (.pause (some seconds))) ∧
      (seconds.Moderate → ∃ again,
        reread source ids { elements := [.statement id (.pause (some seconds))] } =
          { elements := [.statement "" (.pause (some again))] }) ∧
      (¬ seconds.Moderate →
        reread source ids { elements := [.statement id (.pause (some seconds))] } = {}) := by
  have htoken := Line.isToken_brief seconds
  have hline : IsLine ("pause ".toList ++ DecimalStyle.brief.text seconds) :=
    isLine_append_token (c := 'p') (r := "ause ".toList) rfl (by decide) htoken
  have hread := reread_statement source ids id (s := .pause (some seconds)) rfl hline rfl
  rw [Line.read?_pause_token htoken, Option.map_map] at hread
  refine ⟨Line.read?_pause h, fun hm => ?_, fun hm => ?_⟩
  · obtain ⟨again, hagain⟩ := Option.isSome_iff_exists.1
      ((Line.isSome_readSeconds?_brief seconds).2 hm)
    rw [hagain] at hread
    exact ⟨again, hread⟩
  · have hnone := (Line.isSome_readSeconds?_brief seconds).not.2 hm
    rw [Option.not_isSome_iff_eq_none.1 hnone] at hread
    exact hread

/-- A quarter of a second. -/
def quarter : Binary64 :=
  .finite false ⟨Nat.pow 2 52, 1020, by decide⟩

theorem Script.reread_pause_quarter :
    Line.readSeconds? ".250".toList = some quarter ∧ quarter.Moderate ∧
      Line.read? ("pause ".toList ++ ".250".toList) = some (.statement (.pause (some quarter))) ∧
      ∃ again, reread .perKind [] { elements := [.statement "1" (.pause (some quarter))] } =
        { elements := [.statement "" (.pause (some again))] } := by
  have hread : Line.readSeconds? ".250".toList = some quarter := by decide +kernel
  have hmoderate : quarter.Moderate := by decide +kernel
  have hpause := Script.reread_pause .perKind [] hread "1"
  exact ⟨hread, hmoderate, hpause.1, hpause.2.1 hmoderate⟩

/-- A million seconds are written with an exponent. -/
theorem Script.not_forall_reread_pause :
    ¬ ∀ (t : List Char) (seconds : Binary64), Line.readSeconds? t = some seconds →
      ∃ again, reread .perKind [] { elements := [.statement "1" (.pause (some seconds))] } =
        { elements := [.statement "" (.pause (some again))] } := by
  intro h
  obtain ⟨again, hagain⟩ := h "1000000".toList (.ofDecimal false [1] 6) (by decide +kernel)
  have hlength : (reread .perKind [] { elements := [.statement "1" (.pause
      (some (.ofDecimal false [1] 6)))] }).elements.length = 1 :=
    congrArg (fun s => s.elements.length) hagain
  exact absurd hlength (by decide +kernel)

end NovelScript
