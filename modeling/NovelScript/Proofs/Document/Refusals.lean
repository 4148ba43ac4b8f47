import NovelScript.Proofs.Document.Accepts
import NovelScript.Proofs.Json.LongIntegers
import NovelScript.Proofs.Json.Readable

/-!
# How the text of a document is refused

A text is read, or refused with a fault of the document, as long as its numbers are neither too long
nor too great (`ofDocument_or_documentFault`). Otherwise it may be refused with another error: a run
of digits that is too long is one of its own wherever it stands first (`ofDocument_digits`), and so
is a duration that is out of range (`ofDocument_pauseFor`).
-/

set_option autoImplicit false

namespace NovelScript

namespace Json

theorem HasDigits.lt_length {n : Nat} {s : List Char} (h : HasDigits n s) :
    maxDigits < s.length := by
  obtain ⟨hn, ds, hds, -, rfl⟩ := h
  exact hn.trans_le hds.length_le

theorem ShortIntegers.find? {members : List (String × Json)} {key : String} {v : Json}
    (h : (obj members).ShortIntegers) (hfind : Json.find? key members = some v) :
    v.ShortIntegers :=
  shortIntegersMembers_iff.1 h _ (mem_of_find?_eq_some hfind)

theorem ShortIntegers.mem {items : List Json} {v : Json} (h : (arr items).ShortIntegers)
    (hv : v ∈ items) : v.ShortIntegers :=
  shortIntegersItems_iff.1 h v hv

end Json

namespace Document

theorem Within.shortIntegers {inner e : Json} (h : Within inner e) (he : e.ShortIntegers) :
    inner.ShortIntegers := by
  induction h with
  | self => exact he
  | action type offers choice_mem holds mem within ih =>
    exact ih ((((he.find? offers).mem choice_mem).find? holds).mem mem)

/-- Where every integer can be written, so can be the types and the assigned values. -/
theorem textsFit_of_shortIntegers {v : Json} (h : v.ShortIntegers) : TextsFit v := by
  rintro members elements rfl hfind e he inner hwithin
  have hinner := hwithin.shortIntegers ((h.find? hfind).mem he)
  exact ⟨fun _ => hinner.find?, fun _ _ => hinner.find?⟩

end Document

namespace Script

open Document

/-- **A text is read or has a fault of the document**, if no integer in it is too long and no
duration out of range. -/
theorem ofDocument_or_documentFault (text : String) (hdigits : ∀ n, ¬Json.HasDigits n text.toList)
    (hfits : ∀ v, Json.ofText text = .ok v → DurationsFit v) :
    (∃ s, ofDocument text = .ok s) ∨
      ∃ e, ofDocument text = .error e ∧ e.isDocumentFault = true := by
  unfold ofDocument
  split
  · exact .inr ⟨_, rfl, rfl⟩
  · rename_i n h
    exact absurd (Json.hasDigits_of_ofText h) (hdigits n)
  · rename_i v h
    split
    · exact .inl ⟨_, rfl⟩
    · rename_i e he
      cases e with
      | invalid path cause => exact .inr ⟨_, rfl, rfl⟩
      | outOfRange =>
        have hdecides := decodeScript_decides v
        rw [ofJson] at he
        rw [he] at hdecides
        exact absurd (hfits v h) hdecides
      | unwritable =>
        have hdecides := decodeScript_decides v
        rw [ofJson] at he
        rw [he] at hdecides
        have hreadable := (Json.readable_iff v).2 ⟨text, h⟩
        exact absurd (textsFit_of_shortIntegers hreadable.2) hdecides

theorem ofDocument_eq_error {text : String} {v : Json} {e : DecodeError}
    (htext : Json.ofText text = .ok v) (h : ofJson v = .error e) :
    ofDocument text = .error (.ofDecode e) := by
  simp only [ofDocument, htext, h]

/-- An error in the only element is the error of the document. -/
theorem ofJson_singleton_eq_error {element : Json} {e : DecodeError}
    (h : decodeElement (Path.index ⟨"elements", []⟩ 0) element = .error e) :
    ofJson (.obj [("elements", .arr [element])]) = .error e := by
  have helements : decodeElements ⟨"elements", []⟩ 0 [element] = .error e := by
    rw [decodeElements, h]
    rfl
  have hscript : ofJson (.obj [("elements", .arr [element])]) = (do
      let elements ← decodeElements ⟨"elements", []⟩ 0 [element]
      return ⟨[], elements, {}⟩) := rfl
  rw [hscript, helements]
  rfl

/-- An error in the duration of a pause is the error of the element. -/
theorem decodeElement_pause_eq_error {path : Path} {id : String} {duration : Json} {e : DecodeError}
    (h : asSeconds? (path.key "duration") duration = .error e) :
    decodeElement path (.obj [("id", .str id), ("type", .str "pause"), ("duration", duration)]) =
      .error e := by
  have hread : decodeElement path
      (.obj [("id", .str id), ("type", .str "pause"), ("duration", duration)]) = (do
        let content ← (do
          let seconds ← asSeconds? (path.key "duration") duration
          return Statement.pause seconds)
        return .statement id content) := rfl
  rw [hread, h]
  rfl

/-- The document of a pause for a whole number of seconds. -/
def pauseFor (n : Int) : Json :=
  .obj [("elements", .arr [
    .obj [("id", .str "1"), ("type", .str "pause"), ("duration", .int n)]])]

theorem readable_pauseFor {n : Int} (hn : Json.digitCount n ≤ Json.maxDigits) :
    (pauseFor n).Readable := by
  have hint : (Json.int n).Readable := ⟨trivial, hn⟩
  simpa [pauseFor, Json.readable_obj, Json.readable_arr, Json.readable_str] using hint

/-- A duration out of range is not a fault of the document. -/
theorem ofDocument_pauseFor {n : Int} (hn : ¬Binary64.InRange n)
    (hlen : Json.digitCount n ≤ Json.maxDigits) :
    ofDocument (pauseFor n).pretty = .error .outOfRange := by
  have htext : Json.ofText (pauseFor n).pretty = .ok (pauseFor n) :=
    (readable_pauseFor hlen).ofText_pretty
  have hnone : Binary64.ofInt? n = none := by
    rw [← Option.not_isSome_iff_eq_none, Binary64.ofInt?_isSome_iff]
    exact hn
  have hseconds : ∀ path, asSeconds? path (.int n) = .error .outOfRange := by
    intro path
    rw [asSeconds?, hnone, Option.elim_none]
  exact ofDocument_eq_error (e := .outOfRange) htext
    (ofJson_singleton_eq_error (decodeElement_pause_eq_error (hseconds _)))

/-- Digits in a row beyond the greatest number are not a fault of the document, either. -/
theorem ofDocument_digits {ds : List Char} (hd : Json.IsDigits ds) (hhead : ds.head? ≠ some '0')
    (hlong : Json.maxDigits < ds.length) :
    ofDocument (String.ofList ds) = .error (.longInteger ds.length) := by
  have hnumber := Json.readNumber_digits hd hhead hlong (r := []) (by simp [Json.EndsNumber])
  rw [List.append_nil] at hnumber
  obtain ⟨hne, hdigit⟩ := hd
  obtain ⟨d, t, rfl⟩ := List.exists_cons_of_ne_nil hne
  have hstart := Json.not_start (.inl (hdigit d (.head t)))
  have htext : Json.readText Json.replaced (d :: t) =
      .error (.longInteger (d :: t).length) := by
    unfold Json.readText
    split
    · rename_i heq
      cases heq
      exact absurd rfl hstart.2.2.2
    · rw [Json.skipSpace_cons hstart.1,
        Json.readValue_eq_readNumber (hdigit d (.head t)) _ (.inl rfl), hnumber]
  have hof : Json.ofText (String.ofList (d :: t)) = .error (.longInteger (d :: t).length) := by
    simp only [Json.ofText, String.toList_ofList, htext]
  simp only [ofDocument, hof]

theorem durationsFit_pauseFor {n : Int} (hn : Binary64.InRange n) : DurationsFit (pauseFor n) := by
  rintro _ _ ⟨⟩ ⟨⟩ e he inner hwithin
  obtain rfl := List.mem_singleton.1 he
  cases hwithin with
  | self =>
    rintro - k hduration
    cases hduration
    exact hn
  | action type => simp [Json.find?, ElementKind.name] at type

/-- A pause of three seconds holds no long integer, and no duration out of range. -/
theorem ofDocument_or_documentFault_pauseFor_three :
    (∀ n, ¬Json.HasDigits n (pauseFor 3).pretty.toList) ∧
      (∀ v, Json.ofText (pauseFor 3).pretty = .ok v → DurationsFit v) ∧
      ((∃ s, ofDocument (pauseFor 3).pretty = .ok s) ∨
        ∃ e, ofDocument (pauseFor 3).pretty = .error e ∧ e.isDocumentFault = true) := by
  have hdigits : ∀ n, ¬Json.HasDigits n (pauseFor 3).pretty.toList := by
    intro n hn
    have hlength : (pauseFor 3).pretty.toList.length ≤ Json.maxDigits := by decide +kernel
    exact absurd hn.lt_length hlength.not_gt
  have hfits : ∀ v, Json.ofText (pauseFor 3).pretty = .ok v → DurationsFit v := by
    intro v hv
    rw [(readable_pauseFor (by decide)).ofText_pretty] at hv
    cases hv
    exact durationsFit_pauseFor (by decide +kernel)
  exact ⟨hdigits, hfits, ofDocument_or_documentFault _ hdigits hfits⟩

/-- So not every text is read or has a fault of the document: a pause of `10 ^ 400` seconds is
neither. -/
theorem not_forall_ofDocument_or_documentFault : ¬∀ text : String, (∃ s, ofDocument text = .ok s) ∨
    ∃ e, ofDocument text = .error e ∧ e.isDocumentFault = true := by
  intro h
  have hrange : ¬Binary64.InRange (10 ^ 400) := by decide +kernel
  have hlength : Json.digitCount (10 ^ 400) ≤ Json.maxDigits := by decide +kernel
  have herror := ofDocument_pauseFor hrange hlength
  obtain ⟨s, hs⟩ | ⟨e, he, hfault⟩ := h (pauseFor (10 ^ 400)).pretty
  · rw [herror] at hs
    cases hs
  · rw [herror] at he
    cases he
    cases hfault

end Script

end NovelScript
