import NovelScript.Files.ScriptFile
import NovelScript.Proofs.Document.RoundTrip
import NovelScript.Proofs.Files.Disk
import NovelScript.Proofs.Json.Characters
import NovelScript.Proofs.LineEnds
import NovelScript.Proofs.Utf8

/-!
# Scripts saved and loaded

A file changes nothing about a script beyond the form that it is saved in (`ScriptFile.load_save`).
The bytes are read as the text that was written, but for the ends of lines. A document has no line
break but LF, so it stays as it is, and a text shows the same lines with other ends.
-/

set_option autoImplicit false

namespace NovelScript

open Text

namespace ScriptFile

variable {d : Disk} {p : FilePath}

theorem save_of_write {d' : Disk} {s : Script}
    (h : d.write p (Utf8.encode (text (holdsDocument p) s).toList) = .ok d') :
    save d p s = .ok ⟨d', [savedRecord p.lastName]⟩ := by
  rw [save, h]

theorem textOfContent_encode (t : String) :
    textOfContent (Utf8.encode t.toList) = String.ofList (unifyBreaks t.toList) := by
  rw [textOfContent, Utf8.decodeLossy_encode]

/-- What is loaded is what the text of the file holds. -/
theorem script_load {content : List UInt8} {s : Script} (h : d.read p = .ok content)
    (hs : (readText (holdsDocument p) (textOfContent content)).map Loaded.script = .ok s) :
    (load d p).map Loaded.script = .ok s := by
  rw [load, h]
  dsimp only
  cases hread : readText (holdsDocument p) (textOfContent content) with
  | error e =>
    rw [hread] at hs
    cases hs
  | ok l =>
    rw [hread] at hs
    cases hs
    rfl

/-- A script is loaded from what its text shows. -/
theorem script_load_of_shownLines {t t' : String} (hp : holdsDocument p = false)
    (ht : shownLines t' = shownLines t) (h : d.read p = .ok (Utf8.encode t'.toList)) :
    (load d p).map Loaded.script = .ok (Script.ofText t) := by
  refine script_load h ?_
  have hlines : shownLines (String.ofList (unifyBreaks t'.toList)) = shownLines t := by
    rw [← ht, shownLines, String.toList_ofList]
    exact (unifyBreaks_sameButEnds t'.toList).shown_lines
  rw [hp, textOfContent_encode, ← Script.ofText_eq_of_shownLines hlines]
  rfl

/-- A script is loaded from its document as it was. -/
theorem script_load_of_document {s : Script} (hp : holdsDocument p = true)
    (hs : ∀ v ∈ s.assets.entries, v.Readable)
    (h : d.read p = .ok (Utf8.encode (s.toDocument ++ "\n").toList)) :
    (load d p).map Loaded.script = .ok s := by
  refine script_load h ?_
  have hbreak : ∀ c ∈ "\n".toList, c = '\n' := fun c hc => List.mem_singleton.1 hc
  have hspace : ∀ c ∈ "\n".toList, Json.isSpace c = true := fun c hc => hbreak c hc ▸ rfl
  have hreturn : ∀ c ∈ "\n".toList, c ≠ '\r' := fun c hc => hbreak c hc ▸ by decide
  have hunify : unifyBreaks (s.toDocument ++ "\n").toList = (s.toDocument ++ "\n").toList := by
    refine unifyBreaks_eq_self ?_
    rw [String.toList_append]
    exact List.forall_mem_append.2 ⟨Json.ne_return_of_mem_pretty s.toJson, hreturn⟩
  rw [hp, textOfContent_encode, hunify, String.ofList_toList]
  simp only [readText, if_true, Script.ofDocument_toDocument_append hs hspace]
  rfl

/-- **Files are transparent.** A script that is saved at a writable path, which is reported by the
name of the file, is loaded from there as it is, if the path names a document and each asset is a
value that some text denotes, and as its text is read, if the path names no document, whatever line
breaks are in its strings. From a file that holds a text, the script of that text is loaded,
whichever way the ends of its lines are written. -/
theorem load_save (d : Disk) (p : FilePath) :
    (d.Writable p → ∀ s : Script,
      (holdsDocument p = true → ∀ v ∈ s.assets.entries, ∃ text, Json.ofText text = .ok v) →
      ∃ d', save d p s =
          .ok ⟨d', [⟨.info, "renpy_transcoder.project", "Saved " ++ p.lastName⟩]⟩ ∧
        (load d' p).map Loaded.script =
          .ok (if holdsDocument p then s else Script.ofText s.toText)) ∧
    (holdsDocument p = false → ∀ t t' : String, SameButEnds t.toList t'.toList →
      d.read p = .ok (Utf8.encode t'.toList) →
      (load d p).map Loaded.script = .ok (Script.ofText t)) := by
  refine ⟨fun hwritable s hs => ?_, fun hp t t' ht h =>
    script_load_of_shownLines hp ht.shown_lines.symm h⟩
  obtain ⟨d', hwrite⟩ := Disk.writable_iff.1 hwritable
  refine ⟨d', save_of_write hwrite, ?_⟩
  have hread := Disk.read_write hwrite
  cases hp : holdsDocument p with
  | true =>
    have hreadable : ∀ v ∈ s.assets.entries, v.Readable :=
      fun v hv => (Json.readable_iff v).2 (hs hp v hv)
    rw [hp] at hread
    exact script_load_of_document hp hreadable hread
  | false =>
    rw [hp] at hread
    have hlines : shownLines (s.toText ++ "\n") = shownLines s.toText := by
      rw [shownLines, shownLines, String.toList_append]
      exact shown_lines_concat rfl s.toText.toList
    exact script_load_of_shownLines hp hlines hread

/-- A text whose lines all end in LF, or in the line separator. -/
def evenEnds : String := "menu:\n \"A\u2028\":\n\n\n  jump a\n"

/-- The same text with all kinds of line ends. -/
def mixedEnds : String := "menu:\r \"A\u2028\":\r\n\n\r  jump a\r"

/-- A place for files, where a text is in one already. -/
def desk : Disk where
  nodes := [(["desk"], .directory), (["desk", "old.rpy"], .file (Utf8.encode mixedEnds.toList))]
  home := ["desk"]

/-- A script whose strings are full of line breaks. -/
def broken : Script where
  elements := [.statement "1" (.dialogue "a\r" (some "e\n")), .statement "2" (.label "b\u2028"),
    .statement "3" (.pause (some .nan)), .statement "4" (.code "c\r\nd\x85\r")]
  assets := { images := [.str "\r\n"] }

theorem load_save_broken :
    desk.Writable (.ofText "new.JSON") ∧ desk.Writable (.ofText "new.rpy") ∧
    (∃ d', save desk (.ofText "new.JSON") broken =
        .ok ⟨d', [⟨.info, "renpy_transcoder.project", "Saved new.JSON"⟩]⟩ ∧
      (load d' (.ofText "new.JSON")).map Loaded.script = .ok broken) ∧
    (∃ d', save desk (.ofText "new.rpy") broken =
        .ok ⟨d', [⟨.info, "renpy_transcoder.project", "Saved new.rpy"⟩]⟩ ∧
      (load d' (.ofText "new.rpy")).map Loaded.script = .ok (Script.ofText broken.toText)) ∧
    SameButEnds evenEnds.toList mixedEnds.toList ∧
    (load desk (.ofText "old.rpy")).map Loaded.script = .ok (Script.ofText evenEnds) := by
  have hdocument : desk.Writable (.ofText "new.JSON") := ⟨["desk", "new.JSON"], rfl, nofun⟩
  have htext : desk.Writable (.ofText "new.rpy") := ⟨["desk", "new.rpy"], rfl, nofun⟩
  have hassets : ∀ v ∈ broken.assets.entries, ∃ text, Json.ofText text = .ok v := by
    intro v hv
    rw [List.mem_singleton.1 hv, ← Json.readable_iff]
    exact Json.readable_str "\r\n"
  have hjson : holdsDocument (.ofText "new.JSON") = true := by decide
  have hrpy : holdsDocument (.ofText "new.rpy") = false := by decide
  have hunify : unifyBreaks mixedEnds.toList = evenEnds.toList := by decide
  have hends : SameButEnds evenEnds.toList mixedEnds.toList := by
    rw [← hunify]
    exact unifyBreaks_sameButEnds mixedEnds.toList
  have h₁ := (load_save desk (.ofText "new.JSON")).1 hdocument broken fun _ => hassets
  have h₂ := (load_save desk (.ofText "new.rpy")).1 htext broken fun h => by
    rw [hrpy] at h
    cases h
  have h₃ := (load_save desk (.ofText "old.rpy")).2 (by decide) _ _ hends rfl
  have hnames : "Saved " ++ (FilePath.ofText "new.JSON").lastName = "Saved new.JSON" ∧
      "Saved " ++ (FilePath.ofText "new.rpy").lastName = "Saved new.rpy" := by decide
  rw [hjson, hnames.1] at h₁
  rw [hrpy, hnames.2] at h₂
  exact ⟨hdocument, htext, h₁, h₂, hends, h₃⟩

end ScriptFile

end NovelScript
