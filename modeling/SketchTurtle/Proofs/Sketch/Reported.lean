/-
What is told of a file that holds no project.

A file is read in three steps, and each can fail: its bytes may be those of no text, the text may be
no document, and the document no project. The last is always told as a fault of the project, and the
second unless it is a whole number that is too long to be read. So whatever the bytes of a file are,
loading it gives a valid project or tells what is wrong with the file, except for just two kinds of
files (`Project.load_reports`).
-/
import SketchTurtle.Proofs.Json.Digits
import SketchTurtle.Proofs.Json.Row
import SketchTurtle.Proofs.Sketch.Saving
import SketchTurtle.Proofs.Text.Lines
import SketchTurtle.Proofs.Text.Utf8

namespace SketchTurtle

/-- Whether a fault is told as one of the project. -/
def LoadFault.isReported : LoadFault → Bool
  | .malformed .. | .project _ => true
  | .notFound _ | .file _ | .notText _ | .tooManyDigits _ => false

/-- A text as it is read from a file. -/
def Text.unified (s : String) : String := String.ofList (unifyLineEnds s.toList)

theorem Text.unified_eq_self {s : String} (h : '\r' ∉ s.toList) : unified s = s := by
  rw [unified, unifyLineEnds_eq_self h, String.ofList_toList]

variable {fs : Files} {path : Path} {bytes : Bytes} {freshId : String} {now : Int}

/-- The document in a file is what its bytes are read as. -/
theorem Files.readDocument_of_bytes (h : fs.readFile path = .ok bytes) :
    fs.readDocument path =
      match Utf8.decode bytes with
      | .error fault => .error (.notText fault)
      | .ok s =>
        match Json.read (Text.unified s) with
        | .ok document => .ok document
        | .error (.malformed fault position) => .error (.malformed path fault position)
        | .error (.tooManyDigits digits) => .error (.tooManyDigits digits) := by
  have hexists : fs.exists? path = .ok true := by
    cases hfind : fs.find path with
    | ok _ => rw [exists?, hfind]
    | error _ => simp [readFile, bind, Except.bind, hfind] at h
  simp only [readDocument, bind, Except.bind, hexists, h, Utf8.decode, Except.mapError]
  cases Utf8.decodeFrom 0 bytes with
  | error fault => rfl
  | ok chars =>
    simp only [Except.map, Text.unified, String.toList_ofList]
    rfl

/-- What loading a file with the given bytes comes to. -/
inductive Project.Loaded (bytes : Bytes) : Except LoadFault Project → Prop where
  | valid {p : Project} (h : p.Valid) (s : String) (hbytes : bytes = .ofText s)
      (hread : ∀ n, Json.read (Text.unified s) ≠ .error (.tooManyDigits n)) : Loaded bytes (.ok p)
  | reported {fault : LoadFault} (h : fault.isReported = true) (s : String) (hbytes : bytes = .ofText s)
      (hread : ∀ n, Json.read (Text.unified s) ≠ .error (.tooManyDigits n)) : Loaded bytes (.error fault)
  | notText {fault : Utf8Fault} (h : ∀ s, bytes ≠ .ofText s) : Loaded bytes (.error (.notText fault))
  | tooManyDigits {s : String} {n : Nat} (hbytes : bytes = .ofText s)
      (hread : Json.read (Text.unified s) = .error (.tooManyDigits n)) : Loaded bytes (.error (.tooManyDigits n))

theorem Project.loaded_load (h : fs.readFile path = .ok bytes) : Loaded bytes (load fs path freshId now) := by
  simp only [load, bind, Except.bind, Files.readDocument_of_bytes h]
  cases hdecode : Utf8.decode bytes with
  | error fault => exact .notText (Utf8.exists_decode_eq_error_iff.1 ⟨fault, hdecode⟩)
  | ok s =>
    have hbytes := Utf8.decode_eq_ok_iff.1 hdecode
    cases hread : Json.read (Text.unified s) with
    | error stop =>
      cases stop with
      | malformed fault position =>
        simp only [hread]
        exact .reported rfl s hbytes (by simp [hread])
      | tooManyDigits n =>
        simp only [hread]
        exact .tooManyDigits hbytes hread
    | ok document =>
      simp only [hread]
      cases hparse : parse freshId now document with
      | error fault => exact .reported rfl s hbytes (by simp [hread])
      | ok p => exact .valid (valid_of_ofDocument (parse_eq_ok.1 hparse)) s hbytes (by simp [hread])

/-- **Loading a file that may be read gives a valid project, or it tells what is wrong with the
file.** It fails otherwise just if the bytes are those of no text, or the text is a document but for a
whole number with too many digits. That the interpreter's stack is exhausted is left out. -/
theorem Project.load_reports (h : fs.readFile path = .ok bytes) :
    (∀ p, load fs path freshId now = .ok p → p.Valid) ∧
      ((∃ fault, load fs path freshId now = .error fault ∧ fault.isReported = false) ↔
        (∀ s, bytes ≠ .ofText s) ∨
          ∃ s n, bytes = .ofText s ∧ Json.read (Text.unified s) = .error (.tooManyDigits n) ∧
            Json.HasRun (Text.unified s).toList n) := by
  have hloaded : Loaded bytes (load fs path freshId now) := loaded_load h
  generalize load fs path freshId now = result at hloaded
  refine ⟨?_, ?_, ?_⟩
  · rintro p rfl
    cases hloaded with
    | valid h => exact h
  · rintro ⟨fault, rfl, hfault⟩
    cases hloaded with
    | reported hreported => rw [hreported] at hfault; cases hfault
    | notText h => exact .inl h
    | tooManyDigits hbytes hread => exact .inr ⟨_, _, hbytes, hread, Json.hasRun_of_read hread⟩
  · rintro (hnone | ⟨s, n, hbytes, hlong, -⟩)
    · cases hloaded with
      | valid _ s hs => exact absurd hs (hnone s)
      | reported _ s hs => exact absurd hs (hnone s)
      | notText => exact ⟨_, rfl, rfl⟩
      | tooManyDigits hs => exact absurd hs (hnone _)
    · -- the text of the bytes is this one, and it was not read
      have hread {t : String} (ht : bytes = .ofText t) :
          Json.read (Text.unified t) = .error (.tooManyDigits n) := by
        rwa [← Bytes.ofText_injective (hbytes.symm.trans ht)]
      cases hloaded with
      | valid _ t ht hshort => exact absurd (hread ht) (hshort n)
      | reported _ t ht hshort => exact absurd (hread ht) (hshort n)
      | notText hnone => exact absurd hbytes (hnone s)
      | tooManyDigits => exact ⟨_, rfl, rfl⟩

/-- Some files with one of the given bytes. -/
def Files.withBytes (bytes : Bytes) : Files where
  here := []
  nodes := [(["p.json"], .file 0)]
  contents := [bytes]

theorem Files.readFile_withBytes (bytes : Bytes) : (withBytes bytes).readFile ⟨"", ["p.json"]⟩ = .ok bytes := by
  with_unfolding_all rfl

/-- A file that holds an object is told of or is a project. -/
theorem Project.load_reports_object :
    (Files.withBytes (Bytes.ofText "\x7b\x7d")).readFile ⟨"", ["p.json"]⟩ = .ok (Bytes.ofText "\x7b\x7d") ∧
      ¬ ∃ fault, load (Files.withBytes (Bytes.ofText "\x7b\x7d")) ⟨"", ["p.json"]⟩ "p" 0 = .error fault ∧
        fault.isReported = false := by
  have hfile := Files.readFile_withBytes (Bytes.ofText "\x7b\x7d")
  refine ⟨hfile, fun h => ?_⟩
  rcases ((load_reports hfile).2.1 h) with hnone | ⟨s, n, hs, hread, -⟩
  · exact hnone _ rfl
  · rw [← Bytes.ofText_injective hs] at hread
    cases (show Json.read (Text.unified "\x7b\x7d") = .ok (.object []) from rfl).symm.trans hread

/-- Every whole number with too many digits is a file that is not told of. -/
theorem Project.load_longNumber {n : Int} (h : isLongInt n = true) (freshId : String) (now : Int) :
    load (Files.withBytes (.ofText (Json.pretty (.int n)))) ⟨"", ["p.json"]⟩ freshId now =
      .error (.tooManyDigits (Layout.digitsOf n.natAbs).length) := by
  have hreturn : '\r' ∉ (Json.pretty (.int n)).toList := by
    rw [Json.pretty, String.toList_ofList, Json.prettyAt]
    exact fun hmem => absurd (Json.isPlain_intText n _ hmem).1 (by decide)
  have hdecode : Utf8.decode (Bytes.ofText (Json.pretty (.int n))) = .ok (Json.pretty (.int n)) :=
    Utf8.decode_eq_ok_iff.2 rfl
  have hread : Json.read (Json.pretty (.int n)) = .error (.tooManyDigits (Layout.digitsOf n.natAbs).length) := by
    rw [Json.read_pretty, Json.reread, if_pos h]
    rfl
  rw [load, Files.readDocument_of_bytes (Files.readFile_withBytes _), hdecode]
  simp only [Text.unified_eq_self hreturn, hread]
  rfl

/-- A byte with which no character begins is not told as a fault of the project. -/
theorem Project.not_load_reports :
    ¬ ∀ fs path bytes freshId now, Files.readFile fs path = .ok bytes →
      (∃ p, load fs path freshId now = .ok p ∧ p.Valid) ∨
        ∃ fault, load fs path freshId now = .error fault ∧ fault.isReported = true := by
  intro h
  have hload : load (Files.withBytes [0xFF]) ⟨"", ["p.json"]⟩ "p" 0 =
      .error (.notText ⟨0, 0xFF, 1, .invalidStart⟩) := by
    rw [load, Files.readDocument_of_bytes (Files.readFile_withBytes _)]
    rfl
  rcases h _ _ _ "p" 0 (Files.readFile_withBytes [0xFF]) with ⟨p, hp, -⟩ | ⟨fault, hfault, hreported⟩
  · rw [hload] at hp
    cases hp
  · rw [hload] at hfault
    cases hfault
    cases hreported

end SketchTurtle
