/-
What storing a program promises.

A program is stored under a path, or under a name in a directory (`IsTarget`). If that is done the
target is read as the program, and otherwise the target is as it was, but for one that is a directory
on the way to itself. The failure is told as one of the delivery, unless the target has no name or
there is a null character above it: that is noticed before the file is written (`store_delivers`).
-/
import SketchTurtle.Delivery.Program
import SketchTurtle.Proofs.Files.Hierarchy

namespace SketchTurtle.Delivery

open Files

variable {fs : Files} {target : Path}

/-- The targets that can be asked for: a path, or a file in a directory. -/
inductive IsTarget : Path → Prop where
  | path (text : String) : IsTarget (.ofString text)
  | fileIn (directory filename : String) : IsTarget (fileIn directory filename)

theorem fileIn_empty (filename : String) : fileIn "" filename = .ofString filename := by
  have hpoint : Path.ofString "." = ⟨"", []⟩ := by decide +kernel
  rw [fileIn, if_pos (beq_self_eq_true ""), hpoint, Path.append]
  split
  · next hroot => rw [List.nil_append, ← beq_iff_eq.1 hroot]
  · rfl

theorem IsTarget.names (h : IsTarget target) : ∀ name ∈ target.names, name ≠ "" ∧ '/' ∉ name.toList := by
  have hread (s : String) : ∀ name ∈ (Path.ofString s).names, name ≠ "" ∧ '/' ∉ name.toList := by
    intro name hname
    refine ⟨?_, Path.notMem_names s name hname⟩
    have hkept := (List.mem_filter.1 hname).2
    rw [Bool.and_eq_true, bne_iff_ne] at hkept
    exact hkept.1
  cases h with
  | path text => exact hread text
  | fileIn directory filename =>
    intro name hname
    rw [Delivery.fileIn, Path.append] at hname
    split at hname
    · exact (List.mem_append.1 hname).elim (hread _ name) (hread _ name)
    · exact hread _ name hname

theorem IsTarget.root (h : IsTarget target) : target.root = "" ∨ target.root = "/" ∨ target.root = "//" := by
  have hread (s : String) : (Path.ofString s).root = "" ∨ (Path.ofString s).root = "/" ∨ (Path.ofString s).root = "//" := by
    simp only [Path.ofString, Path.rootOf]
    split
    · exact .inl rfl
    · split
      · exact .inr (.inr rfl)
      · exact .inr (.inl rfl)
  cases h with
  | path text => exact hread text
  | fileIn directory filename =>
    rw [Delivery.fileIn, Path.append]
    split
    · exact hread _
    · exact hread _

theorem IsTarget.names_eq_nil (h : IsTarget target) (hname : target.name = "") : target.names = [] := by
  rcases List.eq_nil_or_concat target.names with hnil | ⟨init, last, hconcat⟩
  · exact hnil
  · have hlast : target.name = last := by simp [Path.name, hconcat]
    exact absurd (hlast.symm.trans hname) (h.names last (by simp [hconcat])).1

theorem IsTarget.notMem_name (h : IsTarget target) : '/' ∉ target.name.toList := by
  by_cases hname : target.name = ""
  · rw [hname]
    exact nofun
  · exact (h.names _ (Path.name_mem hname)).2

/-- Whether a failure is told as one of the delivery. -/
def Fault.isDelivery : Fault → Bool
  | .undelivered .. => true
  | .improper _ => false

theorem isDelivery_ofWrite (target : Path) (fault : WriteFault) :
    (Fault.ofWrite target fault).isDelivery = false ↔
      (∃ path, fault = .emptyName path) ∨ (∃ suffix, fault = .invalidSuffix suffix) ∨ fault = .file .nullByte := by
  cases fault with
  | file f => cases f <;> simp [Fault.ofWrite, Fault.isDelivery]
  | _ => simp [Fault.ofWrite, Fault.isDelivery]

theorem store_eq (fs : Files) (target : Path) (code : String) :
    store fs target code =
      ((fs.replace target (.ofText code) temporarySuffix).1.mapError (.ofWrite target),
        (fs.replace target (.ofText code) temporarySuffix).2) := by
  unfold store replaceText
  split
  · next hreplace =>
    rw [hreplace]
    rfl
  · next hreplace =>
    rw [hreplace]
    rfl

/-! ## The target -/

/-- A target that is named stands in a directory or is missing. -/
theorem replace_held_cases (h : fs.IsTree) (htarget : IsTarget target) (data : Bytes) :
    ((fs.replace target data temporarySuffix).1 = .ok () →
        (fs.replace target data temporarySuffix).2.read target = .ok data) ∧
      ∀ fault, (fs.replace target data temporarySuffix).1 = .error fault →
        (Replacement.toward target data).Kept fs (fs.replace target data temporarySuffix).2 (fs.place target) := by
  by_cases hname : target.name = ""
  · -- the target is a directory where paths start, and it stays one
    obtain ⟨fault, hreplace⟩ := replace_nameless hname fs data
    rw [hreplace]
    refine ⟨nofun, fun _ _ => .inl ?_⟩
    have hgrown := (making_makeDirectories fs target.parent).grown
    have hstart : fs.node? (fs.place target) = some .directory := by
      rw [place_eq h.here, htarget.names_eq_nil hname, List.foldl_nil]
      split
      · exact h.working
      · exact node?_root fs
    exact (held_eq_directory.2 (hgrown.kept _ _ hstart)).trans (held_eq_directory.2 hstart).symm
  · have hheld := h.replace_held hname htarget.notMem_name data
    rcases hreplace : fs.replace target data temporarySuffix with ⟨fault | _, after⟩
    · rw [hreplace] at hheld
      exact ⟨nofun, fun _ _ => hheld⟩
    · rw [hreplace] at hheld
      exact ⟨fun _ => hheld, nofun⟩

/-! ## What is told -/

theorem made_of_nameless (h : fs.IsTree) (htarget : IsTarget target) (hname : target.name = "") :
    (fs.makeDirectories target.parent).1 = .ok () := by
  have hnames := htarget.names_eq_nil hname
  have htext : target.parent.text = "." ∨ target.parent.text = "/" ∨ target.parent.text = "//" := by
    rw [Path.text, Path.parent, hnames]
    rcases htarget.root with hroot | hroot | hroot <;> simp [hroot]
  refine makeDirectories_eq_ok.2 ⟨?_, ?_, ?_, fun k number => ?_⟩
  · rcases htext with htext | htext | htext <;> rw [htext] <;> simp
  · rcases htext with htext | htext | htext <;> rw [htext] <;> decide
  · rw [Path.parent, hnames]
    exact fun _ hmem => absurd hmem List.not_mem_nil
  · have hstart : fs.node? (fs.passed target.parent k) = some .directory := by
      rw [passed, Path.parent, hnames]
      simp only [List.dropLast_nil, List.take_nil, List.foldl_nil]
      split
      · exact h.working
      · exact node?_root fs
    simp [hstart]

/-- A fault is told as none of the delivery just if the target has no name, or
there is a null character above it. -/
theorem improper_iff (h : fs.IsTree) (htarget : IsTarget target) (data : Bytes) :
    (∃ fault, (fs.replace target data temporarySuffix).1 = .error fault ∧
        (Fault.ofWrite target fault).isDelivery = false) ↔
      target.name = "" ∨ target.parent.text.contains '\x00' = true := by
  cases hmade : (fs.makeDirectories target.parent).1 with
  | error fault =>
    have hname : target.name ≠ "" := fun hname => nomatch (made_of_nameless h htarget hname).symm.trans hmade
    rw [replace_of_fault hmade, or_iff_right hname,
      ← ((making_makeDirectories fs target.parent).fault fault hmade).1]
    simp [isDelivery_ofWrite]
  | ok _ =>
    rw [or_iff_left (Bool.eq_false_iff.1 (makeDirectories_eq_ok.1 hmade).1)]
    by_cases hname : target.name = ""
    · rw [replace_of_nameless hname hmade]
      exact iff_of_true ⟨_, rfl, rfl⟩ hname
    · have houtcome := replace_outcome hname htarget.notMem_name fs data
      generalize fs.replace target data temporarySuffix = result at houtcome
      refine iff_of_false ?_ hname
      rintro ⟨fault, hfault, himproper⟩
      cases houtcome with
      | noDirectory hnone => exact nomatch hmade.symm.trans hnone
      | done => cases hfault
      | unopened | removed | stranded =>
        cases hfault
        cases himproper

/-! ## Storing -/

/-- **What storing a program promises.** If it is done, the target is read as the program. If it
fails, the target is as it was, unless it was missing and is now a directory on the way to itself.
Each failure is told as one of the delivery, except just where the target has no name or there is a
null character above it. The program is a sequence of characters, so half of a surrogate pair is not
in it. -/
theorem store_delivers (h : fs.IsTree) (htarget : IsTarget target) (code : String) :
    ((store fs target code).1 = .ok () → (store fs target code).2.read target = .ok (.ofText code)) ∧
      (∀ fault, (store fs target code).1 = .error fault →
        (store fs target code).2.held (fs.place target) = fs.held (fs.place target) ∨
          ".." ∈ target.names ∧ fs.held (fs.place target) = .nothing ∧
            (store fs target code).2.held (fs.place target) = .directory) ∧
      ((∃ fault, (store fs target code).1 = .error fault ∧ fault.isDelivery = false) ↔
        target.name = "" ∨ target.parent.text.contains '\x00' = true) := by
  obtain ⟨hdone, hfailed⟩ := replace_held_cases h htarget (.ofText code)
  rw [← improper_iff h htarget (.ofText code), store_eq]
  generalize fs.replace target (.ofText code) temporarySuffix = result at hdone hfailed
  obtain ⟨_ | _, after⟩ := result
  · next fault =>
    refine ⟨fun hok => ?_, fun _ _ => ?_, ?_⟩
    · cases hok
    · refine (hfailed fault rfl).imp_right fun hmade => ⟨?_, hmade.missing, hmade.made⟩
      exact Replacement.Made.mem_names h.here hmade
    · change (∃ told, Except.error (Fault.ofWrite target fault) = .error told ∧ told.isDelivery = false) ↔ _
      simp
  · refine ⟨fun _ => hdone rfl, fun fault hfault => ?_, ?_⟩
    · cases hfault
    · change (∃ told : Fault, Except.ok () = .error told ∧ told.isDelivery = false) ↔ _
      simp

theorem store_delivers_empty :
    Files.empty.IsTree ∧ IsTarget (fileIn "out" "x") ∧ (store .empty (fileIn "out" "x") "pass").1 = .ok () ∧
      (store .empty (fileIn "out" "x") "pass").2.read (fileIn "out" "x") = .ok (.ofText "pass") := by
  have hdone : (store .empty (fileIn "out" "x") "pass").1 = .ok () := by
    have hok : (store .empty (fileIn "out" "x") "pass").1.toBool = true := by decide +kernel
    cases hresult : (store .empty (fileIn "out" "x") "pass").1 with
    | ok _ => rfl
    | error fault =>
      rw [hresult] at hok
      cases hok
  exact ⟨isTree_empty, .fileIn _ _, hdone, (store_delivers isTree_empty (.fileIn "out" "x") "pass").1 hdone⟩

/-- The empty path is refused, and not as a fault of the delivery. -/
theorem not_store_delivers :
    ¬ ∀ fs target code, Files.IsTree fs → IsTarget target →
      (store fs target code).1 = .ok () ∨
        ∃ fault, (store fs target code).1 = .error fault ∧ fault.isDelivery = true := by
  intro h
  have hstore : (store .empty (.ofString "") "").1 = .error (.improper (.emptyName ⟨"", []⟩)) := by
    with_unfolding_all rfl
  rcases h .empty (.ofString "") "" isTree_empty (.path "") with hdone | ⟨fault, hfault, hdelivery⟩
  · rw [hstore] at hdone
    cases hdone
  · rw [hstore] at hfault
    cases hfault
    cases hdelivery

end SketchTurtle.Delivery
