/-
When directories can be made.

A directory is made with those above it if its path is not too long, no name of
it is, and no file stands at a place that it passes: then the path is clear
(`makeDirectories_eq_ok`). What has been made is found, and all that was there
before is there still; where a path is not clear, the fault tells of what is in
the way and not of something missing (`making_makeDirectories`).
-/
import SketchTurtle.Proofs.Files.Tree

namespace SketchTurtle.Files

variable {fs fs' : Files} {path : Path} {fault : FileFault}

/-- The place that is passed after so many names of a path. -/
def passed (fs : Files) (path : Path) (k : Nat) : Location :=
  (path.names.take k).foldl follow (if path.root == "" then fs.here else [])

/-- Neither a path nor a name on it is too long, and no file stands at a place
that it passes. -/
structure Clear (fs : Files) (path : Path) : Prop where
  length : path.text.utf8ByteSize < maxPath
  names : ∀ name ∈ path.names, name.utf8ByteSize ≤ maxName
  places : ∀ k number, fs.node? (fs.passed path k) ≠ some (.file number)

/-! ## Following names -/

theorem walk_concat (start : Location) (names : List String) (name : String) :
    fs.walk start (names ++ [name]) = (fs.walk start names).bind (fs.enter · name) := by
  induction names generalizing start with
  | nil =>
    rw [List.nil_append, walk, walk, Except.bind]
    cases fs.enter start name <;> rfl
  | cons first rest ih =>
    rw [List.cons_append, walk, walk]
    cases fs.enter start first with
    | error e => rfl
    | ok next => exact ih next

theorem utf8ByteSize_of_enter {start next : Location} {name : String} (h : fs.enter start name = .ok next) :
    name.utf8ByteSize ≤ maxName := by
  unfold enter at h
  split at h
  · split at h
    · next hdots =>
      rw [beq_iff_eq.1 hdots]
      decide
    · split at h
      · cases h
      · next hlong => exact Nat.le_of_not_lt hlong
  · cases h
  · cases h

theorem enter_eq_error {start : Location} {name : String} {e : Errno} (h : fs.enter start name = .error e) :
    (∃ number, fs.node? start = some (.file number)) ∨ maxName < name.utf8ByteSize ∧ e = .nameTooLong ∨
      fs.node? start = none ∧ e = .noEntry := by
  unfold enter at h
  split at h
  · split at h
    · cases h
    · split at h
      · next hlong => exact .inr (.inl ⟨hlong, (Except.error.inj h).symm⟩)
      · cases h
  · next number hfile => exact .inl ⟨number, hfile⟩
  · next hnone => exact .inr (.inr ⟨hnone, (Except.error.inj h).symm⟩)

/-- Names that were followed are short, and led through directories. -/
theorem forall_of_walk {start last : Location} {names : List String} (h : fs.walk start names = .ok last) :
    (∀ name ∈ names, name.utf8ByteSize ≤ maxName) ∧
      ∀ k < names.length, fs.node? ((names.take k).foldl follow start) = some .directory := by
  induction names generalizing start with
  | nil => exact ⟨nofun, nofun⟩
  | cons name rest ih =>
    unfold walk at h
    split at h
    · cases h
    · next next hnext =>
      obtain ⟨rfl, hdirectory⟩ := enter_eq_ok hnext
      obtain ⟨hshort, hpassed⟩ := ih h
      refine ⟨List.forall_mem_cons.2 ⟨utf8ByteSize_of_enter hnext, hshort⟩, fun k hk => ?_⟩
      cases k with
      | zero => exact hdirectory
      | succ k => exact hpassed k (Nat.lt_of_succ_lt_succ hk)

theorem walk_eq_noEntry {start : Location} {names : List String} {e : Errno}
    (hshort : ∀ name ∈ names, name.utf8ByteSize ≤ maxName)
    (hclear : ∀ k number, fs.node? ((names.take k).foldl follow start) ≠ some (.file number))
    (h : fs.walk start names = .error e) : e = .noEntry := by
  induction names generalizing start with
  | nil => cases h
  | cons name rest ih =>
    rw [List.forall_mem_cons] at hshort
    unfold walk at h
    split at h
    · next e' henter =>
      cases h
      rcases enter_eq_error henter with ⟨number, hfile⟩ | ⟨hlong, -⟩ | ⟨-, hnoEntry⟩
      · exact absurd hfile (hclear 0 number)
      · exact absurd hlong (Nat.not_lt.2 hshort.1)
      · exact hnoEntry
    · next next hnext =>
      obtain ⟨rfl, -⟩ := enter_eq_ok hnext
      exact ih hshort.2 (fun k => hclear (k + 1)) h

theorem locate_eq_error (h : fs.locate path = .error fault) :
    (path.text.contains '\x00' = true ∧ fault = .nullByte) ∨
      (path.text.contains '\x00' = false ∧ ∃ e, fault = .on path e ∧
        (maxPath ≤ path.text.utf8ByteSize ∧ e = .nameTooLong ∨
          fs.walk (if path.root == "" then fs.here else []) path.names = .error e)) := by
  unfold locate at h
  rw [contains_toList] at h
  split at h
  · next hnull => exact .inl ⟨hnull, (Except.error.inj h).symm⟩
  · next hnull =>
    refine .inr ⟨Bool.eq_false_iff.2 hnull, ?_⟩
    split at h
    · next hlong => exact ⟨.nameTooLong, (Except.error.inj h).symm, .inl ⟨hlong, rfl⟩⟩
    · cases hwalk : fs.walk (if path.root == "" then fs.here else []) path.names with
      | ok last =>
        rw [hwalk] at h
        cases h
      | error e =>
        rw [hwalk] at h
        exact ⟨e, (Except.error.inj h).symm, .inr rfl⟩

theorem Clear.locate_eq_error (h : fs.Clear path) (hnull : path.text.contains '\x00' = false)
    (hfault : fs.locate path = .error fault) : fault = .on path .noEntry := by
  rcases Files.locate_eq_error hfault with ⟨hcontains, -⟩ | ⟨-, e, rfl, ⟨hlong, -⟩ | hwalk⟩
  · rw [hnull] at hcontains
    cases hcontains
  · exact absurd hlong (Nat.not_le.2 h.length)
  · rw [walk_eq_noEntry h.names h.places hwalk]

theorem find_eq_ok {node : Node} :
    fs.find path = .ok node ↔ ∃ q, fs.locate path = .ok q ∧ fs.node? q = some node := by
  simp only [find, bind, Except.bind]
  cases fs.locate path with
  | error fault => simp
  | ok q => cases hq : fs.node? q <;> simp [pure, Except.pure, hq]

theorem isDirectory_iff : fs.isDirectory path = true ↔ fs.find path = .ok .directory := by
  unfold isDirectory
  split
  · next h => simp [h]
  · next h => simpa using h

theorem passed_of_find (h : fs.find path = .ok .directory) (k : Nat) :
    fs.node? (fs.passed path k) = some .directory := by
  obtain ⟨q, hq, hnode⟩ := find_eq_ok.1 h
  have hwalk := (locate_eq_ok.1 hq).2.2
  by_cases hk : k < path.names.length
  · exact (forall_of_walk hwalk).2 k hk
  · rw [passed, List.take_of_length_le (Nat.le_of_not_lt hk), ← walk_eq_ok hwalk]
    exact hnode

/-! ## What is made -/

/-- All that there was is there still, and nothing is new but directories. -/
structure Grown (fs fs' : Files) : Prop where
  here : fs'.here = fs.here
  contents : fs'.contents = fs.contents
  kept : ∀ q node, fs.node? q = some node → fs'.node? q = some node
  files : ∀ q number, fs'.node? q = some (.file number) → fs.node? q = some (.file number)

theorem Grown.refl (fs : Files) : Grown fs fs := ⟨rfl, rfl, fun _ _ h => h, fun _ _ h => h⟩

theorem Grown.trans {fs₁ fs₂ fs₃ : Files} (h : Grown fs₁ fs₂) (h' : Grown fs₂ fs₃) : Grown fs₁ fs₃ where
  here := h'.here.trans h.here
  contents := h'.contents.trans h.contents
  kept := fun q node hq => h'.kept q node (h.kept q node hq)
  files := fun q number hq => h.files q number (h'.files q number hq)

theorem Grown.clear (h : Grown fs fs') (hclear : fs.Clear path) : fs'.Clear path where
  length := hclear.length
  names := hclear.names
  places := fun k number hfile => by
    rw [passed, h.here] at hfile
    exact hclear.places k number (h.files _ _ hfile)

theorem makeDirectory_grown (h : fs.makeDirectory path = .ok fs') : Grown fs fs' := by
  obtain ⟨q, -, hnone, rfl⟩ := makeDirectory_eq_ok.1 h
  have hne : q ≠ [] := by
    rintro rfl
    cases hnone
  refine ⟨rfl, rfl, fun p node hp => ?_, fun p number hp => ?_⟩
  · rw [node?_put hne, if_neg]
    · exact hp
    · rintro rfl
      rw [hnone] at hp
      cases hp
  · rw [node?_put hne] at hp
    split at hp
    · cases hp
    · exact hp

theorem find_makeDirectory (h : fs.makeDirectory path = .ok fs') : fs'.find path = .ok .directory := by
  have hgrown := makeDirectory_grown h
  obtain ⟨q, hq, hnone, rfl⟩ := makeDirectory_eq_ok.1 h
  have hne : q ≠ [] := by
    rintro rfl
    cases hnone
  refine find_eq_ok.2 ⟨q, locate_mono hgrown.here (fun p => hgrown.kept p _) hq, ?_⟩
  rw [node?_put hne, if_pos rfl]

theorem makeDirectory_eq_error (h : fs.makeDirectory path = .error fault) :
    fs.locate path = .error fault ∨
      ∃ q node, fs.locate path = .ok q ∧ fs.node? q = some node ∧ fault = .on path .exists := by
  simp only [makeDirectory, bind, Except.bind] at h
  cases hlocate : fs.locate path with
  | error fault' =>
    simp only [hlocate] at h
    exact .inl (congrArg Except.error (Except.error.inj h))
  | ok q =>
    simp only [hlocate] at h
    cases hnode : fs.node? q with
    | none =>
      simp only [hnode] at h
      cases h
    | some node =>
      simp only [hnode] at h
      exact .inr ⟨q, node, rfl, hnode, (Except.error.inj h).symm⟩

/-- On a clear path, what keeps a directory from being made is that one is
missing above it, or that it is there. -/
theorem Clear.makeDirectory_eq_error (h : fs.Clear path) (hnull : path.text.contains '\x00' = false)
    (hfault : fs.makeDirectory path = .error fault) : fault = .on path .noEntry ∨ fs.isDirectory path = true := by
  rcases Files.makeDirectory_eq_error hfault with hlocate | ⟨q, node, hlocate, hnode, -⟩
  · exact .inl (h.locate_eq_error hnull hlocate)
  · refine .inr (isDirectory_iff.2 (find_eq_ok.2 ⟨q, hlocate, ?_⟩))
    cases node with
    | directory => exact hnode
    | file number =>
      rw [walk_eq_ok (locate_eq_ok.1 hlocate).2.2, ← List.take_length (l := path.names)] at hnode
      exact absurd hnode (h.places _ number)

/-! ## Paths and those above them -/

/-- The text of a path goes on from that of the path above it, unless that is
the point. -/
theorem text_parent (p : Path) : p.parent.text = "." ∨ ∃ s, p.text = p.parent.text ++ s := by
  rcases List.eq_nil_or_concat p.names with hnil | ⟨init, last, hconcat⟩
  · refine .inr ⟨"", ?_⟩
    simp [Path.text, Path.parent, hnil]
  · have htext : p.text = p.root ++ "/".intercalate (init ++ [last]) := by
      simp [Path.text, hconcat]
    have hparent : p.parent = ⟨p.root, init⟩ := by simp [Path.parent, hconcat]
    rw [hparent, htext, Path.text]
    by_cases hinit : init = []
    · subst hinit
      split
      · exact .inl rfl
      · exact .inr ⟨last, by simp⟩
    · refine .inr ⟨"/" ++ last, ?_⟩
      rw [String.intercalate_append_of_ne_nil hinit (List.cons_ne_nil _ _)]
      simp [hinit, String.append_assoc]

theorem contains_text_parent (h : path.text.contains '\x00' = false) : path.parent.text.contains '\x00' = false := by
  rcases text_parent path with hpoint | ⟨s, hs⟩
  · rw [hpoint, String.contains_char_eq]
    decide
  · rw [hs] at h
    rw [String.contains_char_eq, decide_eq_false_iff_not] at h ⊢
    rw [String.toList_append, List.mem_append, not_or] at h
    exact h.1

theorem Clear.parent (h : fs.Clear path) : fs.Clear path.parent where
  length := by
    rcases text_parent path with hpoint | ⟨s, hs⟩
    · rw [hpoint]
      decide
    · have hlength := h.length
      rw [hs, String.utf8ByteSize_append] at hlength
      exact Nat.lt_of_le_of_lt (Nat.le_add_right _ _) hlength
  names := fun name hname => h.names name (List.dropLast_subset _ hname)
  places := fun k => by
    have hpassed : fs.passed path.parent k = fs.passed path (min k (path.names.length - 1)) := by
      rw [passed, passed, Path.parent, List.dropLast_eq_take, List.take_take]
    rw [hpassed]
    exact h.places _

theorem makeDirectory_ne_noEntry (hparent : fs.find path.parent = .ok .directory) (p : Path) (t : Option Path) :
    fs.makeDirectory path ≠ .error (.refused .noEntry p t) := by
  intro h
  obtain ⟨q, hq, hnode⟩ := find_eq_ok.1 hparent
  rcases Files.makeDirectory_eq_error h with hlocate | ⟨_, _, -, -, hfault⟩
  · rcases Files.locate_eq_error hlocate with ⟨-, hfault⟩ | ⟨-, e, hfault, ⟨-, rfl⟩ | hwalk⟩
    · cases hfault
    · cases hfault
    · cases hfault
      rcases List.eq_nil_or_concat path.names with hnil | ⟨init, last, hconcat⟩
      · rw [hnil] at hwalk
        cases hwalk
      · have hstart : fs.walk (if path.root == "" then fs.here else []) init = .ok q := by
          simpa [Path.parent, hconcat] using (locate_eq_ok.1 hq).2.2
        rw [hconcat, List.concat_eq_append, walk_concat, hstart] at hwalk
        rcases enter_eq_error hwalk with ⟨number, hfile⟩ | ⟨-, htooLong⟩ | ⟨hnone, -⟩
        · rw [hnode] at hfile
          cases hfile
        · cases htooLong
        · rw [hnode] at hnone
          cases hnone
  · cases hfault

/-! ## Making directories -/

/-- What making a directory with those above it comes to. -/
structure Making (fs : Files) (path : Path) (result : Except FileFault Unit × Files) : Prop where
  grown : Grown fs result.2
  found : result.1 = .ok () → result.2.find path = .ok .directory
  clear : path.text.contains '\x00' = false → fs.Clear path → result.1 = .ok ()
  /-- A fault tells of a null character, or of something that is in the way. -/
  fault : ∀ fault, result.1 = .error fault →
    (fault = .nullByte ↔ path.text.contains '\x00' = true) ∧ ∀ p t, fault ≠ .refused .noEntry p t

theorem makeDirectory_nullByte (h : fs.makeDirectory path = .error fault) :
    fault = .nullByte ↔ path.text.contains '\x00' = true := by
  rcases makeDirectory_eq_error h with hlocate | ⟨q, _, hlocate, -, rfl⟩
  · rcases locate_eq_error hlocate with ⟨hnull, rfl⟩ | ⟨hnull, e, rfl, -⟩
    · simp [hnull]
    · simp [hnull, FileFault.on]
  · simp [(locate_eq_ok.1 hlocate).1, FileFault.on]

theorem Making.of_makeDirectory (h : fs.makeDirectory path = .ok fs') : Making fs path (.ok (), fs') where
  grown := makeDirectory_grown h
  found := fun _ => find_makeDirectory h
  clear := fun _ _ => rfl
  fault := nofun

theorem Making.of_fault (h : fs.makeDirectory path = .error fault) (hne : ∀ p t, fault ≠ .refused .noEntry p t) :
    Making fs path (if fs.isDirectory path then (.ok (), fs) else (.error fault, fs)) := by
  by_cases hdirectory : fs.isDirectory path = true
  · rw [if_pos hdirectory]
    exact ⟨Grown.refl fs, fun _ => isDirectory_iff.1 hdirectory, fun _ _ => rfl, nofun⟩
  · rw [if_neg hdirectory]
    refine ⟨Grown.refl fs, nofun, fun hnull hclear => ?_, ?_⟩
    · rcases hclear.makeDirectory_eq_error hnull h with rfl | hthere
      · exact absurd rfl (hne path none)
      · exact absurd hthere hdirectory
    · rintro _ ⟨⟩
      exact ⟨makeDirectory_nullByte h, hne⟩

/-- Directories above it that are made first change nothing of that. -/
theorem Making.after {result : Except FileFault Unit × Files} (hgrown : Grown fs fs') (h : Making fs' path result) :
    Making fs path result where
  grown := hgrown.trans h.grown
  found := h.found
  clear := fun hnull hclear => h.clear hnull (hgrown.clear hclear)
  fault := h.fault

/-- A fault above a directory is one of its own. -/
theorem Making.of_parent {p : Path} {t : Option Path}
    (hmissing : fs.makeDirectory path = .error (.refused .noEntry p t))
    (h : Making fs path.parent (.error fault, fs')) : Making fs path (.error fault, fs') := by
  have hnull : path.text.contains '\x00' = false :=
    Bool.eq_false_iff.2 fun hcontains => nomatch (makeDirectory_nullByte hmissing).2 hcontains
  refine ⟨h.grown, nofun, fun hnull hclear => h.clear (contains_text_parent hnull) hclear.parent, ?_⟩
  rintro _ ⟨⟩
  obtain ⟨hparent, hne⟩ := h.fault fault rfl
  rw [contains_text_parent hnull] at hparent
  exact ⟨by rw [hnull]; exact hparent, hne⟩

theorem making_makeDirectories (fs : Files) (path : Path) : Making fs path (fs.makeDirectories path) := by
  fun_induction Files.makeDirectories fs path
  case case1 hok => exact .of_makeDirectory hok
  case case2 hmissing hnil =>
    rcases makeDirectory_eq_error hmissing with hlocate | ⟨_, _, -, -, hfault⟩
    · rcases locate_eq_error hlocate with ⟨-, hfault⟩ | ⟨-, e, hfault, ⟨-, rfl⟩ | hwalk⟩
      · cases hfault
      · cases hfault
      · rw [hnil] at hwalk
        cases hwalk
    · cases hfault
  case case3 hmissing _ _ _ hparents ih =>
    rw [hparents] at ih
    exact ih.of_parent hmissing
  case case4 hparents _ hok ih =>
    rw [hparents] at ih
    exact (Making.of_makeDirectory hok).after ih.grown
  case case5 hparents p t hmissing ih =>
    rw [hparents] at ih
    exact absurd hmissing (makeDirectory_ne_noEntry (ih.found rfl) p t)
  case case6 hparents _ hne hfault ih =>
    rw [hparents] at ih
    exact (Making.of_fault hfault hne).after ih.grown
  case case7 hne hfault => exact .of_fault hfault hne

/-- **Directories are made along a path if, and only if, it is clear.** -/
theorem makeDirectories_eq_ok :
    (fs.makeDirectories path).1 = .ok () ↔ path.text.contains '\x00' = false ∧ fs.Clear path := by
  have hmaking := making_makeDirectories fs path
  refine ⟨fun h => ?_, fun h => hmaking.clear h.1 h.2⟩
  have hfound := hmaking.found h
  obtain ⟨q, hq, hnode⟩ := find_eq_ok.1 hfound
  obtain ⟨hnull, hlength, hwalk⟩ := locate_eq_ok.1 hq
  refine ⟨by simpa using hnull, Nat.lt_of_not_le hlength, (forall_of_walk hwalk).1, fun k number hfile => ?_⟩
  -- what is a file was one before, and a directory is passed there now
  have hpassed := passed_of_find hfound k
  rw [passed, hmaking.grown.here] at hpassed
  have hkept := hmaking.grown.kept _ _ hfile
  rw [passed, hpassed] at hkept
  cases hkept

end SketchTurtle.Files
