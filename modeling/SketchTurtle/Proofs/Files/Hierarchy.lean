/-
Files that stand in directories.

In a tree everything stands in a directory (`IsTree`), and making directories keeps it one
(`prepared_isTree`). So a path that is followed leads to a directory or into one
(`directory_or_concat`). Where the temporary file of a replacement could be opened, a file in the
target's place can be replaced: nothing but a directory there makes the last step fail
(`rename_temporary`). The old contents are never lost, whatever other names a file has
(`replace_held`).
-/
import SketchTurtle.Proofs.Files.Outcome

namespace SketchTurtle.Files

variable {fs fs' before : Files} {path target : Path} {data : Bytes}

/-- Everything stands in a directory, and so does the working directory. -/
structure IsTree (fs : Files) : Prop extends WellFormed fs where
  working : fs.node? fs.here = some .directory
  above : ∀ q name, fs.node? (q ++ [name]) ≠ none → fs.node? q = some .directory

theorem node?_root (fs : Files) : fs.node? [] = some .directory := rfl

theorem isTree_empty : empty.IsTree where
  toWellFormed := wellFormed_empty
  working := by decide
  above := by
    intro q name h
    by_cases hq : q = []
    · rw [hq]
      rfl
    · refine absurd ?_ h
      have hne : (q ++ [name] == ["work"]) = false := by
        rw [beq_eq_false_iff_ne]
        intro heq
        have hlength := congrArg List.length heq
        rw [List.length_append] at hlength
        exact hq (List.length_eq_zero_iff.1 (by simpa using hlength))
      simp [empty, node?, List.lookup_cons, hne]

theorem walk_concat_eq_ok {start q : Location} {names : List String} {name : String}
    (h : fs.walk start (names ++ [name]) = .ok q) :
    ∃ base, fs.walk start names = .ok base ∧ fs.enter base name = .ok q := by
  rw [walk_concat] at h
  cases hbase : fs.walk start names with
  | error e =>
    rw [hbase] at h
    cases h
  | ok base =>
    rw [hbase] at h
    exact ⟨base, rfl, h⟩

section IsTree

variable (h : fs.IsTree)
include h

theorem IsTree.dropLast {q : Location} (hq : fs.node? q = some .directory) :
    fs.node? q.dropLast = some .directory := by
  rcases List.eq_nil_or_concat q with rfl | ⟨init, last, rfl⟩
  · exact hq
  · rw [List.concat_eq_append] at hq ⊢
    rw [List.dropLast_concat]
    exact h.above init last (by rw [hq]; exact nofun)

/-- A path that is followed leads to a directory, or into one. -/
theorem IsTree.directory_or_concat {q : Location} (hq : fs.locate path = .ok q) :
    fs.node? q = some .directory ∨ ∃ base name, q = base ++ [name] ∧ fs.node? base = some .directory := by
  have hwalk := (locate_eq_ok.1 hq).2.2
  rcases List.eq_nil_or_concat path.names with hnil | ⟨init, last, hconcat⟩
  · rw [hnil] at hwalk
    cases hwalk
    left
    split
    · exact h.working
    · exact node?_root fs
  · rw [hconcat, List.concat_eq_append] at hwalk
    obtain ⟨base, -, hlast⟩ := walk_concat_eq_ok hwalk
    obtain ⟨rfl, hbase⟩ := enter_eq_ok hlast
    rw [follow]
    split
    · exact .inl (h.dropLast hbase)
    · exact .inr ⟨base, last, rfl, hbase⟩

/-- A directory that is made leaves a tree. -/
theorem IsTree.makeDirectory (hok : fs.makeDirectory path = .ok fs') : fs'.IsTree := by
  obtain ⟨hchange, -, -⟩ := makeDirectory_change h.toWellFormed hok
  have hgrown := makeDirectory_grown hok
  obtain ⟨q, hq, hnone, rfl⟩ := makeDirectory_eq_ok.1 hok
  have hne : q ≠ [] := by
    rintro rfl
    cases hnone
  refine ⟨hchange.wellFormed, hgrown.kept _ _ h.working, fun p name hp => ?_⟩
  rw [node?_put hne] at hp
  split at hp
  · next hplace =>
    rcases h.directory_or_concat hq with hdirectory | ⟨base, last, rfl, hbase⟩
    · rw [hnone] at hdirectory
      cases hdirectory
    · rw [(List.append_inj' hplace rfl).1]
      exact hgrown.kept _ _ hbase
  · exact hgrown.kept _ _ (h.above p name hp)

end IsTree

/-- What holds while the directories above a target are made. -/
structure Preparing (r : Replacement) (before fs : Files) : Prop extends IsTree fs where
  unmoved : fs.here = before.here
  kept : ∀ q, r.Kept before fs q

theorem preparing_of_moment {r : Replacement} (h : before.IsTree) (hmoment : r.Moment before .preparing fs) :
    Preparing r before fs := by
  generalize hphase : Replacement.Phase.preparing = phase at hmoment
  induction hmoment with
  | start => exact ⟨h, rfl, fun q => .inl rfl⟩
  | directory _ habove hok ih =>
    have hpreparing := ih hphase
    exact ⟨hpreparing.toIsTree.makeDirectory hok, (makeDirectory_grown hok).here.trans hpreparing.unmoved,
      fun q => (hpreparing.kept q).directory hpreparing.toWellFormed hpreparing.unmoved habove hok⟩
  | _ => cases hphase

theorem preparing_prepared (h : before.IsTree) (hname : target.name ≠ "") (data : Bytes) :
    Preparing (.toward target data) before (before.prepared target) :=
  preparing_of_moment h ((Replacement.Moment.start (r := .toward target data)).makeDirectories (Path.above_parent hname))

/-! ## The temporary file and the target -/

section Rename

variable (hname : target.name ≠ "")
include hname

theorem text_extendName (s : String) : (target.extendName s).text = target.text ++ s := by
  have hlast (names : List String) (name : String) :
      "/".intercalate (names ++ [name ++ s]) = "/".intercalate (names ++ [name]) ++ s := by
    by_cases hnames : names = []
    · simp [hnames]
    · rw [String.intercalate_append_of_ne_nil hnames (List.cons_ne_nil _ _),
        String.intercalate_append_of_ne_nil hnames (List.cons_ne_nil _ _), String.intercalate_singleton,
        String.intercalate_singleton]
      simp only [String.append_assoc]
  have htext (names : List String) (name : String) :
      (Path.mk target.root (names ++ [name])).text = target.root ++ "/".intercalate (names ++ [name]) := by
    simp [Path.text]
  have htarget : target = ⟨target.root, target.names.dropLast ++ [target.name]⟩ := by
    rw [← Path.names_eq hname]
  rw [Path.extendName, htext, hlast, ← String.append_assoc, ← htext, ← htarget]

/-- Where a path with a longer name leads, the path can be followed. -/
theorem locate_of_extendName {s : String} {q : Location} (h : fs.locate (target.extendName s) = .ok q) :
    ∃ place, fs.locate target = .ok place := by
  obtain ⟨hnull, hlength, hwalk⟩ := locate_eq_ok.1 h
  rw [text_extendName hname] at hnull hlength
  have htarget : target.names = target.names.dropLast ++ [target.name] := Path.names_eq hname
  obtain ⟨base, hbase, hlast⟩ := walk_concat_eq_ok hwalk
  have hname : target.name.utf8ByteSize ≤ maxName := by
    have := utf8ByteSize_of_enter hlast
    rw [String.utf8ByteSize_append] at this
    omega
  have hdirectory := (enter_eq_ok hlast).2
  obtain ⟨place, hplace⟩ : ∃ place, fs.enter base target.name = .ok place := by
    cases henter : fs.enter base target.name with
    | ok place => exact ⟨place, rfl⟩
    | error e =>
      rcases enter_eq_error henter with ⟨number, hfile⟩ | ⟨hlong, -⟩ | ⟨hnone, -⟩
      · rw [hdirectory] at hfile
        cases hfile
      · exact absurd hlong (Nat.not_lt.2 hname)
      · rw [hdirectory] at hnone
        cases hnone
  refine ⟨place, locate_eq_ok.2 ⟨?_, ?_, ?_⟩⟩
  · rw [String.contains_char_eq, decide_eq_true_iff] at hnull ⊢
    rw [String.toList_append, List.mem_append, not_or] at hnull
    exact hnull.1
  · rw [String.utf8ByteSize_append] at hlength
    omega
  · rw [htarget, walk_concat]
    exact (congrArg (Except.bind · (fs.enter · target.name)) hbase).trans hplace

/-- In a tree, what is reached by a double point is a directory. -/
theorem IsTree.endsInName {q : Location} {number : Nat} (h : fs.IsTree) (hq : fs.locate target = .ok q)
    (hfile : fs.node? q = some (.file number)) : endsInName target = true := by
  have hwalk := (locate_eq_ok.1 hq).2.2
  rw [Path.names_eq hname] at hwalk
  obtain ⟨base, -, hlast⟩ := walk_concat_eq_ok hwalk
  obtain ⟨rfl, hbase⟩ := enter_eq_ok hlast
  rw [Files.endsInName, Bool.and_eq_true, bne_iff_ne, bne_iff_ne]
  refine ⟨hname, fun hdots => ?_⟩
  rw [follow, if_pos (beq_iff_eq.2 hdots), h.dropLast hbase] at hfile
  cases hfile

omit hname in
theorem endsInName_extendName : endsInName (target.extendName temporarySuffix) = true := by
  have hlength : (target.name ++ temporarySuffix).length = target.name.length + 4 := String.length_append _ _
  rw [Files.endsInName, Path.name_extendName, Bool.and_eq_true, bne_iff_ne, bne_iff_ne]
  constructor <;> intro heq <;> rw [heq] at hlength
  · have : "".length = 0 := rfl
    omega
  · have : "..".length = 2 := rfl
    omega

end Rename

/-- A file can take any name, but not that of a directory. -/
theorem exists_rename {source target : Path} {old new : Location} {number : Nat} (hold : fs.locate source = .ok old)
    (hnew : fs.locate target = .ok new) (hsource : endsInName source = true) (htarget : endsInName target = true)
    (hfile : fs.node? old = some (.file number)) (hdirectory : fs.node? new ≠ some .directory) :
    ∃ fs', fs.rename source target = .ok fs' := by
  simp only [rename, hold, hnew, hsource, htarget, hfile]
  rcases hnode : fs.node? new with _ | _ | n
  · exact ⟨_, by simp; rfl⟩
  · exact absurd hnode hdirectory
  · exact ⟨_, by simp; rfl⟩

/-! ## The call -/

/-- The file of a path is there and holds the bytes, and what stands elsewhere is as it was. -/
structure Filled (fs : Files) (path : Path) (data : Bytes) (fs' : Files) : Prop where
  here : fs'.here = fs.here
  located : fs.locate path = .ok (fs.place path)
  kept : ∀ q, fs.node? q = some .directory → fs'.node? q = some .directory
  node : ∀ q, q ≠ fs.place path → fs'.node? q = fs.node? q
  held : fs'.held (fs.place path) = .file data

theorem Filled.locate (h : Filled fs path data fs') {p : Path} {q : Location} (hq : fs.locate p = .ok q) :
    fs'.locate p = .ok q := locate_mono h.here h.kept hq

theorem filled_overwrite {number : Nat} (hwell : fs.WellFormed) (hok : fs.openFile false path = .ok (number, fs'))
    (data : Bytes) : Filled fs path data (fs'.overwrite number data) := by
  have hhere := here_of_openFile hok
  obtain ⟨q, hq, hcases⟩ := openFile_eq_ok.1 hok
  have hplace := locate_eq_place hwell.here hq
  have hdirectory : fs.node? q ≠ some .directory := by
    rcases hcases with ⟨⟨hfile, -⟩, -⟩ | ⟨hnone, -⟩
    · rw [hfile]
      exact nofun
    · rw [hnone]
      exact nofun
  obtain ⟨hfile, hempty, hnumber, hothers⟩ : fs'.node? q = some (.file number) ∧ fs'.content number = [] ∧
      number < fs'.contents.length ∧ ∀ p, p ≠ q → fs'.node? p = fs.node? p := by
    rcases hcases with ⟨⟨hfile, -⟩, rfl⟩ | ⟨hnone, rfl, rfl⟩
    · have hnumber := hwell.numbers q number hfile
      exact ⟨hfile, content_setContent_self hnumber [], by rwa [length_setContent], fun _ _ => rfl⟩
    · have hne : q ≠ [] := by
        rintro rfl
        cases hnone
      refine ⟨by rw [node?_withFile hne, if_pos rfl], by simp [content, withFile], by simp [withFile], fun p hp => ?_⟩
      rw [node?_withFile hne, if_neg hp]
  have hbytes : (fs'.overwrite number data).content number = data := by
    rw [overwrite, content_setContent_self hnumber, hempty, List.drop_nil, List.append_nil]
  have hwritten : (fs'.overwrite number data).node? q = some (.file number) := hfile
  have hmoved : (fs'.overwrite number data).here = fs.here := hhere
  subst hplace
  refine ⟨hmoved, hq, fun p hp => (hothers p ?_).trans hp, hothers, by rw [held_eq_file hwritten, hbytes]⟩
  rintro rfl
  exact hdirectory hp

theorem read_eq_ok {q : Location} {number : Nat} (hq : fs.locate path = .ok q)
    (hfile : fs.node? q = some (.file number)) : fs.read path = .ok (fs.content number) := by
  rw [read, find_eq_ok.2 ⟨q, hq, hfile⟩]
  rfl

theorem read_of_rename {source : Path} {q : Location} (hq : fs.locate source = .ok q)
    (hdata : fs.held q = .file data) (hok : fs.rename source target = .ok fs') : fs'.read target = .ok data := by
  obtain ⟨old, new, number, hold, hnew, hfile, hdirectory, rfl⟩ := rename_eq_ok hok
  cases hq.symm.trans hold
  rw [held_eq_file hfile] at hdata
  cases hdata
  split
  · next hsame => exact read_eq_ok hnew (hsame ▸ hfile)
  · have hne {p : Location} (hp : fs.node? p ≠ some .directory) : p ≠ [] := by
      rintro rfl
      exact hp (node?_root fs)
    have hsource : fs.node? q ≠ some .directory := by
      rw [hfile]
      exact nofun
    have hnode (p : Location) : ((fs.remove q).put new (.file number)).node? p =
        if p = new then some (.file number) else if p = q then none else fs.node? p :=
      node?_move (hne hsource) (hne hdirectory) number p
    have hhere : ((fs.remove q).put new (.file number)).here = fs.here := rfl
    refine read_eq_ok (locate_mono hhere (fun p hp => ?_) hnew) (by rw [hnode, if_pos rfl])
    rw [hnode, if_neg, if_neg]
    · exact hp
    · rintro rfl
      exact hsource hp
    · rintro rfl
      exact hdirectory hp

/-- What keeps the temporary file from taking the target's name is no file there. -/
theorem IsTree.not_file_of_rename (h : fs.IsTree) (hname : target.name ≠ "")
    (hfilled : Filled fs (target.extendName temporarySuffix) data fs') {fault : FileFault}
    (hfault : fs'.rename (target.extendName temporarySuffix) target = .error fault) (number : Nat) :
    fs.node? (fs.place target) ≠ some (.file number) := by
  intro hfile
  obtain ⟨q, hq⟩ := locate_of_extendName hname hfilled.located
  cases locate_eq_place h.here hq
  obtain ⟨other, hother, -⟩ := held_eq_file_iff.1 hfilled.held
  have hdirectory : fs'.node? (fs.place target) ≠ some .directory := by
    rw [hfilled.node _ (place_extendName_ne h.here hname).symm, hfile]
    exact nofun
  obtain ⟨after, hafter⟩ := exists_rename (hfilled.locate hfilled.located) (hfilled.locate hq) endsInName_extendName
    (h.endsInName hname hq hfile) hother hdirectory
  exact nomatch hafter.symm.trans hfault

theorem Filled.held_remove (h : Filled fs path data fs') {q : Location} (hq : q ≠ fs.place path)
    (hfile : ∀ number, fs.node? q ≠ some (.file number)) :
    (fs'.remove (fs.place path)).held q = fs.held q := by
  have hne : fs.place path ≠ [] := by
    intro hroot
    have hheld := h.held
    rw [hroot, held_eq_directory.2 (node?_root fs')] at hheld
    cases hheld
  refine held_congr ?_ fun number hnumber => absurd hnumber (hfile number)
  rw [node?_remove hne, if_neg hq, h.node q hq]

/-- The temporary file that did not take the target's name is discarded, and the target is as it was. -/
theorem IsTree.discard_of_rename (h : fs.IsTree) (hname : target.name ≠ "")
    (hfilled : Filled fs (target.extendName temporarySuffix) data fs') {fault : FileFault}
    (hfault : fs'.rename (target.extendName temporarySuffix) target = .error fault) :
    (Replacement.toward target data).discard fs' =
        (.ok (), fs'.remove (fs.place (target.extendName temporarySuffix))) ∧
      (fs'.remove (fs.place (target.extendName temporarySuffix))).held (fs.place target) =
        fs.held (fs.place target) := by
  obtain ⟨number, hnumber, -⟩ := held_eq_file_iff.1 hfilled.held
  have hnone := h.not_file_of_rename hname hfilled hfault
  exact ⟨discard_of_file (hfilled.locate hfilled.located) hnumber,
    hfilled.held_remove (place_extendName_ne h.here hname).symm hnone⟩

/-- **A tree is left as it was, or with the new file.** -/
theorem IsTree.replace_held (h : before.IsTree) (hname : target.name ≠ "") (hslash : '/' ∉ target.name.toList)
    (data : Bytes) :
    match before.replace target data temporarySuffix with
    | (.ok (), after) => after.read target = .ok data
    | (.error _, after) => (Replacement.toward target data).Kept before after (before.place target) := by
  have hpreparing := preparing_prepared h hname data
  cases hmade : (before.makeDirectories target.parent).1 with
  | error fault =>
    rw [replace_of_fault hmade]
    exact hpreparing.kept _
  | ok _ =>
    rw [replace_of_made hname hslash hmade]
    rcases steps_cases (.toward target data) (before.prepared target) with
      ⟨fault, hopen, hsteps⟩ | ⟨number, opened, hopen, ⟨fault, hrename, hsteps⟩ | ⟨last, hrename, hsteps⟩⟩
    · simp only [hsteps]
      rcases discard_cases (.toward target data) (before.prepared target) with
        ⟨q, number, hq, hfile, hdiscard⟩ | ⟨-, e, -, hdiscard⟩ | ⟨-, hdiscard⟩
      · -- a file that may not be opened is discarded, and it is not the target
        have hplace : q = before.place (target.extendName temporarySuffix) :=
          (locate_eq_place hpreparing.here hq).trans (place_congr hpreparing.unmoved _)
        have hne : q ≠ [] := by
          rintro rfl
          cases hfile
        simp only [hdiscard]
        exact (hpreparing.kept _).congr (held_remove hne (hplace ▸ (place_extendName_ne h.here hname).symm))
      · simp only [hdiscard]
        exact hpreparing.kept _
      · simp only [hdiscard]
        exact hpreparing.kept _
    · have hfilled := filled_overwrite hpreparing.toWellFormed hopen data
      obtain ⟨hdiscard, hheld⟩ := hpreparing.toIsTree.discard_of_rename hname hfilled hrename
      simp only [hsteps]
      rw [show (Replacement.toward target data).data = data from rfl, hdiscard]
      rw [place_congr hpreparing.unmoved target] at hheld
      exact (hpreparing.kept _).congr hheld
    · have hfilled := filled_overwrite hpreparing.toWellFormed hopen data
      simp only [hsteps]
      exact read_of_rename (hfilled.locate hfilled.located) hfilled.held hrename

end SketchTurtle.Files
