/-
A file is replaced as a whole or not at all.

`Moment` are the states that a replacement can be in when each of its steps may
fail, the bytes may be written in part, and nothing may follow. What holds at
each of them is one invariant (`Sound`), which every step keeps
(`Moment.sound`). It says that the target holds what it held or the new bytes,
and that nothing else changes but the temporary file and directories on the way
to the target (`AllOrNothing`).

A target that is reached through a double point can be one of those directories
itself: `x/../x` names `x`, which has to be made before it can be left again.
-/
import SketchTurtle.Files.Replace
import SketchTurtle.Proofs.Files.Directories

namespace SketchTurtle

/-! ## The temporary file -/

namespace Path

theorem notMem_split (s : List Char) : ∀ part ∈ split s, '/' ∉ part := by
  induction s with
  | nil => simp [split]
  | cons c s ih =>
    unfold split
    split
    · simpa using ih
    · next hc =>
      have hne : '/' ≠ c := fun h => hc (by rw [← h]; rfl)
      split
      · simpa using hne
      · next part parts hparts =>
        rw [hparts, List.forall_mem_cons] at ih
        rw [List.forall_mem_cons]
        exact ⟨by simp [hne, ih.1], ih.2⟩

theorem notMem_names (s : String) : ∀ name ∈ (ofString s).names, '/' ∉ name.toList := by
  intro name hname
  obtain ⟨part, hpart, rfl⟩ := List.mem_map.1 (List.mem_filter.1 hname).1
  rw [String.toList_ofList]
  exact notMem_split s.toList part hpart

variable {p : Path}

theorem names_eq (h : p.name ≠ "") : p.names = p.names.dropLast ++ [p.name] := by
  have hne : p.names ≠ [] := by
    intro hnil
    rw [name, hnil] at h
    exact h rfl
  rw [name, List.getLastD_eq_getLast?, List.getLast?_eq_some_getLast hne, Option.getD_some,
    List.dropLast_concat_getLast hne]

theorem name_mem (h : p.name ≠ "") : p.name ∈ p.names := by
  rw [names_eq h]
  simp

@[simp]
theorem parent_extendName (s : String) : (p.extendName s).parent = p.parent := by
  simp [parent, extendName]

@[simp]
theorem name_extendName (s : String) : (p.extendName s).name = p.name ++ s := by
  simp [name, extendName]

theorem notMem_suffixOf {name : String} {c : Char} (hpoint : c ≠ '.') (h : c ∉ name.toList) :
    c ∉ (suffixOf name).toList := by
  simp only [suffixOf]
  split
  · simp
  · rw [String.toList_ofList, List.mem_cons, not_or]
    refine ⟨hpoint, fun hmem => h ?_⟩
    rw [List.mem_reverse] at hmem
    exact List.mem_reverse.1 (List.takeWhile_prefix _ |>.subset hmem)

theorem suffixOf_append_tmp (name : String) :
    ∃ c tail, (suffixOf name ++ Files.temporarySuffix).toList = '.' :: c :: tail := by
  have htmp : Files.temporarySuffix.toList = ['.', 't', 'm', 'p'] := by decide
  rw [String.toList_append, htmp]
  simp only [suffixOf]
  split
  · exact ⟨'t', ['m', 'p'], rfl⟩
  · rw [String.toList_ofList, List.cons_append]
    generalize (name.toList.reverse.takeWhile (· != '.')).reverse = tail
    cases tail with
    | nil => exact ⟨'.', ['t', 'm', 'p'], rfl⟩
    | cons c tail => exact ⟨c, _, rfl⟩

end Path

namespace Files

/-- **The temporary file stands beside the target**, with a longer name. -/
theorem temporaryPath_eq {target : Path} (hname : target.name ≠ "") (hslash : '/' ∉ target.name.toList) :
    temporaryPath target temporarySuffix = .ok (target.extendName temporarySuffix) := by
  have hcontains : (target.suffix ++ temporarySuffix).toList.contains '/' = false := by
    rw [List.contains_eq_mem, decide_eq_false_iff_not, String.toList_append, List.mem_append, not_or]
    exact ⟨Path.notMem_suffixOf (by decide) hslash, by decide⟩
  obtain ⟨c, tail, hlist⟩ := Path.suffixOf_append_tmp target.name
  have hstarts : (target.suffix ++ temporarySuffix).toList.head? = some '.' := by
    rw [Path.suffix, hlist]
    rfl
  have hpoint : target.suffix ++ temporarySuffix ≠ "." := by
    intro h
    rw [Path.suffix] at h
    rw [h] at hlist
    cases hlist
  simp only [temporaryPath, hcontains, hstarts]
  simp [hpoint, hname]

variable {before : Files}

theorem place_extendName_ne (hhere : ".." ∉ before.here) {target : Path} (hname : target.name ≠ "") :
    before.place (target.extendName temporarySuffix) ≠ before.place target := by
  have hlength : (target.name ++ temporarySuffix).length = target.name.length + 4 := by
    rw [String.length_append]
    rfl
  have hdots : (target.name ++ temporarySuffix == "..") = false := by
    rw [beq_eq_false_iff_ne]
    intro h
    rw [h] at hlength
    have : "..".length = 2 := rfl
    omega
  have hne : target.name ≠ target.name ++ temporarySuffix := by
    intro h
    rw [← h] at hlength
    omega
  have htarget : target = ⟨target.root, target.names.dropLast ++ [target.name]⟩ := by
    rw [← Path.names_eq hname]
  intro h
  rw [htarget, place_concat hhere, ← htarget, Path.extendName, place_concat hhere] at h
  generalize before.place ⟨target.root, target.names.dropLast⟩ = base at h
  simp only [follow, hdots, Bool.false_eq_true, if_false] at h
  split at h
  · have hlengths := congrArg List.length h
    rw [List.length_append, List.length_dropLast, List.length_singleton] at hlengths
    omega
  · exact hne (List.singleton_inj.1 (List.append_cancel_left h)).symm

end Files

/-! ## Moments -/

/-- A path above another one. -/
def Path.Above (path target : Path) : Prop :=
  ∃ k < target.names.length, path = ⟨target.root, target.names.take k⟩

theorem Path.above_parent {target : Path} (h : target.name ≠ "") : target.parent.Above target := by
  have hne : target.names ≠ [] := by
    rw [names_eq h]
    simp
  exact ⟨target.names.length - 1, Nat.sub_one_lt (by simpa using hne), by rw [parent, List.dropLast_eq_take]⟩

theorem Path.Above.parent {path target : Path} (h : path.Above target) : path.parent.Above target := by
  obtain ⟨k, hk, rfl⟩ := h
  refine ⟨k - 1, by omega, ?_⟩
  rw [Path.parent, Path.mk.injEq]
  exact ⟨rfl, by rw [List.dropLast_eq_take, List.take_take, List.length_take]; congr 1; omega⟩

namespace Replacement

/-- How far a call that replaces a file has come. -/
inductive Phase where
  /-- The directories above the target are being made. -/
  | preparing
  | at (stage : Stage)
  /-- A step has failed, and the temporary file is to be removed. -/
  | failing
  | raised
  /-- The temporary file could not be removed. -/
  | stranded

variable (r : Replacement) (before : Files)

/-- The phases and the files that a call can reach: any step may fail, any
beginning of the bytes may have been written, and nothing has to follow. -/
inductive Moment : Phase → Files → Prop where
  | start : Moment .preparing before
  | directory {path : Path} {fs fs' : Files} (h : Moment .preparing fs) (habove : path.Above r.target)
      (hok : fs.makeDirectory path = .ok fs') : Moment .preparing fs'
  | refused {fs : Files} (h : Moment .preparing fs) : Moment .raised fs
  | prepared {fs : Files} (h : Moment .preparing fs) : Moment (.at .planned) fs
  | partly {number : Nat} {fs : Files} (h : Moment (.at (.opened number)) fs) (k : Nat) :
      Moment (.at (.opened number)) (fs.overwrite number (r.data.take k))
  | step {stage next : Stage} {fs fs' : Files} (h : Moment (.at stage) fs)
      (hok : r.advance stage fs = .ok (next, fs')) : Moment (.at next) fs'
  | failed {stage : Stage} {fs : Files} (h : Moment (.at stage) fs) (hstage : stage ≠ .renamed) : Moment .failing fs
  | discarded {fs fs' : Files} (h : Moment .failing fs) (hok : r.discard fs = (.ok (), fs')) : Moment .raised fs'
  | undiscarded {fs : Files} (h : Moment .failing fs) : Moment .stranded fs

/-! ## The invariant -/

/-- A directory that was made on the way to the target. -/
structure Made (fs : Files) (q : Location) : Prop where
  above : ∃ path : Path, path.Above r.target ∧ q = before.place path
  missing : before.held q = .nothing
  made : fs.held q = .directory

/-- What is found at a place is as before, or a directory on the way. -/
def Kept (fs : Files) (q : Location) : Prop := fs.held q = before.held q ∨ r.Made before fs q

/-- The temporary file is the one with the number, and it is there. -/
structure Open (fs : Files) (number : Nat) : Prop where
  located : fs.locate r.temporary = .ok (before.place r.temporary)
  node : fs.node? (before.place r.temporary) = some (.file number)
  sole : fs.Sole (before.place r.temporary)

/-- What holds of the target and the temporary file in each phase. -/
def PhaseHolds : Phase → Files → Prop
  | .preparing, fs | .at .planned, fs =>
    r.Kept before fs (before.place r.target) ∧ r.Kept before fs (before.place r.temporary) ∧
      fs.Sole (before.place r.temporary)
  | .at (.opened number), fs =>
    r.Kept before fs (before.place r.target) ∧ r.Open before fs number ∧ ∃ k, fs.content number = r.data.take k
  | .at (.written number), fs =>
    r.Kept before fs (before.place r.target) ∧ r.Open before fs number ∧ fs.content number = r.data
  | .at .renamed, fs =>
    fs.held (before.place r.target) = .file r.data ∧ fs.held (before.place r.temporary) = .nothing
  | .failing, fs =>
    r.Kept before fs (before.place r.target) ∧
      (r.Kept before fs (before.place r.temporary) ∨ ∃ number, r.Open before fs number)
  | .raised, fs =>
    r.Kept before fs (before.place r.target) ∧
      (before.held (before.place r.temporary) = .nothing → ∀ bytes, fs.held (before.place r.temporary) ≠ .file bytes)
  | .stranded, fs => r.Kept before fs (before.place r.target)

/-- What holds at every moment. -/
structure Sound (phase : Phase) (fs : Files) : Prop where
  here : fs.here = before.here
  wellFormed : fs.WellFormed
  others : ∀ q, q ≠ before.place r.target → q ≠ before.place r.temporary → r.Kept before fs q
  phase : r.PhaseHolds before phase fs

variable {r before} {fs fs' : Files} {phase next : Phase}

/-- What one step does. -/
theorem advance_eq_ok {stage next : Stage} (h : r.advance stage fs = .ok (next, fs')) :
    (∃ number, stage = .planned ∧ next = .opened number ∧ fs.openFile false r.temporary = .ok (number, fs')) ∨
      (∃ number, stage = .opened number ∧ next = .written number ∧ fs' = fs.overwrite number r.data) ∨
      (∃ number, stage = .written number ∧ next = .renamed ∧ fs.rename r.temporary r.target = .ok fs') ∨
      stage = .renamed ∧ next = .renamed ∧ fs' = fs := by
  cases stage with
  | planned =>
    rw [advance] at h
    cases hopen : fs.openFile false r.temporary with
    | error fault =>
      rw [hopen] at h
      cases h
    | ok opened =>
      rw [hopen] at h
      cases h
      exact .inl ⟨_, rfl, rfl, rfl⟩
  | opened number =>
    cases h
    exact .inr (.inl ⟨number, rfl, rfl, rfl⟩)
  | written number =>
    rw [advance] at h
    cases hrename : fs.rename r.temporary r.target with
    | error fault =>
      rw [hrename] at h
      cases h
    | ok renamed =>
      rw [hrename] at h
      cases h
      exact .inr (.inr (.inl ⟨number, rfl, rfl, rfl⟩))
  | renamed =>
    cases h
    exact .inr (.inr (.inr ⟨rfl, rfl, rfl⟩))

theorem Kept.congr {q : Location} (h : r.Kept before fs q) (hheld : fs'.held q = fs.held q) : r.Kept before fs' q := by
  rcases h with h | ⟨habove, hmissing, hmade⟩
  · exact .inl (hheld.trans h)
  · exact .inr ⟨habove, hmissing, hheld.trans hmade⟩

/-- Nothing but the target and the temporary file is touched. -/
theorem Sound.of_change (h : r.Sound before phase fs) {places : List Location} (hchange : fs.Change fs' places)
    (hplaces : ∀ q ∈ places, q = before.place r.target ∨ q = before.place r.temporary)
    (hphase : r.PhaseHolds before next fs') : r.Sound before next fs' where
  here := hchange.here.trans h.here
  wellFormed := hchange.wellFormed
  others := by
    intro q htarget htemporary
    refine (h.others q htarget htemporary).congr (hchange.held q fun hq => ?_)
    exact (hplaces q hq).elim htarget htemporary
  phase := hphase

theorem Sound.place (h : r.Sound before phase fs) (path : Path) : fs.place path = before.place path :=
  Files.place_congr h.here path

theorem Kept.directory (hwell : fs.WellFormed) (hhere : fs.here = before.here) {path : Path}
    (habove : path.Above r.target) (hok : fs.makeDirectory path = .ok fs') {q : Location} (h : r.Kept before fs q) :
    r.Kept before fs' q := by
  obtain ⟨hchange, hnothing, hmade⟩ := Files.makeDirectory_change hwell hok
  rw [Files.place_congr hhere] at hchange hnothing hmade
  by_cases hplace : q = before.place path
  · subst hplace
    rcases h with h | h
    · exact .inr ⟨⟨path, habove, rfl⟩, h ▸ hnothing, hmade⟩
    · have := h.made
      rw [hnothing] at this
      cases this
  · exact h.congr (hchange.held q (by simpa using hplace))

theorem Sound.directory (h : r.Sound before .preparing fs) {path : Path} (habove : path.Above r.target)
    (hok : fs.makeDirectory path = .ok fs') : r.Sound before .preparing fs' := by
  obtain ⟨hchange, -, -⟩ := Files.makeDirectory_change h.wellFormed hok
  have hkept {q : Location} (hq : r.Kept before fs q) : r.Kept before fs' q :=
    hq.directory h.wellFormed h.here habove hok
  exact {
    here := hchange.here.trans h.here
    wellFormed := hchange.wellFormed
    others := fun q htarget htemporary => hkept (h.others q htarget htemporary)
    phase := ⟨hkept h.phase.1, hkept h.phase.2.1, hchange.sole _ h.phase.2.2⟩ }

section Steps

variable (hne : before.place r.temporary ≠ before.place r.target) {number : Nat}
include hne

theorem Sound.opened (h : r.Sound before (.at .planned) fs) (hok : fs.openFile false r.temporary = .ok (number, fs')) :
    r.Sound before (.at (.opened number)) fs' := by
  obtain ⟨htarget, -, hsole⟩ := h.phase
  obtain ⟨hchange, hnode, hcontent⟩ := Files.openFile_change h.wellFormed (by rw [h.place]; exact hsole) hok
  obtain ⟨q, hlocate, hfile⟩ := Files.openFile_eq_ok.1 hok
  have hq := Files.locate_eq_place h.wellFormed.here hlocate
  rw [h.place] at hchange hnode hq
  subst hq
  refine h.of_change hchange (by simp) ⟨?_, ⟨?_, hnode, hchange.sole _ hsole⟩, 0, hcontent⟩
  · exact htarget.congr (hchange.held _ (by simpa using hne.symm))
  · -- The walk to the temporary file passes no file, so opening it changes nothing there.
    refine Files.locate_mono hchange.here (fun p hp => ?_) hlocate
    rw [← Files.held_eq_directory] at hp ⊢
    rw [hchange.held p, hp]
    rw [List.mem_singleton]
    rintro rfl
    rw [Files.held_eq_directory] at hp
    rcases hfile with ⟨⟨hfile, -⟩, -⟩ | ⟨hfile, -⟩ <;> rw [hp] at hfile <;> cases hfile

/-- Bytes written over the beginning of the open file go before what is left
of those that were there. -/
theorem Sound.overwrite (h : r.Sound before (.at (.opened number)) fs) (bytes : Bytes) :
    fs.Change (fs.overwrite number bytes) [before.place r.temporary] ∧
      r.Kept before (fs.overwrite number bytes) (before.place r.target) ∧
      r.Open before (fs.overwrite number bytes) number ∧
      ∃ k, (fs.overwrite number bytes).content number = bytes ++ (r.data.take k).drop bytes.length := by
  obtain ⟨htarget, hopen, k, hcontent⟩ := h.phase
  obtain ⟨hchange, hbytes⟩ := Files.setContent_change h.wellFormed hopen.node hopen.sole
    (bytes ++ (fs.content number).drop bytes.length)
  have hlocated : (fs.overwrite number bytes).locate r.temporary = .ok (before.place r.temporary) :=
    Files.locate_mono (show (fs.overwrite number bytes).here = fs.here from rfl) (fun _ hp => hp) hopen.located
  refine ⟨hchange, ?_, ⟨hlocated, hopen.node, hopen.sole⟩, k, ?_⟩
  · exact htarget.congr (hchange.held _ (by simpa using hne.symm))
  · rw [← hcontent]
    exact hbytes

theorem Sound.partly (h : r.Sound before (.at (.opened number)) fs) (k : Nat) :
    r.Sound before (.at (.opened number)) (fs.overwrite number (r.data.take k)) := by
  obtain ⟨hchange, htarget, hopen, j, hcontent⟩ := h.overwrite hne (r.data.take k)
  refine h.of_change hchange (by simp) ⟨htarget, hopen, max j k, ?_⟩
  rw [hcontent]
  rcases Nat.le_total j k with hjk | hkj
  · rw [Nat.max_eq_right hjk, List.drop_eq_nil_of_le, List.append_nil]
    simp only [List.length_take]
    omega
  · rw [Nat.max_eq_left hkj]
    exact List.prefix_iff_eq_append.1 (List.take_prefix_take_left hkj)

theorem Sound.written (h : r.Sound before (.at (.opened number)) fs) :
    r.Sound before (.at (.written number)) (fs.overwrite number r.data) := by
  obtain ⟨hchange, htarget, hopen, k, hcontent⟩ := h.overwrite hne r.data
  refine h.of_change hchange (by simp) ⟨htarget, hopen, ?_⟩
  rw [hcontent, List.drop_eq_nil_of_le (List.length_take_le' _ _), List.append_nil]

theorem Sound.renamed (h : r.Sound before (.at (.written number)) fs)
    (hok : fs.rename r.temporary r.target = .ok fs') : r.Sound before (.at .renamed) fs' := by
  obtain ⟨-, hopen, hcontent⟩ := h.phase
  rw [← h.place, ← h.place] at hne
  obtain ⟨hchange, hnothing, htarget⟩ := Files.rename_change h.wellFormed hne (by rw [h.place]; exact hopen.sole) hok
  rw [h.place] at hnothing htarget
  rw [h.place, Files.held_eq_file hopen.node, hcontent] at htarget
  refine h.of_change hchange ?_ ⟨htarget, hnothing⟩
  rw [h.place, h.place]
  simp

theorem Sound.step {stage stage' : Stage} (h : r.Sound before (.at stage) fs)
    (hok : r.advance stage fs = .ok (stage', fs')) : r.Sound before (.at stage') fs' := by
  rcases advance_eq_ok hok with ⟨number, rfl, rfl, hopen⟩ | ⟨number, rfl, rfl, rfl⟩ | ⟨number, rfl, rfl, hrename⟩ |
    ⟨rfl, rfl, rfl⟩
  · exact h.opened hne hopen
  · exact h.written hne
  · exact h.renamed hne hrename
  · exact h

end Steps

theorem Kept.ne_file {q : Location} (h : r.Kept before fs q) (hmissing : before.held q = .nothing) (bytes : Bytes) :
    fs.held q ≠ .file bytes := by
  rcases h with h | h
  · rw [h, hmissing]
    exact nofun
  · rw [h.made]
    exact nofun

theorem Sound.failed {stage : Stage} (h : r.Sound before (.at stage) fs) (hstage : stage ≠ .renamed) :
    r.Sound before .failing fs := by
  refine ⟨h.here, h.wellFormed, h.others, ?_⟩
  have hphase := h.phase
  cases stage with
  | planned => exact ⟨hphase.1, .inl hphase.2.1⟩
  | opened number => exact ⟨hphase.1, .inr ⟨number, hphase.2.1⟩⟩
  | written number => exact ⟨hphase.1, .inr ⟨number, hphase.2.1⟩⟩
  | renamed => exact absurd rfl hstage

theorem discard_eq_ok (h : r.discard fs = (.ok (), fs')) :
    (fs.exists? r.temporary = .ok false ∧ fs' = fs) ∨ fs.unlink r.temporary = .ok fs' := by
  unfold discard at h
  split at h
  · cases h
  · next hexists =>
    cases h
    exact .inl ⟨hexists, rfl⟩
  · split at h
    · next hunlink =>
      cases h
      exact .inr hunlink
    · cases h

theorem discard_eq_error {fault : FileFault} (h : r.discard fs = (.error fault, fs')) : fs' = fs := by
  unfold discard at h
  split at h
  · cases h
    rfl
  · cases h
  · split at h
    · cases h
    · cases h
      rfl

theorem Sound.discarded (hne : before.place r.temporary ≠ before.place r.target) (h : r.Sound before .failing fs)
    (hok : r.discard fs = (.ok (), fs')) : r.Sound before .raised fs' := by
  obtain ⟨htarget, htemporary⟩ := h.phase
  rcases discard_eq_ok hok with ⟨hexists, rfl⟩ | hunlink
  · refine ⟨h.here, h.wellFormed, h.others, htarget, fun hmissing => ?_⟩
    rcases htemporary with hkept | ⟨number, hopen⟩
    · exact hkept.ne_file hmissing
    · rw [Files.exists?_of_node? hopen.located hopen.node] at hexists
      cases hexists
  · obtain ⟨hchange, hnothing⟩ := Files.unlink_change h.wellFormed hunlink
    rw [h.place] at hchange hnothing
    refine h.of_change hchange (by simp) ⟨?_, fun _ => ?_⟩
    · exact htarget.congr (hchange.held _ (by simpa using hne.symm))
    · rw [hnothing]
      exact nofun

/-- **The invariant holds at every moment.** -/
theorem Moment.sound (hwell : before.WellFormed) (hsole : before.Sole (before.place r.temporary))
    (hne : before.place r.temporary ≠ before.place r.target) (h : r.Moment before phase fs) :
    r.Sound before phase fs := by
  induction h with
  | start => exact ⟨rfl, hwell, fun _ _ _ => .inl rfl, .inl rfl, .inl rfl, hsole⟩
  | directory _ habove hok ih => exact ih.directory habove hok
  | refused _ ih => exact ⟨ih.here, ih.wellFormed, ih.others, ih.phase.1, fun hmissing => ih.phase.2.1.ne_file hmissing⟩
  | prepared _ ih => exact ⟨ih.here, ih.wellFormed, ih.others, ih.phase⟩
  | partly _ k ih => exact ih.partly hne k
  | step _ hok ih => exact ih.step hne hok
  | failed _ hstage ih => exact ih.failed hstage
  | discarded _ hok ih => exact ih.discarded hne hok
  | undiscarded _ ih => exact ⟨ih.here, ih.wellFormed, ih.others, ih.phase.1⟩

/-! ## All or nothing -/

/-- Without a double point in its path, a target does not stand on the way to
itself. -/
theorem Made.mem_names (hhere : ".." ∉ before.here) (h : r.Made before fs (before.place r.target)) :
    ".." ∈ r.target.names := by
  obtain ⟨path, ⟨k, hk, rfl⟩, hplace⟩ := h.above
  refine Decidable.byContradiction fun hdots => ?_
  have htake : ".." ∉ r.target.names.take k := fun hmem => hdots (List.mem_of_mem_take hmem)
  rw [Files.place_eq hhere, Files.place_eq hhere, Files.foldl_follow hdots, Files.foldl_follow htake] at hplace
  have hlengths := congrArg List.length (List.append_cancel_left hplace)
  rw [List.length_take] at hlengths
  omega

variable (r before)

/-- The target was missing, and was made as a directory on the way to itself. -/
def MadeTarget (fs : Files) : Prop := ".." ∈ r.target.names ∧ r.Made before fs (before.place r.target)

/-- What is promised of a moment. -/
structure AllOrNothing (phase : Phase) (fs : Files) : Prop where
  /-- The target holds what it held, or the new bytes. -/
  target : fs.held (before.place r.target) = before.held (before.place r.target) ∨
    fs.held (before.place r.target) = .file r.data ∨ r.MadeTarget before fs
  /-- A call that returned has replaced the target. -/
  returned : phase = .at .renamed →
    fs.held (before.place r.target) = .file r.data ∧ fs.held (before.place r.temporary) = .nothing
  /-- A call that raised has left the target. -/
  raised : phase = .raised ∨ phase = .stranded →
    fs.held (before.place r.target) = before.held (before.place r.target) ∨ r.MadeTarget before fs
  /-- It leaves no temporary file either, if there was nothing and it could be removed. -/
  clean : phase = .raised → before.held (before.place r.temporary) = .nothing →
    ∀ bytes, fs.held (before.place r.temporary) ≠ .file bytes
  /-- All else is as before, but for directories made on the way to the target. -/
  others : ∀ q, q ≠ before.place r.target → q ≠ before.place r.temporary → r.Kept before fs q

/-- What is promised of a call. -/
structure Atomic : Prop where
  temporary : Files.temporaryPath r.target Files.temporarySuffix = .ok r.temporary
  beside : r.temporary.parent = r.target.parent ∧ r.temporary.name = r.target.name ++ Files.temporarySuffix
  apart : before.place r.temporary ≠ before.place r.target
  moments : ∀ phase fs, r.Moment before phase fs → r.AllOrNothing before phase fs
  /-- A call ends in one of these moments. -/
  call : ∃ phase, r.Moment before phase (before.replace r.target r.data Files.temporarySuffix).2 ∧
    ((before.replace r.target r.data Files.temporarySuffix).1 = .ok () → phase = .at .renamed) ∧
    ∀ fault, (before.replace r.target r.data Files.temporarySuffix).1 = .error fault →
      phase = .raised ∨ phase = .stranded

variable {r before}

theorem Sound.allOrNothing (hhere : ".." ∉ before.here) (h : r.Sound before phase fs) :
    r.AllOrNothing before phase fs := by
  have hkept (hkept : r.Kept before fs (before.place r.target)) :
      fs.held (before.place r.target) = before.held (before.place r.target) ∨ r.MadeTarget before fs :=
    hkept.imp_right fun hmade => ⟨hmade.mem_names hhere, hmade⟩
  refine ⟨?_, ?_, ?_, ?_, h.others⟩
  · have htarget : r.Kept before fs (before.place r.target) ∨ fs.held (before.place r.target) = .file r.data := by
      have hphase := h.phase
      match phase with
      | .preparing | .at .planned | .at (.opened _) | .at (.written _) | .failing | .raised => exact .inl hphase.1
      | .at .renamed => exact .inr hphase.1
      | .stranded => exact .inl hphase
    rcases htarget with htarget | htarget
    · exact (hkept htarget).imp_right .inr
    · exact .inr (.inl htarget)
  · rintro rfl
    exact h.phase
  · rintro (rfl | rfl)
    · exact hkept h.phase.1
    · exact hkept h.phase
  · rintro rfl
    exact h.phase.2

/-! ## The call -/

theorem Moment.makeDirectories {path : Path} (h : r.Moment before .preparing fs) (habove : path.Above r.target) :
    r.Moment before .preparing (fs.makeDirectories path).2 := by
  fun_induction Files.makeDirectories fs path
  case case1 hok => exact h.directory habove hok
  case case2 => exact h
  case case3 hparents ih =>
    rw [hparents] at ih
    exact ih habove.parent
  case case4 hparents fs hok ih =>
    rw [hparents] at ih
    exact (ih habove.parent).directory habove hok
  case case5 hparents p t hmissing ih =>
    rw [hparents] at ih
    exact ih habove.parent
  case case6 accept _ _ _ _ _ hparents _ _ _ ih =>
    rw [hparents] at ih
    simp only [accept]
    split <;> exact ih habove.parent
  case case7 accept _ _ _ =>
    simp only [accept]
    split <;> exact h

/-- The number of steps that are left. -/
def Stage.left : Stage → Nat
  | .planned => 3
  | .opened _ => 2
  | .written _ => 1
  | .renamed => 0

theorem left_advance {stage stage' : Stage} (h : r.advance stage fs = .ok (stage', fs')) :
    stage'.left = stage.left - 1 := by
  rcases advance_eq_ok h with ⟨_, rfl, rfl, -⟩ | ⟨_, rfl, rfl, -⟩ | ⟨_, rfl, rfl, -⟩ | ⟨rfl, rfl, -⟩ <;> rfl

/-- Steps lead on until they are made, or one of them fails. -/
theorem Moment.steps {stage : Stage} (h : r.Moment before (.at stage) fs) (n : Nat) :
    ∃ last, r.Moment before (.at last) (r.steps n stage fs).2 ∧
      ((r.steps n stage fs).1 = .ok () → last.left = stage.left - n) ∧
      ∀ fault, (r.steps n stage fs).1 = .error fault → last ≠ .renamed := by
  induction n generalizing stage fs with
  | zero => exact ⟨stage, h, fun _ => rfl, fun _ => nofun⟩
  | succ n ih =>
    unfold Replacement.steps
    split
    · next next fs' hok =>
      obtain ⟨last, hlast, hreturned, hraised⟩ := ih (h.step hok)
      refine ⟨last, hlast, fun hsuccess => ?_, hraised⟩
      rw [hreturned hsuccess, left_advance hok]
      omega
    · next fault hfault =>
      refine ⟨stage, h, nofun, fun _ _ => ?_⟩
      rintro rfl
      cases hfault

/-- The replacement of a file beside which its temporary file stands. -/
def toward (target : Path) (data : Bytes) : Replacement := ⟨target, target.extendName Files.temporarySuffix, data⟩

theorem exists_moment_replace {target : Path} {data : Bytes} (hname : target.name ≠ "")
    (htemporary : Files.temporaryPath target Files.temporarySuffix = .ok (target.extendName Files.temporarySuffix)) :
    ∃ phase, (toward target data).Moment before phase (before.replace target data Files.temporarySuffix).2 ∧
      ((before.replace target data Files.temporarySuffix).1 = .ok () → phase = .at .renamed) ∧
      ∀ fault, (before.replace target data Files.temporarySuffix).1 = .error fault →
        phase = .raised ∨ phase = .stranded := by
  have hparents : (toward target data).Moment before .preparing (before.makeDirectories target.parent).2 :=
    Moment.start.makeDirectories (Path.above_parent hname)
  unfold Files.replace
  rcases hdirectories : before.makeDirectories target.parent with ⟨_ | _, fs⟩
  · rw [hdirectories] at hparents
    exact ⟨.raised, hparents.refused, nofun, fun _ _ => .inl rfl⟩
  · rw [hdirectories] at hparents
    obtain ⟨last, hlast, hreturned, hraised⟩ := hparents.prepared.steps stepCount
    have hsame : (⟨target, target.extendName Files.temporarySuffix, data⟩ : Replacement) = toward target data := rfl
    simp only [htemporary, hsame]
    rcases hsteps : (toward target data).steps stepCount .planned fs with ⟨fault | _, fs'⟩
    · rw [hsteps] at hlast hraised
      have hfailing := hlast.failed (hraised fault rfl)
      rcases hdiscard : (toward target data).discard fs' with ⟨fault' | _, fs''⟩
      · simp only [hdiscard, discard_eq_error hdiscard]
        exact ⟨.stranded, hfailing.undiscarded, nofun, fun _ _ => .inr rfl⟩
      · simp only [hdiscard]
        exact ⟨.raised, hfailing.discarded hdiscard, nofun, fun _ _ => .inl rfl⟩
    · rw [hsteps] at hlast hreturned
      have hrenamed : last = .renamed := by
        have hleft := hreturned rfl
        cases last with
        | renamed => rfl
        | planned | opened | written => cases hleft
      rw [hrenamed] at hlast
      exact ⟨.at .renamed, hlast, fun _ => rfl, fun _ => nofun⟩

theorem atomic_of_notMem {target : Path} (hwell : before.WellFormed) (hname : target.name ≠ "")
    (hslash : '/' ∉ target.name.toList) (data : Bytes)
    (hsole : before.Sole (before.place (target.extendName Files.temporarySuffix))) :
    (toward target data).Atomic before := by
  have htemporary := Files.temporaryPath_eq hname hslash
  have hne := Files.place_extendName_ne hwell.here hname
  exact {
    temporary := htemporary
    beside := ⟨Path.parent_extendName _, Path.name_extendName _⟩
    apart := hne
    moments := fun phase fs hmoment => (hmoment.sound hwell hsole hne).allOrNothing hwell.here
    call := exists_moment_replace hname htemporary }

/-- **A call replaces its target as a whole or not at all**, at whatever step it
fails or stops, if the temporary file has no other name. -/
theorem atomic_toward (hwell : before.WellFormed) {text : String} (hname : (Path.ofString text).name ≠ "")
    (data : Bytes)
    (hsole : before.Sole (before.place ((Path.ofString text).extendName Files.temporarySuffix))) :
    (toward (Path.ofString text) data).Atomic before :=
  atomic_of_notMem hwell hname (Path.notMem_names text _ (Path.name_mem hname)) data hsole

theorem atomic_toward_empty : (toward (Path.ofString "a/x") [1]).Atomic Files.empty :=
  atomic_toward Files.wellFormed_empty (by decide) [1] fun p number hp _ =>
    absurd (Files.wellFormed_empty.numbers p number hp) (Nat.not_lt_zero number)

/-- A file with two names, of which one is that of a temporary file. -/
def linked : Files where
  here := ["work"]
  nodes := [(["work"], .directory), (["work", "x"], .file 0), (["work", "x.tmp"], .file 0)]
  contents := [[1]]

/-- A missing target that is on the way to itself is made as a directory, and
the call raises. A target whose file has the name of the temporary file as well
is emptied before it is replaced. -/
theorem target_lost :
    ((Path.ofString "x/../x").name ≠ "" ∧
      Files.empty.held (Files.empty.place (Path.ofString "x/../x")) = .nothing ∧
      (Files.empty.replace (Path.ofString "x/../x") [0] Files.temporarySuffix).1.toBool = false ∧
      (Files.empty.replace (Path.ofString "x/../x") [0] Files.temporarySuffix).2.held
        (Files.empty.place (Path.ofString "x/../x")) = .directory) ∧
      ∃ phase fs, (toward (Path.ofString "x") [2]).Moment linked phase fs ∧
        linked.held (linked.place (Path.ofString "x")) = .file [1] ∧
        fs.held (linked.place (Path.ofString "x")) = .file [] := by
  refine ⟨⟨?_, ?_, ?_, ?_⟩, .at (.opened 0), linked.setContent 0 [], ?_, ?_, ?_⟩
  · decide
  · rfl
  · decide +kernel
  · decide +kernel
  · have hopen : (toward (Path.ofString "x") [2]).advance .planned linked =
        .ok (.opened 0, linked.setContent 0 []) := by with_unfolding_all rfl
    exact Moment.start.prepared.step hopen
  · rfl
  · rfl

end Replacement

end SketchTurtle
