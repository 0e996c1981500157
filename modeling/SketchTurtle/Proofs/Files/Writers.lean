/-
Several writers of one file.

Each writer makes the steps of a replacement, and their steps alternate in any
order (`Interleaved`). As long as nobody opens a temporary file that another
writer has open, the target holds what it held or the bytes of one writer
(`held_target_of_turns`). All writers of a target share the name of the
temporary file, and nothing keeps them from opening it together: the target is
then found empty, or with the bytes of one writer over those of another
(`target_torn`).
-/
import SketchTurtle.Proofs.Files.Replace
import Mathlib.Logic.Function.Basic

namespace SketchTurtle.Replacement

/-- The number of the temporary file and what it holds, while it is open. -/
def Stage.pending (data : Bytes) : Stage → Option (Nat × Bytes)
  | .opened number => some (number, [])
  | .written number => some (number, data)
  | .planned | .renamed => none

variable {ι : Type} [DecidableEq ι] (writers : ι → Replacement) (before : Files)

/-- The stages and the files that the writers reach. `mayStep` says whose turn
it may be. -/
inductive Interleaved (mayStep : (ι → Stage) → ι → Prop) : (ι → Stage) → Files → Prop where
  | start : Interleaved mayStep (fun _ => .planned) before
  | step {stages : ι → Stage} {fs fs' : Files} {i : ι} {next : Stage} (h : Interleaved mayStep stages fs)
      (hmay : mayStep stages i) (hok : (writers i).advance (stages i) fs = .ok (next, fs')) :
      Interleaved mayStep (Function.update stages i next) fs'

/-- A writer opens no temporary file that another one has open. -/
def TakesTurns (stages : ι → Stage) (i : ι) : Prop :=
  stages i = .planned → ∀ j, (stages j).pending (writers j).data ≠ none →
    before.place (writers j).temporary ≠ before.place (writers i).temporary

/-- What holds while writers take turns. -/
structure Undisturbed (target : Path) (stages : ι → Stage) (fs : Files) : Prop where
  here : fs.here = before.here
  wellFormed : fs.WellFormed
  sole : ∀ i, fs.Sole (before.place (writers i).temporary)
  pending : ∀ i number bytes, (stages i).pending (writers i).data = some (number, bytes) →
    fs.node? (before.place (writers i).temporary) = some (.file number) ∧ fs.content number = bytes
  apart : ∀ i j, i ≠ j → (stages i).pending (writers i).data ≠ none → (stages j).pending (writers j).data ≠ none →
    before.place (writers i).temporary ≠ before.place (writers j).temporary
  target : fs.held (before.place target) = before.held (before.place target) ∨
    ∃ i, stages i = .renamed ∧ fs.held (before.place target) = .file (writers i).data

variable {writers before} {target : Path} {stages : ι → Stage} {fs fs' : Files}

omit [DecidableEq ι] in
theorem Undisturbed.place (h : Undisturbed writers before target stages fs) (path : Path) :
    fs.place path = before.place path :=
  Files.place_congr h.here path

section Step

variable {i : ι} {next : Stage} (h : Undisturbed writers before target stages fs)
  (hne : ∀ j, before.place (writers j).temporary ≠ before.place target)
include h

omit [DecidableEq ι] in
theorem Undisturbed.alone (hopen : (stages i).pending (writers i).data ≠ none) (j : ι) (hj : j ≠ i)
    (hpending : (stages j).pending (writers j).data ≠ none) :
    before.place (writers j).temporary ≠ before.place (writers i).temporary :=
  h.apart j i hj hpending hopen

/-- What the target holds is not touched before the file is renamed. -/
theorem Undisturbed.target_of_held (hstage : stages i ≠ .renamed)
    (hheld : fs'.held (before.place target) = fs.held (before.place target)) :
    fs'.held (before.place target) = before.held (before.place target) ∨
      ∃ j, Function.update stages i next j = .renamed ∧ fs'.held (before.place target) = .file (writers j).data := by
  rw [hheld]
  refine h.target.imp_right fun ⟨j, hj, hdata⟩ => ⟨j, ?_, hdata⟩
  rwa [Function.update_of_ne]
  rintro rfl
  exact hstage hj

include hne

/-- A step touches the writer's own temporary file and, at last, the target. -/
theorem Undisturbed.of_change {places : List Location} (hchange : fs.Change fs' places)
    (hplaces : ∀ q ∈ places, q = before.place (writers i).temporary ∨ q = before.place target)
    (halone : ∀ j, j ≠ i → (stages j).pending (writers j).data ≠ none →
      before.place (writers j).temporary ≠ before.place (writers i).temporary)
    (hpending : ∀ number bytes, next.pending (writers i).data = some (number, bytes) →
      fs'.node? (before.place (writers i).temporary) = some (.file number) ∧ fs'.content number = bytes)
    (htarget : fs'.held (before.place target) = before.held (before.place target) ∨
      ∃ j, Function.update stages i next j = .renamed ∧ fs'.held (before.place target) = .file (writers j).data) :
    Undisturbed writers before target (Function.update stages i next) fs' where
  here := hchange.here.trans h.here
  wellFormed := hchange.wellFormed
  sole := fun j => hchange.sole _ (h.sole j)
  pending := by
    intro j number bytes hj
    by_cases hji : j = i
    · subst hji
      rw [Function.update_self] at hj
      exact hpending number bytes hj
    · rw [Function.update_of_ne hji] at hj
      obtain ⟨hnode, hcontent⟩ := h.pending j number bytes hj
      have helsewhere : before.place (writers j).temporary ∉ places := fun hmem =>
        (hplaces _ hmem).elim (halone j hji (by simp [hj])) (hne j)
      obtain ⟨hnode', hcontent'⟩ := hchange.file helsewhere hnode
      exact ⟨hnode', hcontent'.trans hcontent⟩
  apart := by
    intro j k hjk hj hk
    by_cases hji : j = i
    · subst hji
      rw [Function.update_of_ne hjk.symm] at hk
      exact (halone k hjk.symm hk).symm
    · rw [Function.update_of_ne hji] at hj
      by_cases hki : k = i
      · subst hki
        exact halone j hji hj
      · rw [Function.update_of_ne hki] at hk
        exact h.apart j k hjk hj hk
  target := htarget

theorem Undisturbed.opened {number : Nat} (hstage : stages i = .planned) (hmay : TakesTurns writers before stages i)
    (hok : fs.openFile false (writers i).temporary = .ok (number, fs')) :
    Undisturbed writers before target (Function.update stages i (.opened number)) fs' := by
  obtain ⟨hchange, hnode, hcontent⟩ := Files.openFile_change h.wellFormed (by rw [h.place]; exact h.sole i) hok
  rw [h.place] at hchange hnode
  refine h.of_change hne hchange (by simp) (fun j _ hj => hmay hstage j hj) ?_ ?_
  · rintro _ _ ⟨⟩
    exact ⟨hnode, hcontent⟩
  · exact h.target_of_held (by simp [hstage]) (hchange.held _ (by simpa using (hne i).symm))

theorem Undisturbed.written {number : Nat} (hstage : stages i = .opened number) :
    Undisturbed writers before target (Function.update stages i (.written number))
      (fs.overwrite number (writers i).data) := by
  have hopen : (stages i).pending (writers i).data = some (number, []) := by
    rw [hstage]
    rfl
  obtain ⟨hnode, hcontent⟩ := h.pending i number [] hopen
  obtain ⟨hchange, hbytes⟩ := Files.setContent_change h.wellFormed hnode (h.sole i)
    ((writers i).data ++ (fs.content number).drop (writers i).data.length)
  rw [hcontent, List.drop_nil, List.append_nil] at hbytes
  refine h.of_change hne hchange (by simp) (h.alone (by simp [hopen])) ?_ ?_
  · rintro _ _ ⟨⟩
    refine ⟨hnode, ?_⟩
    rw [Files.overwrite, hcontent, List.drop_nil, List.append_nil]
    exact hbytes
  · exact h.target_of_held (by simp [hstage]) (hchange.held _ (by simpa using (hne i).symm))

theorem Undisturbed.renamed {number : Nat} (hstage : stages i = .written number)
    (hok : fs.rename (writers i).temporary target = .ok fs') :
    Undisturbed writers before target (Function.update stages i .renamed) fs' := by
  have hopen : (stages i).pending (writers i).data = some (number, (writers i).data) := by
    rw [hstage]
    rfl
  obtain ⟨hnode, hcontent⟩ := h.pending i number _ hopen
  obtain ⟨hchange, -, htarget⟩ := Files.rename_change h.wellFormed (by rw [h.place, h.place]; exact hne i)
    (by rw [h.place]; exact h.sole i) hok
  rw [h.place, h.place] at htarget hchange
  rw [Files.held_eq_file hnode, hcontent] at htarget
  exact h.of_change hne hchange (by simp) (h.alone (by simp [hopen])) nofun
    (.inr ⟨i, Function.update_self .., htarget⟩)

theorem Undisturbed.step (hsame : (writers i).target = target) (hmay : TakesTurns writers before stages i)
    (hok : (writers i).advance (stages i) fs = .ok (next, fs')) :
    Undisturbed writers before target (Function.update stages i next) fs' := by
  rcases advance_eq_ok hok with ⟨number, hstage, rfl, hopen⟩ | ⟨number, hstage, rfl, rfl⟩ |
    ⟨number, hstage, rfl, hrename⟩ | ⟨hstage, rfl, rfl⟩
  · exact h.opened hne hstage hmay hopen
  · exact h.written hne hstage
  · rw [hsame] at hrename
    exact h.renamed hne hstage hrename
  · rw [← hstage, Function.update_eq_self]
    exact h

end Step

/-- **Writers who take turns replace their target as a whole.** -/
theorem held_target_of_turns (hwell : before.WellFormed) (hsame : ∀ i, (writers i).target = target)
    (hne : ∀ i, before.place (writers i).temporary ≠ before.place target)
    (hsole : ∀ i, before.Sole (before.place (writers i).temporary))
    (h : Interleaved writers before (TakesTurns writers before) stages fs) :
    fs.held (before.place target) = before.held (before.place target) ∨
      ∃ i, stages i = .renamed ∧ fs.held (before.place target) = .file (writers i).data := by
  have hundisturbed : Undisturbed writers before target stages fs := by
    induction h with
    | start => exact ⟨rfl, hwell, hsole, nofun, fun _ _ _ h => absurd rfl h, .inl rfl⟩
    | step _ hmay hok ih => exact ih.step hne (hsame _) hmay hok
  exact hundisturbed.target

/-! ## Two writers -/

/-- Two writers of the file x. -/
def rivals (first : Bool) : Replacement := toward (Path.ofString "x") (if first then [3] else [2, 2])

/-- The file x before the writers begin. -/
def stored : Files where
  here := ["work"]
  nodes := [(["work"], .directory), (["work", "x"], .file 0)]
  contents := [[1]]

/-- The file x and a temporary file that holds some bytes. -/
def halfway (bytes : Bytes) : Files where
  here := ["work"]
  nodes := [(["work", "x.tmp"], .file 1), (["work"], .directory), (["work", "x"], .file 0)]
  contents := [[1], bytes]

/-- The temporary file has become the file x. -/
def moved (bytes : Bytes) : Files where
  here := ["work"]
  nodes := [(["work", "x"], .file 1), (["work"], .directory)]
  contents := [[1], bytes]

theorem wellFormed_stored : stored.WellFormed where
  here := by decide
  numbers := fun q number h => by
    obtain ⟨-, rfl⟩ : q = ["work", "x"] ∧ number = 0 := by simpa [stored] using Files.mem_nodes h
    exact Nat.zero_lt_one

theorem rivals_open (first : Bool) : (rivals first).advance .planned stored = .ok (.opened 1, halfway []) := by
  cases first <;> with_unfolding_all rfl

theorem rivals_open_again (first : Bool) (bytes : Bytes) :
    (rivals first).advance .planned (halfway bytes) = .ok (.opened 1, halfway []) := by
  cases first <;> with_unfolding_all rfl

theorem rivals_write (first : Bool) (bytes : Bytes) :
    (rivals first).advance (.opened 1) (halfway bytes) =
      .ok (.written 1, halfway ((rivals first).data ++ bytes.drop (rivals first).data.length)) := rfl

theorem rivals_rename (first : Bool) (bytes : Bytes) :
    (rivals first).advance (.written 1) (halfway bytes) = .ok (.renamed, moved bytes) := by
  cases first <;> with_unfolding_all rfl

theorem held_target_of_turns_rivals :
    ∃ stages, Interleaved rivals stored (TakesTurns rivals stored) stages (moved [3]) ∧ stages true = .renamed ∧
      ((moved [3]).held (stored.place (Path.ofString "x")) = stored.held (stored.place (Path.ofString "x")) ∨
        ∃ i, stages i = .renamed ∧ (moved [3]).held (stored.place (Path.ofString "x")) = .file (rivals i).data) := by
  have hstart : Interleaved rivals stored (TakesTurns rivals stored) (fun _ => .planned) stored := .start
  have hopened := hstart.step (fun _ _ hopen => absurd rfl hopen) (rivals_open true)
  have hwritten := hopened.step (i := true) nofun (rivals_write true [])
  have hrenamed := hwritten.step (i := true) nofun (rivals_rename true [3])
  exact ⟨_, hrenamed, rfl, held_target_of_turns wellFormed_stored (fun _ => rfl)
    (fun i => by cases i <;> decide) (fun i p number _ hnode => by cases i <;> cases hnode) hrenamed⟩

/-- **Writers who do not take turns tear their target.** The second one may
empty the file that the first one is about to rename, and the bytes of both may
go into one file. -/
theorem target_torn :
    (∃ stages fs, Interleaved rivals stored (fun _ _ => True) stages fs ∧
      fs.held (stored.place (Path.ofString "x")) = .file []) ∧
    ∃ stages fs, Interleaved rivals stored (fun _ _ => True) stages fs ∧
      fs.held (stored.place (Path.ofString "x")) = .file [3, 2] := by
  have hstart : Interleaved rivals stored (fun _ _ => True) (fun _ => .planned) stored := .start
  have hfirst := hstart.step trivial (rivals_open true)
  constructor
  · have hwritten := hfirst.step (i := true) trivial (rivals_write true [])
    have hsecond := hwritten.step (i := false) trivial (rivals_open_again false [3])
    have hrenamed := hsecond.step (i := true) trivial (rivals_rename true [])
    exact ⟨_, _, hrenamed, by rfl⟩
  · have hsecond := hfirst.step (i := false) trivial (rivals_open_again false [])
    have hlonger := hsecond.step (i := false) trivial (rivals_write false [])
    have hshorter := hlonger.step (i := true) trivial (rivals_write true [2, 2])
    have hrenamed := hshorter.step (i := true) trivial (rivals_rename true [3, 2])
    exact ⟨_, _, hrenamed, by rfl⟩

end SketchTurtle.Replacement
