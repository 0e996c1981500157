/-
What stands at the places of a file system, and what operations change there.

A path that is followed leads to the place that its names spell, a double point
taking back the name before it (`locate_eq_place`). So every operation that
succeeds changes what its path names (`makeDirectory_eq_ok`, `openFile_eq_ok`,
`rename_eq_ok`, `unlink_eq_ok`), and `held` says what a reader finds at each
place afterwards.
-/
import SketchTurtle.Files.Tree

namespace SketchTurtle.Files

variable {fs fs' : Files} {path : Path}

/-! ## Places -/

theorem lookup_filter_ne (nodes : List (Location × Node)) {place q : Location} (h : q ≠ place) :
    (nodes.filter (·.1 != place)).lookup q = nodes.lookup q := by
  induction nodes with
  | nil => rfl
  | cons entry nodes ih =>
    obtain ⟨p, node⟩ := entry
    by_cases hp : p = place
    · have hq : (q == p) = false := by simpa [hp] using h
      rw [List.filter_cons_of_neg (by simp [hp]), List.lookup_cons, hq]
      exact ih
    · rw [List.filter_cons_of_pos (by simpa using hp), List.lookup_cons, List.lookup_cons, ih]

theorem lookup_filter_self (nodes : List (Location × Node)) (place : Location) :
    (nodes.filter (·.1 != place)).lookup place = none := by
  rw [List.lookup_eq_none_iff]
  intro entry hentry
  have hne := (List.mem_filter.1 hentry).2
  rw [bne_iff_ne] at hne
  exact bne_iff_ne.2 hne.symm

theorem node?_put {place : Location} (h : place ≠ []) (node : Node) (q : Location) :
    (fs.put place node).node? q = if q = place then some node else fs.node? q := by
  by_cases hq : q = place
  · subst hq
    have hne : q.isEmpty = false := by simpa using h
    simp [node?, put, hne]
  · have hbeq : (q == place) = false := by simpa using hq
    simp [node?, put, hq, hbeq, List.lookup_cons, lookup_filter_ne fs.nodes hq]

theorem node?_remove {place : Location} (h : place ≠ []) (q : Location) :
    (fs.remove place).node? q = if q = place then none else fs.node? q := by
  by_cases hq : q = place
  · subst hq
    have hne : q.isEmpty = false := by simpa using h
    simp [node?, remove, hne, lookup_filter_self]
  · simp [node?, remove, hq, lookup_filter_ne fs.nodes hq]

@[simp]
theorem length_setContent (number : Nat) (bytes : Bytes) :
    (fs.setContent number bytes).contents.length = fs.contents.length :=
  List.length_set

theorem content_setContent_self {number : Nat} (h : number < fs.contents.length) (bytes : Bytes) :
    (fs.setContent number bytes).content number = bytes := by
  simp [content, setContent, h]

theorem content_setContent_ne {number other : Nat} (h : other ≠ number) (bytes : Bytes) :
    (fs.setContent number bytes).content other = fs.content other := by
  simp [content, setContent, h.symm]

/-! ## Following paths -/

/-- The place of a path: its names, a double point taking back the one before it. -/
def place (fs : Files) (path : Path) : Location := (path.absolute fs.here).names

theorem place_congr (hhere : fs'.here = fs.here) (path : Path) : fs'.place path = fs.place path := by
  rw [place, place, hhere]

/-- One name of a path, as places are spelled. -/
def follow (place : Location) (name : String) : Location :=
  if name == ".." then place.dropLast else place ++ [name]

theorem collapse_eq (names : List String) : Path.collapse names = names.foldl follow [] := rfl

theorem foldl_follow {names : List String} (h : ".." ∉ names) (start : Location) :
    names.foldl follow start = start ++ names := by
  induction names generalizing start with
  | nil => simp
  | cons name names ih =>
    rw [List.mem_cons, not_or] at h
    have hname : (name == "..") = false := beq_eq_false_iff_ne.2 (Ne.symm h.1)
    rw [List.foldl_cons, ih h.2, follow, hname]
    simp

theorem collapse_eq_self {names : List String} (h : ".." ∉ names) : Path.collapse names = names := by
  rw [collapse_eq, foldl_follow h, List.nil_append]

theorem place_eq (h : ".." ∉ fs.here) (path : Path) :
    fs.place path = path.names.foldl follow (if path.root == "" then fs.here else []) := by
  simp only [place, Path.absolute]
  split
  · rw [collapse_eq, List.foldl_append, ← collapse_eq, collapse_eq_self h]
  · rw [collapse_eq]

theorem place_concat (h : ".." ∉ fs.here) (root : String) (names : List String) (name : String) :
    fs.place ⟨root, names ++ [name]⟩ = follow (fs.place ⟨root, names⟩) name := by
  rw [place_eq h, place_eq h, List.foldl_append]
  rfl

theorem enter_eq_ok {start next : Location} {name : String} (h : fs.enter start name = .ok next) :
    next = follow start name ∧ fs.node? start = some .directory := by
  unfold enter at h
  split at h
  · next hstart =>
    refine ⟨?_, hstart⟩
    unfold follow
    split at h
    · next hname =>
      cases h
      rw [if_pos hname]
    · next hname =>
      split at h
      · cases h
      · cases h
        rw [if_neg hname]
  · cases h
  · cases h

theorem walk_eq_ok {start last : Location} {names : List String} (h : fs.walk start names = .ok last) :
    last = names.foldl follow start := by
  induction names generalizing start with
  | nil =>
    cases h
    rfl
  | cons name names ih =>
    unfold walk at h
    split at h
    · cases h
    · next next hnext =>
      rw [List.foldl_cons, ← (enter_eq_ok hnext).1]
      exact ih h

/-- Names are followed in the same way when no directory is gone. -/
theorem walk_mono (hkept : ∀ p, fs.node? p = some .directory → fs'.node? p = some .directory) {start last : Location}
    {names : List String} (h : fs.walk start names = .ok last) : fs'.walk start names = .ok last := by
  induction names generalizing start with
  | nil => exact h
  | cons name names ih =>
    unfold walk at h ⊢
    cases hnext : fs.enter start name with
    | error e =>
      rw [hnext] at h
      cases h
    | ok next =>
      have hdirectory := (enter_eq_ok hnext).2
      have hsame : fs'.enter start name = .ok next := by
        rw [← hnext]
        simp only [enter, hdirectory, hkept start hdirectory]
      rw [hnext] at h
      rw [hsame]
      exact ih h

theorem contains_toList (s : String) (c : Char) : s.toList.contains c = s.contains c := by
  rw [String.contains_char_eq, List.contains_eq_mem]

/-- A path is followed if it can be asked for, and its names can be followed. -/
theorem locate_eq_ok {q : Location} :
    fs.locate path = .ok q ↔ ¬ path.text.contains '\x00' = true ∧ ¬ maxPath ≤ path.text.utf8ByteSize ∧
      fs.walk (if path.root == "" then fs.here else []) path.names = .ok q := by
  unfold locate
  rw [contains_toList]
  split
  · next hnull => exact ⟨nofun, fun h => absurd hnull h.1⟩
  · next hnull =>
    split
    · next hlong => exact ⟨nofun, fun h => absurd hlong h.2.1⟩
    · next hlong =>
      cases fs.walk (if path.root == "" then fs.here else []) path.names with
      | error e => exact ⟨nofun, fun h => nomatch h.2.2⟩
      | ok last =>
        constructor
        · rintro ⟨⟩
          exact ⟨hnull, hlong, rfl⟩
        · rintro ⟨-, -, ⟨⟩⟩
          rfl

/-- **A path that is followed leads to its place.** -/
theorem locate_eq_place (hhere : ".." ∉ fs.here) {q : Location} (h : fs.locate path = .ok q) :
    q = fs.place path := by
  rw [place_eq hhere]
  exact walk_eq_ok (locate_eq_ok.1 h).2.2

theorem locate_mono (hhere : fs'.here = fs.here)
    (hkept : ∀ p, fs.node? p = some .directory → fs'.node? p = some .directory) {q : Location}
    (h : fs.locate path = .ok q) : fs'.locate path = .ok q := by
  obtain ⟨hnull, hlong, hwalk⟩ := locate_eq_ok.1 h
  refine locate_eq_ok.2 ⟨hnull, hlong, ?_⟩
  rw [hhere]
  exact walk_mono hkept hwalk

/-! ## What stands at a place -/

/-- What a reader finds at a place. -/
inductive Held where
  | nothing
  | directory
  | file (bytes : Bytes)
  deriving DecidableEq, Repr

/-- What is found at a place. -/
def held (fs : Files) (q : Location) : Held :=
  match fs.node? q with
  | none => .nothing
  | some .directory => .directory
  | some (.file number) => .file (fs.content number)

/-! ## Operations that succeed -/

theorem makeDirectory_eq_ok :
    fs.makeDirectory path = .ok fs' ↔
      ∃ q, fs.locate path = .ok q ∧ fs.node? q = none ∧ fs' = fs.put q .directory := by
  simp only [makeDirectory, bind, Except.bind]
  cases fs.locate path with
  | error fault => simp
  | ok q =>
    cases hq : fs.node? q with
    | none => simp [pure, Except.pure, hq, eq_comm]
    | some node => simp [hq]

/-- The tree with an empty file made at a place. -/
def withFile (fs : Files) (q : Location) : Files :=
  { fs.put q (.file fs.contents.length) with contents := fs.contents ++ [[]] }

/-- Opening empties the file of that name, if it may be opened, or makes a new one. -/
theorem openFile_eq_ok {number : Nat} :
    fs.openFile false path = .ok (number, fs') ↔
      ∃ q, fs.locate path = .ok q ∧
        ((fs.node? q = some (.file number) ∧ fs.refusal? .writing number = none) ∧ fs' = fs.setContent number [] ∨
          fs.node? q = none ∧ number = fs.contents.length ∧ fs' = fs.withFile q) := by
  simp only [openFile, bind, Except.bind]
  cases fs.locate path with
  | error fault => simp
  | ok q =>
    rcases hq : fs.node? q with _ | _ | n
    · simp only [pure, Except.pure, hq, Except.ok.injEq, Prod.mk.injEq, reduceCtorEq, false_and, true_and, false_or,
        exists_eq_left']
      constructor
      · rintro ⟨rfl, rfl⟩
        exact ⟨rfl, rfl⟩
      · rintro ⟨rfl, rfl⟩
        exact ⟨rfl, rfl⟩
    · simp [hq]
    · simp only [hq, Except.ok.injEq, Option.some.injEq, Node.file.injEq, reduceCtorEq, false_and, or_false,
        exists_eq_left']
      cases hrefusal : fs.refusal? .writing n with
      | some errno =>
        refine iff_of_false nofun ?_
        rintro ⟨⟨rfl, hopen⟩, -⟩
        cases hrefusal.symm.trans hopen
      | none =>
        simp only [pure, Except.pure, Except.ok.injEq, Prod.mk.injEq]
        constructor
        · rintro ⟨rfl, rfl⟩
          exact ⟨⟨rfl, hrefusal⟩, rfl⟩
        · rintro ⟨⟨rfl, -⟩, rfl⟩
          exact ⟨rfl, rfl⟩

theorem unlink_eq_ok :
    fs.unlink path = .ok fs' ↔
      ∃ q number, fs.locate path = .ok q ∧ fs.node? q = some (.file number) ∧ fs' = fs.remove q := by
  simp only [unlink, bind, Except.bind]
  cases fs.locate path with
  | error fault => simp
  | ok q => rcases hq : fs.node? q with _ | _ | n <;> simp [pure, Except.pure, hq, eq_comm]

/-- Only files are renamed, and only onto nothing or another file. -/
theorem rename_eq_ok {source target : Path} (h : fs.rename source target = .ok fs') :
    ∃ old new number, fs.locate source = .ok old ∧ fs.locate target = .ok new ∧
      fs.node? old = some (.file number) ∧ fs.node? new ≠ some .directory ∧
      fs' = if old = new then fs else (fs.remove old).put new (.file number) := by
  simp only [rename] at h
  split at h
  · cases h
  · cases h
  · next old new hold hnew =>
    refine ⟨old, new, ?_⟩
    split at h
    · cases h
    · split at h
      · cases h
      · cases h
      · cases h
      · next node hfile hnode hne =>
        cases node with
        | directory => exact absurd rfl hfile
        | file number => exact ⟨number, hold, hnew, hnode, hne, (Except.ok.inj h).symm⟩

theorem exists?_of_node? {q : Location} {node : Node} (hq : fs.locate path = .ok q) (hnode : fs.node? q = some node) :
    fs.exists? path = .ok true := by
  have hfind : fs.find path = .ok node := by
    rw [find, hq]
    simp only [bind, Except.bind, hnode]
    rfl
  rw [exists?, hfind]

/-! ## What operations change -/

/-- The working directory is spelled without double points, and every file
that has a name has contents. -/
structure WellFormed (fs : Files) : Prop where
  here : ".." ∉ fs.here
  numbers : ∀ q number, fs.node? q = some (.file number) → number < fs.contents.length

theorem mem_nodes {q : Location} {number : Nat} (h : fs.node? q = some (.file number)) :
    (q, .file number) ∈ fs.nodes := by
  unfold node? at h
  split at h
  · cases h
  · obtain ⟨before, after, hnodes, -⟩ := List.lookup_eq_some_iff.1 h
    simp [hnodes]

theorem wellFormed_empty : empty.WellFormed where
  here := by decide
  numbers := fun q number h => by simpa [empty] using mem_nodes h

/-- The file at a place, if there is one, has no other name. -/
def Sole (fs : Files) (q : Location) : Prop :=
  ∀ p number, fs.node? p = some (.file number) → fs.node? q = some (.file number) → p = q

theorem held_congr {p : Location} (hnode : fs'.node? p = fs.node? p)
    (hcontent : ∀ number, fs.node? p = some (.file number) → fs'.content number = fs.content number) :
    fs'.held p = fs.held p := by
  simp only [held, hnode]
  split
  · rfl
  · rfl
  · next number h => rw [hcontent number h]

theorem held_remove {p q : Location} (hq : q ≠ []) (hp : p ≠ q) : (fs.remove q).held p = fs.held p :=
  held_congr (by rw [node?_remove hq, if_neg hp]) fun _ _ => rfl

theorem held_eq_directory {p : Location} : fs.held p = .directory ↔ fs.node? p = some .directory := by
  simp only [held]
  split <;> simp [*]

theorem held_eq_nothing {p : Location} : fs.held p = .nothing ↔ fs.node? p = none := by
  simp only [held]
  split <;> simp [*]

theorem held_eq_file {p : Location} {number : Nat} (h : fs.node? p = some (.file number)) :
    fs.held p = .file (fs.content number) := by
  simp only [held, h]

/-- The files change at these places only, and no file is given a second name. -/
structure Change (fs fs' : Files) (places : List Location) : Prop where
  here : fs'.here = fs.here
  wellFormed : fs'.WellFormed
  node : ∀ p, p ∉ places → fs'.node? p = fs.node? p
  held : ∀ p, p ∉ places → fs'.held p = fs.held p
  sole : ∀ q, fs.Sole q → fs'.Sole q

/-- An open file elsewhere is not touched. -/
theorem Change.file {places : List Location} (h : Change fs fs' places) {q : Location} {number : Nat}
    (hq : q ∉ places) (hnode : fs.node? q = some (.file number)) :
    fs'.node? q = some (.file number) ∧ fs'.content number = fs.content number := by
  have hnode' := (h.node q hq).trans hnode
  have hheld := h.held q hq
  rw [held_eq_file hnode, held_eq_file hnode'] at hheld
  exact ⟨hnode', Held.file.inj hheld⟩

theorem makeDirectory_change (hwell : fs.WellFormed) (hok : fs.makeDirectory path = .ok fs') :
    Change fs fs' [fs.place path] ∧ fs.held (fs.place path) = .nothing ∧ fs'.held (fs.place path) = .directory := by
  obtain ⟨q, hq, hnone, rfl⟩ := makeDirectory_eq_ok.1 hok
  rw [← locate_eq_place hwell.here hq]
  have hne : q ≠ [] := by
    rintro rfl
    cases hnone
  have hnode (p : Location) : (fs.put q .directory).node? p = if p = q then some .directory else fs.node? p :=
    node?_put hne _ p
  have hfile {p number} (h : (fs.put q .directory).node? p = some (.file number)) :
      fs.node? p = some (.file number) := by
    rw [hnode] at h
    split at h
    · cases h
    · exact h
  have hothers (p : Location) (hp : p ∉ [q]) : (fs.put q .directory).node? p = fs.node? p := by
    rw [hnode, if_neg (by simpa using hp)]
  exact ⟨{
    here := rfl
    wellFormed := ⟨hwell.here, fun p number h => hwell.numbers p number (hfile h)⟩
    node := hothers
    held := fun p hp => held_congr (hothers p hp) fun _ _ => rfl
    sole := fun r hsole p number hp hr => hsole p number (hfile hp) (hfile hr) },
    held_eq_nothing.2 hnone, by rw [held_eq_directory, hnode, if_pos rfl]⟩

theorem setContent_change (hwell : fs.WellFormed) {q : Location} {number : Nat}
    (hq : fs.node? q = some (.file number)) (hsole : fs.Sole q) (bytes : Bytes) :
    Change fs (fs.setContent number bytes) [q] ∧ (fs.setContent number bytes).content number = bytes := by
  refine ⟨⟨rfl, ⟨hwell.here, ?_⟩, fun _ _ => rfl, ?_, fun _ h => h⟩, ?_⟩
  · intro p other hp
    rw [length_setContent]
    exact hwell.numbers p other hp
  · intro p hp
    refine held_congr rfl fun other hother => content_setContent_ne ?_ bytes
    rintro rfl
    exact hp (List.mem_singleton.2 (hsole p other hother hq))
  · exact content_setContent_self (hwell.numbers q number hq) bytes

theorem node?_withFile {q : Location} (hq : q ≠ []) (p : Location) :
    (fs.withFile q).node? p = if p = q then some (.file fs.contents.length) else fs.node? p :=
  node?_put hq _ p

/-- A file that is made has a number of its own. -/
theorem node?_withFile_eq_file (hwell : fs.WellFormed) {q : Location} (hq : q ≠ []) {p : Location} {number : Nat}
    (h : (fs.withFile q).node? p = some (.file number)) :
    p = q ∧ number = fs.contents.length ∨ number < fs.contents.length ∧ fs.node? p = some (.file number) := by
  rw [node?_withFile hq] at h
  split at h
  · next hp =>
    cases h
    exact .inl ⟨hp, rfl⟩
  · exact .inr ⟨hwell.numbers p number h, h⟩

theorem withFile_change (hwell : fs.WellFormed) {q : Location} (hne : q ≠ []) :
    Change fs (fs.withFile q) [q] := by
  have hothers (p : Location) (hp : p ∉ [q]) : (fs.withFile q).node? p = fs.node? p := by
    rw [node?_withFile hne, if_neg (by simpa using hp)]
  refine ⟨rfl, ⟨hwell.here, ?_⟩, hothers, ?_, ?_⟩
  · intro p number hp
    rw [withFile, List.length_append, List.length_singleton]
    rcases node?_withFile_eq_file hwell hne hp with ⟨-, rfl⟩ | ⟨hlt, -⟩
    · exact Nat.lt_succ_self _
    · exact Nat.lt_succ_of_lt hlt
  · intro p hp
    refine held_congr (hothers p hp) fun number hnumber => ?_
    simp [content, withFile, List.getElem?_append_left (hwell.numbers p number hnumber)]
  · intro r hsole p number hp hr
    rcases node?_withFile_eq_file hwell hne hp with ⟨hpq, rfl⟩ | ⟨hpold, hpfile⟩ <;>
      rcases node?_withFile_eq_file hwell hne hr with ⟨hrq, hnumber⟩ | ⟨hrold, hrfile⟩
    · rw [hpq, hrq]
    · exact absurd hrold (Nat.lt_irrefl _)
    · exact absurd hpold (hnumber ▸ Nat.lt_irrefl _)
    · exact hsole p number hpfile hrfile

/-- Opening leaves an empty file. -/
theorem openFile_change (hwell : fs.WellFormed) (hsole : fs.Sole (fs.place path)) {number : Nat}
    (hok : fs.openFile false path = .ok (number, fs')) :
    Change fs fs' [fs.place path] ∧ fs'.node? (fs.place path) = some (.file number) ∧ fs'.content number = [] := by
  obtain ⟨q, hq, hcases⟩ := openFile_eq_ok.1 hok
  rw [← locate_eq_place hwell.here hq] at hsole ⊢
  rcases hcases with ⟨⟨hfile, -⟩, rfl⟩ | ⟨hnone, rfl, rfl⟩
  · obtain ⟨hchange, hcontent⟩ := setContent_change hwell hfile hsole []
    exact ⟨hchange, hfile, hcontent⟩
  · have hne : q ≠ [] := by
      rintro rfl
      cases hnone
    exact ⟨withFile_change hwell hne, by rw [node?_withFile hne, if_pos rfl], by simp [content, withFile]⟩

theorem node?_move {old new : Location} (hold : old ≠ []) (hnew : new ≠ []) (number : Nat) (p : Location) :
    ((fs.remove old).put new (.file number)).node? p =
      if p = new then some (.file number) else if p = old then none else fs.node? p := by
  rw [node?_put hnew, node?_remove hold]

/-- A file that is moved keeps its number, and no other file does. -/
theorem node?_move_eq_file {old new : Location} (hold : old ≠ []) (hnew : new ≠ []) {number n : Nat} {p : Location}
    (h : ((fs.remove old).put new (.file number)).node? p = some (.file n)) :
    p = new ∧ n = number ∨ p ≠ old ∧ fs.node? p = some (.file n) := by
  rw [node?_move hold hnew] at h
  split at h
  · next hp =>
    cases h
    exact .inl ⟨hp, rfl⟩
  · split at h
    · cases h
    · next hp => exact .inr ⟨hp, h⟩

theorem move_change (hwell : fs.WellFormed) {old new : Location} {number : Nat} (hold : old ≠ []) (hnew : new ≠ [])
    (hfile : fs.node? old = some (.file number)) (hsole : fs.Sole old) :
    Change fs ((fs.remove old).put new (.file number)) [old, new] := by
  have hothers (p : Location) (hp : p ∉ [old, new]) :
      ((fs.remove old).put new (.file number)).node? p = fs.node? p := by
    rw [List.mem_cons, List.mem_singleton, not_or] at hp
    rw [node?_move hold hnew, if_neg hp.2, if_neg hp.1]
  refine ⟨rfl, ⟨hwell.here, ?_⟩, hothers, fun p hp => held_congr (hothers p hp) fun _ _ => rfl, ?_⟩
  · intro p n hp
    rcases node?_move_eq_file hold hnew hp with ⟨-, rfl⟩ | ⟨-, hp⟩
    · exact hwell.numbers old n hfile
    · exact hwell.numbers p n hp
  · intro q hq p n hp hn
    rcases node?_move_eq_file hold hnew hp with ⟨hpnew, rfl⟩ | ⟨hpold, hpfile⟩ <;>
      rcases node?_move_eq_file hold hnew hn with ⟨hqnew, hnumber⟩ | ⟨hqold, hqfile⟩
    · rw [hpnew, hqnew]
    · exact absurd (hq old n hfile hqfile).symm hqold
    · subst hnumber
      exact absurd (hsole p n hpfile hfile) hpold
    · exact hq p n hpfile hqfile

/-- Renaming gives a file its new place, and nothing stays at the old one. -/
theorem rename_change (hwell : fs.WellFormed) {source target : Path} (hne : fs.place source ≠ fs.place target)
    (hsole : fs.Sole (fs.place source)) (hok : fs.rename source target = .ok fs') :
    Change fs fs' [fs.place source, fs.place target] ∧ fs'.held (fs.place source) = .nothing ∧
      fs'.held (fs.place target) = fs.held (fs.place source) := by
  obtain ⟨old, new, number, hold, hnew, hfile, hdirectory, rfl⟩ := rename_eq_ok hok
  rw [← locate_eq_place hwell.here hold] at hne hsole ⊢
  rw [← locate_eq_place hwell.here hnew] at hne ⊢
  have holdne : old ≠ [] := by
    rintro rfl
    cases hfile
  have hnewne : new ≠ [] := by
    rintro rfl
    exact hdirectory rfl
  rw [if_neg hne]
  refine ⟨move_change hwell holdne hnewne hfile hsole, ?_, ?_⟩
  · rw [held_eq_nothing, node?_move holdne hnewne, if_neg hne, if_pos rfl]
  · have hmoved : ((fs.remove old).put new (.file number)).node? new = some (.file number) := by
      rw [node?_move holdne hnewne, if_pos rfl]
    rw [held_eq_file hmoved, held_eq_file hfile]
    rfl

theorem unlink_change (hwell : fs.WellFormed) (hok : fs.unlink path = .ok fs') :
    Change fs fs' [fs.place path] ∧ fs'.held (fs.place path) = .nothing := by
  obtain ⟨q, number, hq, hfile, rfl⟩ := unlink_eq_ok.1 hok
  rw [← locate_eq_place hwell.here hq]
  have hne : q ≠ [] := by
    rintro rfl
    cases hfile
  have hnode (p : Location) : (fs.remove q).node? p = if p = q then none else fs.node? p := node?_remove hne p
  have hfile {p n} (h : (fs.remove q).node? p = some (.file n)) : fs.node? p = some (.file n) := by
    rw [hnode] at h
    split at h
    · cases h
    · exact h
  have hothers (p : Location) (hp : p ∉ [q]) : (fs.remove q).node? p = fs.node? p := by
    rw [hnode, if_neg (by simpa using hp)]
  exact ⟨{
    here := rfl
    wellFormed := ⟨hwell.here, fun p number h => hwell.numbers p number (hfile h)⟩
    node := hothers
    held := fun p hp => held_congr (hothers p hp) fun _ _ => rfl
    sole := fun r hsole p number hp hr => hsole p number (hfile hp) (hfile hr) },
    by rw [held_eq_nothing, hnode, if_pos rfl]⟩

end SketchTurtle.Files
