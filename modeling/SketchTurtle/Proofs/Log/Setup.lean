/-
Repeated setups of the log. A setup that is completed leaves the sinks it tells
of, and before them what it did not drop (`Call.sinks_run`). It drops nothing as
long as no setup was completed: then what failed setups left is still there, a
sink for the terminal for each that had got so far (`History.invariant`). So
after any past, in which the log may have been used as well, a completed setup
leaves just its own sinks if, and only if, one was completed before it or the
failed ones left none (`History.sinks_setup`).
-/
import SketchTurtle.Log.System

namespace SketchTurtle.Log

/-- A call of the setup: what is asked for, whether the error stream is a
terminal, and what the log writes to. -/
structure Call where
  request : Setup
  isTerminal : Bool
  outlet : Outlet

/-- What comes of a call. -/
abbrev Call.Result := Except Setup.Fault (List Sink)

/-- Makes a call. -/
def Call.run (c : Call) (s : System) : Call.Result × System × Outlet := s.setup c.isTerminal c.request c.outlet

/-- The sinks that a call has made when it comes to the log file. -/
def Call.leftover (c : Call) : List Sink :=
  match Level.ofName c.request.level with
  | .ok _ => c.request.terminalSinks c.isTerminal
  | .error _ => []

/-- The sinks that a setup does not drop. -/
def System.kept (s : System) : List Sink := if s.configured then [] else s.sinks

/-- What is used of a log between setups. -/
inductive Used : System → System → Prop where
  | tell (s : System) (e : Event) (o : Outlet) : Used s (s.tell e o).1
  | tellUncaught (s : System) (stamp : Stamp) (f : Failure) (o : Outlet) : Used s (s.tellUncaught stamp f o).1
  | warn (s : System) (stamp : Stamp) (w : System.Warning) (o : Outlet) : Used s (s.warn stamp w o).1
  | setLevel {s s' : System} {name : String} (h : s.setLevel name = .ok s') : Used s s'
  | push (s : System) (fields : Context) : Used s (s.push fields)
  | pop (s : System) (names : Option (List String)) : Used s (s.pop names)
  | shutdown (s : System) : Used s s.shutdown

/-- The calls that were made, with what came of them, and the log after them. -/
inductive History : List (Call × Call.Result) → System → Prop where
  | start : History [] .initial
  | setup {past : List (Call × Call.Result)} {s : System} (h : History past s) (c : Call) :
      History (past ++ [(c, (c.run s).1)]) (c.run s).2.1
  | use {past : List (Call × Call.Result)} {s s' : System} (h : History past s) (hused : Used s s') :
      History past s'

/-! ## One setup -/

/-- A setup that is completed leaves what it did not drop and what it tells of;
one that fails leaves the sinks that it had made. -/
theorem Call.run_cases (c : Call) (s : System) :
    (∃ told, (c.run s).1 = .ok told ∧ (c.run s).2.1.configured = true ∧
        (c.run s).2.1.sinks = s.kept ++ told) ∨
      ∃ fault, (c.run s).1 = .error fault ∧ (c.run s).2.1.configured = s.configured ∧
        (c.run s).2.1.sinks = s.kept ++ c.leftover := by
  -- what is dropped first is the same in all cases, so it is named before they are told apart
  have hkept : (if s.configured then { s with sinks := [] } else s).sinks = s.kept := by
    rw [System.kept]
    split <;> rfl
  have hconfigured : (if s.configured then { s with sinks := [] } else s).configured = s.configured := by
    split <;> rfl
  unfold run System.setup leftover
  generalize (if s.configured then { s with sinks := [] } else s) = s' at hkept hconfigured
  cases Level.ofName c.request.level with
  | error fault => exact .inr ⟨_, rfl, hconfigured, by simp [hkept]⟩
  | ok level =>
    rcases hfile : c.request.fileSinks c.outlet.files with ⟨fault | sinks, files⟩
    · exact .inr ⟨fault, rfl, hconfigured, by simp [hkept]⟩
    · exact .inl ⟨c.request.terminalSinks c.isTerminal ++ sinks, rfl, rfl, by simp [hkept]⟩

theorem Call.sinks_run {c : Call} {s : System} {told : List Sink} (hrun : (c.run s).1 = .ok told) :
    (c.run s).2.1.sinks = s.kept ++ told := by
  obtain ⟨told', hresult, -, hsinks⟩ | ⟨fault, hresult, -⟩ := c.run_cases s
  · cases hresult.symm.trans hrun
    exact hsinks
  · cases hresult.symm.trans hrun

/-- A setup without a log file succeeds at any level that there is, and leaves
what the log writes to as it is. -/
theorem System.setup_without_file {request : Setup} {level : Level} (hlevel : Level.ofName request.level = .ok level)
    (hfile : request.file.filter (· != "") = none) (s : System) (isTerminal : Bool) (o : Outlet) :
    (s.setup isTerminal request o).1 = .ok (request.terminalSinks isTerminal) ∧
      (s.setup isTerminal request o).2.2 = o := by
  simp [setup, hlevel, Setup.fileSinks, hfile]

/-- A setup with a log file fails if the file is to be rotated in a way that
there is none of: when that is found out, the directory above it is there. -/
theorem Setup.fileSinks_of_rotationOf {request : Setup} {name : String} {fault : Fault}
    (hfile : request.file.filter (· != "") = some name) (hmode : rotationOf request.rotation = .error fault)
    (fs : Files) : ∃ fault, (request.fileSinks fs).1 = .error fault := by
  simp only [fileSinks, openLog, hfile, hmode]
  rcases fs.makeDirectories (Path.ofString name).parent with ⟨fault' | -, fs'⟩
  · exact ⟨.file fault', rfl⟩
  · exact ⟨fault, rfl⟩

theorem Call.run_of_rotationOf {c : Call} {name : String} {fault : Setup.Fault}
    (hfile : c.request.file.filter (· != "") = some name)
    (hmode : Setup.rotationOf c.request.rotation = .error fault) (s : System) :
    ∃ fault, (c.run s).1 = .error fault := by
  obtain ⟨fault', hsinks⟩ := Setup.fileSinks_of_rotationOf hfile hmode c.outlet.files
  unfold run System.setup
  cases Level.ofName c.request.level with
  | error fault => exact ⟨.level fault, rfl⟩
  | ok level =>
    rcases hopened : c.request.fileSinks c.outlet.files with ⟨result, files⟩
    obtain rfl : result = .error fault' := by rw [← hsinks, hopened]
    exact ⟨fault', rfl⟩

/-! ## Between setups -/

/-- Whether a sink is the terminal. -/
def Sink.IsTerminal : Sink → Prop
  | .terminal _ => True
  | .file _ => False

theorem Setup.isTerminal_of_mem_terminalSinks {request : Setup} {isTerminal : Bool} {sink : Sink}
    (h : sink ∈ request.terminalSinks isTerminal) : sink.IsTerminal := by
  unfold terminalSinks at h
  split at h
  · rw [List.mem_singleton] at h
    subst h
    trivial
  · cases h

theorem Call.isTerminal_of_mem_leftover {c : Call} {sink : Sink} (h : sink ∈ c.leftover) : sink.IsTerminal := by
  unfold leftover at h
  split at h
  · exact Setup.isTerminal_of_mem_terminalSinks h
  · cases h

theorem Sink.tellAll_fst (context : Context) (e : Event) :
    ∀ (sinks : List Sink) (o : Outlet), (∀ sink ∈ sinks, sink.IsTerminal) →
      (tellAll context e sinks o).1 = sinks
  | [], _, _ => rfl
  | .terminal style :: sinks, _, h =>
    congrArg (Sink.terminal style :: ·) (tellAll_fst context e sinks _ fun sink hmem => h sink (.tail _ hmem))
  | .file f :: _, _, h => (h (.file f) (.head _)).elim

theorem Sink.tellAll_files (context : Context) (e : Event) :
    ∀ (sinks : List Sink) (o : Outlet), (∀ sink ∈ sinks, sink.IsTerminal) →
      (tellAll context e sinks o).2.files = o.files
  | [], _, _ => rfl
  | .terminal style :: sinks, o, h =>
    tellAll_files context e sinks (o.print (style.line context e ++ "\n")) fun sink hmem => h sink (.tail _ hmem)
  | .file f :: _, _, h => (h (.file f) (.head _)).elim

theorem System.tell_files {s : System} (h : ∀ sink ∈ s.sinks, sink.IsTerminal) (e : Event) (o : Outlet) :
    (s.tell e o).2.files = o.files := by
  unfold tell
  split
  · rfl
  · split
    · split <;> rfl
    · exact Sink.tellAll_files s.context e s.sinks o h

/-- What stays as it is between setups: whether one was completed, and the sinks
if all of them are for the terminal. -/
structure System.Stays (s s' : System) : Prop where
  configured : s'.configured = s.configured
  sinks : (∀ sink ∈ s.sinks, sink.IsTerminal) → s'.sinks = s.sinks

theorem System.stays_tell (s : System) (e : Event) (o : Outlet) : s.Stays (s.tell e o).1 := by
  unfold tell
  split
  · exact ⟨rfl, fun _ => rfl⟩
  · split
    · exact ⟨rfl, fun _ => rfl⟩
    · exact ⟨rfl, Sink.tellAll_fst s.context e s.sinks o⟩

theorem Used.stays {s s' : System} (h : Used s s') : s.Stays s' := by
  cases h with
  | tell e o => exact s.stays_tell e o
  | tellUncaught stamp f o =>
    unfold System.tellUncaught
    split
    · exact ⟨rfl, fun _ => rfl⟩
    · exact s.stays_tell _ o
  | warn stamp w o =>
    unfold System.warn
    split
    · exact ⟨rfl, Sink.tellAll_fst s.context _ s.sinks o⟩
    · exact ⟨rfl, fun _ => rfl⟩
  | @setLevel _ name h =>
    unfold System.setLevel at h
    cases hname : Level.ofName name with
    | error fault => rw [hname] at h; cases h
    | ok level =>
      rw [hname] at h
      cases h
      exact ⟨rfl, fun _ => rfl⟩
  | push fields => exact ⟨rfl, fun _ => rfl⟩
  | pop names => cases names <;> exact ⟨rfl, fun _ => rfl⟩
  | shutdown =>
    refine ⟨rfl, fun hterminal => (List.map_congr_left fun sink hmem => ?_).trans s.sinks.map_id⟩
    cases sink with
    | terminal style => rfl
    | file f => exact (hterminal _ hmem).elim

/-- A setup without a log file leaves what the log writes to as it is, and only
sinks for the terminal if there were no others. -/
theorem System.setup_terminal {request : Setup} (hfile : request.file.filter (· != "") = none) (s : System)
    (h : ∀ sink ∈ s.sinks, sink.IsTerminal) (isTerminal : Bool) (o : Outlet) :
    (s.setup isTerminal request o).2.2 = o ∧
      ∀ sink ∈ (s.setup isTerminal request o).2.1.sinks, sink.IsTerminal := by
  have hkept : ∀ sink ∈ (if s.configured then { s with sinks := [] } else s).sinks, sink.IsTerminal := by
    split
    · nofun
    · exact h
  unfold setup
  generalize (if s.configured then { s with sinks := [] } else s) = s' at hkept
  cases Level.ofName request.level with
  | error fault => exact ⟨rfl, hkept⟩
  | ok level =>
    have hsinks : request.fileSinks o.files = (.ok [], o.files) := by rw [Setup.fileSinks, hfile]
    rw [hsinks]
    refine ⟨rfl, fun sink hmem => ?_⟩
    simp only [List.append_nil, List.mem_append] at hmem
    rcases hmem with hold | hnew
    · exact hkept sink hold
    · exact Setup.isTerminal_of_mem_terminalSinks hnew

/-! ## Any past -/

/-- Whether a setup was completed. -/
def completed (past : List (Call × Call.Result)) : Bool := past.any (·.2.isOk)

/-- What the setups left before they failed, if all of them did. -/
def leftovers (past : List (Call × Call.Result)) : List Sink :=
  if completed past then [] else past.flatMap (·.1.leftover)

/-- The log knows whether a setup was completed; until one is, its sinks are
what the failed ones left. -/
theorem History.invariant {past : List (Call × Call.Result)} {s : System} (h : History past s) :
    s.configured = completed past ∧ s.kept = leftovers past := by
  -- once a setup is completed the next one drops all sinks, so they are followed only until then
  suffices hfresh : s.configured = completed past ∧
      (s.configured = false → s.sinks = past.flatMap (·.1.leftover)) by
    refine ⟨hfresh.1, ?_⟩
    rw [System.kept, leftovers, ← hfresh.1]
    split
    · rfl
    · exact hfresh.2 (Bool.eq_false_iff.mpr ‹_›)
  induction h with
  | start => exact ⟨rfl, fun _ => rfl⟩
  | @setup past s _ c ih =>
    obtain ⟨told, hresult, hconfigured, -⟩ | ⟨fault, hresult, hconfigured, hsinks⟩ := c.run_cases s
    · simp [hresult, hconfigured, completed, Except.isOk, Except.toBool]
    · refine ⟨?_, fun hfresh => ?_⟩
      · rw [hconfigured, ih.1]
        simp [hresult, completed, Except.isOk, Except.toBool]
      · rw [hconfigured] at hfresh
        rw [hsinks, System.kept, hfresh, ih.2 hfresh]
        simp
  | use _ hused ih =>
    obtain ⟨hconfigured, hsinks⟩ := hused.stays
    refine ⟨hconfigured ▸ ih.1, fun hfresh => ?_⟩
    have hleft := ih.2 (hconfigured ▸ hfresh)
    refine (hsinks fun sink hmem => ?_).trans hleft
    rw [hleft, List.mem_flatMap] at hmem
    obtain ⟨made, -, hmem⟩ := hmem
    exact Call.isTerminal_of_mem_leftover hmem

/-- A completed setup leaves the sinks it tells of, after what was left by
failed ones if none was completed before. So its own sinks are all there is if,
and only if, one was completed before or the failed ones left none. -/
theorem History.sinks_setup {past : List (Call × Call.Result)} {s : System} (h : History past s) {c : Call}
    {told : List Sink} (hrun : (c.run s).1 = .ok told) :
    (c.run s).2.1.sinks = leftovers past ++ told ∧
      ((c.run s).2.1.sinks = told ↔ completed past ∨ ∀ made ∈ past, made.1.leftover = []) := by
  have hsinks : (c.run s).2.1.sinks = leftovers past ++ told := h.invariant.2 ▸ c.sinks_run hrun
  refine ⟨hsinks, ?_⟩
  rw [hsinks, List.append_left_eq_self, leftovers]
  by_cases hcompleted : completed past
  · simp [hcompleted]
  · simp [hcompleted, List.flatMap_eq_nil_iff]

/-- A setup as it stands, on a stream that is no terminal. -/
def standardCall : Call := ⟨.standard, false, ⟨.empty, ""⟩⟩

/-- A setup with a level that there is none of. -/
def unknownLevelCall : Call := ⟨{ Setup.standard with level := "verbose" }, false, ⟨.empty, ""⟩⟩

theorem standardCall_run (s : System) : (standardCall.run s).1 = .ok [.terminal ⟨false, false, true⟩] := rfl

theorem History.sinks_setup_sample :
    ∃ past s, History past s ∧ (standardCall.run s).1 = .ok [.terminal ⟨false, false, true⟩] ∧
      (standardCall.run s).2.1.sinks = [.terminal ⟨false, false, true⟩] := by
  have h : History _ _ := .use (.setup (.setup .start standardCall) unknownLevelCall) (.shutdown _)
  exact ⟨_, _, h, standardCall_run _, (h.sinks_setup (standardCall_run _)).2.mpr (.inl rfl)⟩

/-- A setup whose log file is to be rotated in a way that there is none of. -/
def unknownModeCall : Call :=
  ⟨{ Setup.standard with
      file := some "p.log"
      rotation := some { RotationRequest.standard with mode := "weekly" } }, false, ⟨.empty, ""⟩⟩

/-- After a setup that failed for the rotation of its file, the next one leaves
two sinks for the terminal and tells of one. -/
theorem not_sinks_setup :
    ¬ ∀ (past : List (Call × Call.Result)) (s : System), History past s → ∀ (c : Call) (told : List Sink),
      (c.run s).1 = .ok told → (c.run s).2.1.sinks = told := by
  intro hall
  have h := History.setup .start unknownModeCall
  have hall := hall _ _ h standardCall _ (standardCall_run _)
  rw [Call.sinks_run (standardCall_run _), List.append_left_eq_self, h.invariant.2] at hall
  obtain ⟨fault, hresult⟩ := unknownModeCall.run_of_rotationOf rfl rfl .initial
  have hleft : unknownModeCall.leftover = [] := by
    simpa [leftovers, completed, hresult, Except.isOk, Except.toBool] using hall
  cases hleft

end SketchTurtle.Log
