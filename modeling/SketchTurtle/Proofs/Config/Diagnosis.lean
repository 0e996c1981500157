/-
Which documents are refused without a diagnosis.

What is wrong with a configuration is diagnosed: that there is nothing in the file, that a
key is missing, that a value does not serve, or that it is out of range
(`Fault.isDiagnosed`). But not everything that goes wrong is. The places of a document are
read one after another (`Place.all`), and reading one of them can fail for a reason that
nobody looks for (`Place.Traps`): a section that may be left out is there and is not a
mapping, a whole number is beyond the doubles, or the speed is infinite. And a speed that is
out of range is written into its diagnosis, for which it can be too long.

A document is refused without a diagnosis for these reasons and no others (`Trapped`), and
whatever is accepted is in range (`load_diagnoses`).
-/
import SketchTurtle.Proofs.Config.Loaded
import SketchTurtle.Proofs.Number.Overflow
import SketchTurtle.Proofs.Sketch.Saving

namespace SketchTurtle.Config

/-- Whether a fault is diagnosed as one of the configuration. -/
def Fault.isDiagnosed : Fault → Bool
  | .empty _ | .missing .. | .unfit .. | .outOfRange _ => true
  | .notFound _ | .unreadable _ | .notSection _ | .tooLarge | .infinite | .longSpeed => false

/-- A fault escapes from a reading: it is what the reading ends with, and is not diagnosed. -/
def Escapes {α : Type} (result : Except Fault α) (fault : Fault) : Prop :=
  result = .error fault ∧ fault.isDiagnosed = false

/-! ## Places -/

/-- The places of a document that can be refused when they are read. -/
inductive Place where
  | width
  | height
  | speed
  | background
  | tolerance
  | filename
  | logLevel
  | logFile
  deriving DecidableEq

namespace Place

/-- The places in the order in which they are read. -/
def all : List Place := [.width, .height, .speed, .background, .tolerance, .filename, .logLevel, .logFile]

/-- The places that are read before one. -/
def before (place : Place) : List Place := all.takeWhile (· != place)

/-- The section of a document that a place is in. -/
def sectionOf (path : Path) (v : Yaml.Value) : Place → Except Fault Yaml.Value
  | .width | .height => part path "canvas" v
  | .speed | .background | .tolerance => part path "compile" v
  | .filename => optionalSection "output" v
  | .logLevel | .logFile => optionalSection "logging" v

/-- The value at a place of its section. -/
def valueOf (path : Path) (s : Yaml.Value) : Place → Except Fault Yaml.Value
  | .width => part path "width" s
  | .height => part path "height" s
  | .speed => part path "speed" s
  | .background => optionalPart "background_color" (.text standard.background) s
  | .tolerance => optionalPart "simplify_tolerance" (.float standard.tolerance) s
  | .filename => optionalPart "default_filename" (.text standard.filename) s
  | .logLevel => optionalPart "level" (.text standard.logLevel) s
  | .logFile => optionalPart "file" .null s

/-- Whether the value at a place serves. -/
def serves (path : Path) (v : Yaml.Value) : Place → Except Fault Unit
  | .width | .height | .tolerance => (real path v).map fun _ => ()
  | .speed => (whole path v).map fun _ => ()
  | .background | .filename | .logLevel => (text path v).map fun _ => ()
  | .logFile => if v.isTruthy then (text path v).map fun _ => () else .ok ()

/-- Reads one place of a document. -/
def read (path : Path) (v : Yaml.Value) (place : Place) : Except Fault Unit := do
  place.serves path (← place.valueOf path (← place.sectionOf path v))

end Place

/-! ## Reading place by place -/

/-- Of actions on the items of a list one fails exactly if the actions on the items before
it succeed. -/
theorem forM_eq_error {α ε : Type} [DecidableEq α] {act : α → Except ε Unit} {fault : ε} :
    ∀ {items : List α}, items.Nodup → (items.forM act = .error fault ↔
      ∃ a ∈ items, (∀ b ∈ items.takeWhile (· != a), act b = .ok ()) ∧ act a = .error fault)
  | [], _ => by simp [List.forM_eq_forM, pure, Except.pure]
  | a :: items, hnodup => by
    obtain ⟨hnotMem, hnodup⟩ := List.nodup_cons.1 hnodup
    have hne {b : α} (hb : b ∈ items) : (a != b) = true := by
      rw [bne_iff_ne]
      rintro rfl
      exact hnotMem hb
    rw [List.forM_eq_forM, List.forM_cons]
    simp only [List.mem_cons, exists_eq_or_imp]
    rcases hact : act a with found | done
    · constructor
      · intro h
        cases h
        exact .inl ⟨by simp, rfl⟩
      · rintro (⟨-, h⟩ | ⟨b, hb, hbefore, -⟩)
        · cases h
          rfl
        · have := hbefore a (by simp [hne hb])
          rw [hact] at this
          cases this
    · rw [← List.forM_eq_forM]
      refine (forM_eq_error hnodup).trans ⟨?_, ?_⟩
      · rintro ⟨b, hb, hbefore, h⟩
        refine .inr ⟨b, hb, ?_, h⟩
        simpa [hne hb, hact] using hbefore
      · rintro (⟨-, h⟩ | ⟨b, hb, hbefore, h⟩)
        · cases h
        · refine ⟨b, hb, fun c hc => hbefore c ?_, h⟩
          simp [hne hb, hc]

theorem ofValue_eq (path : Path) (v : Yaml.Value) :
    (ofValue path v).map (fun _ => ()) = Place.all.forM (Place.read path v) := by
  simp only [ofValue, Place.all, List.forM_eq_forM, List.forM_cons, List.forM_nil, Place.read, Place.sectionOf,
    Place.valueOf, Place.serves, bind, Except.bind, Except.map, pure, Except.pure]
  -- Both sides look up the same parts and read them in the same order, and the first that fails
  -- ends both. On the right a section is looked up again for each of its places.
  rcases part path "canvas" v with _ | canvas
  · rfl
  dsimp only
  rcases part path "width" canvas with _ | width
  · rfl
  dsimp only
  rcases real path width with _ | _
  · rfl
  dsimp only
  rcases part path "height" canvas with _ | height
  · rfl
  dsimp only
  rcases real path height with _ | _
  · rfl
  dsimp only
  rcases part path "compile" v with _ | compile
  · rfl
  dsimp only
  rcases part path "speed" compile with _ | speed
  · rfl
  dsimp only
  rcases whole path speed with _ | _
  · rfl
  dsimp only
  rcases optionalPart "background_color" (.text standard.background) compile with _ | background
  · rfl
  dsimp only
  rcases text path background with _ | _
  · rfl
  dsimp only
  rcases optionalPart "simplify_tolerance" (.float standard.tolerance) compile with _ | tolerance
  · rfl
  dsimp only
  rcases real path tolerance with _ | _
  · rfl
  dsimp only
  rcases optionalSection "output" v with _ | output
  · rfl
  dsimp only
  rcases optionalPart "default_filename" (.text standard.filename) output with _ | filename
  · rfl
  dsimp only
  rcases text path filename with _ | _
  · rfl
  dsimp only
  rcases optionalSection "logging" v with _ | logging
  · rfl
  dsimp only
  -- The file is looked up before the level is, which makes no difference in a mapping.
  cases logging
  case map pairs =>
    simp only [optionalPart]
    rcases text path ((member? "level" pairs).getD (.text standard.logLevel)) with _ | _
    · rfl
    dsimp only
    by_cases htruthy : ((member? "file" pairs).getD .null).isTruthy = true
    · rw [if_pos htruthy, if_pos htruthy]
      rcases text path ((member? "file" pairs).getD .null) with _ | _
      · rfl
      · rfl
    · rw [if_neg htruthy, if_neg htruthy]
  all_goals rfl

/-- What escapes from reading a document escapes from reading one of its places, before
which all others serve. -/
theorem escapes_ofValue {path : Path} {v : Yaml.Value} {fault : Fault} :
    Escapes (ofValue path v) fault ↔
      ∃ place : Place, (∀ q ∈ place.before, q.read path v = .ok ()) ∧ Escapes (place.read path v) fault := by
  have hmap : ofValue path v = .error fault ↔ (ofValue path v).map (fun _ => ()) = .error fault := by
    cases ofValue path v <;> simp [Except.map]
  have hall (place : Place) : place ∈ Place.all := by
    cases place <;> decide
  rw [Escapes, hmap, ofValue_eq, forM_eq_error (by decide)]
  constructor
  · rintro ⟨⟨place, -, hbefore, h⟩, hfault⟩
    exact ⟨place, hbefore, h, hfault⟩
  · rintro ⟨place, hbefore, h, hfault⟩
    exact ⟨⟨place, hall place, hbefore, h⟩, hfault⟩

/-! ## What escapes -/

section Escapes

variable {path : Path} {v : Yaml.Value} {fault : Fault}

theorem escapes_bind {α β : Type} {x : Except Fault α} {f : α → Except Fault β} :
    Escapes (x >>= f) fault ↔ Escapes x fault ∨ ∃ a, x = .ok a ∧ Escapes (f a) fault := by
  cases x <;> simp [Escapes, bind, Except.bind]

theorem escapes_map {α β : Type} {x : Except Fault α} {f : α → β} :
    Escapes (x.map f) fault ↔ Escapes x fault := by
  cases x <;> simp [Escapes, Except.map]

theorem not_escapes_ok {α : Type} {a : α} : ¬ Escapes (.ok a) fault := nofun

theorem not_escapes_part {key : String} : ¬ Escapes (part path key v) fault := by
  rintro ⟨h, hfault⟩
  unfold part at h
  split at h
  · split at h
    · cases h
    · cases h
      cases hfault
  all_goals
    cases h
    cases hfault

theorem not_escapes_text : ¬ Escapes (text path v) fault := by
  rintro ⟨h, hfault⟩
  unfold text at h
  split at h
  · cases h
    cases hfault
  · cases h

/-- Of what is read as a real number only whole numbers beyond the doubles escape. -/
theorem escapes_real :
    Escapes (real path v) fault ↔ ∃ n, v = .int n ∧ (2 ^ 54 - 1) * 2 ^ 970 ≤ n.natAbs ∧ fault = .tooLarge := by
  constructor
  · rintro ⟨h, hfault⟩
    unfold real at h
    split at h
    · cases h
    · next n =>
      split at h
      · cases h
      · next hnone =>
        cases h
        exact ⟨n, rfl, floatOfInt?_eq_none_iff.1 hnone, rfl⟩
    · cases h
    · split at h
      · cases h
      · cases h
        cases hfault
    · split at h
      · cases h
      · cases h
        cases hfault
    · cases h
      cases hfault
  · rintro ⟨n, rfl, hn, rfl⟩
    refine ⟨?_, rfl⟩
    simp only [real, floatOfInt?_eq_none_iff.2 hn]

theorem not_escapes_wholeOfText {s report : String} : ¬ Escapes (wholeOfText path s report) fault := by
  rintro ⟨h, hfault⟩
  unfold wholeOfText at h
  split at h
  · cases h
  all_goals
    cases h
    cases hfault

/-- Of what is read as a whole number only infinities escape. -/
theorem escapes_whole :
    Escapes (whole path v) fault ↔ ∃ x s, v = .float x ∧ Exact.ofFloat x = .infinite s ∧ fault = .infinite := by
  constructor
  · intro h
    unfold whole at h
    split at h
    · exact absurd h not_escapes_ok
    · exact absurd h not_escapes_ok
    · next x =>
      split at h
      · cases h.1
        cases h.2
      · next s hx =>
        cases h.1
        exact ⟨x, s, rfl, hx, rfl⟩
      · exact absurd h not_escapes_ok
    · exact absurd h not_escapes_wholeOfText
    · exact absurd h not_escapes_wholeOfText
    · cases h.1
      cases h.2
  · rintro ⟨x, s, rfl, hx, rfl⟩
    refine ⟨?_, rfl⟩
    simp only [whole, hx]

/-! ## Traps -/

/-- The value of a key in a section that is a mapping. -/
def held? (group key : String) : Yaml.Value → Option Yaml.Value
  | .map pairs => match member? group pairs with
    | some (.map inner) => member? key inner
    | _ => none
  | _ => none

/-- A section that may be left out is there, is not empty and is not a mapping. -/
def IsStray (group kind : String) (v : Yaml.Value) : Prop :=
  ∃ pairs s, v = .map pairs ∧ member? group pairs = some s ∧ s.isTruthy = true ∧
    (∀ inner, s ≠ .map inner) ∧ kind = s.kindName

/-- A place whose reading fails for a reason that nobody looks for. -/
inductive Place.Traps (v : Yaml.Value) : Place → Fault → Prop
  | width {n : Int} (hheld : held? "canvas" "width" v = some (.int n))
      (hlarge : (2 ^ 54 - 1) * 2 ^ 970 ≤ n.natAbs) : Traps v .width .tooLarge
  | height {n : Int} (hheld : held? "canvas" "height" v = some (.int n))
      (hlarge : (2 ^ 54 - 1) * 2 ^ 970 ≤ n.natAbs) : Traps v .height .tooLarge
  | speed {x : Float} {s : Bool} (hheld : held? "compile" "speed" v = some (.float x))
      (hinfinite : Exact.ofFloat x = .infinite s) : Traps v .speed .infinite
  | tolerance {n : Int} (hheld : held? "compile" "simplify_tolerance" v = some (.int n))
      (hlarge : (2 ^ 54 - 1) * 2 ^ 970 ≤ n.natAbs) : Traps v .tolerance .tooLarge
  | output {kind : String} (hstray : IsStray "output" kind v) : Traps v .filename (.notSection kind)
  | logging {kind : String} (hstray : IsStray "logging" kind v) : Traps v .logLevel (.notSection kind)

theorem part_eq_ok {path : Path} {key : String} {v w : Yaml.Value} :
    part path key v = .ok w ↔ ∃ pairs, v = .map pairs ∧ member? key pairs = some w := by
  constructor
  · intro h
    unfold part at h
    split at h
    · next pairs =>
      split at h
      · next hmember =>
        cases h
        exact ⟨pairs, rfl, hmember⟩
      · cases h
    all_goals cases h
  · rintro ⟨pairs, rfl, hmember⟩
    simp only [part, hmember]

theorem held?_eq_some {group key : String} {v w : Yaml.Value} :
    held? group key v = some w ↔
      ∃ pairs inner, v = .map pairs ∧ member? group pairs = some (.map inner) ∧ member? key inner = some w := by
  constructor
  · intro h
    unfold held? at h
    split at h
    · next pairs =>
      split at h
      · next inner hgroup => exact ⟨pairs, inner, rfl, hgroup, h⟩
      · cases h
    · cases h
  · rintro ⟨pairs, inner, rfl, hgroup, hkey⟩
    simp only [held?, hgroup, hkey]

theorem escapes_required {α : Type} {group key : String} {f : Yaml.Value → Except Fault α} :
    Escapes (part path group v >>= fun s => part path key s >>= f) fault ↔
      ∃ w, held? group key v = some w ∧ Escapes (f w) fault := by
  simp only [escapes_bind, not_escapes_part, false_or, part_eq_ok, held?_eq_some]
  constructor
  · rintro ⟨_, ⟨pairs, rfl, hgroup⟩, w, ⟨inner, rfl, hkey⟩, h⟩
    exact ⟨w, ⟨pairs, inner, rfl, hgroup, hkey⟩, h⟩
  · rintro ⟨w, ⟨pairs, inner, rfl, hgroup, hkey⟩, h⟩
    exact ⟨_, ⟨pairs, rfl, hgroup⟩, w, ⟨inner, rfl, hkey⟩, h⟩

theorem optionalPart_map {key : String} {default : Yaml.Value} {pairs : List (Yaml.Value × Yaml.Value)} :
    optionalPart key default (.map pairs) = .ok ((member? key pairs).getD default) := rfl

theorem escapes_optionalPart {key : String} {default : Yaml.Value} :
    Escapes (optionalPart key default v) fault ↔ (∀ pairs, v ≠ .map pairs) ∧ fault = .notSection v.kindName := by
  unfold optionalPart
  split
  · next pairs => exact iff_of_false not_escapes_ok fun h => h.1 pairs rfl
  · next hmap =>
    constructor
    · rintro ⟨h, -⟩
      cases h
      exact ⟨hmap, rfl⟩
    · rintro ⟨-, rfl⟩
      exact ⟨rfl, rfl⟩

theorem optionalSection_map {group : String} {pairs : List (Yaml.Value × Yaml.Value)} :
    optionalSection group (.map pairs) = .ok (if ((member? group pairs).getD .null).isTruthy then
      (member? group pairs).getD .null else .map []) := rfl

/-- If the document is a mapping, then from a value that may be left out nothing escapes but
a stray section. -/
theorem escapes_optional {α : Type} {group key : String} {default : Yaml.Value} {f : Yaml.Value → Except Fault α}
    {pairs : List (Yaml.Value × Yaml.Value)} (hf : ∀ w, ¬ Escapes (f w) fault) :
    Escapes (optionalSection group (.map pairs) >>= fun s => optionalPart key default s >>= f) fault ↔
      ∃ kind, IsStray group kind (.map pairs) ∧ fault = .notSection kind := by
  simp only [optionalSection_map, escapes_bind, not_escapes_ok, false_or, hf, and_false, exists_false, or_false,
    escapes_optionalPart, Except.ok.injEq, exists_eq_left']
  constructor
  · rintro ⟨hmap, rfl⟩
    rcases hgroup : member? group pairs with _ | s
    · simp only [hgroup] at hmap
      exact absurd rfl (hmap [])
    · simp only [hgroup, Option.getD_some] at hmap ⊢
      by_cases htruthy : s.isTruthy = true
      · simp only [htruthy, if_true] at hmap ⊢
        exact ⟨_, ⟨pairs, s, rfl, hgroup, htruthy, hmap, rfl⟩, rfl⟩
      · simp only [htruthy] at hmap
        exact absurd rfl (hmap [])
  · rintro ⟨_, ⟨_, s, hpairs, hgroup, htruthy, hmap, rfl⟩, rfl⟩
    cases hpairs
    simp only [hgroup, Option.getD_some, htruthy, if_true, and_true]
    exact hmap

theorem escapes_beside {α : Type} {group key : String} {default : Yaml.Value} {f : Yaml.Value → Except Fault α}
    {pairs inner : List (Yaml.Value × Yaml.Value)} (hgroup : member? group pairs = some (.map inner)) :
    Escapes (part path group (.map pairs) >>= fun s => optionalPart key default s >>= f) fault ↔
      Escapes (f ((member? key inner).getD default)) fault := by
  have hpart : part path group (.map pairs) = .ok (.map inner) := part_eq_ok.2 ⟨pairs, rfl, hgroup⟩
  simp only [hpart, escapes_bind, optionalPart_map, not_escapes_ok, false_or, Except.ok.injEq, exists_eq_left']

/-! ## Reading one place -/

theorem exists_of_read {place : Place} (h : place.read path v = .ok ()) :
    ∃ s w, place.sectionOf path v = .ok s ∧ place.valueOf path s = .ok w := by
  unfold Place.read at h
  rcases hsection : place.sectionOf path v with _ | s
  · rw [hsection] at h
    cases h
  · rw [hsection] at h
    rcases hvalue : place.valueOf path s with _ | w
    · simp only [bind, Except.bind, hvalue] at h
      cases h
    · exact ⟨s, w, rfl, hvalue⟩

theorem exists_map_of_width (h : Place.width.read path v = .ok ()) : ∃ pairs, v = .map pairs := by
  obtain ⟨s, -, hsection, -⟩ := exists_of_read h
  obtain ⟨pairs, rfl, -⟩ := part_eq_ok.1 hsection
  exact ⟨pairs, rfl⟩

theorem exists_map_of_speed (h : Place.speed.read path v = .ok ()) :
    ∃ pairs inner, v = .map pairs ∧ member? "compile" pairs = some (.map inner) := by
  obtain ⟨s, w, hsection, hvalue⟩ := exists_of_read h
  obtain ⟨pairs, rfl, hcompile⟩ := part_eq_ok.1 hsection
  obtain ⟨inner, rfl, -⟩ := part_eq_ok.1 hvalue
  exact ⟨pairs, inner, rfl, hcompile⟩

theorem not_escapes_serves {place : Place}
    (hplace : place ∈ [Place.background, .filename, .logLevel, .logFile]) :
    ¬ Escapes (place.serves path v) fault := by
  simp only [List.mem_cons, List.not_mem_nil, or_false] at hplace
  rcases hplace with rfl | rfl | rfl | rfl
  · exact fun h => not_escapes_text (escapes_map.1 h)
  · exact fun h => not_escapes_text (escapes_map.1 h)
  · exact fun h => not_escapes_text (escapes_map.1 h)
  · simp only [Place.serves]
    split
    · exact fun h => not_escapes_text (escapes_map.1 h)
    · exact not_escapes_ok

theorem escapes_logLevel {pairs : List (Yaml.Value × Yaml.Value)} :
    Escapes (Place.logLevel.read path (.map pairs)) fault ↔
      ∃ kind, IsStray "logging" kind (.map pairs) ∧ fault = .notSection kind :=
  escapes_optional fun _ => not_escapes_serves (by decide)

/-- Where the places before one serve, what escapes from reading it is what it traps. -/
theorem escapes_read {place : Place} (hbefore : ∀ q ∈ place.before, q.read path v = .ok ()) :
    Escapes (place.read path v) fault ↔ place.Traps v fault := by
  cases place
  case width =>
    simp only [Place.read, Place.sectionOf, Place.valueOf, Place.serves, escapes_required, escapes_map, escapes_real]
    constructor
    · rintro ⟨_, hheld, n, rfl, hlarge, rfl⟩
      exact .width hheld hlarge
    · intro h
      cases h with
      | width hheld hlarge => exact ⟨_, hheld, _, rfl, hlarge, rfl⟩
  case height =>
    simp only [Place.read, Place.sectionOf, Place.valueOf, Place.serves, escapes_required, escapes_map, escapes_real]
    constructor
    · rintro ⟨_, hheld, n, rfl, hlarge, rfl⟩
      exact .height hheld hlarge
    · intro h
      cases h with
      | height hheld hlarge => exact ⟨_, hheld, _, rfl, hlarge, rfl⟩
  case speed =>
    simp only [Place.read, Place.sectionOf, Place.valueOf, Place.serves, escapes_required, escapes_map, escapes_whole]
    constructor
    · rintro ⟨_, hheld, x, s, rfl, hinfinite, rfl⟩
      exact .speed hheld hinfinite
    · intro h
      cases h with
      | speed hheld hinfinite => exact ⟨_, hheld, _, _, rfl, hinfinite, rfl⟩
  case background =>
    obtain ⟨pairs, inner, rfl, hcompile⟩ := exists_map_of_speed (hbefore .speed (by decide))
    simp only [Place.read, Place.sectionOf, Place.valueOf, escapes_beside hcompile]
    exact iff_of_false (not_escapes_serves (by decide)) nofun
  case tolerance =>
    obtain ⟨pairs, inner, rfl, hcompile⟩ := exists_map_of_speed (hbefore .speed (by decide))
    simp only [Place.read, Place.sectionOf, Place.valueOf, Place.serves, escapes_beside hcompile, escapes_map,
      escapes_real]
    constructor
    · rintro ⟨n, hvalue, hlarge, rfl⟩
      -- What is taken where nothing stands is no whole number.
      rcases hmember : member? "simplify_tolerance" inner with _ | w
      · rw [hmember] at hvalue
        cases hvalue
      · rw [hmember, Option.getD_some] at hvalue
        rw [hvalue] at hmember
        exact .tolerance (held?_eq_some.2 ⟨pairs, inner, rfl, hcompile, hmember⟩) hlarge
    · intro h
      cases h with
      | tolerance hheld hlarge =>
        obtain ⟨_, _, hpairs, hgroup, hkey⟩ := held?_eq_some.1 hheld
        cases hpairs
        cases hcompile.symm.trans hgroup
        exact ⟨_, by rw [hkey, Option.getD_some], hlarge, rfl⟩
  case filename =>
    obtain ⟨pairs, rfl⟩ := exists_map_of_width (hbefore .width (by decide))
    refine (escapes_optional fun _ => not_escapes_serves (by decide)).trans ⟨?_, ?_⟩
    · rintro ⟨kind, hstray, rfl⟩
      exact .output hstray
    · intro h
      cases h with
      | output hstray => exact ⟨_, hstray, rfl⟩
  case logLevel =>
    obtain ⟨pairs, rfl⟩ := exists_map_of_width (hbefore .width (by decide))
    refine escapes_logLevel.trans ⟨?_, ?_⟩
    · rintro ⟨kind, hstray, rfl⟩
      exact .logging hstray
    · intro h
      cases h with
      | logging hstray => exact ⟨_, hstray, rfl⟩
  case logFile =>
    obtain ⟨pairs, rfl⟩ := exists_map_of_width (hbefore .width (by decide))
    refine iff_of_false (fun h => ?_) nofun
    -- A stray section has escaped when the level was read.
    obtain ⟨kind, hstray, -⟩ := (escapes_optional fun _ => not_escapes_serves (by decide)).1 h
    have hlevel : Escapes (Place.logLevel.read path (.map pairs)) (.notSection kind) :=
      escapes_logLevel.2 ⟨kind, hstray, rfl⟩
    rw [Escapes, hbefore .logLevel (by decide)] at hlevel
    cases hlevel.1

/-! ## Documents -/

/-- What escapes from a document: what escapes from the first of its places that does not
serve, or a speed that is too long for the diagnosis that it is out of range. -/
inductive Trapped (path : Path) (v : Yaml.Value) : Fault → Prop
  | reading {place : Place} {fault : Fault} (hbefore : ∀ q ∈ place.before, q.read path v = .ok ())
      (htraps : place.Traps v fault) : Trapped path v fault
  | ranging {c : Config} (hread : ofValue path v = .ok c) (hwidth : isFinite c.width = true ∧ 0 < c.width)
      (hheight : isFinite c.height = true ∧ 0 < c.height) (hspeed : isLongInt c.speed = true) :
      Trapped path v .longSpeed

theorem outOfRange?_eq_speed {c : Config} {n : Int} :
    c.outOfRange? = some (.speed n) ↔ (isFinite c.width = true ∧ 0 < c.width) ∧
      (isFinite c.height = true ∧ 0 < c.height) ∧ (c.speed < 0 ∨ 10 < c.speed) ∧ c.speed = n := by
  constructor
  · intro h
    unfold outOfRange? at h
    split at h
    · cases h
    next hwidth =>
    split at h
    · cases h
    next hheight =>
    split at h
    · next hspeed =>
      cases h
      exact ⟨side_passes_iff.1 hwidth, side_passes_iff.1 hheight, by simpa using hspeed, rfl⟩
    · iterate 4
        split at h
        · cases h
      cases h
  · rintro ⟨hwidth, hheight, hspeed, rfl⟩
    rw [outOfRange?, if_neg (side_passes_iff.2 hwidth), if_neg (side_passes_iff.2 hheight),
      if_pos (by simpa using hspeed)]

/-- Of what is out of range only a speed that is too long escapes. -/
theorem escapes_ofDocument :
    Escapes (ofDocument path v) fault ↔ Escapes (ofValue path v) fault ∨
      ∃ c, ofValue path v = .ok c ∧ (∃ n, c.outOfRange? = some (.speed n) ∧ isLongInt n = true) ∧
        fault = .longSpeed := by
  unfold ofDocument
  split
  · -- There is nothing in the document, and nothing is read.
    refine iff_of_false ?_ ?_
    · rintro ⟨h, hfault⟩
      cases h
      cases hfault
    · rintro (⟨h, hfault⟩ | ⟨c, hread, -⟩)
      · cases h
        cases hfault
      · cases hread
  · rw [escapes_bind]
    refine or_congr_right (exists_congr fun c => and_congr_right fun _ => ?_)
    constructor
    · intro h
      split at h
      · next n hrange =>
        by_cases hlong : isLongInt n = true
        · rw [if_pos hlong] at h
          cases h.1
          exact ⟨⟨n, hrange, hlong⟩, rfl⟩
        · rw [if_neg hlong] at h
          cases h.1
          cases h.2
      · cases h.1
        cases h.2
      · exact absurd h not_escapes_ok
    · rintro ⟨⟨n, hrange, hlong⟩, rfl⟩
      simp only [hrange, hlong, if_true]
      exact ⟨rfl, rfl⟩

/-- **A document is refused without a diagnosis exactly if it is trapped.** -/
theorem escapes_ofDocument_iff : Escapes (ofDocument path v) fault ↔ Trapped path v fault := by
  rw [escapes_ofDocument, escapes_ofValue]
  constructor
  · rintro (⟨place, hbefore, h⟩ | ⟨c, hread, ⟨n, hrange, hlong⟩, rfl⟩)
    · exact .reading hbefore ((escapes_read hbefore).1 h)
    · obtain ⟨hwidth, hheight, -, rfl⟩ := outOfRange?_eq_speed.1 hrange
      exact .ranging hread hwidth hheight hlong
  · intro h
    cases h with
    | reading hbefore htraps => exact .inl ⟨_, hbefore, (escapes_read hbefore).2 htraps⟩
    | @ranging c hread hwidth hheight hspeed =>
      have hrange : ¬ (0 ≤ c.speed ∧ c.speed ≤ 10) := fun h => by
        rw [isLongInt_of_le h] at hspeed
        cases hspeed
      exact .inr ⟨_, hread, ⟨_, outOfRange?_eq_speed.2 ⟨hwidth, hheight, by omega, rfl⟩, hspeed⟩, rfl⟩

end Escapes

/-- **What is accepted is in range, and what is refused is diagnosed unless it is
trapped.** That the interpreter's stack is exhausted is left out. -/
theorem load_diagnoses {fs : Files} {path : Path} {v : Yaml.Value} (h : fs.readYaml path = .ok v) :
    (∀ c, load fs path = .ok c → c.InRange) ∧
      ∀ fault, load fs path = .error fault ∧ fault.isDiagnosed = false ↔ Trapped path v fault := by
  have hload : load fs path = ofDocument path v := by
    rw [load, h]
    rfl
  rw [hload]
  exact ⟨fun c hc => (ofDocument_eq_ok.1 hc).2, fun fault => escapes_ofDocument_iff⟩

/-- Some files, of which one is empty. -/
def emptyFile : Files where
  here := []
  nodes := [(["c.yaml"], .file 0)]
  contents := [[]]

theorem load_diagnoses_empty :
    emptyFile.readYaml ⟨"", ["c.yaml"]⟩ = .ok .null ∧
      load emptyFile ⟨"", ["c.yaml"]⟩ = .error (.empty ⟨"", ["c.yaml"]⟩) ∧
      ∀ fault, ¬ Trapped ⟨"", ["c.yaml"]⟩ .null fault := by
  have hread : emptyFile.readYaml ⟨"", ["c.yaml"]⟩ = .ok .null := by with_unfolding_all rfl
  have hload : load emptyFile ⟨"", ["c.yaml"]⟩ = .error (.empty ⟨"", ["c.yaml"]⟩) := by
    rw [load, hread]
    rfl
  refine ⟨hread, hload, fun fault htrapped => ?_⟩
  have h := ((load_diagnoses hread).2 fault).2 htrapped
  rw [hload] at h
  cases h.1
  cases h.2

/-- A document with this speed and this section on output. -/
def trapDocument (speed output : Yaml.Value) : Yaml.Value :=
  .map [(.text "canvas", .map [(.text "width", .int 1), (.text "height", .int 2)]),
    (.text "compile", .map [(.text "speed", speed)]), (.text "output", output)]

/-- An infinite speed is refused without a diagnosis. -/
theorem not_load_diagnoses :
    ¬ ∀ path v, (∃ c, ofDocument path v = .ok c ∧ c.InRange) ∨
      ∃ fault, ofDocument path v = .error fault ∧ fault.isDiagnosed = true := by
  intro h
  have hspeed : ofDocument ⟨"", ["c.yaml"]⟩ (trapDocument (.float (1 / 0)) .null) = .error .infinite := rfl
  rcases h ⟨"", ["c.yaml"]⟩ (trapDocument (.float (1 / 0)) .null) with ⟨c, hc, -⟩ | ⟨fault, hfault, hdiagnosed⟩
  · rw [hspeed] at hc
    cases hc
  · rw [hspeed] at hfault
    cases hfault
    cases hdiagnosed

example : ofDocument ⟨"", ["c.yaml"]⟩ (trapDocument (.int 3) (.text "abc")) = .error (.notSection "str") := rfl

end SketchTurtle.Config
