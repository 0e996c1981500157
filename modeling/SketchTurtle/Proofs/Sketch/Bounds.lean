/-
Options that are given part by part: which faults are found, and when none.

A check of several parts yields its value barring the faults of the parts, one
after the other (`Checked.barring_seq`), so options are refused with exactly the
faults of those values that are out of their bounds (`Options.ofValues_eq`), and
made if all are within them (`Options.faults_eq_nil_iff`).
-/
import SketchTurtle.Proofs.Sketch.Valid

namespace SketchTurtle

namespace Checked

variable {α β : Type}

/-- A value, if there are no faults. -/
def barring (faults : List Fault) (a : α) : Checked α :=
  match faults with
  | [] => ok a
  | _ :: _ => faulty faults

theorem barring_nil (a : α) : barring [] a = ok a := rfl

theorem barring_of_ne_nil {faults : List Fault} (h : faults ≠ []) (a : α) : barring faults a = faulty faults := by
  cases faults with
  | nil => exact absurd rfl h
  | cons f faults => rfl

theorem barring_eq_ok {faults : List Fault} {a b : α} : barring faults a = ok b ↔ faults = [] ∧ b = a := by
  cases faults with
  | nil => simp [barring, eq_comm]
  | cons f faults => simp [barring]

theorem barring_seq (fs gs : List Fault) (f : α → β) (a : α) :
    (barring fs f <*> barring gs a) = barring (fs ++ gs) (f a) := by
  cases fs with
  | nil => cases gs <;> rfl
  | cons _ fs =>
    cases gs with
    | nil =>
      rw [List.append_nil]
      rfl
    | cons _ gs => rfl

theorem map_barring (f : α → β) (faults : List Fault) (a : α) : f <$> barring faults a = barring faults (f a) :=
  barring_seq [] faults f a

end Checked

/-- The fault of a part that fails a condition. -/
def Fault.unmet (name : String) (problem : Problem) (condition : Bool) : List Fault :=
  if condition then [] else [⟨[.name name], problem⟩]

theorem Fault.unmet_eq_nil_iff {name : String} {problem : Problem} {condition : Bool} :
    unmet name problem condition = [] ↔ condition = true := by
  cases condition <;> simp [unmet]

theorem Checked.require_within {α : Type} (a : α) (condition : α → Bool) (problem : Problem) (name : String) :
    ((ok a).require condition problem).within (.name name) = barring (Fault.unmet name problem (condition a)) a := by
  rw [require, andThen, Fault.unmet]
  split <;> rfl

/-- The fault of a speed, which is too high or too low. -/
def Fault.ofSpeed (speed : Int) : List Fault :=
  if speed ≤ 10 then unmet "speed" (.below 0) (0 ≤ speed) else [⟨[.name "speed"], .above 10⟩]

theorem Fault.ofSpeed_eq_nil_iff {speed : Int} : ofSpeed speed = [] ↔ 0 ≤ speed ∧ speed ≤ 10 := by
  rw [ofSpeed]
  split
  · next hhigh => simp [unmet_eq_nil_iff, hhigh]
  · next hhigh => simp [hhigh]

theorem Check.speed_within (speed : Int) :
    (Check.speed (.int speed)).within (.name "speed") = .barring (Fault.ofSpeed speed) speed := by
  by_cases hhigh : speed ≤ 10
  · have hwhole : (Check.whole (.int speed)).require (· ≤ 10) (.above 10) = .ok speed :=
      Checked.require_eq_ok.2 ⟨rfl, by simpa using hhigh⟩
    rw [Check.speed, hwhole, Checked.require_within, Fault.ofSpeed, if_pos hhigh]
  · have hwhole : (Check.whole (.int speed)).require (· ≤ 10) (.above 10) = .problem (.above 10) := by
      simp [Check.whole, Checked.require, Checked.andThen, hhigh]
    rw [Check.speed, hwhole, Fault.ofSpeed, if_neg hhigh]
    rfl

namespace Options

/-- What is wrong with options, in the order of their parts. -/
def faults (o : Options) : List Fault :=
  Fault.unmet "canvas_width" (.notAbove 0) (0 < o.width) ++ Fault.unmet "canvas_height" (.notAbove 0) (0 < o.height) ++
    Fault.ofSpeed o.speed ++ Fault.unmet "background_color" .notColor (Check.isColor o.background.value) ++
    Fault.unmet "simplify_tolerance" (.below 0) (0 ≤ o.tolerance.value)

theorem faults_eq_nil_iff {o : Options} : o.faults = [] ↔ o.Valid := by
  simp only [faults, List.append_eq_nil_iff, Fault.unmet_eq_nil_iff, Fault.ofSpeed_eq_nil_iff, decide_eq_true_eq]
  constructor
  · rintro ⟨⟨⟨⟨hwidth, hheight⟩, hspeed⟩, hbackground⟩, htolerance⟩
    exact ⟨hwidth, hheight, hspeed, hbackground, htolerance⟩
  · intro h
    exact ⟨⟨⟨⟨h.width, h.height⟩, h.speed⟩, h.background⟩, h.tolerance⟩

/-- **Options that are given one by one are made, or refused with all their
faults.** -/
theorem ofValues_eq (width height : Float) (speed : Int) (background : String) (tolerance : Float) :
    ofValues (.float width) (.float height) (.int speed) (.text background) (.float tolerance) =
      .barring (faults ⟨width, height, speed, .of background, .of tolerance⟩)
        ⟨width, height, speed, .of background, .of tolerance⟩ := by
  -- the five checks side by side, each of the part of its name
  show (mk <$> ((Checked.ok width).require (0 < ·) (.notAbove 0)).within (.name "canvas_width")
    <*> ((Checked.ok height).require (0 < ·) (.notAbove 0)).within (.name "canvas_height")
    <*> (Check.speed (.int speed)).within (.name "speed")
    <*> Slot.of <$> ((Checked.ok background).require Check.isColor .notColor).within (.name "background_color")
    <*> Slot.of <$> ((Checked.ok tolerance).require (0 ≤ ·) (.below 0)).within (.name "simplify_tolerance")) = _
  simp only [Checked.require_within, Check.speed_within, Checked.map_barring, Checked.barring_seq]
  rfl

end Options

end SketchTurtle
