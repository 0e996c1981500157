/-
What a loaded configuration is known to be.

A document that is accepted has passed every check of `Config.outOfRange?`, so
its values lie within the bounds of `Config.InRange`; the configuration that is
used where none is given lies within them too (`Config.Loaded.inRange`). The
bounds are those of the options of a program but for one: the background may
end with a line feed (`Config.isColorLine_eq`).
-/
import SketchTurtle.Config.Reader
import SketchTurtle.Proofs.Number.Order

namespace SketchTurtle.Config

/-- The bounds of a configuration's values. -/
structure InRange (c : Config) : Prop where
  width : isFinite c.width = true ∧ 0 < c.width
  height : isFinite c.height = true ∧ 0 < c.height
  speed : 0 ≤ c.speed ∧ c.speed ≤ 10
  background : isColorLine c.background = true
  tolerance : isFinite c.tolerance = true ∧ 0 ≤ c.tolerance
  filename : c.filename.endsWith ".py" = true
  logLevel : levels.contains (Text.upper c.logLevel) = true

/-- A configuration that a document describes, or the one that is used where
none is given. -/
def Loaded (c : Config) : Prop := (∃ path value, ofDocument path value = .ok c) ∨ c = standard

/-! ## Bounds -/

theorem check_then_eq_none {α : Type} {p : Prop} [Decidable p] {fault : α} {rest : Option α} :
    (if p then some fault else rest) = none ↔ ¬ p ∧ rest = none := by
  split <;> simp [*]

theorem side_passes_iff {x : Float} : ¬ (!isFinite x || decide (x ≤ 0)) = true ↔ isFinite x = true ∧ 0 < x := by
  rw [Bool.not_eq_true, Bool.or_eq_false_iff, Bool.not_eq_false', decide_eq_false_iff_not]
  exact and_congr_right Exact.not_le_zero_iff

theorem outOfRange?_eq_none {c : Config} : c.outOfRange? = none ↔ c.InRange := by
  have htolerance : ¬ (!isFinite c.tolerance || decide (c.tolerance < 0)) = true ↔
      isFinite c.tolerance = true ∧ 0 ≤ c.tolerance := by
    rw [Bool.not_eq_true, Bool.or_eq_false_iff, Bool.not_eq_false', decide_eq_false_iff_not]
    exact and_congr_right Exact.not_lt_zero_iff
  have hspeed : ¬ (decide (c.speed < 0) || decide (10 < c.speed)) = true ↔ 0 ≤ c.speed ∧ c.speed ≤ 10 := by
    simp
  have hholds {b : Bool} : ¬ (!b) = true ↔ b = true := by simp
  simp only [outOfRange?, check_then_eq_none, side_passes_iff, htolerance, hspeed, hholds, and_true]
  exact ⟨fun ⟨hw, hh, hs, hb, ht, hf, hl⟩ => ⟨hw, hh, hs, hb, ht, hf, hl⟩, fun h =>
    ⟨h.width, h.height, h.speed, h.background, h.tolerance, h.filename, h.logLevel⟩⟩

/-- A document describes a configuration if its values can be read and all are
in range. -/
theorem ofDocument_eq_ok {path : Path} {value : Yaml.Value} {c : Config} :
    ofDocument path value = .ok c ↔ ofValue path value = .ok c ∧ c.InRange := by
  rw [← outOfRange?_eq_none]
  unfold ofDocument
  split
  · exact ⟨nofun, fun h => nomatch h.1⟩
  · cases hvalue : ofValue path value with
    | error fault => exact ⟨nofun, fun h => nomatch h.1⟩
    | ok config =>
      simp only [bind, Except.bind]
      constructor
      · intro h
        split at h
        · cases h
        · cases h
        · next hrange =>
          cases h
          exact ⟨rfl, hrange⟩
      · rintro ⟨h, hrange⟩
        cases h
        rw [hrange]
        rfl

theorem inRange_standard : standard.InRange where
  width := by decide
  height := by decide
  speed := by decide
  background := by decide
  tolerance := by decide
  filename := by decide +kernel
  logLevel := by decide

theorem Loaded.inRange {c : Config} (h : c.Loaded) : c.InRange := by
  rcases h with ⟨path, value, h⟩ | rfl
  · exact (ofDocument_eq_ok.1 h).2
  · exact inRange_standard

/-! ## The background -/

/-- A background is a colour, or a colour and a line feed. -/
theorem isColorLine_eq {s : String} (h : isColorLine s = true) :
    Check.isColor s = true ∨ ∃ color, Check.isColor color = true ∧ s = color ++ "\n" := by
  rw [isColorLine, Bool.or_eq_true, Bool.and_eq_true] at h
  refine h.imp_right fun ⟨hend, hcolor⟩ => ⟨_, hcolor, ?_⟩
  rw [String.endsWith_eq_endsWith_toSlice, String.Slice.endsWith_string_iff, String.copy_toSlice] at hend
  obtain ⟨t, ht⟩ := hend
  rw [← String.toList_inj, ← ht]
  simp

end SketchTurtle.Config
