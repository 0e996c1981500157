/-
A part of a document that may be left out. Whether it was given is kept,
because a setting that nobody chose gives way to the configuration.
-/

namespace SketchTurtle

/-- A part with a default: its value, and whether it was given. -/
structure Slot (α : Type) where
  value : α
  given : Bool
  deriving DecidableEq, Repr

/-- A part that was given. -/
def Slot.of {α : Type} (value : α) : Slot α := ⟨value, true⟩

/-- A part that was left out. -/
def Slot.default {α : Type} (value : α) : Slot α := ⟨value, false⟩

end SketchTurtle
