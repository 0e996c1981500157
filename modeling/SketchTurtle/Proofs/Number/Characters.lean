/-
The characters that numbers are written with: digits, signs, the point and
the `e` of an exponent. None of them ends a line (`Layout.unbroken_of_isWritten`),
so neither does the text of any double, whatever it denotes
(`Turtle.unbroken_literal`, `Turtle.unbroken_coordinate`). Nor has it a comma
(`Turtle.comma_notMem_literalOf`), so numbers are told apart in a list of them.
-/
import SketchTurtle.Proofs.Text.Lines
import SketchTurtle.Turtle.Numeral

namespace SketchTurtle

namespace Layout

/-- Whether numbers are written with the character. -/
def isNumeral (c : Char) : Bool := c.isDigit || c == '-' || c == '+' || c == '.' || c == 'e'

/-- The text is written with the characters of numbers only. -/
def IsWritten (s : List Char) : Prop := ∀ c ∈ s, isNumeral c = true

@[simp]
theorem isWritten_nil : IsWritten [] := nofun

@[simp]
theorem isWritten_cons {c : Char} {s : List Char} :
    IsWritten (c :: s) ↔ isNumeral c = true ∧ IsWritten s := List.forall_mem_cons

@[simp]
theorem isWritten_append {s t : List Char} : IsWritten (s ++ t) ↔ IsWritten s ∧ IsWritten t :=
  List.forall_mem_append

instance (s : List Char) : Decidable (IsWritten s) :=
  List.decidableBAll _ s

theorem isWritten_zeros (n : Nat) : IsWritten (List.replicate n '0') := by
  intro c hc
  rw [List.eq_of_mem_replicate hc]
  rfl

theorem IsWritten.take {s : List Char} (h : IsWritten s) (n : Nat) : IsWritten (s.take n) :=
  fun c hc => h c (List.mem_of_mem_take hc)

theorem IsWritten.drop {s : List Char} (h : IsWritten s) (n : Nat) : IsWritten (s.drop n) :=
  fun c hc => h c (List.mem_of_mem_drop hc)

/-! ## Layouts -/

theorem isWritten_digitsOf (n : Nat) : IsWritten (digitsOf n) := by
  intro c hc
  have hdigit : c.isDigit = true := Nat.isDigit_of_mem_toDigits (by decide) (by decide) hc
  simp [isNumeral, hdigit]

theorem isWritten_padded (width n : Nat) : IsWritten (padded width n) :=
  isWritten_append.2 ⟨isWritten_zeros _, isWritten_digitsOf n⟩

theorem IsWritten.signed {s : List Char} (h : IsWritten s) (negative : Bool) :
    IsWritten (signed negative s) := by
  cases negative with
  | true => exact isWritten_cons.2 ⟨rfl, h⟩
  | false => exact h

theorem IsWritten.positional {ds : List Char} (h : IsWritten ds) (exponent : Int) :
    IsWritten (positional ds exponent) := by
  simp only [Layout.positional]
  split
  · simp [h, isWritten_zeros, isNumeral]
  · split
    · simp [h.take, h.drop, isNumeral]
    · simp [h, isWritten_zeros, isNumeral]

theorem IsWritten.scientific {ds : List Char} (h : IsWritten ds) (layout : Layout) (leading : Int) :
    IsWritten (layout.scientific ds leading) := by
  simp only [Layout.scientific, isWritten_append, isWritten_cons]
  refine ⟨?_, rfl, ?_, isWritten_padded _ _⟩
  · split
    · obtain ⟨hd, hrest⟩ := isWritten_cons.1 h
      exact isWritten_cons.2 ⟨hd, isWritten_cons.2 ⟨rfl, hrest⟩⟩
    · exact h
  · split
    · rfl
    · rfl

theorem isWritten_decimal (layout : Layout) (x : Decimal) : IsWritten (layout.decimal x) := by
  have hdigits := isWritten_digitsOf x.digits
  simp only [decimal]
  split
  · exact hdigits.positional _
  · exact hdigits.scientific _ _

theorem isWritten_finite (layout : Layout) (negative : Bool) (mantissa : Nat) (exponent : Int) :
    IsWritten (layout.finite negative mantissa exponent) := by
  refine IsWritten.signed ?_ negative
  split
  · simp [isNumeral]
  · exact isWritten_decimal layout _

theorem toList_toString (n : Int) : (toString n).toList = signed (n < 0) (digitsOf n.natAbs) := by
  cases n with
  | ofNat m => exact Nat.toList_repr
  | negSucc m =>
    show ("-" ++ (m + 1).repr).toList = _
    rw [String.toList_append, Nat.toList_repr, signed, if_pos (decide_eq_true (Int.negSucc_lt_zero m))]
    rfl

theorem isWritten_toString (n : Int) : IsWritten (toString n).toList := by
  rw [toList_toString]
  exact (isWritten_digitsOf _).signed _

/-! ## Lines -/

theorem unbroken_of_isWritten {s : List Char} (h : IsWritten s) : Text.Unbroken s :=
  Text.unbroken_of_forall rfl h

end Layout

namespace Turtle

/-- A finite double is written with the characters of numbers, whatever the form of its text. -/
theorem isWritten_literalOf (negative : Bool) (m : Nat) (e : Int) :
    Layout.IsWritten (literalOf (.finite negative m e)) := by
  simp only [literalOf]
  split
  · simp [Layout.isNumeral]
  · split
    · exact (Layout.isWritten_digitsOf _).signed negative
    · exact Layout.isWritten_finite _ _ _ _

/-- The text of a number is on one line, also of one that is not finite. -/
theorem unbroken_literalOf (x : Exact) : Text.Unbroken (literalOf x) := by
  cases x with
  | nan => decide
  | infinite negative => cases negative <;> decide
  | finite negative m e => exact Layout.unbroken_of_isWritten (isWritten_literalOf negative m e)

theorem comma_notMem_literalOf (x : Exact) : ',' ∉ literalOf x := by
  cases x with
  | nan => decide
  | infinite negative => cases negative <;> decide
  | finite negative m e =>
    intro h
    cases isWritten_literalOf negative m e ',' h

theorem unbroken_literal (x : Float) : Text.Unbroken (literal x).toList := by
  rw [literal, String.toList_ofList]
  exact unbroken_literalOf _

theorem unbroken_coordinate (x : Float) : Text.Unbroken (coordinate x).toList := by
  rw [coordinate, String.toList_ofList]
  exact unbroken_literalOf _

end Turtle

end SketchTurtle
