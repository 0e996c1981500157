/-
Numbers written in full are read back.

The literal of a finite double is read as that double, whether it is written as a whole
number, in positional notation or with an exponent, and those of both zeros are read as
zero (`literal_reads_back`). So different numbers have different literals.
-/
import SketchTurtle.Proofs.Json.Numbers
import SketchTurtle.Proofs.Number.Parsing
import SketchTurtle.Turtle.Render

namespace SketchTurtle.Turtle

open Exact Numeral

/-! ## Reading a literal -/

theorem exists_parts_literalOf {m : Nat} {e : Int} (h : Normal m e) (hm : 0 < m) (negative : Bool) :
    ∃ p : Parts, p.Proper ∧ literalOf (.finite negative m e) = Layout.signed negative p.text ∧
      p.read negative = .finite negative m e := by
  simp only [literalOf]
  rw [if_neg hm.ne']
  split
  · next hwhole =>
    have hvalue := ratio_div_eq hwhole
    generalize (ratio m e).1 / (ratio m e).2 = n at *
    have hvalue : (n * 10 ^ (0 : Int) : ℚ) = m * 2 ^ e := by rw [zpow_zero, mul_one, hvalue]
    refine ⟨Json.wholeParts n, Json.proper_wholeParts n, ?_, ?_⟩
    · simp [Json.wholeParts, Parts.text, Parts.fractionText, Parts.exponentText]
    · have hread : (Json.wholeParts n).read negative = ofDecimal negative n 0 := by
        simp [Json.wholeParts, Parts.read, Parts.shift]
      rw [hread]
      exact ofDecimal_eq h hm (hvalue ▸ contains_middle hm e)
  · obtain ⟨p, htext, hproper, -, hread⟩ := Layout.report.exists_parts negative h
    exact ⟨p, hproper, htext, hread⟩

theorem parseFloat?_literalOf {m : Nat} {e : Int} (h : Normal m e) (hm : 0 < m) (negative : Bool) :
    parseFloat? (String.ofList (literalOf (.finite negative m e))) = some (Exact.finite negative m e).toFloat := by
  obtain ⟨p, hproper, htext, hread⟩ := exists_parts_literalOf h hm negative
  rw [htext, hproper.parseFloat?_text, hread]

section Finite

variable {x : Float} (hx : (Exact.ofFloat x).isFinite = true)
include hx

theorem exists_ofFloat_eq : ∃ negative m e, Exact.ofFloat x = .finite negative m e ∧ Normal m e := by
  have hnormal := isNormal_ofFloat x
  generalize Exact.ofFloat x = exact at *
  cases exact with
  | nan => cases hx
  | infinite negative => cases hx
  | finite negative m e => exact ⟨negative, m, e, rfl, hnormal⟩

theorem literal_of_beq_zero (h : (x == 0) = true) : literal x = "0" := by
  obtain ⟨negative, m, e, heq, -⟩ := exists_ofFloat_eq hx
  rw [literal, heq, (beq_zero_iff heq).1 h]
  rfl

theorem parseFloat?_literal_eq : parseFloat? (literal x) = some (if x == 0 then 0 else x) := by
  split
  · next h =>
    rw [literal_of_beq_zero hx h]
    decide
  · next h =>
    obtain ⟨negative, m, e, heq, hnormal⟩ := exists_ofFloat_eq hx
    have hne : Exact.ofFloat x ≠ .nan := by
      rw [heq]
      nofun
    have hm : 0 < m := Nat.pos_of_ne_zero (mt (beq_zero_iff heq).2 h)
    rw [literal]
    rw [heq, parseFloat?_literalOf hnormal hm, ← heq, toFloat_ofFloat hne]

theorem isWritten_literal : Layout.IsWritten (literal x).toList := by
  obtain ⟨negative, m, e, heq, -⟩ := exists_ofFloat_eq hx
  rw [literal, String.toList_ofList, heq]
  exact isWritten_literalOf negative m e

/-! ## Different numbers -/

/-- A literal tells what its double compares equal to. -/
theorem literal_eq_iff {y : Float} (hy : (Exact.ofFloat y).isFinite = true) :
    literal x = literal y ↔ (x == y) = true := by
  have hscaled {z : Float} : (Exact.ofFloat (if z == 0 then 0 else z)).scaled = (Exact.ofFloat z).scaled := by
    split
    · next hzero =>
      obtain ⟨a, ha, hb⟩ := beq_iff.1 hzero
      rw [ha, hb]
    · rfl
  constructor
  · intro h
    have hread := parseFloat?_literal_eq hx
    rw [h, parseFloat?_literal_eq hy, Option.some.injEq] at hread
    obtain ⟨a, ha⟩ := exists_scaled_eq hx
    exact beq_iff.2 ⟨a, ha, by rw [← hscaled, hread, hscaled, ha]⟩
  · intro h
    obtain ⟨a, ha, hb⟩ := beq_iff.1 h
    by_cases h0 : a = 0
    · subst h0
      rw [literal_of_beq_zero hx (beq_iff.2 ⟨0, ha, scaled_zero⟩),
        literal_of_beq_zero hy (beq_iff.2 ⟨0, hb, scaled_zero⟩)]
    · rw [literal, literal, scaled_inj (isNormal_ofFloat x) (isNormal_ofFloat y) h0 ha hb]

end Finite

/-! ## Lines -/

theorem lines_penSize_eq_iff (x y : Float) :
    (Operation.penSize x).lines = (Operation.penSize y).lines ↔ literal x = literal y := by
  simp [Operation.lines]

/-- Literals are told apart in a line, for none has the comma between them. -/
theorem lines_setupScreen_eq_iff {x y u v : Float} (hx : (Exact.ofFloat x).isFinite = true)
    (hy : (Exact.ofFloat y).isFinite = true) (background : String) :
    (Operation.setupScreen x u background).lines = (Operation.setupScreen y v background).lines ↔
      literal x = literal y ∧ literal u = literal v := by
  constructor
  · intro h
    have htexts : (literal x).toList ++ (", ".toList ++ (literal u).toList) =
        (literal y).toList ++ (", ".toList ++ (literal v).toList) := by
      have hline : "screen.setup(" ++ literal x ++ ", " ++ literal u =
          "screen.setup(" ++ literal y ++ ", " ++ literal v := by
        simpa [Operation.lines] using h
      simpa only [String.toList_append, List.append_assoc, List.append_cancel_left_eq] using
        congrArg String.toList hline
    have hcomma (rest : List Char) : StopsAt Layout.isNumeral (", ".toList ++ rest) := stopsAt_cons.2 rfl
    have hfirst := congrArg (List.takeWhile Layout.isNumeral) htexts
    rw [takeWhile_run (isWritten_literal hx) (hcomma _), takeWhile_run (isWritten_literal hy) (hcomma _)] at hfirst
    rw [hfirst, List.append_cancel_left_eq, List.append_cancel_left_eq] at htexts
    exact ⟨String.toList_inj.1 hfirst, String.toList_inj.1 htexts⟩
  · rintro ⟨hfirst, hsecond⟩
    rw [Operation.lines, Operation.lines, hfirst, hsecond]

/-- **A literal is read as its double**, and as zero for both zeros, so doubles that are not
equal have different literals. So have pens of different widths and screens of different
sizes. -/
theorem literal_reads_back {x y u v : Float} (hx : (Exact.ofFloat x).isFinite = true)
    (hy : (Exact.ofFloat y).isFinite = true) (hu : (Exact.ofFloat u).isFinite = true)
    (hv : (Exact.ofFloat v).isFinite = true) (background : String) :
    parseFloat? (literal x) = some (if x == 0 then 0 else x) ∧
      (literal x = literal y ↔ (x == y) = true) ∧
      ((Operation.penSize x).lines = (Operation.penSize y).lines ↔ (x == y) = true) ∧
      ((Operation.setupScreen x u background).lines = (Operation.setupScreen y v background).lines ↔
        (x == y) = true ∧ (u == v) = true) := by
  refine ⟨parseFloat?_literal_eq hx, literal_eq_iff hx hy, ?_, ?_⟩
  · rw [lines_penSize_eq_iff, literal_eq_iff hx hy]
  · rw [lines_setupScreen_eq_iff hx hy, literal_eq_iff hx hy, literal_eq_iff hu hv]

/-- A decimal that is no double, the smallest double, and doubles written with and without
an exponent. -/
theorem literal_reads_back_sample :
    (Exact.ofFloat 0.1).isFinite = true ∧ (Exact.ofFloat 1e23).isFinite = true ∧
      (Exact.ofFloat 5e-324).isFinite = true ∧ (Exact.ofFloat (-0.0)).isFinite = true ∧
      parseFloat? (literal 0.1) = some 0.1 ∧
      literal 0.1 ≠ literal 1e23 ∧
      (Operation.setupScreen 0.1 5e-324 "#000000").lines ≠ (Operation.setupScreen 1e23 (-0.0) "#000000").lines := by
  have h1 : (Exact.ofFloat 0.1).isFinite = true := by decide +kernel
  have h2 : (Exact.ofFloat 1e23).isFinite = true := by decide +kernel
  have h3 : (Exact.ofFloat 5e-324).isFinite = true := by decide +kernel
  have h4 : (Exact.ofFloat (-0.0)).isFinite = true := by decide +kernel
  have hne : ¬ ((0.1 : Float) == 1e23) = true := by decide +kernel
  have hzero : ¬ ((0.1 : Float) == 0) = true := by decide +kernel
  obtain ⟨hread, htext, -, hscreen⟩ := literal_reads_back h1 h2 h3 h4 "#000000"
  rw [if_neg hzero] at hread
  exact ⟨h1, h2, h3, h4, hread, mt htext.1 hne, fun h => hne (hscreen.1 h).1⟩

end SketchTurtle.Turtle
