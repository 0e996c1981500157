/-
How many decimal places a double is written with.

The search for the shortest decimal goes from coarse grids to fine ones and passes over
none that has a point in the interval of the double (`Interval.hit?_ne_none`). So a double
that stands for a decimal with some places is written with no more of them
(`le_exponent_shortest`), and the last digit is no zero (`digits_shortest_mod_ten`).
-/
import SketchTurtle.Proofs.Number.Reading

namespace SketchTurtle

open Exact

namespace Shortest.Interval

variable {i : Interval}

theorem Contains.of_between {x y z : ℚ} (hx : i.Contains x) (hz : i.Contains z) (hxy : x ≤ y) (hyz : y ≤ z) :
    i.Contains y := by
  simp only [Contains] at *
  cases h : i.closed with
  | true =>
    simp only [h, if_true] at *
    exact ⟨hx.1.trans hxy, hyz.trans hz.2⟩
  | false =>
    simp only [h, Bool.false_eq_true, if_false] at *
    exact ⟨hx.1.trans_le hxy, hyz.trans_lt hz.2⟩

theorem below_bounds (i : Interval) (k : Int) :
    (i.below k * 10 ^ k : ℚ) ≤ i.middle * 2 ^ i.exponent ∧
      (i.middle * 2 ^ i.exponent : ℚ) ≤ (i.below k + 1 : Nat) * 10 ^ k := by
  have hscale := i.commonScale_pos k
  have hle : i.below k * i.gridScale k ≤ i.middle * i.ownScale k := Nat.div_mul_le_self _ _
  have hge : i.middle * i.ownScale k ≤ (i.below k + 1) * i.gridScale k := by
    rw [Nat.mul_comm (i.below k + 1)]
    exact (Nat.lt_mul_div_succ _ (i.gridScale_pos k)).le
  constructor
  · refine le_of_mul_le_mul_right ?_ hscale
    rw [mul_assoc, mul_assoc, ← gridScale_eq, ← ownScale_eq]
    exact_mod_cast hle
  · refine le_of_mul_le_mul_right ?_ hscale
    rw [mul_assoc, mul_assoc, ← gridScale_eq, ← ownScale_eq]
    exact_mod_cast hge

section Search

variable (hself : i.Contains (i.middle * 2 ^ i.exponent))
include hself

/-- A grid with a point in the interval is not passed over. -/
theorem hit?_ne_none {k : Int} {c : Nat} (hc : i.Contains (c * 10 ^ k)) : i.hit? k ≠ none := by
  obtain ⟨hle, hge⟩ := i.below_bounds k
  have hten := zpow_pos_ten k
  rcases Nat.lt_or_ge (i.below k) c with hlt | hge'
  · have hnext : ((i.below k + 1 : Nat) * 10 ^ k : ℚ) ≤ c * 10 ^ k :=
      mul_le_mul_of_nonneg_right (by exact_mod_cast hlt) hten.le
    have habove := (i.contains_iff k).2 (hself.of_between hc hge hnext)
    rw [hit?, habove]
    cases i.contains k (i.below k) <;> simp
  · have hprevious : (c * 10 ^ k : ℚ) ≤ i.below k * 10 ^ k :=
      mul_le_mul_of_nonneg_right (by exact_mod_cast hge') hten.le
    have hbelow := (i.contains_iff k).2 (hc.of_between hself hprevious hle)
    rw [hit?, hbelow]
    cases i.contains k (i.below k + 1) <;> simp

/-- The search ends at a grid that has a point in the interval, or before. -/
theorem le_exponent_search {k : Int} {c : Nat} (hc : i.Contains (c * 10 ^ k)) (steps : Nat) {first : Int}
    (hk : k ≤ first) : k ≤ (i.search steps first).exponent := by
  induction steps generalizing first with
  | zero => exact hk
  | succ steps ih =>
    simp only [search]
    split
    · exact hk
    · next hnone =>
      have hne : first ≠ k := by
        rintro rfl
        exact hit?_ne_none hself hc hnone
      exact ih (by omega)

end Search

/-- The grid before the one that the search ends at has no point in the interval. -/
theorem hit?_search (i : Interval) (steps : Nat) (first : Int) (h : (i.search steps first).exponent < first) :
    i.hit? ((i.search steps first).exponent + 1) = none := by
  induction steps generalizing first with
  | zero => exact absurd h (lt_irrefl first)
  | succ steps ih =>
    simp only [search] at h ⊢
    split at h
    · exact absurd h (lt_irrefl first)
    · next hnone =>
      rcases Int.lt_or_le (i.search steps (first - 1)).exponent (first - 1) with hlt | hge
      · exact ih (first - 1) hlt
      · rw [show (i.search steps (first - 1)).exponent + 1 = first by omega]
        exact hnone

end Shortest.Interval

open Shortest

section Double

variable {m : Nat} (hm : 0 < m) {e : Int}
include hm

theorem contains_self (e : Int) :
    (interval m e).Contains ((interval m e).middle * 2 ^ (interval m e).exponent) := by
  rw [middle_interval]
  exact contains_middle hm e

/-- A double is written with no more places than a decimal that it stands for. -/
theorem le_exponent_shortest {c : Nat} {k : Int} (hc : (interval m e).Contains (c * 10 ^ k))
    (hk : k ≤ coarsest m e) : k ≤ (Decimal.shortest m e).exponent :=
  Interval.le_exponent_search (contains_self hm e) hc _ hk

/-- The last digit of the shortest decimal is no zero, unless the search ended at once. -/
theorem digits_shortest_mod_ten (h : (Decimal.shortest m e).exponent < coarsest m e) :
    (Decimal.shortest m e).digits % 10 ≠ 0 := by
  intro hzero
  obtain ⟨c, hc⟩ := Nat.dvd_of_mod_eq_zero hzero
  refine Interval.hit?_ne_none (c := c) (contains_self hm e) ?_ (Interval.hit?_search _ _ _ h)
  have hcontains := contains_shortest hm e
  rw [hc] at hcontains
  convert hcontains using 1
  rw [show ((interval m e).search (coarsest m e - min e 0).toNat (coarsest m e)).exponent =
    (Decimal.shortest m e).exponent from rfl, zpow_add₀ (by norm_num)]
  push_cast
  ring

/-! ## Whole numbers -/

theorem ratio_mod_of_contains {c : Nat} (hc : (interval m e).Contains c) :
    (ratio m e).1 % (ratio m e).2 = 0 := by
  rcases le_or_gt 0 e with he | he
  · rw [ratio_snd_of_nonneg m he, Nat.mod_one]
  · simp only [ratio, Nat.pow_eq]
    obtain ⟨⟨hlow, hhigh⟩, -⟩ := bounds_of_contains hc hm
    obtain ⟨k, rfl⟩ : ∃ k : Nat, e = -k := ⟨(-e).toNat, by omega⟩
    rw [neg_neg, zpow_natCast] at hlow hhigh
    have hlow : (2 * m : ℚ) ≤ 2 * (c * 2 ^ k) + 1 := by linarith
    have hhigh : (2 * (c * 2 ^ k) : ℚ) ≤ 2 * m + 1 := by linarith
    have hlow : 2 * m ≤ 2 * (c * 2 ^ k) + 1 := by exact_mod_cast hlow
    have hhigh : 2 * (c * 2 ^ k) ≤ 2 * m + 1 := by exact_mod_cast hhigh
    have hm : m = c * 2 ^ k := by omega
    rw [Int.toNat_of_nonpos (show -(k : Int) ≤ 0 by omega), Nat.pow_zero, Nat.mul_one, neg_neg, Int.toNat_natCast,
      hm, Nat.mul_mod_left]

/-! ## Two places -/

/-- The search begins among tenths at the latest, but for very small numbers. -/
theorem neg_one_le_coarsest {x : ℚ} (hx : (interval m e).Contains x) (hlow : 2 ^ (-7 : Int) ≤ x) :
    -1 ≤ coarsest m e := by
  obtain ⟨⟨-, hhigh⟩, -⟩ := bounds_of_contains hx hm
  have hlog : (m : ℚ) + 1 ≤ 2 ^ (m.log2 + 1) := by exact_mod_cast Nat.lt_log2_self (n := m)
  have hlt : x < 2 ^ (e + (m.log2 + 1 : Nat)) := (lt_zpow_iff _).2 (by linarith)
  have := (zpow_lt_zpow_iff_right₀ (by norm_num)).1 (hlow.trans_lt hlt)
  unfold coarsest
  push_cast at this
  omega

/-- **A double that stands for a number of hundredths and is not whole is written with one
place or two**, of which the last is no zero. -/
theorem shortest_of_contains_hundredths {n : Nat} (hn : (interval m e).Contains (n / 100))
    (hfraction : (ratio m e).1 % (ratio m e).2 ≠ 0) :
    ((Decimal.shortest m e).exponent = -1 ∨ (Decimal.shortest m e).exponent = -2) ∧
      (Decimal.shortest m e).digits % 10 ≠ 0 := by
  have hcontains := contains_shortest hm e
  have hstart : -1 ≤ coarsest m e := by
    have hpos : 0 < n := Nat.pos_of_ne_zero fun h0 => by
      have := pos_of_contains hn hm
      simp [h0] at this
    have hone : (1 : ℚ) ≤ n := by exact_mod_cast hpos
    refine neg_one_le_coarsest hm hn ?_
    norm_num
    linarith
  have hlow : -2 ≤ (Decimal.shortest m e).exponent := by
    refine le_exponent_shortest (c := n) hm ?_ (by omega)
    convert hn using 1
    norm_num
    ring
  have hwhole (c : Nat) : (c : ℚ) ≠ (Decimal.shortest m e).digits * 10 ^ (Decimal.shortest m e).exponent :=
    fun h => hfraction (ratio_mod_of_contains hm (h ▸ hcontains))
  have hhigh : (Decimal.shortest m e).exponent < 0 := by
    by_contra hge
    refine hwhole ((Decimal.shortest m e).digits * 10 ^ (Decimal.shortest m e).exponent.toNat) ?_
    push_cast
    rw [← zpow_natCast, Int.toNat_of_nonneg (by omega)]
  refine ⟨by omega, ?_⟩
  rcases show (Decimal.shortest m e).exponent = -1 ∨ (Decimal.shortest m e).exponent = -2 by omega with h | h
  · intro hzero
    obtain ⟨c, hc⟩ := Nat.dvd_of_mod_eq_zero hzero
    refine hwhole c ?_
    rw [hc, h, zpow_neg_one]
    push_cast
    ring
  · exact digits_shortest_mod_ten hm (by omega)

end Double

/-- What a double with a fraction stands for is not too large for positional notation. -/
theorem lt_of_contains {m : Nat} {e : Int} {x : ℚ} (h : Normal m e) (hm : 0 < m) (he : e < 0)
    (hx : (interval m e).Contains x) : x < 10 ^ (16 : Int) := by
  obtain ⟨⟨-, hhigh⟩, -⟩ := bounds_of_contains hx hm
  have hmq : (m : ℚ) + 1 ≤ 2 ^ 53 := by exact_mod_cast h.lt
  calc x < 2 ^ (e + (53 : Nat)) := (lt_zpow_iff 53).2 (by linarith)
    _ ≤ 2 ^ (52 : Int) := zpow_le_zpow_right₀ (by norm_num) (by push_cast; omega)
    _ ≤ 10 ^ (16 : Int) := by norm_num

/-! ## Positional notation -/

namespace Layout

open Numeral

theorem report_decimal_eq {x : Decimal} (hx : x.digits ≠ 0) (hlow : -4 ≤ x.exponent)
    (hhigh : (x.digits * 10 ^ x.exponent : ℚ) < 10 ^ (16 : Int)) :
    report.decimal x = positional (digitsOf x.digits) x.exponent := by
  have hleading := (zpow_lt_zpow_iff_right₀ (by norm_num)).1 ((decimal_bounds hx x.exponent).1.trans_lt hhigh)
  have hpos : 0 < (digitsOf x.digits).length := Nat.length_toDigits_pos
  have hcount : digitCount x.digits = (digitsOf x.digits).length := rfl
  have hlowest : report.lowest = -4 := rfl
  have hhighest : report.highest = 15 := rfl
  simp only [decimal]
  rw [if_pos (by omega)]

theorem positional_append {whole fraction : List Char} (hwhole : whole ≠ []) (hfraction : fraction ≠ []) :
    positional (whole ++ fraction) (-(fraction.length : Int)) = whole ++ '.' :: fraction := by
  have hw := List.length_pos_iff.2 hwhole
  have hf := List.length_pos_iff.2 hfraction
  have hcount : ((whole ++ fraction).length : Int) + -(fraction.length : Int) = whole.length := by
    rw [List.length_append]
    omega
  simp only [positional, hcount]
  rw [if_neg (by omega), if_pos (by omega), Int.toNat_natCast, List.take_left, List.drop_left]

theorem digitsOf_eq_append {n : Nat} (h : 10 ≤ n) : digitsOf n = digitsOf (n / 10) ++ [(n % 10).digitChar] :=
  Nat.toDigits_of_base_le (by decide) h

theorem digitsOf_of_lt {n : Nat} (h : n < 10) : digitsOf n = [n.digitChar] :=
  Nat.toDigits_of_lt_base h

theorem positional_one (n : Nat) :
    positional (digitsOf n) (-1) = digitsOf (n / 10) ++ ['.', (n % 10).digitChar] := by
  rcases Nat.lt_or_ge n 10 with h | h
  · rw [digitsOf_of_lt h, Nat.div_eq_of_lt h, Nat.mod_eq_of_lt h]
    rfl
  · rw [digitsOf_eq_append h]
    exact positional_append (digitsOf_ne_nil _) (List.cons_ne_nil _ _)

theorem positional_two (n : Nat) :
    positional (digitsOf n) (-2) =
      digitsOf (n / 100) ++ ['.', (n / 10 % 10).digitChar, (n % 10).digitChar] := by
  rcases Nat.lt_or_ge n 10 with h | h
  · rw [digitsOf_of_lt h, Nat.div_eq_of_lt h, Nat.mod_eq_of_lt h, Nat.div_eq_of_lt (by omega)]
    rfl
  · rw [digitsOf_eq_append h]
    rcases Nat.lt_or_ge (n / 10) 10 with h' | h'
    · rw [digitsOf_of_lt h', Nat.mod_eq_of_lt h', Nat.div_eq_of_lt (show n < 100 by omega)]
      rfl
    · rw [digitsOf_eq_append h', Nat.div_div_eq_div_mul, List.append_assoc]
      exact positional_append (digitsOf_ne_nil _) (List.cons_ne_nil _ _)

end Layout

end SketchTurtle
