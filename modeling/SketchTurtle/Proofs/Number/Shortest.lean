/-
The shortest decimal reads back as the double it was found for.

Every grid point that the search stops at lies in the interval of the double
(`Interval.contains_of_hit?`), and the search ends at a grid that holds the
double itself (`Interval.contains_search`). So what is found is read as that
double, and so is the same decimal with its digits shared out in another way
between mantissa and exponent (`ofDecimal_shortest`).
-/
import SketchTurtle.Proofs.Number.Nearest

namespace SketchTurtle

open Exact

namespace Shortest.Interval

variable (i : Interval) (k : Int)

/-- What grid and interval have in common on their scale. -/
def commonScale : ℚ := 10 ^ (-k).toNat * 2 ^ (-i.exponent).toNat

theorem commonScale_pos : 0 < i.commonScale k := by
  unfold commonScale
  positivity

theorem gridScale_eq : (i.gridScale k : ℚ) = 10 ^ k * i.commonScale k := by
  simp only [gridScale, commonScale, Nat.pow_eq, Nat.cast_mul, Nat.cast_pow, Nat.cast_ofNat]
  rw [pow_toNat (by norm_num : (10 : ℚ) ≠ 0) k]
  ring

theorem ownScale_eq : (i.ownScale k : ℚ) = 2 ^ i.exponent * i.commonScale k := by
  simp only [ownScale, commonScale, Nat.pow_eq, Nat.cast_mul, Nat.cast_pow, Nat.cast_ofNat]
  rw [pow_toNat (by norm_num : (2 : ℚ) ≠ 0) i.exponent]
  ring

theorem gridScale_pos : 0 < i.gridScale k := by
  simp only [gridScale, Nat.pow_eq]
  positivity

theorem contains_iff {d : Nat} : i.contains k d = true ↔ i.Contains (d * 10 ^ k) := by
  have hs := i.commonScale_pos k
  have hgrid := i.gridScale_eq k
  have hown := i.ownScale_eq k
  have le_iff {a b : Nat} : a * i.ownScale k ≤ b * i.gridScale k ↔ (a * 2 ^ i.exponent : ℚ) ≤ b * 10 ^ k := by
    rw [← Nat.cast_le (α := ℚ), Nat.cast_mul, Nat.cast_mul, hgrid, hown, ← mul_assoc, ← mul_assoc]
    exact mul_le_mul_iff_left₀ hs
  have ge_iff {a b : Nat} : b * i.gridScale k ≤ a * i.ownScale k ↔ (b * 10 ^ k : ℚ) ≤ a * 2 ^ i.exponent := by
    rw [← Nat.cast_le (α := ℚ), Nat.cast_mul, Nat.cast_mul, hgrid, hown, ← mul_assoc, ← mul_assoc]
    exact mul_le_mul_iff_left₀ hs
  simp only [contains, Contains]
  cases i.closed with
  | true => simp [le_iff, ge_iff]
  | false => simp [← not_le, le_iff, ge_iff]

theorem nearer_eq_or : i.nearer k = i.below k ∨ i.nearer k = i.below k + 1 := by
  simp only [nearer]
  split
  · exact .inl rfl
  · split
    · omega
    · exact .inr rfl

theorem contains_of_hit? {d : Nat} (h : i.hit? k = some d) : i.Contains (d * 10 ^ k) := by
  rw [← contains_iff]
  simp only [hit?] at h
  split at h
  · next hbelow habove =>
    cases h
    rcases i.nearer_eq_or k with h | h
    · rwa [h]
    · rwa [h]
  · next hbelow _ =>
    cases h
    exact hbelow
  · next _ habove =>
    cases h
    exact habove
  · cases h

/-- On a grid that holds the double, the nearest point is the double. -/
theorem nearer_eq {d : Nat} (h : (i.middle * 2 ^ i.exponent : ℚ) = d * 10 ^ k) : i.nearer k = d := by
  have hpos := i.gridScale_pos k
  have hmiddle : i.middle * i.ownScale k = d * i.gridScale k := by
    rw [← Nat.cast_inj (R := ℚ), Nat.cast_mul, Nat.cast_mul, gridScale_eq, ownScale_eq, ← mul_assoc,
      ← mul_assoc, h]
  have hbelow : i.below k = d := by
    rw [below, hmiddle, Nat.mul_div_cancel _ hpos]
  simp only [nearer, hbelow, hmiddle]
  rw [if_pos (by rw [← Nat.mul_assoc]; exact Nat.mul_lt_mul_of_pos_right (by omega) hpos)]

/-- What the search finds lies in the interval, if its last grid holds the double. -/
theorem contains_search (steps : Nat) (k : Int) {d : Nat}
    (hlast : (i.middle * 2 ^ i.exponent : ℚ) = d * 10 ^ (k - steps))
    (hself : i.Contains (i.middle * 2 ^ i.exponent)) :
    i.Contains ((i.search steps k).digits * 10 ^ (i.search steps k).exponent) := by
  induction steps generalizing k with
  | zero =>
    rw [Nat.cast_zero, Int.sub_zero] at hlast
    simp only [search, i.nearer_eq k hlast]
    rwa [← hlast]
  | succ steps ih =>
    simp only [search]
    split
    · next h => exact i.contains_of_hit? k h
    · exact ih (k - 1) (by rw [hlast]; congr 2; push_cast; omega)

end Shortest.Interval

/-! ## The double itself -/

open Shortest

theorem middle_interval (m : Nat) (e : Int) :
    ((interval m e).middle * 2 ^ (interval m e).exponent : ℚ) = m * 2 ^ e := by
  have h : (2 : ℚ) ^ e = 2 ^ (e - 2) * 4 := by
    rw [show e = e - 2 + 2 by omega, zpow_two_add, Int.add_sub_cancel]
    norm_num
  simp only [interval, h]
  push_cast
  ring

theorem contains_middle {m : Nat} (hm : 0 < m) (e : Int) : (interval m e).Contains (m * 2 ^ e) := by
  rw [← middle_interval]
  have hu := zpow_pos_two (interval m e).exponent
  have hlow : ((interval m e).low : ℚ) < (interval m e).middle := by
    have : (interval m e).low < (interval m e).middle := by
      simp only [interval]
      split <;> omega
    exact_mod_cast this
  have hhigh : ((interval m e).middle : ℚ) < (interval m e).high := by
    have : (interval m e).middle < (interval m e).high := by
      simp only [interval]
      omega
    exact_mod_cast this
  have hbelow := mul_lt_mul_of_pos_right hlow hu
  have habove := mul_lt_mul_of_pos_right hhigh hu
  unfold Interval.Contains
  split
  · exact ⟨hbelow.le, habove.le⟩
  · exact ⟨hbelow, habove⟩

theorem exists_grid (m : Nat) (e : Int) : ∃ d : Nat, (m * 2 ^ e : ℚ) = d * 10 ^ min e 0 := by
  rcases le_total 0 e with h | h
  · lift e to Nat using h
    refine ⟨m * 2 ^ e, ?_⟩
    rw [min_eq_right (Int.natCast_nonneg e)]
    simp
  · obtain ⟨n, rfl⟩ : ∃ n : Nat, e = -n := ⟨e.natAbs, by omega⟩
    refine ⟨m * 5 ^ n, ?_⟩
    rw [min_eq_left h, zpow_neg, zpow_neg, zpow_natCast, zpow_natCast,
      show (10 : ℚ) ^ n = 5 ^ n * 2 ^ n by rw [← mul_pow]; norm_num]
    push_cast
    field_simp

theorem min_le_coarsest (m : Nat) (e : Int) : min e 0 ≤ coarsest m e := by
  unfold coarsest
  omega

theorem contains_shortest {m : Nat} (hm : 0 < m) (e : Int) :
    (interval m e).Contains ((Decimal.shortest m e).digits * 10 ^ (Decimal.shortest m e).exponent) := by
  obtain ⟨d, hd⟩ := exists_grid m e
  have hle := min_le_coarsest m e
  refine (interval m e).contains_search _ _ (d := d) ?_ ?_
  · rw [middle_interval, hd]
    congr 2
    omega
  · rw [middle_interval]
    exact contains_middle hm e

/-- **The shortest decimal reads back as the double**, also with its digits shared out
in another way. -/
theorem ofDecimal_shortest {negative : Bool} {m digits : Nat} {e exponent : Int} (h : Normal m e)
    (hm : 0 < m) (hsame : (digits * 10 ^ exponent : ℚ) =
      (Decimal.shortest m e).digits * 10 ^ (Decimal.shortest m e).exponent) :
    ofDecimal negative digits exponent = .finite negative m e :=
  ofDecimal_eq h hm (hsame ▸ contains_shortest hm e)

theorem digits_shortest_pos {m : Nat} (hm : 0 < m) (e : Int) : 0 < (Decimal.shortest m e).digits := by
  have h := pos_of_contains (contains_shortest hm e) hm
  refine Nat.pos_of_ne_zero fun h0 => ?_
  rw [h0] at h
  simp at h

end SketchTurtle
