/-
Lower bounds through arithmetic on doubles.

The difference of two finite doubles, a square, a sum of doubles that are not negative and a
root are each rounded once, from the exact result or from one that is cut off and marked as
such. So each reaches every double to which the exact result is near, and that result is
taken of doubles that the operands reach, not of the operands. In this way a bound is
followed through a formula, operation by operation, with no regard to overflow.
-/
import SketchTurtle.Proofs.Number.Rounding

namespace SketchTurtle.Exact

open Float.Model Float.Model.UnpackedFloat

/-! ## Arithmetic -/

theorem sub_eq (x y : Float) :
    x - y = packed (UnpackedFloat.sub Format.binary64 x.toModel.unpack y.toModel.unpack) := rfl

theorem add_eq (x y : Float) :
    x + y = packed (UnpackedFloat.add Format.binary64 x.toModel.unpack y.toModel.unpack) := rfl

theorem mul_eq (x y : Float) :
    x * y = packed (UnpackedFloat.mul Format.binary64 x.toModel.unpack y.toModel.unpack) := rfl

theorem sqrt_eq (x : Float) :
    x.sqrt = packed (UnpackedFloat.sqrt Format.binary64 x.toModel.unpack) := rfl

/-- The number that a finite result denotes. -/
def signedValue (s : Sign) (m : Nat) (e : Int) : ℚ := s.apply m * 2 ^ e

theorem withSign_eq_signedValue (s : Sign) (m : Nat) (e : Int) :
    withSign (s == .negative) ((m : ℚ) * 2 ^ e) = signedValue s m e := by
  cases s with
  | negative =>
    show -((m : ℚ) * 2 ^ e) = ((-m : Int) : ℚ) * 2 ^ e
    push_cast
    ring
  | positive =>
    show (m : ℚ) * 2 ^ e = ((m : Int) : ℚ) * 2 ^ e
    rw [Int.cast_natCast]

theorem unpack_cases {x : Float} {a : ℚ} (hx : (ofFloat x).value? = some a) :
    (∃ s, x.toModel.unpack = .zero s ∧ a = 0) ∨
      ∃ s m e hm, x.toModel.unpack = .finite s m e hm ∧ Normal m e ∧ a = signedValue s m e := by
  have hnormal := isNormal_ofFloat x
  rw [ofFloat_eq] at hx hnormal
  cases hu : x.toModel.unpack with
  | notANumber =>
    rw [hu] at hx
    cases hx
  | infinity s =>
    rw [hu] at hx
    cases hx
  | zero s =>
    rw [hu, ofUnpacked_zero, value?, Option.some.injEq, withSign_eq_signedValue] at hx
    refine .inl ⟨s, rfl, ?_⟩
    rw [← hx]
    cases s <;> simp [signedValue, Sign.apply]
  | finite s m e hm =>
    rw [hu] at hx hnormal
    rw [ofUnpacked_finite, value?, Option.some.injEq, withSign_eq_signedValue] at hx
    exact .inr ⟨s, m, e, hm, rfl, hnormal, hx.symm⟩

theorem abs_signedValue (s : Sign) (m : Nat) (e : Int) : |signedValue s m e| = m * 2 ^ e := by
  have habs : |(m : ℚ) * 2 ^ e| = m * 2 ^ e := abs_of_nonneg (mul_nonneg (Nat.cast_nonneg m) (zpow_pos_two e).le)
  rw [← withSign_eq_signedValue]
  cases s with
  | negative => exact (abs_neg _).trans habs
  | positive => exact habs

theorem reaches_packed_normal {m n : Nat} {e f : Int} (s : Sign) (h : Normal m e) (hm : 0 < m) (hn : Normal n f)
    (hnear : IsNear n f (m * 2 ^ e)) : Reaches s n f (packed (.finite s m e hm)) := by
  have hunit : unitOf m e = e := by
    have hmin := h.min_le
    rcases h.full with hfull | rfl
    · have hlog : m.log2 = 52 := (Nat.log2_eq_iff hm.ne').2 ⟨hfull, h.lt⟩
      rw [unitOf, hlog]
      omega
    · have hlog : m.log2 ≤ 52 := Nat.lt_succ_iff.1 ((Nat.log2_lt hm.ne').2 h.lt)
      rw [unitOf]
      omega
  have hrounded : roundedIn m e .exact = m := by
    rw [roundedIn, hunit, Int.sub_self]
    rfl
  have hcovers : Covers (ExtendedMantissa.ofMantissaAndAccuracy m .exact) (m * 2 ^ e * 2 ^ (-e)) := by
    rw [covers_exact, mul_assoc, ← zpow_two_add, Int.add_right_neg, zpow_zero, mul_one]
  have hle := le_roundedIn hm.ne' hunit.ge hcovers hn hnear
  rw [hrounded, hunit] at hle
  exact reaches_packed s hm h.lt h.min_le h.full hn hle

theorem signedValue_decreaseExponent (s : Sign) (m : Nat) {e d : Int} (h : d ≤ e) :
    ((s.apply (decreaseExponent m e d).1 : Int) : ℚ) * 2 ^ d = signedValue s m e := by
  have hshift : ((m <<< (e - d).toNat : Nat) : ℚ) * 2 ^ d = m * 2 ^ e := by
    rw [Nat.shiftLeft_eq]
    push_cast
    rw [← zpow_natCast, mul_assoc, ← zpow_two_add, Int.toNat_of_nonneg (by omega), Int.sub_add_cancel]
  cases s with
  | negative =>
    show ((-(m <<< (e - d).toNat : Nat) : Int) : ℚ) * 2 ^ d = ((-m : Int) : ℚ) * 2 ^ e
    rw [Int.cast_neg, Int.cast_natCast, Int.cast_neg, Int.cast_natCast, neg_mul, neg_mul, hshift]
  | positive =>
    show (((m <<< (e - d).toNat : Nat) : Int) : ℚ) * 2 ^ d = ((m : Int) : ℚ) * 2 ^ e
    exact_mod_cast hshift

/-- **The difference of two doubles reaches every double that is near.** -/
theorem exists_reaches_sub {x y : Float} {a b : ℚ} (hx : (ofFloat x).value? = some a)
    (hy : (ofFloat y).value? = some b) {n : Nat} {f : Int} (hn : Normal n f) (hnear : IsNear n f |a - b|) :
    ∃ s : Sign, Reaches s n f (x - y) := by
  rw [sub_eq]
  obtain ⟨s, hu, rfl⟩ | ⟨s, m, e, hm, hu, hnormal, rfl⟩ := unpack_cases hx
  · obtain ⟨t, hv, rfl⟩ | ⟨t, k, d, hk, hv, hnormal', rfl⟩ := unpack_cases hy
    · rw [sub_zero, abs_zero] at hnear
      rw [hu, hv]
      cases s <;> cases t <;> exact ⟨.positive, reaches_packed_zero _ hnear.eq_zero⟩
    · rw [hu, hv]
      refine ⟨-t, reaches_packed_normal (-t) hnormal' hk hn ?_⟩
      rwa [zero_sub, abs_neg, abs_signedValue] at hnear
  · obtain ⟨t, hv, rfl⟩ | ⟨t, k, d, hk, hv, hnormal', rfl⟩ := unpack_cases hy
    · rw [hu, hv]
      refine ⟨s, reaches_packed_normal s hnormal hm hn ?_⟩
      rwa [sub_zero, abs_signedValue] at hnear
    · rw [hu, hv]
      have hvalue : signedValue s m e - signedValue t k d =
          ((s.apply (decreaseExponent m e (min e d)).1 - t.apply (decreaseExponent k d (min e d)).1 : Int) : ℚ) *
            2 ^ min e d := by
        rw [Int.cast_sub, sub_mul, signedValue_decreaseExponent s m (min_le_left e d),
          signedValue_decreaseExponent t k (min_le_right e d)]
      rw [hvalue, abs_mul, abs_of_pos (zpow_pos_two _)] at hnear
      obtain ⟨sign, -, h⟩ := exists_reaches_normalize .positive hn hnear
      exact ⟨sign, h⟩

theorem Reaches.unpack {s : Sign} {n : Nat} {f : Int} {x : Float} (h : Reaches s n f x) (hn : Normal n f) :
    x.toModel.unpack = .infinity s ∨ (∃ t, x.toModel.unpack = .zero t ∧ n = 0) ∨
      ∃ m e hm, x.toModel.unpack = .finite s m e hm ∧ Normal m e ∧ (n : ℚ) * 2 ^ f ≤ m * 2 ^ e := by
  obtain ⟨a, ha, hle⟩ := h
  have hnormal := isNormal_ofFloat x
  have hsign {t : Sign} (h : (t == .negative) = (s == .negative)) : t = s := by
    cases t <;> cases s <;> first | rfl | cases h
  rw [ofFloat_eq] at ha hnormal
  cases hu : x.toModel.unpack with
  | notANumber =>
    rw [hu] at ha
    cases ha
  | infinity t =>
    rw [hu, ofUnpacked_infinity, scaled, Option.some.injEq] at ha
    rw [hsign (signed_inj beyond_pos ha).1]
    exact .inl rfl
  | zero t =>
    rw [hu, ofUnpacked_zero, scaled, Option.some.injEq] at ha
    have hzero := congrArg Int.natAbs ha
    rw [natAbs_signed, natAbs_signed, magnitude, Nat.zero_mul] at hzero
    rw [← hzero, magnitude] at hle
    exact .inr (.inl ⟨t, rfl, (Nat.mul_eq_zero.1 (Nat.le_zero.1 hle)).resolve_right (Nat.two_pow_pos _).ne'⟩)
  | finite t m e hm =>
    rw [hu] at ha hnormal
    rw [ofUnpacked_finite, scaled, Option.some.injEq] at ha
    obtain ⟨hst, rfl⟩ := signed_inj (magnitude_pos hm e) ha
    cases hsign hst
    exact .inr (.inr ⟨m, e, hm, rfl, hnormal, (magnitude_le_iff hnormal.min_le hn.min_le).1 hle⟩)

section

variable {s : Sign} {x y : Float} {n k p : Nat} {f d g : Int}

theorem reaches_packed_infinity (hn : Normal n f) : Reaches s n f (packed (.infinity s)) :=
  reaches_of_infinite hn (by rw [ofFloat_packed]; exact ofUnpacked_packedInfinity s)

/-- **The square of a double reaches every double that is near.** -/
theorem Reaches.mul_self (h : Reaches s n f x) (hn : Normal n f) (hp : Normal p g)
    (hnear : IsNear p g (n * 2 ^ f * (n * 2 ^ f))) : Reaches .positive p g (x * x) := by
  have hpositive : s * s = .positive := by cases s <;> rfl
  rw [mul_eq]
  obtain hu | ⟨t, hu, rfl⟩ | ⟨m, e, hm, hu, hnormal, hle⟩ := h.unpack hn
  · rw [hu]
    exact hpositive ▸ reaches_packed_infinity hp
  · rw [hu]
    rw [Nat.cast_zero, zero_mul, zero_mul] at hnear
    exact reaches_packed_zero _ hnear.eq_zero
  · have hunit : e + e ≤ unitOf (m * m) (e + e) := by
      rw [unitOf]
      rcases hnormal.full with hfull | rfl
      · have hsquare : 2 ^ 104 ≤ m * m := by
          calc 2 ^ 104 = 2 ^ 52 * 2 ^ 52 := by norm_num
            _ ≤ m * m := Nat.mul_le_mul hfull hfull
        have hlog := (Nat.le_log2 (by positivity)).2 hsquare
        omega
      · have := le_max_right (((m * m).log2 : Int) + (minExponent + minExponent) - 52) minExponent
        rw [minExponent] at *
        omega
    rw [hu, ← hpositive]
    refine reaches_roundWithAccuracy (s * s) (by positivity) hunit ?_ hp (hnear.mono (mul_self_le_mul_self ?_ hle))
    · rw [covers_exact, zpow_neg, ← div_eq_mul_inv, div_le_iff₀ (zpow_pos_two _), zpow_two_add]
      push_cast
      exact (mul_mul_mul_comm _ _ _ _).le
    · exact mul_nonneg (Nat.cast_nonneg n) (zpow_pos_two f).le

/-- **The sum of two doubles that are not negative reaches every double that is near.** -/
theorem Reaches.add (hx : Reaches .positive n f x) (hy : Reaches .positive k d y) (hn : Normal n f)
    (hk : Normal k d) (hp : Normal p g) (hnear : IsNear p g (n * 2 ^ f + k * 2 ^ d)) :
    Reaches .positive p g (x + y) := by
  rw [add_eq]
  obtain hu | ⟨s, hu, rfl⟩ | ⟨m, e, hm, hu, hnormal, hle⟩ := hx.unpack hn
  · obtain hv | ⟨t, hv, rfl⟩ | ⟨l, c, hl, hv, hnormal', hle'⟩ := hy.unpack hk
    all_goals
      rw [hu, hv]
      exact reaches_packed_infinity hp
  · obtain hv | ⟨t, hv, rfl⟩ | ⟨l, c, hl, hv, hnormal', hle'⟩ := hy.unpack hk
    · rw [hu, hv]
      exact reaches_packed_infinity hp
    · rw [Nat.cast_zero, zero_mul, zero_mul, add_zero] at hnear
      rw [hu, hv]
      cases s <;> cases t <;> exact reaches_packed_zero _ hnear.eq_zero
    · rw [Nat.cast_zero, zero_mul, zero_add] at hnear
      rw [hu, hv]
      exact reaches_packed_normal .positive hnormal' hl hp (hnear.mono hle')
  · obtain hv | ⟨t, hv, rfl⟩ | ⟨l, c, hl, hv, hnormal', hle'⟩ := hy.unpack hk
    · rw [hu, hv]
      exact reaches_packed_infinity hp
    · rw [Nat.cast_zero, zero_mul, add_zero] at hnear
      rw [hu, hv]
      exact reaches_packed_normal .positive hnormal hm hp (hnear.mono hle)
    · rw [hu, hv]
      have hvalue : (m : ℚ) * 2 ^ e + l * 2 ^ c =
          ((Sign.positive.apply (decreaseExponent m e (min e c)).1 +
            Sign.positive.apply (decreaseExponent l c (min e c)).1 : Int) : ℚ) * 2 ^ min e c := by
        rw [Int.cast_add, add_mul, signedValue_decreaseExponent .positive m (min_le_left e c),
          signedValue_decreaseExponent .positive l (min_le_right e c)]
        rfl
      have hpos : 0 < Sign.positive.apply (decreaseExponent m e (min e c)).1 +
          Sign.positive.apply (decreaseExponent l c (min e c)).1 := by
        have hsum : (0 : ℚ) < m * 2 ^ e + l * 2 ^ c := by
          have := zpow_pos_two e
          have := zpow_pos_two c
          positivity
        rw [hvalue] at hsum
        exact_mod_cast (mul_pos_iff_of_pos_right (zpow_pos_two _)).1 hsum
      have hnear := hnear.mono (add_le_add hle hle')
      rw [hvalue, ← abs_of_pos (show (0 : ℚ) < _ from Int.cast_pos.2 hpos)] at hnear
      obtain ⟨sign, hsign, h⟩ := exists_reaches_normalize .positive hp hnear
      rwa [hsign hpos] at h

/-- A root that is cut off, with what its remainder says about the rest. -/
theorem covers_sqrt {m : Nat} {y : ℚ} (h : y * y ≤ m) :
    Covers (ExtendedMantissa.ofMantissaAndAccuracy m.sqrt
      (if m - m.sqrt * m.sqrt = 0 then .exact
        else .inexact (if m - m.sqrt * m.sqrt ≤ m.sqrt then .lt else .gt))) y := by
  have hle := Nat.sqrt_le m
  have hlt := Nat.lt_succ_sqrt m
  generalize m.sqrt = root at *
  split
  · next hrem =>
    have hm : (m : ℚ) ≤ root * root := by exact_mod_cast (show m ≤ root * root by omega)
    exact abs_le_of_sq_le_sq' (by nlinarith) (Nat.cast_nonneg root) |>.2
  · split
    · next hrem =>
      have hm : (m : ℚ) ≤ root * root + root := by exact_mod_cast (show m ≤ root * root + root by omega)
      refine lt_of_mul_self_lt_mul_self₀ (by positivity) ?_
      nlinarith
    · have hm : (m : ℚ) < (root + 1) * (root + 1) := by exact_mod_cast hlt
      exact lt_of_mul_self_lt_mul_self₀ (by positivity) (h.trans_lt hm)

/-- The exponent that roots are taken in: low enough for the root to have all its bits. -/
def rootExponent (m : Nat) (e : Int) : Int :=
  min (e / 2) (Format.binary64.targetExponent ((totalExponent m e + 1) / 2))

theorem sqrt_finite (m : Nat) (e : Int) (hm : 0 < m) :
    UnpackedFloat.sqrt Format.binary64 (.finite .positive m e hm) =
      let shifted := m <<< (e - 2 * rootExponent m e).toNat
      roundWithAccuracy Format.binary64 .positive shifted.sqrt (rootExponent m e)
        (if shifted - shifted.sqrt * shifted.sqrt = 0 then .exact
          else .inexact (if shifted - shifted.sqrt * shifted.sqrt ≤ shifted.sqrt then .lt else .gt)) := rfl

theorem rootExponent_le_unitOf {m : Nat} (hm : 0 < m) (e : Int) :
    rootExponent m e ≤ unitOf (m <<< (e - 2 * rootExponent m e).toNat).sqrt (rootExponent m e) := by
  have hhalf : rootExponent m e ≤ e / 2 := min_le_left _ _
  have htarget : rootExponent m e ≤ max ((m.log2 + 1 + e + 1) / 2 - 53) minExponent := by
    refine (min_le_right _ _).trans (le_of_eq ?_)
    rw [Format.targetExponent, totalExponent]
    rfl
  rw [unitOf]
  generalize rootExponent m e = t at *
  rcases le_max_iff.1 htarget with ht | ht
  · have hpow : 2 ^ 104 ≤ m <<< (e - 2 * t).toNat := by
      rw [Nat.shiftLeft_eq]
      calc 2 ^ 104 ≤ 2 ^ (m.log2 + (e - 2 * t).toNat) := Nat.pow_le_pow_right (by norm_num) (by omega)
        _ = 2 ^ m.log2 * 2 ^ (e - 2 * t).toNat := Nat.pow_add ..
        _ ≤ m * 2 ^ (e - 2 * t).toNat := Nat.mul_le_mul_right _ (Nat.log2_self_le hm.ne')
    have hroot : 2 ^ 52 ≤ (m <<< (e - 2 * t).toNat).sqrt := by
      refine Nat.le_sqrt.2 (le_trans (by norm_num) hpow)
    have hlog := (Nat.le_log2 (show (m <<< (e - 2 * t).toNat).sqrt ≠ 0 by omega)).2 hroot
    omega
  · exact ht.trans (le_max_right _ _)

/-- **The root of a double reaches every double that is near.** -/
theorem Reaches.sqrt (h : Reaches .positive n f x) (hn : Normal n f) (hpos : n ≠ 0) (hp : Normal p g) {z : ℚ}
    (hz : z * z ≤ n * 2 ^ f) (hnear : IsNear p g z) : Reaches .positive p g x.sqrt := by
  rw [sqrt_eq]
  obtain hu | ⟨t, hu, hzero⟩ | ⟨m, e, hm, hu, hnormal, hle⟩ := h.unpack hn
  · rw [hu]
    exact reaches_packed_infinity hp
  · exact absurd hzero hpos
  · have hhalf : rootExponent m e ≤ e / 2 := min_le_left _ _
    have hunit := rootExponent_le_unitOf hm e
    rw [hu, sqrt_finite]
    generalize rootExponent m e = t at *
    have hsquare : z * 2 ^ (-t) * (z * 2 ^ (-t)) ≤ (m <<< (e - 2 * t).toNat : Nat) := by
      have hshift : ((m <<< (e - 2 * t).toNat : Nat) : ℚ) = m * 2 ^ e * (2 ^ (-t) * 2 ^ (-t)) := by
        rw [Nat.shiftLeft_eq, mul_assoc, ← zpow_two_add, ← zpow_two_add]
        push_cast
        rw [← zpow_natCast]
        congr 2
        omega
      rw [hshift, mul_mul_mul_comm]
      exact mul_le_mul_of_nonneg_right (hz.trans hle) (mul_pos (zpow_pos_two _) (zpow_pos_two _)).le
    have hroot : (m <<< (e - 2 * t).toNat).sqrt ≠ 0 := by
      rw [Nat.shiftLeft_eq]
      exact (Nat.sqrt_pos.2 (Nat.mul_pos hm (Nat.two_pow_pos _))).ne'
    exact reaches_roundWithAccuracy .positive hroot hunit (covers_sqrt hsquare) hp hnear

end

end SketchTurtle.Exact
