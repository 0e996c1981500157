/-
How far rounding goes down.

Core shifts a mantissa to the right until it fits and keeps what it shifts out in two
residual bits, by which it rounds. What the mantissa and its bits stand for never becomes
less on the way (`Covers.shiftRight`), and rounding takes half a unit from it at most
(`Covers.le_roundedMantissa`). So a result is rounded to no less than a double to which it
is near (`IsNear`), whatever the units of the two are (`reaches_roundWithAccuracy`). A result
that is too great for a finite double becomes an infinity, which is no less either.
-/
import SketchTurtle.Proofs.Number.Closest

namespace SketchTurtle.Exact

open Float.Model Float.Model.UnpackedFloat

/-! ## Residual bits -/

/-- An extended mantissa stands for something that is no less than a number. -/
def Covers (em : ExtendedMantissa) (y : ℚ) : Prop :=
  match em with
  | ⟨m, false, false⟩ => y ≤ m
  | ⟨m, false, true⟩ => y < m + 1 / 2
  | ⟨m, true, false⟩ => y ≤ m + 1 / 2
  | ⟨m, true, true⟩ => y < m + 1

theorem covers_exact (m : Nat) {y : ℚ} : Covers (ExtendedMantissa.ofMantissaAndAccuracy m .exact) y ↔ y ≤ m := Iff.rfl

theorem Covers.mono {em : ExtendedMantissa} {y z : ℚ} (h : Covers em z) (hyz : y ≤ z) : Covers em y := by
  obtain ⟨m, round, sticky⟩ := em
  cases round <;> cases sticky
  · exact hyz.trans h
  · exact hyz.trans_lt h
  · exact hyz.trans h
  · exact hyz.trans_lt h

theorem covers_mantissa (em : ExtendedMantissa) : Covers em em.mantissa := by
  obtain ⟨m, round, sticky⟩ := em
  cases round <;> cases sticky
  · exact le_rfl
  · show (m : ℚ) < m + 1 / 2
    linarith
  · show (m : ℚ) ≤ m + 1 / 2
    linarith
  · show (m : ℚ) < m + 1
    linarith

theorem Covers.lt {em : ExtendedMantissa} {y : ℚ} (h : Covers em y) : y < em.mantissa + 1 := by
  obtain ⟨m, round, sticky⟩ := em
  cases round <;> cases sticky <;> simp only [Covers] at h ⊢ <;> linarith

/-- What is shifted out is kept in the residual bits. -/
theorem Covers.shiftRightOne {em : ExtendedMantissa} {y : ℚ} (h : Covers em y) : Covers em.shiftRightOne (y / 2) := by
  obtain ⟨m, round, sticky⟩ := em
  have hsplit : ((m % 2 : Nat) : ℚ) + 2 * (m / 2 : Nat) = m := by exact_mod_cast Nat.mod_add_div m 2
  have hone : (1 != 0) = true := rfl
  have hzero : (0 != 0) = false := rfl
  rcases Nat.mod_two_eq_zero_or_one m with hm | hm
  all_goals
    rw [hm] at hsplit
    push_cast at hsplit
    cases round <;> cases sticky <;>
      simp only [Covers, ExtendedMantissa.shiftRightOne, hm, hone, hzero, Bool.or_self, Bool.or_true,
        Bool.true_or] at h ⊢ <;>
      linarith

theorem Covers.shiftRight {em : ExtendedMantissa} {y : ℚ} (h : Covers em y) (n : Nat) :
    Covers (em >>> n) (y / 2 ^ n) := by
  show Covers (n.repeat ExtendedMantissa.shiftRightOne em) _
  induction n with
  | zero => simpa [Nat.repeat] using h
  | succ n ih =>
    rw [pow_succ, ← div_div]
    exact ih.shiftRightOne

theorem mantissa_shiftRight (em : ExtendedMantissa) (n : Nat) : (em >>> n).mantissa = em.mantissa / 2 ^ n := by
  show (n.repeat ExtendedMantissa.shiftRightOne em).mantissa = _
  induction n with
  | zero => simp [Nat.repeat]
  | succ n ih =>
    show (n.repeat ExtendedMantissa.shiftRightOne em).mantissa / 2 = _
    rw [ih, Nat.div_div_eq_div_mul, Nat.pow_succ]

theorem Covers.le_roundedMantissa {em : ExtendedMantissa} {y : ℚ} (h : Covers em y) :
    y ≤ em.roundedMantissa + 1 / 2 := by
  obtain ⟨m, round, sticky⟩ := em
  cases round <;> cases sticky
  · show y ≤ (m : ℚ) + 1 / 2
    have h : y ≤ m := h
    linarith
  · exact (show y < m + 1 / 2 from h).le
  · have h : y ≤ m + 1 / 2 := h
    show y ≤ ((m + m % 2 : Nat) : ℚ) + 1 / 2
    push_cast
    have : (0 : ℚ) ≤ (m % 2 : Nat) := Nat.cast_nonneg _
    linarith
  · have h : y < m + 1 := h
    show y ≤ ((m + 1 : Nat) : ℚ) + 1 / 2
    push_cast
    linarith

theorem roundedMantissa_le (em : ExtendedMantissa) : em.roundedMantissa ≤ em.mantissa + 1 := by
  obtain ⟨m, round, sticky⟩ := em
  cases round <;> cases sticky
  · exact Nat.le_succ m
  · exact Nat.le_succ m
  · show m + m % 2 ≤ m + 1
    omega
  · exact le_rfl

/-! ## Rounding to doubles -/

/-- The exponent of the unit that a mantissa is rounded to. -/
def unitOf (m : Nat) (e : Int) : Int := max (m.log2 + e - 52) minExponent

theorem targetExponent_eq (m : Nat) (e : Int) : Format.binary64.targetExponent (totalExponent m e) = unitOf m e := by
  have hbits : Format.binary64.mantissaBits = 53 := rfl
  have hmin : Format.binary64.minExponent = minExponent := rfl
  rw [Format.targetExponent, totalExponent, unitOf, hbits, hmin]
  congr 1
  push_cast
  omega

/-- A rounded mantissa, which may be one too many for its unit. -/
def carried (s : Sign) (m : Nat) (e : Int) : UnpackedFloat :=
  if h : m = 0 then .zero s
  else if m = 2 ^ 53 then .finite s (2 ^ 52) (e + 1) (Nat.two_pow_pos 52)
  else .finite s m e (Nat.pos_of_ne_zero h)

theorem shiftToTargetExponent_carried {m : Nat} {e : Int} (hm : m ≤ 2 ^ 53) (he : minExponent ≤ e) :
    ((shiftToTargetExponent Format.binary64 m e .exact).1.mantissa,
      (shiftToTargetExponent Format.binary64 m e .exact).2) = if m = 2 ^ 53 then (2 ^ 52, e + 1) else (m, e) := by
  rw [shiftToTargetExponent, targetExponent_eq, shiftToExponent]
  simp only [mantissa_shiftRight]
  show (m / 2 ^ (unitOf m e - e).toNat, e + ((unitOf m e - e).toNat : Int)) = _
  by_cases hfull : m = 2 ^ 53
  · have hunit : (unitOf m e - e).toNat = 1 := by
      rw [unitOf, hfull, Nat.log2_two_pow]
      omega
    rw [if_pos hfull, hunit, hfull]
    rfl
  · have hlog : m.log2 ≤ 52 := by
      rcases Nat.eq_zero_or_pos m with rfl | hpos
      · exact Nat.zero_le _
      · exact Nat.lt_succ_iff.1 ((Nat.log2_lt hpos.ne').2 (by omega))
    have hunit : (unitOf m e - e).toNat = 0 := by
      rw [unitOf]
      omega
    rw [if_neg hfull, hunit]
    simp

/-- What a mantissa is rounded to in its unit. -/
def roundedIn (m : Nat) (e : Int) (accuracy : Accuracy) : Nat :=
  (ExtendedMantissa.ofMantissaAndAccuracy m accuracy >>> (unitOf m e - e).toNat).roundedMantissa

theorem mantissa_ofMantissaAndAccuracy (m : Nat) (accuracy : Accuracy) :
    (ExtendedMantissa.ofMantissaAndAccuracy m accuracy).mantissa = m := by
  cases accuracy with
  | exact => rfl
  | inexact order => cases order <;> rfl

theorem roundedIn_le {m : Nat} {e : Int} (hm : m ≠ 0) (he : e ≤ unitOf m e) (accuracy : Accuracy) :
    roundedIn m e accuracy ≤ 2 ^ 53 := by
  refine (roundedMantissa_le _).trans ?_
  rw [mantissa_shiftRight, mantissa_ofMantissaAndAccuracy]
  refine (Nat.div_lt_iff_lt_mul (Nat.two_pow_pos _)).2 ?_
  rw [← Nat.pow_add]
  refine (Nat.log2_lt hm).1 ?_
  rw [unitOf] at *
  omega

theorem roundWithAccuracy_eq {m : Nat} {e : Int} (s : Sign) (hm : m ≠ 0) (he : e ≤ unitOf m e) (accuracy : Accuracy) :
    roundWithAccuracy Format.binary64 s m e accuracy = carried s (roundedIn m e accuracy) (unitOf m e) := by
  have hfirst : shiftToTargetExponent Format.binary64 m e accuracy =
      (ExtendedMantissa.ofMantissaAndAccuracy m accuracy >>> (unitOf m e - e).toNat, unitOf m e) := by
    rw [shiftToTargetExponent, targetExponent_eq, shiftToExponent]
    refine Prod.ext rfl ?_
    show e + ((unitOf m e - e).toNat : Int) = unitOf m e
    omega
  have hmin : minExponent ≤ unitOf m e := le_max_right _ _
  have hsecond := shiftToTargetExponent_carried (roundedIn_le hm he accuracy) hmin
  rw [roundWithAccuracy, hfirst]
  show (if h : (shiftToTargetExponent Format.binary64 (roundedIn m e accuracy) (unitOf m e) .exact).1.mantissa = 0 then
      UnpackedFloat.zero s else .finite s _
        (shiftToTargetExponent Format.binary64 (roundedIn m e accuracy) (unitOf m e) .exact).2
        (Nat.pos_of_ne_zero h)) = _
  generalize shiftToTargetExponent Format.binary64 (roundedIn m e accuracy) (unitOf m e) .exact = shifted at hsecond
  obtain ⟨⟨mantissa, round, sticky⟩, exponent⟩ := shifted
  generalize roundedIn m e accuracy = rounded at hsecond
  rw [carried]
  by_cases hfull : rounded = 2 ^ 53
  · rw [if_pos hfull, Prod.mk.injEq] at hsecond
    obtain ⟨rfl, rfl⟩ := hsecond
    subst hfull
    rfl
  · rw [if_neg hfull, Prod.mk.injEq] at hsecond
    obtain ⟨rfl, rfl⟩ := hsecond
    by_cases hzero : mantissa = 0
    · rw [dif_pos hzero, dif_pos hzero]
    · rw [dif_neg hzero, dif_neg hzero, if_neg hfull]

/-! ## What rounding reaches -/

/-- A mantissa is rounded to one that is full in its unit, or the unit is the smallest. -/
theorem full_roundedIn {m : Nat} {e : Int} (hm : m ≠ 0) (he : e ≤ unitOf m e) (accuracy : Accuracy) :
    2 ^ 52 ≤ roundedIn m e accuracy ∨ unitOf m e = minExponent := by
  rcases le_or_gt (m.log2 + e - 52) minExponent with h | h
  · exact .inr (max_eq_right h)
  · have hunit : unitOf m e = m.log2 + e - 52 := max_eq_left h.le
    have hcovers := covers_mantissa (ExtendedMantissa.ofMantissaAndAccuracy m accuracy)
    have hle := (hcovers.shiftRight (unitOf m e - e).toNat).le_roundedMantissa
    rw [mantissa_ofMantissaAndAccuracy] at hle
    have hpow : 2 ^ 52 * 2 ^ (unitOf m e - e).toNat ≤ m := by
      rw [← Nat.pow_add, show 52 + (unitOf m e - e).toNat = m.log2 by omega]
      exact Nat.log2_self_le hm
    have hdiv : (2 : ℚ) ^ 52 ≤ m / 2 ^ (unitOf m e - e).toNat := by
      rw [le_div_iff₀ (by positivity)]
      exact_mod_cast hpow
    have hlt : (2 : ℚ) ^ 52 < roundedIn m e accuracy + 1 := by
      show (2 : ℚ) ^ 52 < (ExtendedMantissa.roundedMantissa _ : Nat) + 1
      linarith
    have hlt : 2 ^ 52 < roundedIn m e accuracy + 1 := by exact_mod_cast hlt
    exact .inl (by omega)

theorem lt_of_covers {m : Nat} {e : Int} {accuracy : Accuracy} {y : ℚ}
    (hcovers : Covers (ExtendedMantissa.ofMantissaAndAccuracy m accuracy) (y * 2 ^ (-e))) :
    y < 2 ^ (unitOf m e + 53) := by
  have hlt := hcovers.lt
  rw [mantissa_ofMantissaAndAccuracy] at hlt
  have hpow : (m : ℚ) + 1 ≤ 2 ^ (m.log2 + 1) := by exact_mod_cast Nat.lt_log2_self
  calc y = y * 2 ^ (-e) * 2 ^ e := (mul_zpow_neg_mul y e).symm
    _ < 2 ^ (m.log2 + 1) * 2 ^ e := mul_lt_mul_of_pos_right (hlt.trans_le hpow) (zpow_pos_two e)
    _ = 2 ^ ((m.log2 + 1 : Nat) + e) := by rw [← zpow_natCast, ← zpow_two_add]
    _ ≤ 2 ^ (unitOf m e + 53) := by
      refine zpow_le_zpow_right₀ (by norm_num) ?_
      rw [unitOf]
      push_cast
      omega

/-- A number lies above the middle between a double and the one before it. Zero, before which
there is none, is near to everything. Of the mantissas of one unit the least is left out,
since before it the unit changes. -/
def IsNear (n : Nat) (f : Int) (y : ℚ) : Prop := n = 0 ∨ 2 ^ 52 < n ∧ ((n : ℚ) - 1 / 2) * 2 ^ f < y

theorem IsNear.mono {n : Nat} {f : Int} {y z : ℚ} (h : IsNear n f y) (hyz : y ≤ z) : IsNear n f z :=
  h.imp_right fun ⟨hleading, hlt⟩ => ⟨hleading, hlt.trans_le hyz⟩

theorem normal_zero : Normal 0 minExponent := ⟨by norm_num, le_rfl, by decide, .inr rfl⟩

/-- Only zero is near zero. -/
theorem IsNear.eq_zero {n : Nat} {f : Int} (h : IsNear n f 0) : n = 0 := by
  refine h.resolve_right fun ⟨hleading, hlt⟩ => ?_
  have hn : (2 : ℚ) ^ 52 + 1 ≤ n := by exact_mod_cast hleading
  exact absurd hlt (not_lt.2 (mul_nonneg (by linarith) (zpow_pos_two f).le))

/-- Rounding does not fall below a double that is near. -/
theorem le_roundedIn {m n : Nat} {e f : Int} {accuracy : Accuracy} {y : ℚ} (hm : m ≠ 0) (he : e ≤ unitOf m e)
    (hcovers : Covers (ExtendedMantissa.ofMantissaAndAccuracy m accuracy) (y * 2 ^ (-e))) (hn : Normal n f)
    (hnear : IsNear n f y) : (n : ℚ) * 2 ^ f ≤ roundedIn m e accuracy * 2 ^ unitOf m e := by
  rcases hnear with rfl | ⟨hleading, hy⟩
  · rw [Nat.cast_zero, zero_mul]
    exact mul_nonneg (Nat.cast_nonneg _) (zpow_pos_two _).le
  have hbelow := lt_of_covers hcovers
  have hfull := full_roundedIn hm he accuracy
  have hrounded : y * 2 ^ (-unitOf m e) ≤ roundedIn m e accuracy + 1 / 2 := by
    have hle := (hcovers.shiftRight (unitOf m e - e).toNat).le_roundedMantissa
    have hscale : y * 2 ^ (-e) / 2 ^ (unitOf m e - e).toNat = y * 2 ^ (-unitOf m e) := by
      rw [div_eq_mul_inv, ← zpow_natCast, ← zpow_neg, mul_assoc, ← zpow_two_add]
      congr 2
      omega
    rwa [hscale] at hle
  have hnq : (2 : ℚ) ^ 52 + 1 ≤ n := by exact_mod_cast hleading
  generalize roundedIn m e accuracy = M at *
  generalize unitOf m e = t at *
  rcases lt_trichotomy f t with hlt | rfl | hgt
  · -- The double has smaller units, in which the rounded mantissa is more than full.
    have hM : (2 : ℚ) ^ 52 ≤ M := by exact_mod_cast hfull.resolve_right (by have := hn.min_le; omega)
    have hn53 : (n : ℚ) ≤ 2 ^ 53 := by exact_mod_cast hn.lt.le
    calc (n : ℚ) * 2 ^ f ≤ 2 ^ 53 * 2 ^ (t - 1) :=
          mul_le_mul hn53 (zpow_le_zpow_right₀ (by norm_num) (by omega)) (zpow_pos_two f).le (by norm_num)
      _ = 2 ^ 52 * 2 ^ t := by
          rw [show t = (t - 1) + 1 by omega, zpow_two_add]
          norm_num
          ring
      _ ≤ M * 2 ^ t := mul_le_mul_of_nonneg_right hM (zpow_pos_two t).le
  · have hscaled : (n : ℚ) - 1 / 2 < y * 2 ^ (-f) := by
      have := mul_lt_mul_of_pos_right hy (zpow_pos_two (-f))
      rwa [mul_assoc, ← zpow_two_add, Int.add_right_neg, zpow_zero, mul_one] at this
    have hlt : (n : ℚ) < M + 1 := by linarith
    have hlt : n < M + 1 := by exact_mod_cast hlt
    have hle : (n : ℚ) ≤ M := by exact_mod_cast Nat.lt_succ_iff.1 hlt
    exact mul_le_mul_of_nonneg_right hle (zpow_pos_two f).le
  · -- The double has greater units, and there is no room for it.
    have hbeyond : (2 : ℚ) ^ (t + 53) < y := by
      calc (2 : ℚ) ^ (t + 53) = 2 ^ 52 * 2 ^ (t + 1) := by
            rw [show t + 53 = 52 + (t + 1) by omega, zpow_two_add]
            norm_num
        _ ≤ ((n : ℚ) - 1 / 2) * 2 ^ f :=
            mul_le_mul (by linarith) (zpow_le_zpow_right₀ (by norm_num) (by omega)) (zpow_pos_two _).le (by linarith)
        _ < y := hy
    exact absurd hbelow (not_lt.2 hbeyond.le)

/-! ## Doubles that reach a magnitude -/

/-- The double that an unpacked result is packed into. -/
def packed (u : UnpackedFloat) : Float := .ofModel (.pack u)

theorem ofFloat_packed (u : UnpackedFloat) :
    ofFloat (packed u) = ofUnpacked (UnpackedFloat.unpack Format.binary64 (UnpackedFloat.pack Format.binary64 u)) :=
  ofFloat_eq _

/-- A double has this sign, and its magnitude is at least that of another. -/
def Reaches (s : Sign) (n : Nat) (f : Int) (x : Float) : Prop :=
  ∃ a, (ofFloat x).scaled = some (signed (s == .negative) a) ∧ magnitude n f ≤ a

theorem cast_magnitude {m : Nat} {e : Int} (he : minExponent ≤ e) :
    (magnitude m e : ℚ) = m * 2 ^ e * 2 ^ (-minExponent) := by
  rw [magnitude, mul_assoc, ← zpow_two_add, ← Int.sub_eq_add_neg]
  push_cast
  rw [← zpow_natCast, Int.toNat_of_nonneg (by omega)]

theorem magnitude_le_iff {m n : Nat} {e f : Int} (he : minExponent ≤ e) (hf : minExponent ≤ f) :
    magnitude n f ≤ magnitude m e ↔ (n : ℚ) * 2 ^ f ≤ m * 2 ^ e := by
  rw [← Nat.cast_le (α := ℚ), cast_magnitude he, cast_magnitude hf]
  exact mul_le_mul_iff_left₀ (zpow_pos_two _)

theorem reaches_of_infinite {x : Float} {s : Sign} {n : Nat} {f : Int} (hn : Normal n f)
    (hx : ofFloat x = .infinite (s == .negative)) : Reaches s n f x :=
  ⟨beyond, by rw [hx, scaled], hn.magnitude_lt.le⟩

theorem pack_beyond {m : Nat} {e : Int} (s : Sign) (hm : 0 < m) (he : maxExponent < e) :
    UnpackedFloat.pack Format.binary64 (.finite s m e hm) = packedInfinity Format.binary64 s := by
  have hfield : 2 ^ 11 ≤ (e + 1023 + 52).toNat + 1 := by
    rw [maxExponent] at he
    omega
  exact if_pos hfield

/-- A finite result in units of the doubles reaches all that is no greater. -/
theorem reaches_packed {m n : Nat} {e f : Int} (s : Sign) (hm : 0 < m) (hlt : m < 2 ^ 53) (hmin : minExponent ≤ e)
    (hfull : 2 ^ 52 ≤ m ∨ e = minExponent) (hn : Normal n f) (hle : (n : ℚ) * 2 ^ f ≤ m * 2 ^ e) :
    Reaches s n f (packed (.finite s m e hm)) := by
  rcases Int.lt_or_le maxExponent e with he | he
  · refine reaches_of_infinite hn ?_
    rw [ofFloat_packed, pack_beyond s hm he, ofUnpacked_packedInfinity]
  · refine ⟨magnitude m e, ?_, (magnitude_le_iff hmin hn.min_le).2 hle⟩
    rw [ofFloat_packed, ofUnpacked_pack s ⟨hlt, hmin, he, hfull⟩ hm, scaled]

theorem reaches_packed_zero {s : Sign} {n : Nat} {f : Int} (t : Sign) (hn : n = 0) :
    Reaches s n f (packed (.zero t)) := by
  refine ⟨0, ?_, by rw [hn, magnitude, Nat.zero_mul]⟩
  have hsigned (negative : Bool) : signed negative 0 = 0 := by
    cases negative <;> rfl
  rw [ofFloat_packed, hsigned]
  refine (congrArg scaled (ofUnpacked_packedZero t)).trans ?_
  rw [scaled, magnitude, Nat.zero_mul, hsigned]

theorem reaches_packed_carried {m n : Nat} {e f : Int} (s : Sign) (hm : m ≤ 2 ^ 53) (hmin : minExponent ≤ e)
    (hfull : 2 ^ 52 ≤ m ∨ e = minExponent) (hn : Normal n f) (hle : (n : ℚ) * 2 ^ f ≤ m * 2 ^ e) :
    Reaches s n f (packed (carried s m e)) := by
  rw [carried]
  by_cases hzero : m = 0
  · rw [dif_pos hzero]
    refine reaches_packed_zero s (Nat.eq_zero_of_not_pos fun hpos => ?_)
    have hnq : (0 : ℚ) < n * 2 ^ f := mul_pos (by exact_mod_cast hpos) (zpow_pos_two f)
    rw [hzero, Nat.cast_zero, zero_mul] at hle
    exact absurd hnq (not_lt.2 hle)
  · rw [dif_neg hzero]
    by_cases hcarry : m = 2 ^ 53
    · rw [if_pos hcarry]
      refine reaches_packed s _ (by norm_num) (by omega) (.inl le_rfl) hn (hle.trans_eq ?_)
      rw [hcarry, zpow_two_add]
      norm_num
      ring
    · rw [if_neg hcarry]
      exact reaches_packed s _ (by omega) hmin hfull hn hle

/-- **Rounding reaches a double that is near.** -/
theorem reaches_roundWithAccuracy {m n : Nat} {e f : Int} {accuracy : Accuracy} {y : ℚ} (s : Sign) (hm : m ≠ 0)
    (he : e ≤ unitOf m e) (hcovers : Covers (ExtendedMantissa.ofMantissaAndAccuracy m accuracy) (y * 2 ^ (-e)))
    (hn : Normal n f) (hnear : IsNear n f y) :
    Reaches s n f (packed (roundWithAccuracy Format.binary64 s m e accuracy)) := by
  rw [roundWithAccuracy_eq s hm he]
  exact reaches_packed_carried s (roundedIn_le hm he accuracy) (le_max_right _ _) (full_roundedIn hm he accuracy) hn
    (le_roundedIn hm he hcovers hn hnear)

theorem log2_shiftLeft {m : Nat} (hm : m ≠ 0) (k : Nat) : (m <<< k).log2 = m.log2 + k := by
  have hpos : m <<< k ≠ 0 := by
    rw [Nat.shiftLeft_eq]
    exact Nat.mul_ne_zero hm (Nat.two_pow_pos k).ne'
  rw [Nat.log2_eq_iff hpos, Nat.shiftLeft_eq, Nat.pow_add, Nat.add_right_comm, Nat.pow_add _ (m.log2 + 1)]
  exact ⟨Nat.mul_le_mul_right _ (Nat.log2_self_le hm), Nat.mul_lt_mul_of_pos_right Nat.lt_log2_self (Nat.two_pow_pos k)⟩

/-- The same of a number that is not in units of doubles yet. -/
theorem reaches_round {m n : Nat} {e f : Int} (s : Sign) (hm : m ≠ 0) (hn : Normal n f)
    (hnear : IsNear n f (m * 2 ^ e)) : Reaches s n f (packed (UnpackedFloat.round Format.binary64 s m e)) := by
  have hround : UnpackedFloat.round Format.binary64 s m e =
      roundWithAccuracy Format.binary64 s (m <<< (e - unitOf m e).toNat) (e - (e - unitOf m e).toNat) .exact := by
    rw [UnpackedFloat.round, targetExponent_eq]
    rfl
  have hunit : unitOf (m <<< (e - unitOf m e).toNat) (e - (e - unitOf m e).toNat) = unitOf m e := by
    rw [unitOf, log2_shiftLeft hm]
    generalize (e - unitOf m e).toNat = k
    rw [unitOf]
    push_cast
    congr 1
    omega
  have hshifted : m <<< (e - unitOf m e).toNat ≠ 0 := by
    rw [Nat.shiftLeft_eq]
    exact Nat.mul_ne_zero hm (Nat.two_pow_pos _).ne'
  rw [hround]
  refine reaches_roundWithAccuracy s hshifted (by rw [hunit]; omega) ?_ hn hnear
  rw [covers_exact, Nat.shiftLeft_eq, mul_assoc, ← zpow_two_add]
  push_cast
  rw [← zpow_natCast]
  exact (congrArg (fun i => (m : ℚ) * 2 ^ i) (by omega)).le

/-- The same of a number with its sign. -/
theorem exists_reaches_normalize {z : Int} {n : Nat} {e f : Int} (zero : Sign) (hn : Normal n f)
    (hnear : IsNear n f (|(z : ℚ)| * 2 ^ e)) :
    ∃ s : Sign, (0 < z → s = .positive) ∧
      Reaches s n f (packed (UnpackedFloat.normalize Format.binary64 z e zero)) := by
  have hcast (k : Int) (hk : 0 < k) : ((k.toNat : Nat) : ℚ) = k := by
    exact_mod_cast Int.toNat_of_nonneg hk.le
  rw [UnpackedFloat.normalize]
  rcases lt_trichotomy z 0 with h | rfl | h
  · rw [compare_lt_iff_lt.2 h]
    refine ⟨.negative, fun h' => absurd h (by omega), reaches_round _ (by omega) hn ?_⟩
    rw [abs_of_neg (by exact_mod_cast h)] at hnear
    rwa [hcast _ (by omega), Int.cast_neg]
  · rw [compare_eq_iff_eq.2 rfl]
    refine ⟨zero, fun h => absurd h (by omega), reaches_packed_zero zero ?_⟩
    rw [Int.cast_zero, abs_zero, zero_mul] at hnear
    exact hnear.eq_zero
  · rw [compare_gt_iff_gt.2 h]
    refine ⟨.positive, fun _ => rfl, reaches_round _ (by omega) hn ?_⟩
    rw [abs_of_pos (by exact_mod_cast h)] at hnear
    rwa [hcast _ h]

end SketchTurtle.Exact
