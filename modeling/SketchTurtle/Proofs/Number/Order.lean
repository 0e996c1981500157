/-
How doubles compare, read off their exact values.

`Exact.ofFloat` is the same view of a double as the unpacked form that core
computes with (`ofFloat_eq`), so a comparison of doubles is one of integers:
`scaled` is the number denoted, in units of the smallest positive double,
with the infinities beyond all others and nothing for what is no number.

* `lt_iff`, `le_iff`, `beq_iff`: the double's `<`, `≤` and `==` are those of
  `scaled`.
* `lt_trans`, `lt_or_lt`: `<` is a strict order, and what compares with
  anything lies on one side of every gap.
* `eq_of_beq`: doubles that compare equal are the same, zeros apart.
-/
import SketchTurtle.Number.Exact
import Mathlib.Order.Compare
import Mathlib.Tactic.Ring

namespace SketchTurtle.Exact

open Float.Model Float.Model.UnpackedFloat

/-! ## The fields of a word -/

/-- The exact value of a double that core has unpacked. -/
def ofUnpacked : UnpackedFloat → Exact
  | .notANumber => .nan
  | .infinity s => .infinite (s == .negative)
  | .zero s => .finite (s == .negative) 0 minExponent
  | .finite s m e _ => .finite (s == .negative) m e

theorem ofUnpacked_notANumber : ofUnpacked .notANumber = .nan := rfl

theorem ofUnpacked_infinity (s : Sign) : ofUnpacked (.infinity s) = .infinite (s == .negative) := rfl

theorem ofUnpacked_zero (s : Sign) : ofUnpacked (.zero s) = .finite (s == .negative) 0 minExponent := rfl

theorem ofUnpacked_finite (s : Sign) (m : Nat) (e : Int) (h : 0 < m) :
    ofUnpacked (.finite s m e h) = .finite (s == .negative) m e := rfl

theorem toNat_unpackExponent (b : BitVec 64) :
    (@unpackExponent Format.binary64 b).toNat = b.toNat / 2 ^ 52 % 2 ^ 11 := by
  simp [unpackExponent, Nat.shiftRight_eq_div_pow]

theorem toNat_unpackMantissa (b : BitVec 64) :
    (@unpackMantissa Format.binary64 b).toNat = b.toNat % 2 ^ 52 := by
  simp [unpackMantissa]

theorem toNat_unpackSign (b : BitVec 64) :
    (@unpackSign Format.binary64 b).toNat = b.toNat / 2 ^ 63 := by
  have := b.isLt
  unfold unpackSign
  simp [Nat.shiftRight_eq_div_pow]
  omega

theorem unpackSign_beq_negative (b : BitVec 64) :
    (Sign.ofBitVec (@unpackSign Format.binary64 b) == .negative) = (b.toNat / 2 ^ 63 == 1) := by
  rw [← toNat_unpackSign b]
  generalize @unpackSign Format.binary64 b = s
  revert s
  decide

/-- The leading bit, which the word does not hold, in front of the others. -/
theorem toNat_one_append (m : BitVec 52) : (1#1 ++ m).toNat = 2 ^ 52 + m.toNat := by
  rw [BitVec.toNat_append, ← Nat.shiftLeft_add_eq_or_of_lt m.isLt]
  rfl

theorem ofFloat_eq (x : Float) : ofFloat x = ofUnpacked x.toModel.unpack := by
  have he := toNat_unpackExponent x.toModel.toBits.toBitVec
  have hm := toNat_unpackMantissa x.toModel.toBits.toBitVec
  have hs := unpackSign_beq_negative x.toModel.toBits.toBitVec
  rw [UInt64.toNat_toBitVec] at he hm hs
  have ones : @unpackExponent Format.binary64 x.toModel.toBits.toBitVec = -1#11 ↔
      x.toModel.toBits.toNat / 2 ^ 52 % 2 ^ 11 = 2 ^ 11 - 1 := by
    rw [← BitVec.toNat_inj, he]
    rfl
  have zeros : @unpackExponent Format.binary64 x.toModel.toBits.toBitVec = 0#11 ↔
      x.toModel.toBits.toNat / 2 ^ 52 % 2 ^ 11 = 0 := by
    rw [← BitVec.toNat_inj, he]
    rfl
  have whole : @unpackMantissa Format.binary64 x.toModel.toBits.toBitVec = 0#52 ↔
      x.toModel.toBits.toNat % 2 ^ 52 = 0 := by
    rw [← BitVec.toNat_inj, hm]
    rfl
  unfold ofFloat Float.Model.unpack UnpackedFloat.unpack Float.toBits
  dsimp only [Nat.pow_eq]
  by_cases hones : x.toModel.toBits.toNat / 2 ^ 52 % 2 ^ 11 = 2 ^ 11 - 1
  · rw [if_pos hones, if_pos (ones.2 hones)]
    by_cases hwhole : x.toModel.toBits.toNat % 2 ^ 52 = 0
    · rw [if_pos hwhole, if_pos (whole.2 hwhole), ofUnpacked_infinity, hs]
    · rw [if_neg hwhole, if_neg (mt whole.1 hwhole), ofUnpacked_notANumber]
  · rw [if_neg hones, if_neg (mt ones.1 hones)]
    by_cases hzeros : x.toModel.toBits.toNat / 2 ^ 52 % 2 ^ 11 = 0
    · rw [if_pos hzeros, if_pos (zeros.2 hzeros)]
      by_cases hwhole : x.toModel.toBits.toNat % 2 ^ 52 = 0
      · rw [dif_pos (whole.2 hwhole), ofUnpacked_zero, hs, hwhole]
      · rw [dif_neg (mt whole.1 hwhole), ofUnpacked_finite, hs, hm, he, hzeros]
        rfl
    · have hone := toNat_one_append (@unpackMantissa Format.binary64 x.toModel.toBits.toBitVec)
      rw [hm] at hone
      rw [if_neg hzeros, if_neg (mt zeros.1 hzeros), ofUnpacked_finite, hs, hone, he]
      rfl

theorem word_ofFloat {x : Float} (h : ofFloat x ≠ .nan) : (ofFloat x).word = x.toBits.toNat := by
  have hx := x.toBits.toNat_lt
  revert h
  unfold ofFloat
  simp only [Nat.pow_eq]
  generalize x.toBits.toNat = n at hx
  have hsign : (if (n / 2 ^ 63 == 1) = true then 2 ^ 63 else 0) + n % 2 ^ 63 = n := by
    split
    · next h => simp only [beq_iff_eq] at h; omega
    · next h => simp only [beq_iff_eq] at h; omega
  intro h
  split
  · next hf =>
    rw [if_pos hf] at h
    split
    · simp only [word, Nat.pow_eq]; omega
    · next h0 => exact absurd rfl (if_neg h0 ▸ h)
  · split
    · simp only [word, Nat.pow_eq, if_pos (show n % 2 ^ 52 < 2 ^ 52 by omega)]
      omega
    · simp only [word, Nat.pow_eq, if_neg (show ¬ 2 ^ 52 + n % 2 ^ 52 < 2 ^ 52 by omega)]
      omega

/-- A double is known by its exact value. -/
theorem ofFloat_inj {x y : Float} (h : ofFloat x = ofFloat y) (hx : ofFloat x ≠ .nan) : x = y := by
  have hb : x.toBits = y.toBits := by
    rw [← UInt64.toNat_inj, ← word_ofFloat hx, ← word_ofFloat (h ▸ hx), h]
  obtain ⟨⟨xb, _⟩⟩ := x
  obtain ⟨⟨yb, _⟩⟩ := y
  cases hb
  rfl

/-! ## Magnitudes -/

/-- The mantissa and the exponent of a finite double. -/
structure Normal (m : Nat) (e : Int) : Prop where
  lt : m < 2 ^ 53
  min_le : minExponent ≤ e
  le_max : e ≤ maxExponent
  full : 2 ^ 52 ≤ m ∨ e = minExponent

/-- A finite value that is a double's. -/
def IsNormal : Exact → Prop
  | .finite _ m e => Normal m e
  | _ => True

theorem isNormal_ofFloat (x : Float) : (ofFloat x).IsNormal := by
  have hx := x.toBits.toNat_lt
  unfold ofFloat
  simp only [Nat.pow_eq]
  split
  · split <;> trivial
  · split
    · exact ⟨by omega, by decide, by decide, .inr rfl⟩
    · refine ⟨by omega, ?_, ?_, .inl (by omega)⟩
      · unfold minExponent; omega
      · unfold maxExponent; omega

/-- A finite value without its sign, in units of the smallest positive double. -/
def magnitude (m : Nat) (e : Int) : Nat := m * 2 ^ (e - minExponent).toNat

/-- The magnitude that would follow the greatest of a finite double. -/
def beyond : Nat := magnitude (2 ^ 53) maxExponent

theorem magnitude_pos {m : Nat} (h : 0 < m) (e : Int) : 0 < magnitude m e :=
  Nat.mul_pos h (Nat.two_pow_pos _)

theorem beyond_pos : 0 < beyond := magnitude_pos (by decide) maxExponent

theorem Normal.magnitude_lt {m e} (h : Normal m e) : magnitude m e < beyond := by
  have he : (e - minExponent).toNat ≤ (maxExponent - minExponent).toNat := by
    have := h.le_max
    omega
  calc magnitude m e < magnitude (2 ^ 53) e := Nat.mul_lt_mul_of_pos_right h.lt (Nat.two_pow_pos _)
    _ ≤ beyond := Nat.mul_le_mul_left _ (Nat.pow_le_pow_right (by decide) he)

/-- A smaller exponent means a smaller magnitude: the greater mantissa is full. -/
theorem Normal.magnitude_lt_of_lt {m n e f} (hm : Normal m e) (hn : Normal n f) (h : e < f) :
    magnitude m e < magnitude n f := by
  have hle := hm.min_le
  have hfull : 2 ^ 52 ≤ n := hn.full.resolve_right (by omega)
  have he : (e - minExponent).toNat + 1 ≤ (f - minExponent).toNat := by omega
  calc magnitude m e < 2 ^ 53 * 2 ^ (e - minExponent).toNat :=
        Nat.mul_lt_mul_of_pos_right hm.lt (Nat.two_pow_pos _)
    _ = 2 ^ 52 * 2 ^ ((e - minExponent).toNat + 1) := by rw [Nat.pow_succ]; ring
    _ ≤ magnitude n f := Nat.mul_le_mul hfull (Nat.pow_le_pow_right (by decide) he)

/-- Magnitudes compare by exponents first, then by mantissas. -/
theorem Normal.compare_magnitude {m n e f} (hm : Normal m e) (hn : Normal n f) :
    compare (magnitude m e) (magnitude n f) = (compare e f).then (compare m n) := by
  rcases lt_trichotomy e f with h | rfl | h
  · rw [compare_lt_iff_lt.2 h, compare_lt_iff_lt.2 (hm.magnitude_lt_of_lt hn h)]; rfl
  · rw [compare_eq_iff_eq.2 (rfl : e = e), Ordering.then]
    have mul {m n : Nat} (h : m < n) : magnitude m e < magnitude n e :=
      Nat.mul_lt_mul_of_pos_right h (Nat.two_pow_pos _)
    rcases lt_trichotomy m n with h | rfl | h
    · rw [compare_lt_iff_lt.2 h, compare_lt_iff_lt.2 (mul h)]
    · rw [compare_eq_iff_eq.2 (rfl : m = m), compare_eq_iff_eq.2 rfl]
    · rw [compare_gt_iff_gt.2 h, compare_gt_iff_gt.2 (mul h)]
  · rw [compare_gt_iff_gt.2 h, compare_gt_iff_gt.2 (hn.magnitude_lt_of_lt hm h)]; rfl

theorem Normal.inj {m n e f} (hm : Normal m e) (hn : Normal n f)
    (h : magnitude m e = magnitude n f) : m = n ∧ e = f := by
  have hc := hm.compare_magnitude hn
  rw [compare_eq_iff_eq.2 h, eq_comm, Ordering.then_eq_eq, compare_eq_iff_eq, compare_eq_iff_eq] at hc
  exact ⟨hc.2, hc.1⟩

/-! ## Values -/

/-- The number of that magnitude, with its sign. -/
def signed (negative : Bool) (n : Nat) : Int := if negative then -n else n

/-- The number denoted, in units of the smallest positive double. The
infinities lie beyond all others. -/
def scaled : Exact → Option Int
  | .nan => none
  | .infinite negative => some (signed negative beyond)
  | .finite negative m e => some (signed negative (magnitude m e))

/-- The same of a double that core has unpacked. -/
def unpackedValue : UnpackedFloat → Option Int
  | .notANumber => none
  | .infinity s => some (s.apply beyond)
  | .zero _ => some 0
  | .finite s m e _ => some (s.apply (magnitude m e))

theorem scaled_ofUnpacked (u : UnpackedFloat) : (ofUnpacked u).scaled = unpackedValue u := by
  cases u with
  | notANumber => rfl
  | infinity s => cases s <;> rfl
  | zero s =>
    show (finite (s == .negative) 0 minExponent).scaled = some 0
    cases s <;> simp [scaled, signed, magnitude]
  | finite s m e => cases s <;> rfl

theorem compare_natCast (m n : Nat) : compare (m : Int) n = compare m n := by
  rcases lt_trichotomy m n with h | rfl | h
  · rw [compare_lt_iff_lt.2 h, compare_lt_iff_lt.2 (Int.ofNat_lt.2 h)]
  · rw [compare_eq_iff_eq.2 (rfl : m = m), compare_eq_iff_eq.2 rfl]
  · rw [compare_gt_iff_gt.2 h, compare_gt_iff_gt.2 (Int.ofNat_lt.2 h)]

theorem compare_neg_natCast (m n : Nat) : compare (-(m : Int)) (-n) = (compare m n).swap := by
  rcases lt_trichotomy m n with h | rfl | h
  · rw [compare_lt_iff_lt.2 h, compare_gt_iff_gt.2 (by omega)]; rfl
  · rw [compare_eq_iff_eq.2 (rfl : m = m), compare_eq_iff_eq.2 rfl]; rfl
  · rw [compare_gt_iff_gt.2 h, compare_lt_iff_lt.2 (by omega)]; rfl

/-- Core's comparison is that of the numbers denoted. -/
theorem compare_unpacked (u v : UnpackedFloat) (hu : (ofUnpacked u).IsNormal)
    (hv : (ofUnpacked v).IsNormal) :
    u.compare v = (unpackedValue u).bind fun a => (unpackedValue v).map (compare a) := by
  have lt {a b : Int} (h : a < b) : some Ordering.lt = some (compare a b) := by
    rw [compare_lt_iff_lt.2 h]
  have gt {a b : Int} (h : b < a) : some Ordering.gt = some (compare a b) := by
    rw [compare_gt_iff_gt.2 h]
  have eq (a : Int) : some Ordering.eq = some (compare a a) := by
    rw [compare_eq_iff_eq.2 rfl]
  have neg (n : Nat) : Sign.negative.apply n = -(n : Int) := rfl
  have pos (n : Nat) : Sign.positive.apply n = n := rfl
  have far := beyond_pos
  cases u with
  | notANumber => rfl
  | infinity s =>
    cases v with
    | notANumber => cases s <;> rfl
    | infinity t =>
      cases s <;> cases t
      · exact eq _
      · exact lt (by rw [neg, pos]; omega)
      · exact gt (by rw [neg, pos]; omega)
      · exact eq _
    | zero t =>
      cases s
      · exact lt (by rw [neg]; omega)
      · exact gt (by rw [pos]; omega)
    | finite t n f h =>
      have : magnitude n f < beyond := Normal.magnitude_lt hv
      cases s
      · cases t <;> exact lt (by simp only [neg, pos]; omega)
      · cases t <;> exact gt (by simp only [neg, pos]; omega)
  | zero s =>
    cases v with
    | notANumber => rfl
    | infinity t =>
      cases t
      · exact gt (by rw [neg]; omega)
      · exact lt (by rw [pos]; omega)
    | zero t => exact eq 0
    | finite t n f h =>
      have := magnitude_pos h f
      cases t
      · exact gt (by rw [neg]; omega)
      · exact lt (by rw [pos]; omega)
  | finite s m e h =>
    have hm := magnitude_pos h e
    have : magnitude m e < beyond := Normal.magnitude_lt hu
    cases v with
    | notANumber => cases s <;> rfl
    | infinity t =>
      cases t
      · cases s <;> exact gt (by simp only [neg, pos]; omega)
      · cases s <;> exact lt (by simp only [neg, pos]; omega)
    | zero t =>
      cases s
      · exact lt (by rw [neg]; omega)
      · exact gt (by rw [pos]; omega)
    | finite t n f h =>
      have hn := magnitude_pos h f
      have hc := Normal.compare_magnitude hu hv
      cases s <;> cases t
      · show _ = some (compare (-(magnitude m e : Int)) (-(magnitude n f : Int)))
        rw [compare_neg_natCast, hc]
        rfl
      · exact lt (by rw [neg, pos]; omega)
      · exact gt (by rw [neg, pos]; omega)
      · show _ = some (compare (magnitude m e : Int) (magnitude n f : Int))
        rw [compare_natCast, hc]
        rfl

/-! ## The order of doubles -/

theorem compare_toModel (x y : Float) :
    x.toModel.compare y.toModel =
      (ofFloat x).scaled.bind fun a => (ofFloat y).scaled.map (compare a) := by
  have hx := ofFloat_eq x ▸ isNormal_ofFloat x
  have hy := ofFloat_eq y ▸ isNormal_ofFloat y
  rw [ofFloat_eq, ofFloat_eq, scaled_ofUnpacked, scaled_ofUnpacked]
  exact compare_unpacked _ _ hx hy

theorem lt_iff {x y : Float} :
    x < y ↔ ∃ a b, (ofFloat x).scaled = some a ∧ (ofFloat y).scaled = some b ∧ a < b := by
  have h : x < y ↔ (x.toModel.compare y.toModel == some .lt) = true := decide_eq_true_iff
  rw [h, compare_toModel]
  cases (ofFloat x).scaled <;> cases (ofFloat y).scaled <;> simp [compare_lt_iff_lt]

theorem le_iff {x y : Float} :
    x ≤ y ↔ ∃ a b, (ofFloat x).scaled = some a ∧ (ofFloat y).scaled = some b ∧ a ≤ b := by
  have h : x ≤ y ↔ ((x.toModel.compare y.toModel).any Ordering.isLE) = true := decide_eq_true_iff
  rw [h, compare_toModel]
  cases (ofFloat x).scaled <;> cases (ofFloat y).scaled <;> simp [Std.isLE_compare]

theorem beq_iff {x y : Float} :
    (x == y) = true ↔ ∃ a, (ofFloat x).scaled = some a ∧ (ofFloat y).scaled = some a := by
  show (x.toModel.compare y.toModel == some .eq) = true ↔ _
  rw [compare_toModel]
  cases (ofFloat x).scaled with
  | none => simp
  | some a =>
    cases (ofFloat y).scaled with
    | none => simp
    | some b => simpa using eq_comm

theorem lt_irrefl (x : Float) : ¬ x < x := by
  intro h
  obtain ⟨a, b, ha, hb, hab⟩ := lt_iff.1 h
  rw [ha] at hb
  cases hb
  exact Int.lt_irrefl a hab

theorem ne_zero_of_pos {x : Float} (h : 0 < x) : x ≠ 0 := by
  rintro rfl
  exact lt_irrefl 0 h

theorem lt_trans {x y z : Float} (hxy : x < y) (hyz : y < z) : x < z := by
  obtain ⟨a, b, ha, hb, hab⟩ := lt_iff.1 hxy
  obtain ⟨b', c, hb', hc, hbc⟩ := lt_iff.1 hyz
  rw [hb] at hb'
  cases hb'
  exact lt_iff.2 ⟨a, c, ha, hc, Int.lt_trans hab hbc⟩

theorem lt_of_le_of_lt {x y z : Float} (hxy : x ≤ y) (hyz : y < z) : x < z := by
  obtain ⟨a, b, ha, hb, hab⟩ := le_iff.1 hxy
  obtain ⟨b', c, hb', hc, hbc⟩ := lt_iff.1 hyz
  rw [hb] at hb'
  cases hb'
  exact lt_iff.2 ⟨a, c, ha, hc, Int.lt_of_le_of_lt hab hbc⟩

/-- What is greater than anything is a number, so of two numbers in order it is
greater than the first or less than the second. -/
theorem lt_or_lt {w x y z : Float} (hw : w < z) (hxy : x < y) : x < z ∨ z < y := by
  obtain ⟨-, c, -, hc, -⟩ := lt_iff.1 hw
  obtain ⟨a, b, ha, hb, hab⟩ := lt_iff.1 hxy
  rcases Int.lt_or_le a c with h | h
  · exact .inl (lt_iff.2 ⟨a, c, ha, hc, h⟩)
  · exact .inr (lt_iff.2 ⟨c, b, hc, hb, by omega⟩)

theorem scaled_eq_none_iff {x : Float} : (ofFloat x).scaled = none ↔ x.isNaN = true := by
  have h : x.isNaN = x.toModel.unpack.isNaN := rfl
  rw [h, ofFloat_eq, scaled_ofUnpacked]
  cases x.toModel.unpack with
  | notANumber => exact iff_of_true rfl rfl
  | _ => exact iff_of_false (Option.some_ne_none _) Bool.false_ne_true

theorem isNaN_eq_false_iff {x : Float} : x.isNaN = false ↔ ∃ a, (ofFloat x).scaled = some a := by
  rw [← Bool.not_eq_true, ← scaled_eq_none_iff]
  exact Option.ne_none_iff_exists'

theorem isNaN_of_lt {x y : Float} (h : x < y) : x.isNaN = false ∧ y.isNaN = false := by
  obtain ⟨a, b, ha, hb, -⟩ := lt_iff.1 h
  exact ⟨isNaN_eq_false_iff.2 ⟨a, ha⟩, isNaN_eq_false_iff.2 ⟨b, hb⟩⟩

theorem isNaN_of_le {x y : Float} (h : x ≤ y) : x.isNaN = false ∧ y.isNaN = false := by
  obtain ⟨a, b, ha, hb, -⟩ := le_iff.1 h
  exact ⟨isNaN_eq_false_iff.2 ⟨a, ha⟩, isNaN_eq_false_iff.2 ⟨b, hb⟩⟩

theorem not_le_iff {x y : Float} (hx : x.isNaN = false) (hy : y.isNaN = false) : ¬ x ≤ y ↔ y < x := by
  obtain ⟨a, ha⟩ := isNaN_eq_false_iff.1 hx
  obtain ⟨b, hb⟩ := isNaN_eq_false_iff.1 hy
  simp [le_iff, lt_iff, ha, hb]

theorem max_lt_iff {x y z : Float} (hx : x.isNaN = false) (hy : y.isNaN = false) :
    max x y < z ↔ x < z ∧ y < z := by
  have hmax : max x y = if x ≤ y then y else x := rfl
  rw [hmax]
  split
  · next hle => exact ⟨fun h => ⟨lt_of_le_of_lt hle h, h⟩, And.right⟩
  · next hle => exact ⟨fun h => ⟨h, lt_trans ((not_le_iff hx hy).1 hle) h⟩, And.left⟩

theorem signed_inj {s t : Bool} {m n : Nat} (hm : 0 < m) (h : signed s m = signed t n) :
    s = t ∧ m = n := by
  cases s <;> cases t <;> simp only [signed, Bool.false_eq_true, if_false, if_true] at h
  · exact ⟨rfl, by omega⟩
  · omega
  · omega
  · exact ⟨rfl, by omega⟩

@[simp]
theorem natAbs_signed (negative : Bool) (n : Nat) : (signed negative n).natAbs = n := by
  cases negative <;> simp [signed]

theorem decide_signed_lt_zero {n : Nat} (h : 0 < n) (negative : Bool) : decide (signed negative n < 0) = negative := by
  cases negative <;> simp [signed, h]

/-- The number denoted determines the exact value, unless it is zero. -/
theorem scaled_inj {x y : Exact} {a : Int} (hx : x.IsNormal) (hy : y.IsNormal) (h0 : a ≠ 0)
    (hxa : x.scaled = some a) (hya : y.scaled = some a) : x = y := by
  cases x with
  | nan => cases hxa
  | infinite s =>
    cases y with
    | nan => cases hya
    | infinite t =>
      rw [← hya] at hxa
      rw [(signed_inj beyond_pos (Option.some.inj hxa)).1]
    | finite t n f =>
      rw [← hya] at hxa
      have := (signed_inj beyond_pos (Option.some.inj hxa)).2
      have := Normal.magnitude_lt hy
      omega
  | finite s m e =>
    have hm : 0 < magnitude m e := by
      refine Nat.pos_of_ne_zero fun h => h0 ?_
      rw [scaled, h] at hxa
      cases s <;> exact (Option.some.inj hxa).symm
    rw [← hya] at hxa
    cases y with
    | nan => cases hxa
    | infinite t =>
      have := (signed_inj hm (Option.some.inj hxa)).2
      have := Normal.magnitude_lt hx
      omega
    | finite t n f =>
      obtain ⟨hst, hmn⟩ := signed_inj hm (Option.some.inj hxa)
      obtain ⟨rfl, rfl⟩ := Normal.inj hx hy hmn
      rw [hst]

theorem scaled_zero : (ofFloat 0).scaled = some 0 := by decide

theorem exists_scaled_eq {x : Exact} (h : x.isFinite = true) : ∃ a, x.scaled = some a := by
  cases x with
  | nan => cases h
  | infinite negative => cases h
  | finite negative mantissa exponent => exact ⟨_, rfl⟩

theorem not_le_zero_iff {x : Float} (hfinite : (ofFloat x).isFinite = true) : ¬ x ≤ 0 ↔ 0 < x := by
  obtain ⟨a, ha⟩ := exists_scaled_eq hfinite
  rw [le_iff, lt_iff, ha, scaled_zero]
  simp

theorem not_lt_zero_iff {x : Float} (hfinite : (ofFloat x).isFinite = true) : ¬ x < 0 ↔ 0 ≤ x := by
  obtain ⟨a, ha⟩ := exists_scaled_eq hfinite
  rw [le_iff, lt_iff, ha, scaled_zero]
  simp

theorem beq_zero_iff {x : Float} {negative : Bool} {m : Nat} {e : Int}
    (hx : ofFloat x = .finite negative m e) : (x == 0) = true ↔ m = 0 := by
  have hscaled : (ofFloat x).scaled = some (signed negative (magnitude m e)) := by rw [hx, scaled]
  have hzero : signed negative (magnitude m e) = 0 ↔ m = 0 := by
    rw [signed, magnitude]
    cases negative <;> simp
  simp only [beq_iff, scaled_zero, hscaled, Option.some.injEq, ← hzero]
  constructor
  · rintro ⟨a, rfl, h⟩
    exact h.symm
  · exact fun h => ⟨0, h, rfl⟩

/-- A positive double is the only one that compares equal to it. -/
theorem eq_of_beq {x y : Float} (hpos : 0 < x) (h : (x == y) = true) : x = y := by
  obtain ⟨z, a, hz, ha, hlt⟩ := lt_iff.1 hpos
  obtain ⟨b, hb, hy⟩ := beq_iff.1 h
  rw [scaled_zero] at hz
  cases hz
  rw [ha] at hb
  cases hb
  refine ofFloat_inj (scaled_inj (isNormal_ofFloat x) (isNormal_ofFloat y) (by omega) ha hy) ?_
  intro hnan
  rw [hnan] at ha
  cases ha

theorem beq_iff_eq_of_pos {x y : Float} (hpos : 0 < x) : (x == y) = true ↔ x = y := by
  refine ⟨eq_of_beq hpos, ?_⟩
  rintro rfl
  obtain ⟨-, a, -, ha, -⟩ := lt_iff.1 hpos
  exact beq_iff.2 ⟨a, ha, ha⟩

end SketchTurtle.Exact
