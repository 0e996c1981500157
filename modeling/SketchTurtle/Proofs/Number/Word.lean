/-
The word of a double, taken apart and put together again.

Core unpacks a word into sign, exponent and mantissa and packs these into a
word. On valid words the two cancel (`pack_unpack`), so the exact value of a
number makes that number again (`toFloat_ofFloat`), and what is made for a finite
value denotes that value (`ofFloat_toFloat`). So does what core packs such a value
into (`ofUnpacked_pack`).
-/
import SketchTurtle.Proofs.Number.Order

namespace SketchTurtle.Exact

open Float.Model Float.Model.UnpackedFloat

theorem toBitVec_ofBitVec (b : BitVec 1) : (Sign.ofBitVec b).toBitVec = b := by
  revert b
  decide

theorem ofBitVec_toBitVec (s : Sign) : Sign.ofBitVec s.toBitVec = s := by
  cases s <;> rfl

theorem toNat_packComponents (s : Sign) (f : BitVec 11) (m : BitVec 52) :
    (packComponents Format.binary64 s f m).toNat = (s.toBitVec.toNat * 2 ^ 11 + f.toNat) * 2 ^ 52 + m.toNat := by
  rw [packComponents, BitVec.toNat_append, BitVec.toNat_append, ← Nat.shiftLeft_add_eq_or_of_lt f.isLt,
    ← Nat.shiftLeft_add_eq_or_of_lt m.isLt, Nat.shiftLeft_eq, Nat.shiftLeft_eq]

theorem packComponents_unpack (b : BitVec 64) :
    packComponents Format.binary64 (Sign.ofBitVec (@unpackSign Format.binary64 b))
      (@unpackExponent Format.binary64 b) (@unpackMantissa Format.binary64 b) = b := by
  have h := b.isLt
  have hsign := toNat_unpackSign b
  have hexponent := toNat_unpackExponent b
  have hmantissa := toNat_unpackMantissa b
  rw [← BitVec.toNat_inj, toNat_packComponents, toBitVec_ofBitVec, hsign, hexponent, hmantissa]
  show (b.toNat / 2 ^ 63 * 2 ^ 11 + b.toNat / 2 ^ 52 % 2 ^ 11) * 2 ^ 52 + b.toNat % 2 ^ 52 = b.toNat
  omega

/-- A mantissa without the leading bit is packed with the exponent field zero. -/
theorem pack_subnormal (s : Sign) (m : BitVec 52) (h : 0 < m.toNat) {e : Int} (he : e = minExponent) :
    UnpackedFloat.pack Format.binary64 (.finite s m.toNat e h) = packComponents Format.binary64 s 0#11 m := by
  have hlog : m.toNat.log2 < 52 := (Nat.log2_lt (by omega)).2 m.isLt
  subst he
  show (if 2 ^ 11 ≤ 1 + 1 then packedInfinity Format.binary64 s else if m.toNat.log2 + 1 = 53 then
      packComponents Format.binary64 s (BitVec.ofNat 11 1) (BitVec.ofNat 52 m.toNat) else
    packComponents Format.binary64 s 0#11 (BitVec.ofNat 52 m.toNat)) = _
  rw [if_neg (by decide), if_neg (by omega), BitVec.ofNat_toNat, BitVec.setWidth_eq]

theorem pack_normal (s : Sign) (f : BitVec 11) (m : BitVec 52) (h : 0 < (1#1 ++ m).toNat) (hf : f ≠ -1#11) :
    UnpackedFloat.pack Format.binary64 (.finite s (1#1 ++ m).toNat ((f.toNat : Int) - 1075) h) =
      packComponents Format.binary64 s f m := by
  have hm := m.isLt
  have hlt := f.isLt
  have hleading := toNat_one_append m
  have hlog : (1#1 ++ m).toNat.log2 = 52 := (Nat.log2_eq_iff (by omega)).2 (by omega)
  have hones : f.toNat ≠ 2 ^ 11 - 1 := fun h => hf (BitVec.eq_of_toNat_eq h)
  have hbiased : ((f.toNat : Int) - 1075 + 1023 + 52).toNat = f.toNat := by omega
  have hrest : BitVec.ofNat 52 (1#1 ++ m).toNat = m := by
    rw [hleading, ← BitVec.toNat_inj, BitVec.toNat_ofNat]
    omega
  show (if 2 ^ 11 ≤ ((f.toNat : Int) - 1075 + 1023 + 52).toNat + 1 then packedInfinity Format.binary64 s else
    if (1#1 ++ m).toNat.log2 + 1 = 53 then
      packComponents Format.binary64 s (BitVec.ofNat 11 ((f.toNat : Int) - 1075 + 1023 + 52).toNat)
        (BitVec.ofNat 52 (1#1 ++ m).toNat)
    else packComponents Format.binary64 s 0#11 (BitVec.ofNat 52 (1#1 ++ m).toNat)) = _
  rw [hbiased, if_neg (by omega), if_pos (by omega), hrest, BitVec.ofNat_toNat, BitVec.setWidth_eq]

/-- A valid word is unpacked and packed again. -/
theorem pack_unpack {b : BitVec 64} (h : Format.binary64.Valid b) :
    UnpackedFloat.pack Format.binary64 (UnpackedFloat.unpack Format.binary64 b) = b := by
  have hfields := packComponents_unpack b
  unfold UnpackedFloat.unpack
  dsimp only
  by_cases hones : @unpackExponent Format.binary64 b = -1#11
  · rw [if_pos hones]
    by_cases hzero : @unpackMantissa Format.binary64 b = 0#52
    · rw [if_pos hzero]
      rw [hones, hzero] at hfields
      exact hfields
    · rw [if_neg hzero]
      exact (h.eq_packedNaN hones hzero).symm
  · rw [if_neg hones]
    by_cases hzeros : @unpackExponent Format.binary64 b = 0#11
    · rw [if_pos hzeros]
      by_cases hzero : @unpackMantissa Format.binary64 b = 0#52
      · rw [dif_pos hzero]
        rw [hzeros, hzero] at hfields
        exact hfields
      · rw [dif_neg hzero]
        rw [hzeros] at hfields
        exact (pack_subnormal _ _ _ (by rw [hzeros]; rfl)).trans hfields
    · rw [if_neg hzeros]
      exact (pack_normal _ _ _ _ hones).trans hfields

theorem ofBits_toBits (x : Float) : Float.ofBits x.toBits = x := by
  obtain ⟨⟨bits, hvalid⟩⟩ := x
  have hmodel : Float.Model.ofBits bits = ⟨bits, hvalid⟩ := by
    unfold Float.Model.ofBits Float.Model.pack
    congr 1
    rw [pack_unpack hvalid]
  exact congrArg Float.ofModel hmodel

/-- The exact value of a number makes the number again. -/
theorem toFloat_ofFloat {x : Float} (h : ofFloat x ≠ .nan) : (ofFloat x).toFloat = x := by
  rw [toFloat, word_ofFloat h, UInt64.ofNat_toNat, ofBits_toBits]

theorem toBits_ofBits {b : UInt64} (h : Format.binary64.Valid b.toBitVec) : (Float.ofBits b).toBits = b := by
  show UInt64.ofBitVec _ = b
  rw [pack_unpack h]

theorem exists_fields {m : Nat} {e : Int} (h : Normal m e) (negative : Bool) :
    ∃ field fraction, (finite negative m e).word =
        (if negative then 2 ^ 63 else 0) + field * 2 ^ 52 + fraction ∧
      field < 2 ^ 11 - 1 ∧ fraction < 2 ^ 52 ∧
      (field = 0 ∧ m = fraction ∧ e = minExponent ∨
        0 < field ∧ m = 2 ^ 52 + fraction ∧ e = (field : Int) - 1075) := by
  have hlt := h.lt
  have hmin := h.min_le
  have hmax := h.le_max
  have hfull := h.full
  simp only [word, Nat.pow_eq]
  simp only [minExponent, maxExponent] at *
  by_cases hm : m < 2 ^ 52
  · refine ⟨0, m, ?_, by omega, hm, .inl ⟨rfl, rfl, by omega⟩⟩
    rw [if_pos hm]
    omega
  · refine ⟨(e + 1075).toNat, m - 2 ^ 52, ?_, by omega, by omega, .inr ⟨by omega, by omega, by omega⟩⟩
    rw [if_neg hm]
    omega

/-- The double that is made for a finite value denotes it. -/
theorem ofFloat_toFloat {m : Nat} {e : Int} (h : Normal m e) (negative : Bool) :
    ofFloat (finite negative m e).toFloat = finite negative m e := by
  obtain ⟨field, fraction, hword, hfield, hfraction, hparts⟩ := exists_fields h negative
  generalize hs : (if negative then 2 ^ 63 else 0 : Nat) = s at hword
  have hsign : s = 2 ^ 63 ∧ negative = true ∨ s = 0 ∧ negative = false := by
    cases negative <;> simp_all
  have hnat : (UInt64.ofNat (finite negative m e).word).toNat = s + field * 2 ^ 52 + fraction := by
    rw [hword, UInt64.toNat_ofNat']
    omega
  have hexponent : (s + field * 2 ^ 52 + fraction) / 2 ^ 52 % 2 ^ 11 = field := by omega
  have hmantissa : (s + field * 2 ^ 52 + fraction) % 2 ^ 52 = fraction := by omega
  have hnegative : ((s + field * 2 ^ 52 + fraction) / 2 ^ 63 == 1) = negative := by
    rcases hsign with ⟨hs, rfl⟩ | ⟨hs, rfl⟩
    · exact beq_iff_eq.2 (by omega)
    · exact beq_eq_false_iff_ne.2 (by omega)
  have hvalid : Format.binary64.Valid (UInt64.ofNat (finite negative m e).word).toBitVec := by
    refine ⟨fun hones => ?_⟩
    have hunpacked := toNat_unpackExponent (UInt64.ofNat (finite negative m e).word).toBitVec
    rw [UInt64.toNat_toBitVec, hnat, hexponent, hones] at hunpacked
    have hall : 2 ^ 11 - 1 = field := hunpacked
    omega
  rw [ofFloat, toFloat, toBits_ofBits hvalid, hnat]
  simp only [Nat.pow_eq, hexponent, hmantissa, hnegative]
  rw [if_neg (by omega)]
  rcases hparts with ⟨h0, rfl, rfl⟩ | ⟨h0, rfl, rfl⟩
  · rw [if_pos h0]
  · rw [if_neg (by omega)]

/-! ## What is packed -/

theorem unpackSign_packComponents (s : Sign) (f : BitVec 11) (m : BitVec 52) :
    @unpackSign Format.binary64 (packComponents Format.binary64 s f m) = s.toBitVec := by
  have hf := f.isLt
  have hm := m.isLt
  refine BitVec.eq_of_toNat_eq ?_
  rw [toNat_unpackSign, toNat_packComponents]
  omega

theorem ofUnpacked_unpack {b : BitVec 64} (h : @unpackExponent Format.binary64 b ≠ -1#11) :
    ofUnpacked (UnpackedFloat.unpack Format.binary64 b) =
      if @unpackExponent Format.binary64 b = 0#11 then
        .finite (Sign.ofBitVec (@unpackSign Format.binary64 b) == .negative)
          (@unpackMantissa Format.binary64 b).toNat minExponent
      else .finite (Sign.ofBitVec (@unpackSign Format.binary64 b) == .negative)
        (2 ^ 52 + (@unpackMantissa Format.binary64 b).toNat) ((@unpackExponent Format.binary64 b).toNat - 1075) := by
  have hone := toNat_one_append (@unpackMantissa Format.binary64 b)
  unfold UnpackedFloat.unpack
  dsimp only
  rw [if_neg h]
  by_cases hzeros : @unpackExponent Format.binary64 b = 0#11
  · rw [if_pos hzeros, if_pos hzeros]
    by_cases hzero : @unpackMantissa Format.binary64 b = 0#52
    · rw [dif_pos hzero, ofUnpacked_zero, hzero]
      rfl
    · rw [dif_neg hzero, ofUnpacked_finite, hzeros]
      rfl
  · rw [if_neg hzeros, if_neg hzeros, ofUnpacked_finite]
    exact congrArg (Exact.finite _ · _) hone

theorem ofUnpacked_packComponents (s : Sign) {f : BitVec 11} (m : BitVec 52) (hf : f ≠ -1#11) :
    ofUnpacked (UnpackedFloat.unpack Format.binary64 (packComponents Format.binary64 s f m)) =
      if f = 0#11 then .finite (s == .negative) m.toNat minExponent
      else .finite (s == .negative) (2 ^ 52 + m.toNat) ((f.toNat : Int) - 1075) := by
  have hexponent : @unpackExponent Format.binary64 (packComponents Format.binary64 s f m) = f :=
    unpackExponent_packComponents
  have hmantissa : @unpackMantissa Format.binary64 (packComponents Format.binary64 s f m) = m :=
    unpackMantissa_packComponents
  have hones : @unpackExponent Format.binary64 (packComponents Format.binary64 s f m) ≠ -1#11 := by
    rwa [hexponent]
  rw [ofUnpacked_unpack hones, unpackSign_packComponents, ofBitVec_toBitVec, hexponent, hmantissa]

theorem ofUnpacked_packedInfinity (s : Sign) :
    ofUnpacked (UnpackedFloat.unpack Format.binary64 (packedInfinity Format.binary64 s)) =
      .infinite (s == .negative) := by
  cases s <;> rfl

theorem ofUnpacked_packedZero (s : Sign) :
    ofUnpacked (UnpackedFloat.unpack Format.binary64 (packedZero Format.binary64 s)) =
      .finite (s == .negative) 0 minExponent := by
  refine (ofUnpacked_packComponents s 0 (by decide)).trans ?_
  rfl

/-- A double's sign, mantissa and exponent are packed into that double. -/
theorem ofUnpacked_pack {m : Nat} {e : Int} (s : Sign) (h : Normal m e) (hm : 0 < m) :
    ofUnpacked (UnpackedFloat.unpack Format.binary64 (UnpackedFloat.pack Format.binary64 (.finite s m e hm))) =
      .finite (s == .negative) m e := by
  obtain ⟨field, fraction, -, hfield, hfraction, ⟨rfl, rfl, rfl⟩ | ⟨hpos, rfl, rfl⟩⟩ := exists_fields h true
  · obtain ⟨b, rfl⟩ : ∃ b : BitVec 52, b.toNat = m := ⟨.ofNat 52 m, Nat.mod_eq_of_lt hfraction⟩
    rw [pack_subnormal s b hm rfl, ofUnpacked_packComponents s b (by decide), if_pos rfl]
  · obtain ⟨b, rfl⟩ : ∃ b : BitVec 52, b.toNat = fraction := ⟨.ofNat 52 fraction, Nat.mod_eq_of_lt hfraction⟩
    obtain ⟨f, rfl⟩ : ∃ f : BitVec 11, f.toNat = field := ⟨.ofNat 11 field, Nat.mod_eq_of_lt (by omega)⟩
    have hones : f ≠ -1#11 := by
      rintro rfl
      exact absurd hfield (by decide)
    have hzero : f ≠ 0#11 := by
      rintro rfl
      exact absurd hpos (by decide)
    revert hm
    rw [← toNat_one_append b]
    intro hm
    rw [pack_normal s f b hm hones, ofUnpacked_packComponents s b hones, if_neg hzero, toNat_one_append]

end SketchTurtle.Exact
