/-
The bytes that are read as text are those that texts are written as.

A character is written as one of four kinds of sequences (`Sequence`), in just one way
(`sequence_utf8EncodeChar`, `Sequence.utf8EncodeChar_eq`), and that sequence is read as the
character (`Sequence.decodeFrom`). So bytes are read without a fault if, and only if, some text is
written as them, and then as that text (`decodeFrom_eq_ok_iff`).
-/
import SketchTurtle.Files.Tree
import SketchTurtle.Text.Utf8

namespace SketchTurtle

namespace Utf8

variable {a b c d : UInt8}

/-! ## Bytes as numbers -/

theorem width?_eq_some {n : Nat} : width? a = some n ↔
    (n = 1 ∧ a.toNat < 128) ∨ (n = 2 ∧ 194 ≤ a.toNat ∧ a.toNat < 224) ∨ (n = 3 ∧ 224 ≤ a.toNat ∧ a.toNat < 240) ∨
      (n = 4 ∧ 240 ≤ a.toNat ∧ a.toNat < 245) := by
  simp only [width?, UInt8.lt_iff_toNat_lt, UInt8.reduceToNat]
  repeat' split
  all_goals
    simp only [Option.some.injEq, reduceCtorEq, false_iff]
    omega

theorem continues_iff : continues b = true ↔ 128 ≤ b.toNat ∧ b.toNat < 192 := by
  simp [continues, UInt8.lt_iff_toNat_lt, UInt8.le_iff_toNat_le]

theorem mayFollow_iff : mayFollow a b = true ↔ (128 ≤ b.toNat ∧ b.toNat < 192) ∧ ¬(a.toNat = 224 ∧ b.toNat < 160) ∧
    ¬(a.toNat = 237 ∧ 160 ≤ b.toNat) ∧ ¬(a.toNat = 240 ∧ b.toNat < 144) ∧ ¬(a.toNat = 244 ∧ 144 ≤ b.toNat) := by
  simp only [mayFollow, Bool.and_eq_true, continues_iff, Bool.not_eq_true', Bool.and_eq_false_iff, beq_eq_false_iff_ne,
    decide_eq_false_iff_not, UInt8.lt_iff_toNat_lt, UInt8.le_iff_toNat_le, ne_eq, ← UInt8.toNat_inj, UInt8.reduceToNat]
  omega

/-! ## Sequences -/

/-- The sequences of bytes that stand for a character, with its number. -/
inductive Sequence : List UInt8 → Nat → Prop where
  | one {a : UInt8} {n : Nat} (ha : width? a = some 1) (hn : n = a.toNat) : Sequence [a] n
  | two {a b : UInt8} {n : Nat} (ha : width? a = some 2) (hb : continues b = true)
      (hn : n = a.toNat % 32 * 64 + low b) : Sequence [a, b] n
  | three {a b c : UInt8} {n : Nat} (ha : width? a = some 3) (hb : mayFollow a b = true) (hc : continues c = true)
      (hn : n = a.toNat % 16 * 4096 + low b * 64 + low c) : Sequence [a, b, c] n
  | four {a b c d : UInt8} {n : Nat} (ha : width? a = some 4) (hb : mayFollow a b = true) (hc : continues c = true)
      (hd : continues d = true) (hn : n = a.toNat % 8 * 262144 + low b * 4096 + low c * 64 + low d) :
      Sequence [a, b, c, d] n

section Sequence

variable {sequence : List UInt8} {n : Nat}

theorem Sequence.decodeFrom (h : Sequence sequence n) (position : Nat) (rest : List UInt8) :
    decodeFrom position (sequence ++ rest) =
      (Utf8.decodeFrom (position + sequence.length) rest).map (Char.ofNat n :: ·) := by
  cases h with
  | one ha hn =>
    rw [List.cons_append, Utf8.decodeFrom.eq_def]
    simp [ha, hn]
  | two ha hb hn =>
    rw [List.cons_append, List.cons_append, Utf8.decodeFrom.eq_def]
    simp [ha, hb, hn]
  | three ha hb hc hn =>
    rw [List.cons_append, List.cons_append, List.cons_append, Utf8.decodeFrom.eq_def]
    simp [ha, hb, hc, hn]
  | four ha hb hc hd hn =>
    rw [List.cons_append, List.cons_append, List.cons_append, List.cons_append, Utf8.decodeFrom.eq_def]
    simp [ha, hb, hc, hd, hn]

/-- The numbers of the bytes by which the character of a number is written. -/
def units (n : Nat) : List Nat :=
  if n ≤ 127 then [n]
  else if n ≤ 2047 then [n / 64 % 32 + 192, n % 64 + 128]
  else if n ≤ 65535 then [n / 4096 % 16 + 224, n / 64 % 64 + 128, n % 64 + 128]
  else [n / 262144 % 8 + 240, n / 4096 % 64 + 128, n / 64 % 64 + 128, n % 64 + 128]

theorem map_toNat_utf8EncodeChar (c : Char) : (String.utf8EncodeChar c).map UInt8.toNat = units c.toNat := by
  simp only [String.utf8EncodeChar, units, Char.toNat]
  repeat' split
  all_goals
    simp only [List.map_cons, List.map_nil, UInt8.toNat_ofNat', List.cons.injEq, and_true]
    omega

/-- Each sequence stands for a character and is what it is written as. -/
theorem Sequence.units_eq (h : Sequence sequence n) : n.isValidChar ∧ sequence.map UInt8.toNat = units n := by
  cases h with
  | one ha hn =>
    rw [width?_eq_some] at ha
    refine ⟨by rw [Nat.isValidChar]; omega, ?_⟩
    rw [units, if_pos (by omega), hn]
    rfl
  | two ha hb hn =>
    rw [width?_eq_some] at ha
    rw [continues_iff] at hb
    simp only [low] at hn
    refine ⟨by rw [Nat.isValidChar]; omega, ?_⟩
    rw [units, if_neg (by omega), if_pos (by omega)]
    simp only [List.map_cons, List.map_nil, List.cons.injEq, and_true]
    omega
  | three ha hb hc hn =>
    rw [width?_eq_some] at ha
    rw [mayFollow_iff] at hb
    rw [continues_iff] at hc
    simp only [low] at hn
    refine ⟨by rw [Nat.isValidChar]; omega, ?_⟩
    rw [units, if_neg (by omega), if_neg (by omega), if_pos (by omega)]
    simp only [List.map_cons, List.map_nil, List.cons.injEq, and_true]
    omega
  | four ha hb hc hd hn =>
    rw [width?_eq_some] at ha
    rw [mayFollow_iff] at hb
    rw [continues_iff] at hc hd
    simp only [low] at hn
    refine ⟨by rw [Nat.isValidChar]; omega, ?_⟩
    rw [units, if_neg (by omega), if_neg (by omega), if_neg (by omega)]
    simp only [List.map_cons, List.map_nil, List.cons.injEq, and_true]
    omega

theorem toNat_ofNat {n : Nat} (h : n.isValidChar) : (Char.ofNat n).toNat = n := by
  rw [Char.ofNat, dif_pos h]
  rfl

/-- A character that is read from a sequence is written as that sequence. -/
theorem Sequence.utf8EncodeChar (h : Sequence sequence n) : String.utf8EncodeChar (Char.ofNat n) = sequence := by
  obtain ⟨hvalid, hunits⟩ := h.units_eq
  refine (List.map_inj_right fun _ _ => UInt8.toNat_inj.1).1 ?_
  rw [map_toNat_utf8EncodeChar, toNat_ofNat hvalid, hunits]

theorem sequence_utf8EncodeChar (c : Char) : Sequence (String.utf8EncodeChar c) c.toNat := by
  have hvalid : c.toNat < 0xD800 ∨ 0xDFFF < c.toNat ∧ c.toNat < 0x110000 := c.valid
  have hunits := map_toNat_utf8EncodeChar c
  generalize String.utf8EncodeChar c = bytes at hunits
  generalize c.toNat = n at hunits hvalid
  rw [units] at hunits
  repeat' split at hunits
  all_goals simp only [List.map_eq_cons_iff, List.map_eq_nil_iff] at hunits
  · obtain ⟨a, _, rfl, ha, rfl⟩ := hunits
    exact .one (width?_eq_some.2 (by omega)) ha.symm
  · obtain ⟨a, _, rfl, ha, b, _, rfl, hb, rfl⟩ := hunits
    exact .two (width?_eq_some.2 (by omega)) (continues_iff.2 (by omega)) (by simp only [low]; omega)
  · obtain ⟨a, _, rfl, ha, b, _, rfl, hb, c, _, rfl, hc, rfl⟩ := hunits
    exact .three (width?_eq_some.2 (by omega)) (mayFollow_iff.2 (by omega)) (continues_iff.2 (by omega))
      (by simp only [low]; omega)
  · obtain ⟨a, _, rfl, ha, b, _, rfl, hb, c, _, rfl, hc, d, _, rfl, hd, rfl⟩ := hunits
    exact .four (width?_eq_some.2 (by omega)) (mayFollow_iff.2 (by omega)) (continues_iff.2 (by omega))
      (continues_iff.2 (by omega)) (by simp only [low]; omega)

end Sequence

/-! ## Texts -/

theorem map_cons_eq_ok {x : Except Utf8Fault (List Char)} {c : Char} {s : List Char}
    (h : x.map (c :: ·) = .ok s) : ∃ rest, x = .ok rest ∧ s = c :: rest := by
  cases x with
  | error fault => cases h
  | ok rest => exact ⟨rest, rfl, (Except.ok.inj h).symm⟩

/-- What is written is read. -/
theorem decodeFrom_flatMap (position : Nat) (s : List Char) :
    decodeFrom position (s.flatMap String.utf8EncodeChar) = .ok s := by
  induction s generalizing position with
  | nil => rfl
  | cons c s ih =>
    rw [List.flatMap_cons, (sequence_utf8EncodeChar c).decodeFrom, ih, Char.ofNat_toNat]
    rfl

theorem Sequence.flatMap_eq {sequence rest : List UInt8} {position n : Nat} {s : List Char}
    (hsequence : Sequence sequence n)
    (ih : ∀ {s}, Utf8.decodeFrom position rest = .ok s → s.flatMap String.utf8EncodeChar = rest)
    (h : (Utf8.decodeFrom position rest).map (Char.ofNat n :: ·) = .ok s) :
    s.flatMap String.utf8EncodeChar = sequence ++ rest := by
  obtain ⟨s, hs, rfl⟩ := map_cons_eq_ok h
  rw [List.flatMap_cons, hsequence.utf8EncodeChar, ih hs]

/-- What is read is written. -/
theorem flatMap_of_decodeFrom {position : Nat} {bytes : List UInt8} {s : List Char}
    (h : decodeFrom position bytes = .ok s) : s.flatMap String.utf8EncodeChar = bytes := by
  fun_induction decodeFrom position bytes generalizing s with
  | case1 => exact (Except.ok.inj h) ▸ rfl
  | case3 position a rest ha ih => exact Sequence.flatMap_eq (.one ha rfl) ih h
  | case5 position a b rest ha hb ih => exact Sequence.flatMap_eq (.two ha (by simpa using hb) rfl) ih h
  | case8 position a b c rest ha hb hc ih =>
    exact Sequence.flatMap_eq (.three ha (by simpa using hb) (by simpa using hc) rfl) ih h
  | case12 position a b c d rest ha hb hc hd ih =>
    exact Sequence.flatMap_eq (.four ha (by simpa using hb) (by simpa using hc) (by simpa using hd) rfl) ih h
  | _ => cases h

/-- **Bytes are read as a text if, and only if, the text is written as them.** -/
theorem decodeFrom_eq_ok_iff (position : Nat) {bytes : List UInt8} {s : List Char} :
    decodeFrom position bytes = .ok s ↔ bytes = s.flatMap String.utf8EncodeChar :=
  ⟨fun h => (flatMap_of_decodeFrom h).symm, fun h => h ▸ decodeFrom_flatMap position s⟩

end Utf8

/-! ## Contents of files -/

theorem toList_toByteArray (bytes : List UInt8) : bytes.toByteArray.toList = bytes := by
  have hloop (array : ByteArray) (i : Nat) (read : List UInt8) :
      ByteArray.toList.loop array i read = read.reverse ++ array.data.toList.drop i := by
    fun_induction ByteArray.toList.loop array i read with
    | case1 i read h ih =>
      have hi : i < array.data.toList.length := h
      rw [ih, List.drop_eq_getElem_cons hi]
      simp [ByteArray.get!, getElem!_pos array.data i h]
    | case2 i read h =>
      have hi : array.data.toList.length ≤ i := Nat.le_of_not_lt h
      rw [List.drop_eq_nil_of_le hi, List.append_nil]
  rw [ByteArray.toList, hloop, List.toList_data_toByteArray]
  rfl

theorem Bytes.ofText_eq (s : String) : Bytes.ofText s = s.toList.flatMap String.utf8EncodeChar := by
  have hbytes : s.toUTF8 = (s.toList.flatMap String.utf8EncodeChar).toByteArray := by
    rw [← String.ofList_toList (s := s)]
    rw [String.toList_ofList]
    exact String.toByteArray_ofList
  rw [Bytes.ofText, hbytes, toList_toByteArray]

/-- **Bytes are read as a text if, and only if, they are the bytes of that text.** -/
theorem Utf8.decode_eq_ok_iff {bytes : Bytes} {s : String} : decode bytes = .ok s ↔ bytes = .ofText s := by
  rw [Bytes.ofText_eq, ← decodeFrom_eq_ok_iff 0, decode]
  cases decodeFrom 0 bytes with
  | error fault => simp [Except.map]
  | ok chars =>
    simp only [Except.map, Except.ok.injEq]
    exact ⟨fun h => h ▸ String.toList_ofList.symm, fun h => h ▸ String.ofList_toList⟩

theorem Bytes.ofText_injective : Function.Injective Bytes.ofText := by
  intro s t h
  have hs : Utf8.decode (Bytes.ofText s) = .ok s := Utf8.decode_eq_ok_iff.2 rfl
  have ht : Utf8.decode (Bytes.ofText t) = .ok t := Utf8.decode_eq_ok_iff.2 rfl
  rw [h, ht] at hs
  exact (Except.ok.inj hs).symm

/-- Bytes are refused if they are the bytes of no text. -/
theorem Utf8.exists_decode_eq_error_iff {bytes : Bytes} :
    (∃ fault, decode bytes = .error fault) ↔ ∀ s, bytes ≠ .ofText s := by
  cases h : decode bytes with
  | error fault =>
    refine iff_of_true ⟨fault, rfl⟩ fun s hs => ?_
    rw [decode_eq_ok_iff.2 hs] at h
    cases h
  | ok s =>
    refine iff_of_false ?_ fun hnone => hnone s (decode_eq_ok_iff.1 h)
    rintro ⟨fault, hfault⟩
    cases hfault

end SketchTurtle
