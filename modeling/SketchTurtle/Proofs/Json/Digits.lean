/-
Whole numbers that are too long to be read.

A document is refused for the digits of a number only if it has that many digits in a row
(`hasRun_of_read`). To see this, every part of the reader is followed: what it leaves is an end of
what it was given (`Stays`), so a number that is met later stands in the document as well.
-/
import SketchTurtle.Proofs.Json.Numbers

namespace SketchTurtle.Json

open Numeral

/-- The text has a number of digits in a row that no whole number may have. -/
def HasRun (s : List Char) (n : Nat) : Prop :=
  maxIntDigits < n ∧ ∃ digits, digits <:+: s ∧ AreDigits digits ∧ digits.length = n

/-- A reading leaves an end of the text that it was given, and a number for which it fails stands
there. -/
def Stays {α : Type} (s : List Char) : Reading α → Prop
  | .ok (_, rest) => rest <:+ s
  | .error (.malformed ..) => True
  | .error (.tooManyDigits n) => HasRun s n

section Stays

variable {α β : Type} {s t rest : List Char}

theorem HasRun.mono {n : Nat} (h : HasRun s n) (hst : s <:+ t) : HasRun t n := by
  obtain ⟨hlong, digits, hdigits, h⟩ := h
  exact ⟨hlong, digits, hdigits.trans hst.isInfix, h⟩

theorem Stays.mono {r : Reading α} (h : Stays s r) (hst : s <:+ t) : Stays t r := by
  match r, h with
  | .ok (_, rest), h => exact List.IsSuffix.trans h hst
  | .error (.malformed ..), h => trivial
  | .error (.tooManyDigits n), h => exact HasRun.mono h hst

theorem Stays.of_drop {r : Reading α} (n : Nat) (h : Stays (s.drop n) r) : Stays s r := h.mono (List.drop_suffix n s)

theorem Stays.error {stop : Stop} (h : Stays (α := α) s (.error stop)) : Stays (α := β) s (.error stop) := by
  cases stop <;> exact h

end Stays

theorem skipBlanks_suffix (s : List Char) : skipBlanks s <:+ s := List.dropWhile_suffix _

/-! ## Texts -/

theorem stays_spell (start : Nat) (read : Spelled) (s : List Char) : Stays s (spell start read s) := by
  fun_induction spell start read s with
  | case2 => exact List.suffix_cons ..
  | case5 => next ih => exact ih.of_drop 12
  | case6 => next ih => exact ih.of_drop 6
  | case7 => next ih => exact ih.of_drop 6
  | case9 => next ih => exact ih.of_drop 6
  | case12 => next ih => exact ih.of_drop 2
  | case15 => next ih => exact ih.of_drop 1
  | _ => trivial

/-! ## Numbers -/

theorem splitMinus_suffix (s : List Char) : (splitMinus s).2 <:+ s := by
  rw [splitMinus.eq_def]
  split
  · exact List.suffix_cons ..
  · exact List.suffix_rfl

theorem wholePart_starts (s : List Char) : wholePart s <+: s := by
  rw [wholePart.eq_def]
  split
  · exact ⟨_, rfl⟩
  · exact List.takeWhile_prefix _

theorem areDigits_wholePart (s : List Char) : AreDigits (wholePart s) := by
  rw [wholePart.eq_def]
  split
  · intro c hc
    rw [List.mem_singleton.1 hc]
    rfl
  · exact List.all_eq_true.1 List.all_takeWhile

theorem fractionPart_suffix (s : List Char) : (fractionPart s).2 <:+ s := by
  rw [fractionPart.eq_def]
  split
  · dsimp only
    split
    · exact List.suffix_rfl
    · exact (List.dropWhile_suffix _).trans (List.suffix_cons ..)
  · exact List.suffix_rfl

theorem exponentPart_suffix (s : List Char) : (exponentPart s).2 <:+ s := by
  rw [exponentPart.eq_def]
  split
  · exact List.suffix_rfl
  · split
    · split
      · next rest _ _ sign digits hsign =>
        have hdigits : digits <:+ rest := by
          split at hsign <;> cases hsign
          · exact List.suffix_cons ..
          · exact List.suffix_cons ..
          · exact List.suffix_rfl
        dsimp only
        split
        · exact List.suffix_rfl
        · exact ((List.dropWhile_suffix _).trans hdigits).trans (List.suffix_cons ..)
    · exact List.suffix_rfl

theorem stays_number? {s : List Char} {reading : Reading Json} (h : number? s = some reading) : Stays s reading := by
  have hdigits := splitMinus_suffix s
  have hwhole := (wholePart_starts (splitMinus s).2).isInfix.trans hdigits.isInfix
  have hrest := ((exponentPart_suffix _).trans (fractionPart_suffix _)).trans
    ((List.drop_suffix (wholePart (splitMinus s).2).length _).trans hdigits)
  simp only [number?] at h
  split at h
  · cases h
  · split at h
    · split at h
      · next hlong =>
        cases h
        exact ⟨hlong, _, hwhole, areDigits_wholePart _, rfl⟩
      · cases h
        exact hrest
    · obtain ⟨x, -, rfl⟩ := Option.map_eq_some_iff.1 h
      exact hrest

theorem word?_suffix {s rest : List Char} {v : Json} (h : word? s = some (v, rest)) : rest <:+ s := by
  obtain ⟨word, -, hword⟩ := List.exists_of_findSome?_eq_some h
  dsimp only at hword
  split at hword
  · cases hword
    exact List.drop_suffix ..
  · cases hword

/-! ## Values -/

theorem suffix_of_skipBlanks {s rest more : List Char} {c : Char} (h : skipBlanks rest = c :: more) (hrest : rest <:+ s) :
    more <:+ s := by
  have hmore : c :: more <:+ rest := h ▸ skipBlanks_suffix rest
  exact (List.suffix_cons c more).trans (hmore.trans hrest)

theorem suffix_of_skipBlanks_skipBlanks {s rest more : List Char} {c : Char} (h : skipBlanks rest = c :: more)
    (hrest : rest <:+ s) : skipBlanks more <:+ s :=
  (skipBlanks_suffix more).trans (suffix_of_skipBlanks h hrest)

/-- The reader of the given depth leaves an end of the text. -/
structure StaysAt (depth : Nat) : Prop where
  value (s : List Char) : Stays s (value depth s)
  items (before : List Json) (s : List Char) : Stays s (items depth before s)
  members (before : List (String × Json)) (s : List Char) : Stays s (members depth before s)

section StaysAt

variable {depth : Nat} (h : StaysAt depth)
include h

theorem StaysAt.value_succ (s : List Char) : Stays s (Json.value (depth + 1) s) := by
  rw [Json.value.eq_def]
  dsimp only
  split
  · next rest =>
    have hspelled : Stays rest (spelled rest) := stays_spell ..
    cases hread : spelled rest with
    | error stop =>
      rw [hread] at hspelled
      exact hspelled.error.of_drop 1
    | ok read =>
      rw [hread] at hspelled
      exact List.IsSuffix.trans hspelled (List.suffix_cons ..)
  · next rest =>
    split
    · next heq => exact suffix_of_skipBlanks heq (List.suffix_cons ..)
    · exact (h.members _ _).mono ((skipBlanks_suffix rest).trans (List.suffix_cons ..))
  · next rest =>
    split
    · next heq => exact suffix_of_skipBlanks heq (List.suffix_cons ..)
    · exact (h.items _ _).mono ((skipBlanks_suffix rest).trans (List.suffix_cons ..))
  · split
    · next hword => exact word?_suffix hword
    · next hnumber => exact stays_number? hnumber
    · trivial

theorem StaysAt.items_succ (before : List Json) (s : List Char) : Stays s (Json.items (depth + 1) before s) := by
  have hvalue := h.value s
  rw [Json.items]
  cases hread : Json.value depth s with
  | error stop => rwa [hread] at hvalue
  | ok read =>
    rw [hread] at hvalue
    dsimp only
    split
    · next heq => exact suffix_of_skipBlanks heq hvalue
    · next heq => exact (h.items _ _).mono (suffix_of_skipBlanks_skipBlanks heq hvalue)
    · trivial

theorem StaysAt.members_succ (before : List (String × Json)) (s : List Char) :
    Stays s (Json.members (depth + 1) before s) := by
  rw [Json.members.eq_def]
  dsimp only
  split
  · next name =>
    have hspelled : Stays name (spelled name) := stays_spell ..
    cases hname : spelled name with
    | error stop =>
      rw [hname] at hspelled
      exact hspelled.error.of_drop 1
    | ok read =>
      obtain ⟨read, rest⟩ := read
      rw [hname] at hspelled
      have hrest : rest <:+ '"' :: name := List.IsSuffix.trans hspelled (List.suffix_cons ..)
      dsimp only
      split
      · next more hcolon =>
        have hmore := suffix_of_skipBlanks_skipBlanks hcolon hrest
        have hvalue := (h.value (skipBlanks more)).mono hmore
        cases hmember : Json.value depth (skipBlanks more) with
        | error stop => rwa [hmember] at hvalue
        | ok member =>
          rw [hmember] at hvalue
          dsimp only
          split
          · next heq => exact suffix_of_skipBlanks heq hvalue
          · next heq => exact (h.members _ _).mono (suffix_of_skipBlanks_skipBlanks heq hvalue)
          · trivial
      · trivial
  · trivial

end StaysAt

/-- **What the reader leaves is an end of the text, and a number for which it fails stands there.** -/
theorem staysAt (depth : Nat) : StaysAt depth := by
  induction depth with
  | zero => exact ⟨fun _ => trivial, fun _ _ => trivial, fun _ _ => trivial⟩
  | succ depth ih => exact ⟨ih.value_succ, ih.items_succ, ih.members_succ⟩

theorem mapError_eq_error {α ε ε' : Type} {f : ε → ε'} {x : Except ε α} {e : ε'} (h : x.mapError f = .error e) :
    ∃ e', x = .error e' ∧ f e' = e := by
  cases x with
  | error e' => exact ⟨e', rfl, Except.error.inj h⟩
  | ok a => cases h

/-- **A document in which a number is too long has that many digits in a row.** -/
theorem hasRun_of_read {text : String} {n : Nat} (h : read text = .error (.tooManyDigits n)) :
    HasRun text.toList n := by
  rw [read.eq_def] at h
  dsimp only at h
  split at h
  · cases h
  · obtain ⟨stop, hdocument, hstop⟩ := mapError_eq_error h
    cases stop with
    | malformed fault remaining => cases hstop
    | tooManyDigits digits =>
      cases hstop
      have hvalue := ((staysAt (2 * text.toList.length + 2)).value (skipBlanks text.toList)).mono (skipBlanks_suffix _)
      simp only [document, bind, Except.bind] at hdocument
      split at hdocument
      · next heq =>
        cases hdocument
        rwa [heq] at hvalue
      · split at hdocument <;> cases hdocument

end SketchTurtle.Json
