/-
Numbers that are written are read back as texts.

What `parseFloat?` does to a text before it looks for a number changes nothing in the
text of a number: there are no blanks to be trimmed, no digits of other scripts and
no underscores (`parseFloat?_of_isWritten`). So the parts of a number are found in the
text (`parseFloat?_text`).
-/
import SketchTurtle.Proofs.Number.Characters
import SketchTurtle.Proofs.Number.Reading

namespace SketchTurtle

/-- The characters of numbers are ASCII, and neither blanks nor underscores. -/
theorem Layout.isNumeral_iff {c : Char} (h : isNumeral c = true) :
    c.toNat < 128 ∧ Text.isBlank c = false ∧ c ≠ '_' := by
  simp only [isNumeral, Bool.or_eq_true, beq_iff_eq] at h
  rcases h with (((h | rfl) | rfl) | rfl) | rfl
  · simp only [Char.isDigit, Bool.and_eq_true, decide_eq_true_eq] at h
    obtain ⟨hlow, hhigh⟩ := h
    have hlow : 48 ≤ c.toNat := hlow
    have hhigh : c.toNat ≤ 57 := hhigh
    refine ⟨by omega, ?_, ?_⟩
    · simp only [Text.isBlank, Bool.or_eq_false_iff, Bool.and_eq_false_iff, decide_eq_false_iff_not,
        beq_eq_false_iff_ne]
      omega
    · rintro rfl
      exact absurd hhigh (by decide)
  all_goals decide

theorem Text.trim_eq_self {s : List Char} (h : ∀ c ∈ s, isBlank c = false) : trim s = s := by
  have hdrop {t : List Char} (ht : ∀ c ∈ t, isBlank c = false) : t.dropWhile isBlank = t := by
    cases t with
    | nil => rfl
    | cons c rest => exact List.dropWhile_cons_of_neg (by simp [ht c])
  rw [trim, hdrop h, hdrop fun c hc => h c (List.mem_reverse.1 hc), List.reverse_reverse]

namespace Numeral

theorem joined?_eq_some {s : List Char} (h : ∀ c ∈ s, c ≠ '_') : joined? s = some s := by
  have hgo (afterDigit : Bool) : joined?.go afterDigit s = some s := by
    induction s generalizing afterDigit with
    | nil => rfl
    | cons c rest ih =>
      obtain ⟨hc, hrest⟩ := List.forall_mem_cons.1 h
      rw [joined?.go, ih hrest, Option.map_some]
      exact hc
  exact hgo false

theorem normalized_ofList {s : List Char} (h : Layout.IsWritten s) : normalized (String.ofList s) = s := by
  have hblank : ∀ c ∈ s, Text.isBlank c = false := fun c hc => (Layout.isNumeral_iff (h c hc)).2.1
  rw [normalized, String.toList_ofList, Text.trim_eq_self hblank]
  refine (List.map_congr_left fun c hc => ?_).trans (List.map_id s)
  rw [Text.asciiDigit, if_pos (Layout.isNumeral_iff (h c hc)).1]
  rfl

theorem parseFloat?_of_isWritten {s : List Char} (h : Layout.IsWritten s) :
    parseFloat? (String.ofList s) = (real? s).map Exact.toFloat := by
  rw [parseFloat?, normalized_ofList h, joined?_eq_some fun c hc => (Layout.isNumeral_iff (h c hc)).2.2]
  rfl

theorem AreDigits.isWritten {s : List Char} (h : AreDigits s) : Layout.IsWritten s := by
  intro c hc
  rw [Layout.isNumeral, h c hc]
  rfl

namespace Parts

variable {p : Parts}

theorem Proper.isWritten_text (h : p.Proper) : Layout.IsWritten p.text := by
  rw [text, Layout.isWritten_append, Layout.isWritten_append]
  refine ⟨h.whole.isWritten, ?_, ?_⟩
  · rw [fractionText]
    split
    · exact Layout.isWritten_nil
    · exact Layout.isWritten_cons.2 ⟨rfl, h.fraction.isWritten⟩
  · rw [exponentText]
    split
    · exact Layout.isWritten_nil
    · next negative ds hexponent =>
      refine Layout.isWritten_cons.2 ⟨rfl, Layout.isWritten_cons.2 ⟨?_, ?_⟩⟩
      · cases negative <;> rfl
      · exact (h.exponent negative ds hexponent).1.isWritten

theorem Proper.exists_text_eq (h : p.Proper) : ∃ d rest, d.isDigit = true ∧ p.text = d :: rest := by
  obtain ⟨d, ds, hds⟩ := List.exists_cons_of_ne_nil h.whole_ne
  exact ⟨d, ds ++ (p.fractionText ++ p.exponentText), h.whole d (by simp [hds]), by rw [text, hds]; rfl⟩

theorem Proper.splitSign_text (h : p.Proper) (negative : Bool) :
    splitSign (Layout.signed negative p.text) = (negative, p.text) := by
  cases negative with
  | true => rfl
  | false =>
    obtain ⟨d, rest, hd, htext⟩ := h.exists_text_eq
    rw [Layout.signed, if_neg Bool.false_ne_true, splitSign]
    all_goals
      rw [htext]
      rintro more ⟨⟩
      cases hd

theorem Proper.lower_text_ne (h : p.Proper) {c : Char} (hc : c.isDigit = false) (word : List Char) :
    (String.ofList (p.text.map Char.toLower) == String.ofList (c :: word)) = false := by
  obtain ⟨d, rest, hd, htext⟩ := h.exists_text_eq
  have hlower : d.toLower = d := by
    simp only [Char.isDigit, Bool.and_eq_true, decide_eq_true_eq] at hd
    refine dif_neg ?_
    rintro ⟨hge, -⟩
    exact absurd (UInt32.le_trans hge hd.2) (by decide)
  refine beq_eq_false_iff_ne.2 fun heq => ?_
  rw [String.ofList_inj, htext, List.map_cons, hlower] at heq
  rw [(List.cons.inj heq).1, hc] at hd
  cases hd

theorem Proper.real?_text (h : p.Proper) (negative : Bool) :
    real? (Layout.signed negative p.text) = some (p.read negative) := by
  have hinf := h.lower_text_ne (c := 'i') rfl "nf".toList
  have hinfinity := h.lower_text_ne (c := 'i') rfl "nfinity".toList
  have hnan := h.lower_text_ne (c := 'n') rfl "an".toList
  simp only [real?, h.splitSign_text]
  rw [show "inf" = String.ofList ('i' :: "nf".toList) from rfl,
    show "infinity" = String.ofList ('i' :: "nfinity".toList) from rfl,
    show "nan" = String.ofList ('n' :: "an".toList) from rfl, hinf, hinfinity, hnan, h.decimal?_text]
  rfl

/-- **The parts of a number are found in its text.** -/
theorem Proper.parseFloat?_text (h : p.Proper) (negative : Bool) :
    parseFloat? (String.ofList (Layout.signed negative p.text)) = some (p.read negative).toFloat := by
  rw [parseFloat?_of_isWritten (h.isWritten_text.signed negative), h.real?_text, Option.map_some]

end Parts

end Numeral

end SketchTurtle
