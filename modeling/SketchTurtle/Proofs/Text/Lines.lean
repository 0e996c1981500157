/-
Lines of a text, and texts of one line.

* `unbroken_of_mem_lines`, `unbroken_oneLine`: a line has no line boundary,
  and joined with spaces the lines of a text still have none.
* `lines_intercalate`: unbroken lines joined with line feeds are found again,
  except that an empty last line is not a line.
-/
import SketchTurtle.Text.Line

namespace SketchTurtle.Text

/-- The characters that end a line. -/
def boundaries : List Char :=
  ['\n', '\r', '\x0b', '\x0c', '\x1c', '\x1d', '\x1e', '\u0085', '\u2028', '\u2029']

theorem isLineBreak_iff {c : Char} : isLineBreak c = true ↔ c ∈ boundaries := by
  simp [isLineBreak, boundaries, or_assoc]

/-- The text has no line boundary. -/
def Unbroken (s : List Char) : Prop := ∀ c ∈ s, isLineBreak c = false

instance (s : List Char) : Decidable (Unbroken s) :=
  List.decidableBAll _ s

@[simp]
theorem unbroken_nil : Unbroken [] := nofun

@[simp]
theorem unbroken_cons {c : Char} {s : List Char} :
    Unbroken (c :: s) ↔ isLineBreak c = false ∧ Unbroken s := List.forall_mem_cons

@[simp]
theorem unbroken_append {s t : List Char} : Unbroken (s ++ t) ↔ Unbroken s ∧ Unbroken t :=
  List.forall_mem_append

/-- A text is unbroken if a class of characters without line boundaries holds all of it. -/
theorem unbroken_of_forall {P : Char → Bool} {s : List Char} (hP : boundaries.any P = false)
    (h : ∀ c ∈ s, P c = true) : Unbroken s := by
  intro c hc
  cases hbreak : isLineBreak c with
  | false => rfl
  | true =>
    have hnot := List.any_eq_false.1 hP c (isLineBreak_iff.1 hbreak)
    exact absurd (h c hc) hnot

theorem unbroken_filled {before text after : String} (hbefore : Unbroken before.toList)
    (htext : Unbroken text.toList) (hafter : Unbroken after.toList) :
    Unbroken (before ++ text ++ after).toList := by
  rw [String.toList_append, String.toList_append]
  exact unbroken_append.2 ⟨unbroken_append.2 ⟨hbefore, htext⟩, hafter⟩

/-! ## The lines of a text -/

theorem unbroken_of_mem_consLine {c : Char} {ls : List (List Char)} (hc : isLineBreak c = false)
    (h : ∀ l ∈ ls, Unbroken l) : ∀ l ∈ consLine c ls, Unbroken l := by
  cases ls with
  | nil => simpa [consLine] using hc
  | cons l ls => simpa [consLine, hc] using h

theorem unbroken_of_mem_lines (s : List Char) : ∀ l ∈ lines s, Unbroken l := by
  fun_induction lines s with
  | case1 => nofun
  | case2 rest ih => exact List.forall_mem_cons.2 ⟨unbroken_nil, ih⟩
  | case3 c rest _ hbreak ih => exact List.forall_mem_cons.2 ⟨unbroken_nil, ih⟩
  | case4 c rest _ hbreak ih => exact unbroken_of_mem_consLine (eq_false_of_ne_true hbreak) ih

theorem mem_of_mem_intercalate {sep : List Char} {ls : List (List Char)} {c : Char}
    (h : c ∈ sep.intercalate ls) : c ∈ sep ∨ ∃ l ∈ ls, c ∈ l := by
  induction ls with
  | nil => cases h
  | cons l ls ih =>
    cases ls with
    | nil => exact .inr ⟨l, List.mem_cons_self, by simpa using h⟩
    | cons next ls =>
      rw [List.intercalate_cons_cons, List.append_assoc, List.mem_append, List.mem_append] at h
      rcases h with h | h | h
      · exact .inr ⟨l, List.mem_cons_self, h⟩
      · exact .inl h
      · rcases ih h with h | ⟨m, hm, h⟩
        · exact .inl h
        · exact .inr ⟨m, List.mem_cons_of_mem _ hm, h⟩

theorem unbroken_intercalate {sep : List Char} {ls : List (List Char)} (hsep : Unbroken sep)
    (h : ∀ l ∈ ls, Unbroken l) : Unbroken (sep.intercalate ls) := by
  intro c hc
  rcases mem_of_mem_intercalate hc with hc | ⟨l, hl, hc⟩
  · exact hsep c hc
  · exact h l hl c hc

theorem unbroken_oneLine (s : String) : Unbroken (oneLine s).toList := by
  rw [oneLine, String.toList_ofList]
  exact unbroken_intercalate (by decide) (unbroken_of_mem_lines s.toList)

/-! ## Lines found again -/

theorem lines_cons {c : Char} (s : List Char) (h : isLineBreak c = false) :
    lines (c :: s) = consLine c (lines s) := by
  have hc : c ≠ '\r' := by
    rintro rfl
    cases h
  rw [lines.eq_def]
  split
  · next heq => cases heq
  · next heq =>
    cases heq
    exact absurd rfl hc
  · next heq =>
    cases heq
    rw [if_neg (by simp [h])]

theorem lines_append_newline {l : List Char} (rest : List Char) (h : Unbroken l) :
    lines (l ++ '\n' :: rest) = l :: lines rest := by
  induction l with
  | nil => rfl
  | cons c l ih =>
    obtain ⟨hc, hl⟩ := unbroken_cons.1 h
    rw [List.cons_append, lines_cons _ hc, ih hl, consLine]

theorem lines_of_unbroken {l : List Char} (h : Unbroken l) (hne : l ≠ []) : lines l = [l] := by
  induction l with
  | nil => cases hne rfl
  | cons c l ih =>
    obtain ⟨hc, hl⟩ := unbroken_cons.1 h
    rw [lines_cons _ hc]
    cases l with
    | nil => rfl
    | cons d l => rw [ih hl (by simp), consLine]

/-- **Lines joined with line feeds are found again.** -/
theorem lines_intercalate {ls : List (List Char)} (h : ∀ l ∈ ls, Unbroken l)
    (hlast : ls.getLast? ≠ some []) : lines (['\n'].intercalate ls) = ls := by
  induction ls with
  | nil => rfl
  | cons l ls ih =>
    obtain ⟨hl, hls⟩ := List.forall_mem_cons.1 h
    cases ls with
    | nil =>
      rw [List.intercalate_singleton]
      exact lines_of_unbroken hl (by simpa using hlast)
    | cons next ls =>
      rw [List.intercalate_cons_cons, List.append_assoc, List.singleton_append,
        lines_append_newline _ hl, ih hls (by simpa using hlast)]

/-! ## Line ends of files -/

theorem unifyLineEnds_eq_self {s : List Char} (h : '\r' ∉ s) : unifyLineEnds s = s := by
  fun_induction unifyLineEnds s with
  | case1 => rfl
  | case2 => simp at h
  | case3 => simp at h
  | case4 c rest _ _ ih => rw [ih fun hmem => h (List.mem_cons_of_mem c hmem)]

end SketchTurtle.Text
