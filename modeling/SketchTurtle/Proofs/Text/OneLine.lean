/-
Texts that are put on one line.

A text loses its lines by being split into them and joined again. What comes of it
can be said without lines: a boundary at the very end is dropped, and a space stands
for each of the others, where a carriage return and the line feed after it are one
boundary (`intercalate_lines`). So the other characters stay as they are, and there
is nothing left to be done the second time (`oneLine_spaces`).
-/
import SketchTurtle.Proofs.Text.Lines

namespace SketchTurtle.Text

/-- The text with a space for each line boundary. A carriage return with its line
feed is one boundary. -/
def spaced : List Char → List Char
  | [] => []
  | '\r' :: '\n' :: rest => ' ' :: spaced rest
  | c :: rest => (if isLineBreak c then ' ' else c) :: spaced rest

/-- The text without the line boundary at its very end, if there is one. -/
def unended : List Char → List Char
  | [] => []
  | ['\r', '\n'] => []
  | [c] => if isLineBreak c then [] else [c]
  | c :: rest => c :: unended rest

/-- A character and the text after it do not begin with a carriage return and its
line feed. -/
def NoPair (c : Char) (rest : List Char) : Prop := ∀ rest', c = '\r' → rest ≠ '\n' :: rest'

theorem spaced_cons {c : Char} {rest : List Char} (h : NoPair c rest) :
    spaced (c :: rest) = (if isLineBreak c then ' ' else c) :: spaced rest := by
  rw [spaced.eq_def]
  split
  · next heq => cases heq
  · next rest' heq =>
    cases heq
    exact absurd rfl (h rest' rfl)
  · next heq =>
    cases heq
    rfl

theorem unended_cons {c : Char} {rest : List Char} (h : c = '\r' → rest ≠ ['\n']) (hne : rest ≠ []) :
    unended (c :: rest) = c :: unended rest := by
  rw [unended.eq_def]
  split
  · next heq => cases heq
  · next heq =>
    cases heq
    exact absurd rfl (h rfl)
  · next heq =>
    cases heq
    exact absurd rfl hne
  · next heq =>
    cases heq
    rfl

theorem unended_singleton (c : Char) : unended [c] = if isLineBreak c then [] else [c] := by
  rw [unended.eq_def]
  split
  · next heq => cases heq
  · next heq => cases heq
  · next heq =>
    cases heq
    rfl
  · next hne heq =>
    cases heq
    exact absurd rfl hne

theorem unended_prefix (s : List Char) : unended s <+: s := by
  fun_induction unended s with
  | case1 => exact List.prefix_rfl
  | case2 => exact List.nil_prefix
  | case3 c hc => exact List.nil_prefix
  | case4 c hc => exact List.prefix_rfl
  | case5 c rest _ _ ih => simpa using ih

/-- What follows on a character may lose its end. -/
theorem NoPair.unended {c : Char} {rest : List Char} (h : NoPair c rest) : NoPair c (unended rest) := by
  intro rest' hc hrest
  obtain ⟨dropped, hdropped⟩ := unended_prefix rest
  rw [hrest] at hdropped
  exact h (rest' ++ dropped) hc hdropped.symm

/-! ## The lines joined with spaces -/

theorem consLine_ne_nil (c : Char) (ls : List (List Char)) : consLine c ls ≠ [] := by
  cases ls <;> simp [consLine]

theorem lines_ne_nil {s : List Char} (h : s ≠ []) : lines s ≠ [] := by
  rw [lines.eq_def]
  split
  · exact absurd rfl h
  · exact List.cons_ne_nil _ _
  · split
    · exact List.cons_ne_nil _ _
    · exact consLine_ne_nil _ _

theorem intercalate_consLine (sep : List Char) (c : Char) (ls : List (List Char)) :
    sep.intercalate (consLine c ls) = c :: sep.intercalate ls := by
  cases ls with
  | nil => simp [consLine]
  | cons l ls => cases ls <;> simp [consLine, List.intercalate_cons_cons]

theorem intercalate_nil_cons (sep : List Char) {ls : List (List Char)} (h : ls ≠ []) :
    sep.intercalate ([] :: ls) = sep ++ sep.intercalate ls := by
  cases ls with
  | nil => exact absurd rfl h
  | cons l ls => simp [List.intercalate_cons_cons]

/-- **Joined with spaces, the lines of a text are the text** without a boundary at
its end and with a space for each other one. -/
theorem intercalate_lines (s : List Char) : [' '].intercalate (lines s) = spaced (unended s) := by
  fun_induction lines s with
  | case1 => rfl
  | case2 rest ih =>
    by_cases hrest : rest = []
    · rw [hrest]
      rfl
    · have hlines : lines rest ≠ [] := lines_ne_nil hrest
      have hunended : unended ('\r' :: '\n' :: rest) = '\r' :: '\n' :: unended rest := by
        rw [unended_cons (by simpa using hrest) (by simp), unended_cons (fun h => absurd h (by decide)) hrest]
      rw [intercalate_nil_cons _ hlines, ih, hunended]
      rfl
  | case3 c rest hpair hc ih =>
    have hno : NoPair c rest := fun rest' hcr hrest => hpair rest' hcr hrest
    by_cases hrest : rest = []
    · subst hrest
      rw [unended_singleton, if_pos hc]
      rfl
    · have hlines : lines rest ≠ [] := lines_ne_nil hrest
      rw [intercalate_nil_cons _ hlines, ih, unended_cons (hno []) hrest, spaced_cons hno.unended, if_pos hc]
      rfl
  | case4 c rest hpair hc ih =>
    have hno : NoPair c rest := fun rest' hcr hrest => hpair rest' hcr hrest
    rw [intercalate_consLine, ih]
    by_cases hrest : rest = []
    · subst hrest
      rw [unended_singleton, if_neg hc, spaced_cons hno, if_neg hc]
      rfl
    · rw [unended_cons (hno []) hrest, spaced_cons hno.unended, if_neg hc]

/-! ## What stays -/

theorem filter_unended (s : List Char) :
    (unended s).filter (!isLineBreak ·) = s.filter (!isLineBreak ·) := by
  fun_induction unended s with
  | case1 => rfl
  | case2 => rfl
  | case3 c hc => simp [hc]
  | case4 c hc => rfl
  | case5 c rest _ _ ih => rw [List.filter_cons, List.filter_cons, ih]

theorem filter_sublist_spaced (s : List Char) : (s.filter (!isLineBreak ·)).Sublist (spaced s) := by
  fun_induction spaced s with
  | case1 => exact .slnil
  | case2 rest ih =>
    have hpair : ('\r' :: '\n' :: rest).filter (!isLineBreak ·) = rest.filter (!isLineBreak ·) := rfl
    rw [hpair]
    exact ih.cons _
  | case3 c rest _ ih =>
    by_cases hc : isLineBreak c = true
    · rw [List.filter_cons_of_neg (by simp [hc])]
      exact ih.cons _
    · rw [List.filter_cons_of_pos (by simp [hc]), if_neg hc]
      exact ih.cons_cons _

theorem oneLine_of_unbroken {s : String} (h : Unbroken s.toList) : oneLine s = s := by
  by_cases hs : s.toList = []
  · rw [oneLine, hs, String.toList_eq_nil_iff.1 hs]
    rfl
  · rw [oneLine, lines_of_unbroken h hs, List.intercalate_singleton, String.ofList_toList]

/-- **A text is put on one line** by a space for each line boundary but one at the
very end, which is dropped. So no boundary is left and all else stays in its order; a
text stays as it is if, and only if, it had no boundary; and to do it twice is to do it
once. -/
theorem oneLine_spaces (s : String) :
    (oneLine s).toList = spaced (unended s.toList) ∧
      Unbroken (oneLine s).toList ∧
      (s.toList.filter (!isLineBreak ·)).Sublist (oneLine s).toList ∧
      (oneLine s = s ↔ Unbroken s.toList) ∧
      oneLine (oneLine s) = oneLine s := by
  have hspaced : (oneLine s).toList = spaced (unended s.toList) := by
    rw [oneLine, String.toList_ofList, intercalate_lines]
  have hunbroken := unbroken_oneLine s
  refine ⟨hspaced, hunbroken, ?_, ?_, oneLine_of_unbroken hunbroken⟩
  · rw [hspaced, ← filter_unended]
    exact filter_sublist_spaced _
  · constructor
    · intro h
      rw [← h]
      exact hunbroken
    · exact oneLine_of_unbroken

/-- Boundaries in a row are spaces in a row. -/
example : oneLine "\r\n\n\ra\u2028b\r\n" = "   a b" := by decide

end SketchTurtle.Text
