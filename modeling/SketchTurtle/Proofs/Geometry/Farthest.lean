/-
The vertex at which a polyline is split, told by what lies before and after it.

`SplitsAt` says that a vertex is the first of the farthest. A polyline has such
a vertex or no deviation at all (`exists_splitsAt`), and the vertex stays the
first of the farthest when others are taken away (`SplitsAt.sublist`). The
tolerance has no say in it: it only tells whether the polyline is split
there (`SplitsAt.splitPosition?_eq`). So what is left of a polyline is studied by
induction on its splits, whatever the tolerance is (`splits_induction`).
-/
import SketchTurtle.Proofs.Geometry.Recursion

namespace SketchTurtle.Polyline

variable {P D : Type} [LT D] [DecidableLT D]

/-- Among interior vertices the first of those that deviate most, and by more
than `reached`. -/
structure SplitsAt (m : Measure P D) (reached : D) (first last : P) (before : List P) (p : P)
    (after : List P) : Prop where
  lt : reached < m.deviation p first last
  before_lt : ∀ q ∈ before, reached < m.deviation q first last →
    m.deviation q first last < m.deviation p first last
  not_lt_after : ∀ q ∈ after, ¬ m.deviation p first last < m.deviation q first last

/-- No interior vertex deviates. -/
def IsFlat (m : Measure P D) (first last : P) (interior : List P) : Prop :=
  ∀ q ∈ interior, ¬ m.nothing < m.deviation q first last

variable {m : Measure P D} {reached : D} {first last p : P} {before after : List P}

omit [DecidableLT D] in
/-- The first of the farthest stays so among fewer. -/
theorem SplitsAt.sublist {before' after' : List P} (h : SplitsAt m reached first last before p after)
    (hb : before'.Sublist before) (ha : after'.Sublist after) :
    SplitsAt m reached first last before' p after' :=
  ⟨h.lt, fun q hq => h.before_lt q (hb.subset hq), fun q hq => h.not_lt_after q (ha.subset hq)⟩

section

variable (hm : m.Ordered)
include hm

theorem exists_splitsAt (first last : P) (interior : List P) :
    ∀ reached : D, (∀ d, reached < d → m.nothing < d) →
      (∀ q ∈ interior, ¬ reached < m.deviation q first last) ∨
        ∃ before p after, interior = before ++ p :: after ∧ SplitsAt m reached first last before p after := by
  induction interior with
  | nil => intro reached _; left; simp
  | cons q rest ih =>
    intro reached hr
    by_cases hq : reached < m.deviation q first last
    · right
      rcases ih (m.deviation q first last) (fun d hd => hr d (hm.trans hq hd)) with
        hnone | ⟨before, p, after, rfl, hsplit⟩
      · exact ⟨[], q, rest, rfl, hq, by simp, hnone⟩
      · refine ⟨q :: before, p, after, rfl, hm.trans hq hsplit.lt, ?_, hsplit.not_lt_after⟩
        intro e he hreached
        rcases List.mem_cons.1 he with rfl | he
        · exact hsplit.lt
        · -- What is not beyond `q` is below what is.
          rcases hm.lt_or_lt (hr _ hreached) hsplit.lt with h | h
          · exact hsplit.before_lt e he h
          · exact h
    · rcases ih reached hr with hnone | ⟨before, p, after, rfl, hsplit⟩
      · left
        simpa [hq] using hnone
      · right
        refine ⟨q :: before, p, after, rfl, hsplit.lt, ?_, hsplit.not_lt_after⟩
        intro e he hreached
        rcases List.mem_cons.1 he with rfl | he
        · exact absurd hreached hq
        · exact hsplit.before_lt e he hreached

theorem SplitsAt.farthestBeyond_eq (h : SplitsAt m reached first last before p after) :
    farthestBeyond m first last reached (before ++ p :: after) =
      some (before.length, m.deviation p first last) := by
  induction before generalizing reached with
  | nil =>
    have hnone : farthestBeyond m first last (m.deviation p first last) after = none := by
      simpa [farthestBeyond_eq_none_iff, deviations] using h.not_lt_after
    rw [List.nil_append, farthestBeyond_cons, if_pos h.lt, hnone]
    rfl
  | cons q before ih =>
    rw [List.cons_append, farthestBeyond_cons]
    have hbefore := fun e he => h.before_lt e (List.mem_cons_of_mem q he)
    split
    · next hq =>
      have hsplit : SplitsAt m (m.deviation q first last) first last before p after :=
        ⟨h.before_lt q List.mem_cons_self hq, fun e he hqe => hbefore e he (hm.trans hq hqe),
          h.not_lt_after⟩
      rw [ih hsplit]
      rfl
    · rw [ih ⟨h.lt, hbefore, h.not_lt_after⟩]
      rfl

omit hm in
theorem IsFlat.splitPosition?_eq {interior : List P} (h : IsFlat m first last interior) (tolerance : D) :
    splitPosition? m tolerance first last interior = none := by
  have hnone : farthestBeyond m first last m.nothing interior = none := by
    simpa [farthestBeyond_eq_none_iff, deviations, IsFlat] using h
  rw [splitPosition?, hnone]
  rfl

/-- A polyline is split at the first of the farthest, if the tolerance does not
let it go. -/
theorem SplitsAt.splitPosition?_eq (h : SplitsAt m m.nothing first last before p after) (tolerance : D) :
    splitPosition? m tolerance first last (before ++ p :: after) =
      if tolerance < m.deviation p first last then some before.length else none := by
  rw [splitPosition?, h.farthestBeyond_eq hm]
  rfl

/-- **Induction on the splits of a polyline.** -/
theorem splits_induction {motive : P → List P → P → Prop}
    (flat : ∀ first interior last, IsFlat m first last interior → motive first interior last)
    (split : ∀ first before p after last, SplitsAt m m.nothing first last before p after →
      motive first before p → motive p after last → motive first (before ++ p :: after) last)
    (first : P) (interior : List P) (last : P) : motive first interior last := by
  induction hn : interior.length using Nat.strongRecOn generalizing first interior last with
  | ind n ih =>
    rcases exists_splitsAt hm first last interior m.nothing (fun _ h => h) with
      hflat | ⟨before, p, after, rfl, hsplit⟩
    · exact flat first interior last hflat
    · rw [List.length_append, List.length_cons] at hn
      exact split first before p after last hsplit (ih before.length (by omega) first before p rfl)
        (ih after.length (by omega) p after last rfl)

end

/-! ## What is left between the ends -/

/-- The vertices strictly between the ends of what is left of a polyline. -/
def inner (m : Measure P D) (tolerance : D) (first : P) (interior : List P) (last : P) : List P :=
  (splitting m tolerance first interior last).tail.dropLast

theorem splitting_eq_inner (m : Measure P D) (tolerance : D) (first last : P) (interior : List P) :
    splitting m tolerance first interior last = first :: inner m tolerance first interior last ++ [last] := by
  obtain ⟨left, h⟩ := exists_splitting_eq m tolerance first last interior
  simp [inner, h]

variable {tolerance : D}

theorem IsFlat.inner_eq {interior : List P} (h : IsFlat m first last interior) (tolerance : D) :
    inner m tolerance first interior last = [] := by
  simp [inner, splitting_of_none m tolerance (h.splitPosition?_eq tolerance)]

variable (hm : m.Ordered)
include hm

theorem SplitsAt.inner_of_not_lt (h : SplitsAt m m.nothing first last before p after)
    (hp : ¬ tolerance < m.deviation p first last) :
    inner m tolerance first (before ++ p :: after) last = [] := by
  have hnone := h.splitPosition?_eq hm tolerance
  rw [if_neg hp] at hnone
  simp [inner, splitting_of_none m tolerance hnone]

theorem SplitsAt.inner_of_lt (h : SplitsAt m m.nothing first last before p after)
    (hp : tolerance < m.deviation p first last) :
    inner m tolerance first (before ++ p :: after) last =
      inner m tolerance first before p ++ p :: inner m tolerance p after last := by
  have hsome := h.splitPosition?_eq hm tolerance
  rw [if_pos hp] at hsome
  have hlt : before.length < (before ++ p :: after).length := by simp
  have hdrop : (before ++ p :: after).drop (before.length + 1) = after := by
    rw [List.append_cons, List.drop_left' (by simp)]
  have heq : splitting m tolerance first (before ++ p :: after) last =
      (first :: inner m tolerance first before p) ++ (p :: inner m tolerance p after last ++ [last]) := by
    simp only [splitting_of_some m tolerance hlt hsome, hdrop, List.take_left,
      List.getElem_append_right (Nat.le_refl _), Nat.sub_self, List.getElem_cons_zero,
      splitting_eq_inner m tolerance _ p, splitting_eq_inner m tolerance p last, List.dropLast_concat]
  rw [inner, heq, List.cons_append, List.tail_cons, ← List.append_assoc, List.dropLast_concat]

theorem inner_sublist (tolerance : D) (first : P) (interior : List P) (last : P) :
    (inner m tolerance first interior last).Sublist interior := by
  induction first, interior, last using splits_induction hm with
  | flat first interior last h => simp [h.inner_eq]
  | split first before p after last h ihb iha =>
    by_cases hp : tolerance < m.deviation p first last
    · rw [h.inner_of_lt hm hp]
      exact ihb.append (iha.cons_cons p)
    · simp [h.inner_of_not_lt hm hp]

end SketchTurtle.Polyline
