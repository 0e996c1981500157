/-
The work stack of the simplification, step by step.

A step takes one span off the stack and puts two parts of it back, or nothing. So the
spans on the stack follow on one another, and of the positions that one of them
reaches its ends are marked and no other (`Work.Sound`). The steps that the spans can
take are bounded by their edges, and each step lowers that bound: after at most
`2 * n - 3` of them nothing is left (`Work.exists_run_eq`).

Spans lie within the polyline by their type. `Bare` is the same loop over numbers of
which nothing is known, where to look up a vertex or a mark fails if there is none;
it takes the same steps (`Bare.step_bare`), so no look-up ever fails (`work_ends`).
-/
import SketchTurtle.Proofs.Geometry.Splitting
import SketchTurtle.Turtle.Plan
import Mathlib.Logic.Function.Iterate

namespace SketchTurtle.Polyline

variable {P D : Type} [LT D] [DecidableLT D] {n : Nat} {m : Measure P D} {tolerance : D} {points : Vector P n}

namespace Work

/-! ## What holds at each step -/

/-- What holds of the spans on the stack and the marks. -/
structure Sound (w : Work n) : Prop where
  within : ∀ s ∈ w.stack, s.first < s.last ∧ s.last ≤ n - 1
  ends_marked : ∀ s ∈ w.stack, w.keep[s.first]? = some true ∧ w.keep[s.last]? = some true
  inside_unmarked : ∀ s ∈ w.stack, ∀ i, s.first < i → i < s.last → w.keep[i]? = some false
  /-- A span has nothing but its end in common with those below it. -/
  ordered : w.stack.Pairwise fun s t => s.last ≤ t.first

/-- At the start the whole polyline is one span. -/
theorem sound_start (h : 2 ≤ n) : (start h).Sound where
  within := by
    intro s hs
    obtain rfl := List.mem_singleton.1 hs
    exact ⟨Span.whole_pos h, Nat.le_refl _⟩
  ends_marked := by
    intro s hs
    obtain rfl := List.mem_singleton.1 hs
    simp [start, Vector.getElem?_set]
  inside_unmarked := by
    intro s hs i hi hlt
    obtain rfl := List.mem_singleton.1 hs
    have hne : n - 1 ≠ i := Nat.ne_of_gt hlt
    have hin : i < n := Nat.lt_of_lt_of_le hlt (Nat.sub_le n 1)
    simp [start, Nat.ne_of_lt hi, hne, hin]
  ordered := List.pairwise_singleton ..

theorem marked_set {keep : Vector Bool n} {i : Nat} (h : keep[i]? = some true) {p : Nat} (hp : p < n) :
    (keep.set p true hp)[i]? = some true := by
  rw [Vector.getElem?_set]
  by_cases hpi : p = i
  · simp [hpi]
  · rw [if_neg hpi]
    exact h

theorem marked_set_self (keep : Vector Bool n) {p : Nat} (hp : p < n) : (keep.set p true hp)[p]? = some true := by
  simp [hp]

theorem unmarked_set {keep : Vector Bool n} {i : Nat} (h : keep[i]? = some false) {p : Nat} (hp : p < n) (hne : p ≠ i) :
    (keep.set p true hp)[i]? = some false := by
  rw [Vector.getElem?_set, if_neg hne]
  exact h

theorem Sound.tail {w : Work n} {s : Span n} {rest : List (Span n)} (h : w.Sound) (hs : w.stack = s :: rest) :
    Sound { w with stack := rest } where
  within := fun t ht => h.within t (hs ▸ List.mem_cons_of_mem s ht)
  ends_marked := fun t ht => h.ends_marked t (hs ▸ List.mem_cons_of_mem s ht)
  inside_unmarked := fun t ht => h.inside_unmarked t (hs ▸ List.mem_cons_of_mem s ht)
  ordered := (List.pairwise_cons.1 (hs ▸ h.ordered)).2

/-- What holds is kept when the first span is split at a position within it. -/
theorem Sound.split {w : Work n} {s : Span n} {rest : List (Span n)} (h : w.Sound) (hs : w.stack = s :: rest) {p : Nat}
    (hfirst : s.first < p) (hlast : p < s.last) (hp : p < n) :
    Sound { stack := s.before p hfirst hlast :: s.after p hfirst hlast :: rest, keep := w.keep.set p true hp } where
  within := by
    have hbounds := h.within s (hs ▸ List.mem_cons_self)
    simp only [List.forall_mem_cons, Span.before, Span.after]
    exact ⟨by omega, by omega, (h.tail hs).within⟩
  ends_marked := by
    have hends := h.ends_marked s (hs ▸ List.mem_cons_self)
    have hself := marked_set_self w.keep hp
    simp only [List.forall_mem_cons, Span.before, Span.after]
    refine ⟨⟨marked_set hends.1 hp, hself⟩, ⟨hself, marked_set hends.2 hp⟩, fun t ht => ?_⟩
    have hends := (h.tail hs).ends_marked t ht
    exact ⟨marked_set hends.1 hp, marked_set hends.2 hp⟩
  inside_unmarked := by
    have hinside := h.inside_unmarked s (hs ▸ List.mem_cons_self)
    have hbelow := (List.pairwise_cons.1 (hs ▸ h.ordered)).1
    simp only [List.forall_mem_cons, Span.before, Span.after]
    refine ⟨fun i hi hlt => ?_, fun i hi hlt => ?_, fun t ht i hi hlt => ?_⟩
    · exact unmarked_set (hinside i hi (Nat.lt_trans hlt hlast)) hp (Nat.ne_of_gt hlt)
    · exact unmarked_set (hinside i (Nat.lt_trans hfirst hi) hlt) hp (Nat.ne_of_lt hi)
    · -- the spans below begin behind the new mark
      have hle := hbelow t ht
      exact unmarked_set ((h.tail hs).inside_unmarked t ht i hi hlt) hp (by omega)
  ordered := by
    have hbelow := (List.pairwise_cons.1 (hs ▸ h.ordered)).1
    simp only [List.pairwise_cons, List.forall_mem_cons, Span.before, Span.after]
    exact ⟨⟨Nat.le_refl p, fun t ht => by have := hbelow t ht; omega⟩, hbelow, (h.tail hs).ordered⟩

/-- A step keeps what holds. -/
theorem Sound.step {w : Work n} (h : w.Sound) : (w.step m tolerance points).Sound := by
  unfold Work.step
  split
  · exact h
  · next s rest hs =>
    split
    · exact h.tail hs
    · next split _ => exact h.split hs split.first_lt split.lt_last (Nat.lt_trans split.lt_last s.last_lt)

theorem Sound.iterate {w : Work n} (h : w.Sound) (k : Nat) : ((Work.step m tolerance points)^[k] w).Sound := by
  induction k with
  | zero => exact h
  | succ k ih =>
    rw [Function.iterate_succ_apply']
    exact ih.step

/-! ## The number of steps -/

/-- The steps end, and there are no more of them than the bound of the stack. -/
theorem exists_run_eq (m : Measure P D) (tolerance : D) (points : Vector P n) (w : Work n) :
    ∃ k ≤ bound w.stack, (∀ j < k, ((step m tolerance points)^[j] w).stack ≠ []) ∧
      ((step m tolerance points)^[k] w).stack = [] ∧ w.run m tolerance points = (step m tolerance points)^[k] w := by
  fun_induction run m tolerance points w with
  | case1 w h => exact ⟨0, Nat.zero_le _, fun j hj => absurd hj (Nat.not_lt_zero j), h, rfl⟩
  | case2 w h ih =>
    obtain ⟨k, hk, hbefore, hafter, hrun⟩ := ih
    refine ⟨k + 1, Nat.lt_of_le_of_lt hk (bound_step_lt m tolerance points w h), ?_, hafter, hrun⟩
    intro j hj
    cases j with
    | zero => exact h
    | succ j => exact hbefore j (Nat.lt_of_succ_lt_succ hj)

theorem bound_start (h : 2 ≤ n) : bound (start h).stack = 2 * n - 3 := by
  simp only [start, bound, Span.edges]
  omega

end Work

/-! ## Numbers in place of spans -/

/-- The work of a loop that knows nothing of its positions: the spans are pairs of
numbers, the next one first, and the marks are a list. -/
structure Bare where
  stack : List (Nat × Nat)
  keep : List Bool
  deriving DecidableEq, Repr

namespace Bare

/-- The first of the greatest deviations at some positions, and where it is, if it
exceeds the best one before. It fails where there is no vertex. -/
def farthest (m : Measure P D) (points : List P) (first last : P) : List Nat → Nat × D → Option (Nat × D)
  | [], best => some best
  | i :: rest, best =>
    match points[i]? with
    | none => none
    | some p =>
      let d := m.deviation p first last
      farthest m points first last rest (if best.2 < d then (i, d) else best)

/-- One pair is looked at. It fails where there is no vertex, or no mark to set. -/
def step (m : Measure P D) (tolerance : D) (points : List P) (b : Bare) : Option Bare :=
  match b.stack with
  | [] => some b
  | (start, stop) :: rest =>
    if stop - start < 2 then some { b with stack := rest }
    else do
      let first ← points[start]?
      let last ← points[stop]?
      let (position, d) ←
        farthest m points first last (List.range' (start + 1) (stop - (start + 1))) (start, m.nothing)
      if start < position ∧ tolerance < d then
        let _ ← b.keep[position]?
        some { stack := (start, position) :: (position, stop) :: rest, keep := b.keep.set position true }
      else some { b with stack := rest }

/-- A number of steps, unless one of them fails. -/
def steps (m : Measure P D) (tolerance : D) (points : List P) : Nat → Bare → Option Bare
  | 0, b => some b
  | k + 1, b => (b.step m tolerance points).bind (steps m tolerance points k)

/-- All of a polyline of `n` vertices is looked at, and its ends are marked. -/
def start (n : Nat) : Bare := ⟨[(0, n - 1)], ((List.replicate n false).set 0 true).set (n - 1) true⟩

end Bare

namespace Work

/-- The spans and the marks without what is known of them. -/
def bare (w : Work n) : Bare := ⟨w.stack.map fun s => (s.first, s.last), w.keep.toList⟩

end Work

namespace Span

/-- The position of the farthest vertex so far and its deviation; of none, the
beginning of the span and no deviation. -/
def best (m : Measure P D) {s : Span n} : Option (Split s D) → Nat × D
  | none => (s.first, m.nothing)
  | some split => (split.position, split.deviation)

omit [LT D] [DecidableLT D] in
theorem best_snd (m : Measure P D) {s : Span n} (found : Option (Split s D)) : (best m found).2 = reached m found := by
  cases found <;> rfl

theorem split?_of_farthest_eq_none {s : Span n} (h : s.farthest m points = none) :
    s.split? m tolerance points = none := by
  rw [split?, h, Option.filter_none]

theorem split?_of_farthest {s : Span n} {split : Split s D} (h : s.farthest m points = some split) :
    s.split? m tolerance points = if tolerance < split.deviation then some split else none := by
  rw [split?, h, Option.filter_some]
  simp only [decide_eq_true_eq]

theorem split?_of_edges_lt {s : Span n} (h : s.last - s.first < 2) : s.split? m tolerance points = none := by
  cases hsplit : s.split? m tolerance points with
  | none => rfl
  | some split =>
    have hfirst := split.first_lt
    have hlast := split.lt_last
    omega

end Span

namespace Bare

theorem farthest_eq (m : Measure P D) (points : Vector P n) (s : Span n) (i : Nat) (h : s.first < i)
    (found : Option (Split s D)) :
    farthest m points.toList (s.head points) (s.tip points) (List.range' i (s.last - i)) (Span.best m found) =
      some (Span.best m (s.farthestFrom m points i h found)) := by
  induction hk : s.last - i generalizing i found with
  | zero =>
    rw [Span.farthestFrom.eq_def, dif_neg (by omega)]
    rfl
  | succ k ih =>
    have hi : i < s.last := by omega
    have hn : i < n := Nat.lt_trans hi s.last_lt
    have hvertex : points.toList[i]? = some points[i] := by simp [hn]
    rw [Span.farthestFrom_succ m points s i h hi hn, ← ih (i + 1) _ _ (by omega), List.range'_succ]
    simp only [farthest, hvertex, Span.best_snd]
    congr 1
    split <;> rfl

/-- **A step over numbers fails nowhere**: it is the step over spans. -/
theorem step_bare (m : Measure P D) (tolerance : D) (points : Vector P n) (w : Work n) :
    step m tolerance points.toList w.bare = some (w.step m tolerance points).bare := by
  obtain ⟨stack, keep⟩ := w
  cases stack with
  | nil => rfl
  | cons s rest =>
    simp only [step, Work.bare, List.map_cons, Work.step]
    by_cases hedges : s.last - s.first < 2
    · rw [if_pos hedges, Span.split?_of_edges_lt hedges]
    · have hhead : points.toList[s.first]? = some (s.head points) := by simp [s.first_lt, Span.head]
      have htip : points.toList[s.last]? = some (s.tip points) := by simp [s.last_lt, Span.tip]
      have hscan : farthest m points.toList (s.head points) (s.tip points)
          (List.range' (s.first + 1) (s.last - (s.first + 1))) (s.first, m.nothing) =
          some (Span.best m (s.farthest m points)) := farthest_eq m points s (s.first + 1) _ none
      rw [if_neg hedges]
      simp only [hhead, htip, hscan, Option.bind_eq_bind, Option.bind_some]
      cases hfarthest : s.farthest m points with
      | none =>
        rw [Span.split?_of_farthest_eq_none hfarthest]
        simp [Span.best]
      | some split =>
        have hposition : split.position < n := Nat.lt_trans split.lt_last s.last_lt
        have hmark : keep.toList[split.position]? = some keep[split.position] := by simp [hposition]
        rw [Span.split?_of_farthest hfarthest]
        by_cases hlt : tolerance < split.deviation
        · simp [Span.best, Span.before, Span.after, split.first_lt, hlt, hmark, Vector.toList_set]
        · simp [Span.best, hlt]

theorem steps_bare (m : Measure P D) (tolerance : D) (points : Vector P n) (k : Nat) (w : Work n) :
    steps m tolerance points.toList k w.bare = some ((Work.step m tolerance points)^[k] w).bare := by
  induction k generalizing w with
  | zero => rfl
  | succ k ih => rw [steps, step_bare, Option.bind_some, ih, Function.iterate_succ_apply]

theorem bare_start (h : 2 ≤ n) : (Work.start h).bare = start n := by
  simp [Work.start, Work.bare, start, Vector.toList_set]

end Bare

/-! ## The whole polyline -/

/-- The work on a whole polyline after a number of steps. -/
def Work.after (m : Measure P D) (tolerance : D) (points : Vector P n) (h : 2 ≤ n) (k : Nat) : Work n :=
  (Work.step m tolerance points)^[k] (Work.start h)

/-- **The work on a polyline ends after at most `2 * n - 3` steps**, each of which takes
a span off the stack, and then the vertices to keep are marked. After every number of
steps the spans are as `Work.Sound` says, and the same steps over bare numbers have
looked up nothing that is not there. Nothing is assumed of the deviations: they need
not even be numbers. -/
theorem work_ends (m : Measure P D) (tolerance : D) (points : Vector P n) (h : 3 ≤ n) :
    (∃ k ≤ 2 * n - 3,
        (∀ j < k, (Work.after m tolerance points (Nat.le_of_lt h) j).stack ≠ []) ∧
          (Work.after m tolerance points (Nat.le_of_lt h) k).stack = [] ∧
          (Work.after m tolerance points (Nat.le_of_lt h) k).keep = marks m tolerance points) ∧
      ∀ k, (Work.after m tolerance points (Nat.le_of_lt h) k).Sound ∧
        Bare.steps m tolerance points.toList k (Bare.start n) =
          some (Work.after m tolerance points (Nat.le_of_lt h) k).bare := by
  have hlong : ¬ n ≤ 2 := Nat.not_le.2 h
  refine ⟨?_, fun k => ⟨(Work.sound_start _).iterate k, ?_⟩⟩
  · obtain ⟨k, hk, hbefore, hempty, hrun⟩ := Work.exists_run_eq m tolerance points (Work.start (Nat.le_of_lt h))
    rw [Work.bound_start] at hk
    refine ⟨k, hk, hbefore, hempty, ?_⟩
    rw [marks, dif_neg hlong, hrun]
    rfl
  · rw [← Bare.bare_start (Nat.le_of_lt h)]
    exact Bare.steps_bare m tolerance points k _

/-- A stroke with a point that is nowhere and one that is infinitely far away. -/
def astray : Vector (Point Float) 4 := #v[⟨0, 0⟩, ⟨0 / 0, 1⟩, ⟨1 / 0, 5⟩, ⟨3, 0⟩]

theorem work_ends_astray :
    3 ≤ 4 ∧ Bare.steps Turtle.deviation 2 astray.toList 3 (Bare.start 4) = some ⟨[], [true, false, true, true]⟩ ∧
      ∃ k ≤ 2 * 4 - 3, ∃ h, (Work.after Turtle.deviation 2 astray h k).stack = [] ∧
        (Work.after Turtle.deviation 2 astray h k).keep = marks Turtle.deviation 2 astray := by
  have hlong : 3 ≤ 4 := by decide
  obtain ⟨⟨k, hk, -, hempty, hmarks⟩, hsteps⟩ := work_ends Turtle.deviation 2 astray hlong
  have hbare : (Work.after Turtle.deviation 2 astray (by decide) 3).bare = ⟨[], [true, false, true, true]⟩ := by
    decide +kernel
  exact ⟨hlong, hbare ▸ (hsteps 3).2, k, hk, Nat.le_of_lt hlong, hempty, hmarks⟩

end SketchTurtle.Polyline
