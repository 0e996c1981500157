/-
The textbook recursion, and that the work stack computes it.

`recursive` says what the polyline left of a polyline is without a scan: a
polyline of more than two vertices is split at the first interior vertex
whose deviation is a largest one (`IsLargest`: more than nothing, and no
interior vertex has more), if that exceeds the tolerance.

A scan that keeps the first of the greatest finds that vertex when the
deviations that are more than nothing are in order (`Measure.Ordered`).
Doubles are (`ordered_deviation`): one that is no number is not more than
nothing, and all others compare.
-/
import SketchTurtle.Proofs.Geometry.Splitting
import SketchTurtle.Proofs.Number.Order
import SketchTurtle.Turtle.Plan

namespace SketchTurtle.Polyline

variable {P D : Type} [LT D] [DecidableLT D]

/-! ## The recursion -/

/-- A deviation that is more than nothing and that none of the others
exceeds. -/
def IsLargest (nothing : D) (deviations : List D) (d : D) : Prop :=
  nothing < d ∧ ∀ e ∈ deviations, ¬ d < e

instance (nothing : D) (deviations : List D) (d : D) : Decidable (IsLargest nothing deviations d) :=
  inferInstanceAs (Decidable (_ ∧ _))

/-- The first of the largest deviations, and where it is. -/
def firstLargest? (nothing : D) (ds : List D) : Option (Nat × D) :=
  (ds.findIdx? (IsLargest nothing ds ·)).bind fun i => ds[i]?.map (i, ·)

/-- The deviations of interior vertices from the segment between the ends. -/
def deviations (m : Measure P D) (first last : P) (interior : List P) : List D :=
  interior.map (m.deviation · first last)

/-- The position of the first interior vertex whose deviation is a largest one,
if that exceeds the tolerance. -/
def splitIndex? (m : Measure P D) (tolerance : D) : List P → Option Nat
  | first :: second :: rest =>
    (firstLargest? m.nothing (deviations m first ((second :: rest).getLast (List.cons_ne_nil second rest))
      (second :: rest).dropLast)).bind fun (i, d) => if tolerance < d then some (i + 1) else none
  | _ => none

theorem firstLargest?_lt {nothing d : D} {ds : List D} {i : Nat}
    (h : firstLargest? nothing ds = some (i, d)) : i < ds.length := by
  obtain ⟨j, hj, h⟩ := Option.bind_eq_some_iff.1 h
  obtain ⟨e, -, h⟩ := Option.map_eq_some_iff.1 h
  cases h
  exact (List.findIdx?_eq_some_iff_findIdx_eq.1 hj).1

theorem splitIndex?_bounds {m : Measure P D} {tolerance : D} {points : List P} {i : Nat}
    (h : splitIndex? m tolerance points = some i) : 0 < i ∧ i + 1 < points.length := by
  match points with
  | [] | [_] => simp [splitIndex?] at h
  | first :: second :: rest =>
    obtain ⟨⟨j, d⟩, hj, h⟩ := Option.bind_eq_some_iff.1 h
    have hlt := firstLargest?_lt hj
    simp only [deviations, List.length_map, List.length_dropLast, List.length_cons] at hlt
    simp only at h
    split at h
    · rw [← Option.some.inj h]
      simp only [List.length_cons]
      omega
    · cases h

/-- What Ramer, Douglas and Peucker leave of a polyline. -/
def recursive (m : Measure P D) (tolerance : D) (points : List P) : List P :=
  if h : points.length ≤ 2 then points
  else
    match hi : splitIndex? m tolerance points with
    | none => [points.head (by rintro rfl; simp at h), points.getLast (by rintro rfl; simp at h)]
    | some i =>
      (recursive m tolerance (points.take (i + 1))).dropLast ++ recursive m tolerance (points.drop i)
  termination_by points.length
  decreasing_by
    · have := splitIndex?_bounds hi
      simp only [List.length_take]
      omega
    · have := splitIndex?_bounds hi
      simp only [List.length_drop]
      omega

/-! ## The scan -/

/-- Deviations that are more than nothing are in order. -/
structure Measure.Ordered (m : Measure P D) : Prop where
  irrefl : ∀ a : D, ¬ a < a
  trans : ∀ {a b c : D}, a < b → b < c → a < c
  lt_or_lt : ∀ {a b c : D}, m.nothing < c → a < b → a < c ∨ c < b

theorem farthestBeyond_eq_none_iff {m : Measure P D} {first last : P} {reached : D} {interior : List P} :
    farthestBeyond m first last reached interior = none ↔
      ∀ d ∈ deviations m first last interior, ¬ reached < d := by
  induction interior with
  | nil => simp [farthestBeyond, deviations]
  | cons p rest ih =>
    rw [farthestBeyond_cons]
    split
    · next h => simp [deviations, h]
    · next h => simpa [deviations, h] using ih

theorem findIdx?_congr {α : Type} {p q : α → Bool} {l : List α} (h : ∀ a ∈ l, p a = q a) :
    l.findIdx? p = l.findIdx? q := by
  induction l with
  | nil => rfl
  | cons a l ih =>
    rw [List.findIdx?_cons, List.findIdx?_cons, h a List.mem_cons_self,
      ih fun b hb => h b (List.mem_cons_of_mem _ hb)]

theorem firstLargest?_cons_self {nothing d : D} {ds : List D} (h : IsLargest nothing (d :: ds) d) :
    firstLargest? nothing (d :: ds) = some (0, d) := by
  simp [firstLargest?, List.findIdx?_cons, h]

theorem firstLargest?_cons_of_not {nothing reached d : D} {ds : List D} (hd : ¬ IsLargest nothing (d :: ds) d)
    (h : ∀ e ∈ ds, IsLargest nothing (d :: ds) e ↔ IsLargest reached ds e) :
    firstLargest? nothing (d :: ds) = (firstLargest? reached ds).map fun (i, e) => (i + 1, e) := by
  have hc : ds.findIdx? (IsLargest nothing (d :: ds) ·) = ds.findIdx? (IsLargest reached ds ·) :=
    findIdx?_congr fun e he => decide_eq_decide.2 (h e he)
  rw [firstLargest?, List.findIdx?_cons, if_neg (by simpa using hd), hc, firstLargest?]
  cases ds.findIdx? (IsLargest reached ds ·) with
  | none => rfl
  | some i => cases h : ds[i]? <;> simp [h]

/-- Keeping the first of the greatest while scanning finds the first of the
largest. -/
theorem farthestBeyond_eq {m : Measure P D} (hm : m.Ordered) (first last : P) (interior : List P) :
    ∀ (reached : D), (∀ d, reached < d → m.nothing < d) →
      farthestBeyond m first last reached interior =
        firstLargest? reached (deviations m first last interior) := by
  induction interior with
  | nil => intro reached _; rfl
  | cons p rest ih =>
    intro reached hr
    rw [farthestBeyond_cons]
    show _ = firstLargest? reached (m.deviation p first last :: deviations m first last rest)
    generalize m.deviation p first last = d
    split
    · next hlt =>
      have ih := ih d fun e he => hr e (hm.trans hlt he)
      by_cases hnone : farthestBeyond m first last d rest = none
      · rw [hnone, firstLargest?_cons_self]
        · rfl
        · refine ⟨hlt, fun e he => ?_⟩
          rcases List.mem_cons.1 he with rfl | he
          · exact hm.irrefl _
          · exact farthestBeyond_eq_none_iff.1 hnone e he
      · -- A further vertex exceeds the first, which is then no largest one.
        obtain ⟨top, htop, hd⟩ : ∃ e ∈ deviations m first last rest, d < e := by
          simpa [farthestBeyond_eq_none_iff] using hnone
        obtain ⟨found, hfound⟩ := Option.ne_none_iff_exists'.1 hnone
        rw [hfound, firstLargest?_cons_of_not fun h => h.2 top (List.mem_cons_of_mem _ htop) hd,
          ← ih, hfound]
        · rfl
        · intro e he
          constructor
          · intro ⟨hre, hmax⟩
            have hde := (hm.lt_or_lt (hr e hre) hd).resolve_right
              (hmax top (List.mem_cons_of_mem _ htop))
            exact ⟨hde, fun f hf => hmax f (List.mem_cons_of_mem _ hf)⟩
          · intro ⟨hde, hmax⟩
            refine ⟨hm.trans hlt hde, fun f hf => ?_⟩
            rcases List.mem_cons.1 hf with rfl | hf
            · exact fun hed => hm.irrefl _ (hm.trans hde hed)
            · exact hmax f hf
    · next hlt =>
      rw [ih reached hr, firstLargest?_cons_of_not fun h => hlt h.1]
      intro e he
      constructor
      · exact fun ⟨hre, hmax⟩ => ⟨hre, fun f hf => hmax f (List.mem_cons_of_mem _ hf)⟩
      · intro ⟨hre, hmax⟩
        refine ⟨hre, fun f hf => ?_⟩
        rcases List.mem_cons.1 hf with rfl | hf
        · exact fun hef => hlt (hm.trans hre hef)
        · exact hmax f hf

/-! ## The recursion and the work stack -/

theorem recursive_of_le (m : Measure P D) (tolerance : D) {points : List P} (h : points.length ≤ 2) :
    recursive m tolerance points = points := by
  rw [recursive, dif_pos h]

theorem recursive_of_none (m : Measure P D) (tolerance : D) {first last : P} {interior : List P}
    (h : splitIndex? m tolerance (first :: (interior ++ [last])) = none) :
    recursive m tolerance (first :: (interior ++ [last])) = [first, last] := by
  by_cases hl : (first :: (interior ++ [last])).length ≤ 2
  · have : interior = [] := by cases interior <;> simp at hl ⊢
    rw [recursive_of_le m tolerance hl, this]
    rfl
  · rw [recursive, dif_neg hl]
    split
    · simp
    · next h' => rw [h] at h'; cases h'

theorem recursive_of_some (m : Measure P D) (tolerance : D) {points : List P} {i : Nat}
    (h : splitIndex? m tolerance points = some i) :
    recursive m tolerance points =
      (recursive m tolerance (points.take (i + 1))).dropLast ++ recursive m tolerance (points.drop i) := by
  have hi := splitIndex?_bounds h
  rw [recursive, dif_neg (by omega)]
  split
  · next h' => rw [h] at h'; cases h'
  · next h' =>
    rw [h] at h'
    cases h'
    rfl

section

variable {m : Measure P D} (tolerance : D) (hm : m.Ordered)
include hm

theorem splitIndex?_cons_append (first last : P) (interior : List P) :
    splitIndex? m tolerance (first :: (interior ++ [last])) =
      (splitPosition? m tolerance first last interior).map (· + 1) := by
  have hscan := farthestBeyond_eq hm first last interior m.nothing fun _ h => h
  have hindex : splitIndex? m tolerance (first :: (interior ++ [last])) =
      (firstLargest? m.nothing (deviations m first last interior)).bind fun (i, d) =>
        if tolerance < d then some (i + 1) else none := by
    cases interior with
    | nil => rfl
    | cons second rest =>
      rw [List.cons_append, splitIndex?]
      simp only [← List.cons_append, List.dropLast_concat, List.getLast_append_singleton]
  rw [hindex, splitPosition?, hscan]
  cases firstLargest? m.nothing (deviations m first last interior) with
  | none => rfl
  | some found =>
    simp only [Option.bind_some]
    split <;> rfl

theorem recursive_eq_splitting (first last : P) (interior : List P) :
    recursive m tolerance (first :: (interior ++ [last])) = splitting m tolerance first interior last := by
  fun_induction splitting m tolerance first interior last with
  | case1 first interior last h =>
    exact recursive_of_none m tolerance (by rw [splitIndex?_cons_append tolerance hm, h]; rfl)
  | case2 first interior last i h hi ihl ihr =>
    have hsplit : splitIndex? m tolerance (first :: (interior ++ [last])) = some (i + 1) := by
      rw [splitIndex?_cons_append tolerance hm, h]
      rfl
    have htake : (first :: (interior ++ [last])).take (i + 1 + 1) =
        first :: (interior.take i ++ [interior[i]]) := by
      rw [List.take_succ_cons, List.take_append_of_le_length (by omega), List.take_append_getElem hi]
    have hdrop : (first :: (interior ++ [last])).drop (i + 1) =
        interior[i] :: (interior.drop (i + 1) ++ [last]) := by
      rw [List.drop_succ_cons, List.drop_append_of_le_length (by omega), List.drop_eq_getElem_cons hi,
        List.cons_append]
    rw [recursive_of_some m tolerance hsplit, htake, hdrop, ihl, ihr]

/-- The work stack computes the recursion when deviations are in order. -/
theorem Measure.Ordered.simplify_eq_recursive (points : List P) :
    simplify m tolerance points = recursive m tolerance points := by
  rw [simplify_eq_simplifySplitting]
  by_cases h : 2 ≤ points.length
  · obtain ⟨first, interior, last, rfl⟩ := exists_eq_cons_append h
    rw [simplifySplitting_cons_append, recursive_eq_splitting tolerance hm]
  · rw [recursive_of_le m tolerance (by omega)]
    match points with
    | [] | [_] => rfl
    | _ :: _ :: _ => simp at h

end

/-! ## Strokes -/

/-- Distances in doubles are in order: one that is no number is not more than
nothing. -/
theorem ordered_deviation : Turtle.deviation.Ordered :=
  ⟨Exact.lt_irrefl, Exact.lt_trans, Exact.lt_or_lt⟩

/-- **The work stack computes the recursion** on every stroke and for every
tolerance, whether coordinates, distances and tolerance are numbers or not. -/
theorem simplify_stroke_eq_recursive (tolerance : Float) (points : List (Point Float)) :
    simplify Turtle.deviation tolerance points = recursive Turtle.deviation tolerance points :=
  ordered_deviation.simplify_eq_recursive tolerance points

end SketchTurtle.Polyline
