/-
The parts of any program.

Splitting reads a program once and remembers the part that has begun (`Program.strokesFrom`).
What that comes to is said here by positions. A part begins at a position (`Program.Begins`) where
the pen is lifted, and goes on as long as no operation lifts the pen again or is a blank line; it
is one of the program's parts if a blank line ends it (`Program.IsPart`). Two parts do not overlap
(`Program.IsPart.before`), so they have an order, and splitting finds all of them in that order
(`strokes_eq_parts`).
-/
import SketchTurtle.Proofs.Turtle.Strokes

namespace SketchTurtle.Turtle

namespace Program

variable {program : Program} {i j k : Nat} {op : Operation}

/-! ## Parts by positions -/

/-- The pen is lifted at position `i`, and up to position `k` no operation lifts it again or is a
blank line. -/
structure Begins (program : Program) (i k : Nat) : Prop where
  lt : i < k
  lifts : program[i]? = some .penUp
  inner : ∀ m op, i < m → m < k → program[m]? = some op → op.isInner = true

/-- The operations from position `i` to the one before position `j` are a part: a blank line
follows at `j`. -/
structure IsPart (program : Program) (i j : Nat) : Prop where
  begins : program.Begins i j
  ends : program[j]? = some .blank

/-- The position lies in a part. -/
def InPart (program : Program) (k : Nat) : Prop := ∃ i j, program.IsPart i j ∧ i ≤ k ∧ k < j

theorem begins_succ (hop : program[k]? = some op) :
    program.Begins i (k + 1) ↔ i = k ∧ op.kind = .penUp ∨ program.Begins i k ∧ op.isInner = true := by
  constructor
  · rintro ⟨hlt, hlifts, hinner⟩
    rcases Nat.eq_or_lt_of_le (Nat.le_of_lt_succ hlt) with rfl | hlt
    · rw [hop] at hlifts
      cases hlifts
      exact .inl ⟨rfl, rfl⟩
    · exact .inr ⟨⟨hlt, hlifts, fun m op hm hk => hinner m op hm (by omega)⟩, hinner k op hlt (by omega) hop⟩
  · rintro (⟨rfl, hkind⟩ | ⟨⟨hlt, hlifts, hinner⟩, hop'⟩)
    · refine ⟨by omega, ?_, fun m op hm hk => by omega⟩
      rw [hop]
      cases op <;> first | rfl | cases hkind
    · refine ⟨by omega, hlifts, fun m other hm hk hother => ?_⟩
      rcases Nat.eq_or_lt_of_le (Nat.le_of_lt_succ hk) with rfl | hk
      · rw [hop] at hother
        cases hother
        exact hop'
      · exact hinner m other hm hk hother

theorem IsPart.lt_length (h : program.IsPart i j) : j < program.length :=
  (List.getElem?_eq_some_iff.1 h.ends).1

/-- Of two parts the one that ends first ends before the other one begins. -/
theorem IsPart.before {i' j' : Nat} (h : program.IsPart i j) (h' : program.IsPart i' j') (hlt : j < j') :
    j < i' := by
  refine Nat.lt_of_not_le fun hle => ?_
  -- otherwise the blank line that ends the first part stands in the second one
  rcases Nat.eq_or_lt_of_le hle with rfl | hle
  · exact nomatch h.ends.symm.trans h'.begins.lifts
  · exact nomatch h'.begins.inner j .blank hle hlt h.ends

/-- The pen is lifted in a part only where the part begins. -/
theorem inPart_of_lifts (hlifts : program[i]? = some .penUp) : program.InPart i ↔ ∃ j, program.IsPart i j := by
  constructor
  · rintro ⟨i', j, h, hle, hlt⟩
    rcases Nat.eq_or_lt_of_le hle with rfl | hle
    · exact ⟨j, h⟩
    · exact nomatch h.begins.inner i .penUp hle hlt hlifts
  · rintro ⟨j, h⟩
    exact ⟨i, j, h, Nat.le_refl i, h.begins.lt⟩

/-! ## Spans -/

/-- The spans of the parts that end from position `k` on, in their order. -/
structure AreSpans (program : Program) (k : Nat) (spans : List (Nat × Nat)) : Prop where
  ordered : spans.Pairwise fun a b => a.2 < b.1
  mem_iff : ∀ i j, (i, j) ∈ spans ↔ program.IsPart i j ∧ k ≤ j

theorem areSpans_nil (hlength : program.length ≤ k) : program.AreSpans k [] := by
  refine ⟨.nil, fun i j => ⟨nofun, fun ⟨h, hle⟩ => ?_⟩⟩
  have := h.lt_length
  omega

theorem AreSpans.of_not_blank {spans : List (Nat × Nat)} (h : program.AreSpans (k + 1) spans)
    (hop : program[k]? = some op) (hblank : op.kind ≠ .blank) : program.AreSpans k spans := by
  refine ⟨h.ordered, fun i j => (h.mem_iff i j).trans ⟨fun ⟨hpart, hle⟩ => ⟨hpart, by omega⟩, ?_⟩⟩
  rintro ⟨hpart, hle⟩
  refine ⟨hpart, Nat.lt_of_le_of_ne hle ?_⟩
  rintro rfl
  have hends := hop.symm.trans hpart.ends
  cases hends
  exact hblank rfl

theorem AreSpans.of_blank {spans : List (Nat × Nat)} (h : program.AreSpans (k + 1) spans)
    (hop : program[k]? = some .blank) {start : Option Nat} (hstart : ∀ i, start = some i ↔ program.Begins i k) :
    program.AreSpans k ((start.map (·, k)).toList ++ spans) where
  ordered := by
    refine List.pairwise_append.2 ⟨by cases start <;> simp, h.ordered, fun a ha b hb => ?_⟩
    obtain ⟨i, hi, rfl⟩ := Option.map_eq_some_iff.1 (Option.mem_toList.1 ha)
    obtain ⟨hpart, hle⟩ := (h.mem_iff b.1 b.2).1 hb
    exact IsPart.before ⟨(hstart i).1 hi, hop⟩ hpart hle
  mem_iff i j := by
    rw [List.mem_append, h.mem_iff, Option.mem_toList, Option.map_eq_some_iff]
    constructor
    · rintro (⟨i', hi, heq⟩ | ⟨hpart, hle⟩)
      · cases heq
        exact ⟨⟨(hstart i).1 hi, hop⟩, Nat.le_refl k⟩
      · exact ⟨hpart, by omega⟩
    · rintro ⟨hpart, hle⟩
      rcases Nat.eq_or_lt_of_le hle with rfl | hlt
      · exact .inl ⟨i, (hstart i).2 hpart.begins, rfl⟩
      · exact .inr ⟨hpart, hlt⟩

/-! ## Splitting -/

theorem extract_succ (hle : i ≤ k) (hop : program[k]? = some op) :
    program.extract i (k + 1) = program.extract i k ++ [op] := by
  rw [List.extract_eq_take_drop, List.extract_eq_take_drop, show k + 1 - i = k - i + 1 by omega, List.take_add_one,
    List.getElem?_drop, show i + (k - i) = k by omega, hop]
  rfl

/-- The part that has begun, as splitting remembers it: its last operation first. -/
def pending (program : Program) (k : Nat) (start : Option Nat) : Option (List Operation) :=
  start.map fun i => (program.extract i k).reverse

/-- An operation that neither begins nor ends a part is added to the one that has begun. -/
theorem strokesFrom_of_isInner (hinner : op.isInner = true) (hop : program[k]? = some op) {start : Option Nat}
    (hstart : ∀ i, start = some i → i ≤ k) (rest : Program) :
    strokesFrom (program.pending k start) (op :: rest) = strokesFrom (program.pending (k + 1) start) rest := by
  have hstep : strokesFrom (program.pending k start) (op :: rest) =
      strokesFrom ((program.pending k start).map (op :: ·)) rest := by
    cases op <;> first | rfl | cases hinner
  rw [hstep]
  cases start with
  | none => rfl
  | some i => simp [pending, extract_succ (hstart i rfl) hop]

/-- The induction is on what is left to be read, from position `k` on. What is known of `start`
is the invariant: a part has begun there, and goes on at `k`. -/
theorem exists_spans {rest : Program} (hrest : program.drop k = rest) {start : Option Nat}
    (hstart : ∀ i, start = some i ↔ program.Begins i k) :
    ∃ spans, program.AreSpans k spans ∧
      strokesFrom (program.pending k start) rest = spans.map fun span => program.extract span.1 span.2 := by
  induction rest generalizing k start with
  | nil => exact ⟨[], areSpans_nil (List.drop_eq_nil_iff.1 hrest), by simp [strokesFrom]⟩
  | cons op rest ih =>
    have hop : program[k]? = some op := by
      rw [← List.head?_drop, hrest, List.head?_cons]
    have hnext : program.drop (k + 1) = rest := by
      rw [← List.tail_drop, hrest, List.tail_cons]
    by_cases hinner : op.isInner = true
    · have hkinds : op.kind ≠ .penUp ∧ op.kind ≠ .blank := by simpa [Operation.isInner] using hinner
      have hgoes (i : Nat) : start = some i ↔ program.Begins i (k + 1) := by
        rw [begins_succ hop, hstart]
        simp [hinner, hkinds.1]
      obtain ⟨spans, hspans, hstrokes⟩ := ih hnext hgoes
      refine ⟨spans, hspans.of_not_blank hop hkinds.2, ?_⟩
      rw [strokesFrom_of_isInner hinner hop fun i hi => ((hstart i).1 hi).lt.le, hstrokes]
    · cases op with
      | penUp =>
        have hbegins (i : Nat) : some k = some i ↔ program.Begins i (k + 1) := by
          rw [begins_succ hop]
          simp [Operation.isInner, Operation.kind, eq_comm]
        obtain ⟨spans, hspans, hstrokes⟩ := ih hnext hbegins
        refine ⟨spans, hspans.of_not_blank hop (by simp [Operation.kind]), ?_⟩
        have hself : program.pending (k + 1) (some k) = some [.penUp] := by
          rw [pending, Option.map_some, extract_succ (Nat.le_refl k) hop]
          simp
        rw [strokesFrom, ← hself, hstrokes]
      | blank =>
        have hends (i : Nat) : none = some i ↔ program.Begins i (k + 1) := by
          rw [begins_succ hop]
          simp [Operation.isInner, Operation.kind]
        obtain ⟨spans, hspans, hstrokes⟩ := ih hnext hends
        refine ⟨_, hspans.of_blank hop hstart, ?_⟩
        rw [List.map_append, ← hstrokes]
        cases start with
        | none => rfl
        | some i => simp [pending, strokesFrom]
      | _ => exact absurd rfl hinner

/-! ## What the parts contain -/

theorem extract_eq_filterMap (hle : j ≤ program.length) :
    program.extract i j = (List.range' i (j - i)).filterMap (program[·]?) := by
  induction hlength : j - i generalizing j with
  | zero => simp [List.extract_eq_take_drop, hlength]
  | succ n ih =>
    obtain ⟨m, rfl⟩ : ∃ m, j = m + 1 := ⟨j - 1, by omega⟩
    have hop : program[m]? = some program[m] := List.getElem?_eq_getElem (by omega)
    rw [extract_succ (by omega) hop, ih (by omega) (by omega), List.range'_concat, List.filterMap_append,
      show i + 1 * n = m by omega]
    simp [hop]

/-- The positions that spans cover. -/
def covered (spans : List (Nat × Nat)) : List Nat := spans.flatMap fun span => List.range' span.1 (span.2 - span.1)

theorem AreSpans.mem_covered {spans : List (Nat × Nat)} (h : program.AreSpans 0 spans) :
    k ∈ covered spans ↔ program.InPart k := by
  simp only [covered, List.mem_flatMap, Prod.exists, List.mem_range'_1, h.mem_iff, InPart, Nat.zero_le, and_true]
  refine exists₂_congr fun i j => and_congr_right fun hpart => ?_
  have := hpart.begins.lt
  omega

/-- Spans in their order cover each position once, in ascending order. -/
theorem AreSpans.sorted_covered {spans : List (Nat × Nat)} (h : program.AreSpans 0 spans) :
    (covered spans).Pairwise (· < ·) := by
  refine List.pairwise_flatMap.2 ⟨fun span _ => List.pairwise_lt_range', h.ordered.imp ?_⟩
  intro a b hlt x hx y hy
  rw [List.mem_range'_1] at hx hy
  omega

theorem AreSpans.flatten_extract {spans : List (Nat × Nat)} (h : program.AreSpans 0 spans) :
    (spans.map fun span => program.extract span.1 span.2).flatten = (covered spans).filterMap (program[·]?) := by
  have hslices : (spans.map fun span => program.extract span.1 span.2) =
      spans.map fun span => (List.range' span.1 (span.2 - span.1)).filterMap (program[·]?) :=
    List.map_congr_left fun span hspan =>
      extract_eq_filterMap ((h.mem_iff span.1 span.2).1 hspan).1.lt_length.le
  rw [hslices, covered, List.filterMap_flatMap, List.flatMap]

end Program

/-- **Splitting finds exactly the parts of a program**, each once and in their order. Where the pen
is lifted but no part begins, and wherever else there is no part, the operations are left out. -/
theorem strokes_eq_parts (program : Program) :
    (∃ spans : List (Nat × Nat), spans.Pairwise (fun a b => a.2 < b.1) ∧
        (∀ i j, (i, j) ∈ spans ↔ program.IsPart i j) ∧
        program.strokes = spans.map fun span => program.extract span.1 span.2) ∧
      (∃ positions : List Nat, positions.Pairwise (· < ·) ∧ (∀ k, k ∈ positions ↔ program.InPart k) ∧
        program.strokes.flatten = positions.filterMap (program[·]?)) ∧
      ∀ i, program[i]? = some .penUp → (program.InPart i ↔ ∃ j, program.IsPart i j) := by
  have hnone (i : Nat) : none = some i ↔ program.Begins i 0 := ⟨nofun, fun h => absurd h.lt (Nat.not_lt_zero i)⟩
  obtain ⟨spans, hspans, hstrokes⟩ := Program.exists_spans (List.drop_zero (l := program)) hnone
  have hsplit : program.strokes = spans.map fun span => program.extract span.1 span.2 := hstrokes
  refine ⟨⟨spans, hspans.ordered, fun i j => ?_, hsplit⟩, ⟨Program.covered spans, hspans.sorted_covered,
    fun k => hspans.mem_covered, ?_⟩, fun i => Program.inPart_of_lifts⟩
  · simpa using hspans.mem_iff i j
  · rw [hsplit, hspans.flatten_extract]

example : Program.strokes [.penUp, .penUp, .penDown, .blank, .blank, .penUp] = [[.penUp, .penDown]] := rfl

end SketchTurtle.Turtle
