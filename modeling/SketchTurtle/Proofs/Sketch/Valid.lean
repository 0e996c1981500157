/-
What a checked document yields is valid: the fields of a stroke, of options and
of a whole project are within their bounds, given or default.

A check that succeeds has succeeded in all its parts (`Checked.seq_eq_ok`,
`Checked.require_eq_ok`), so each bound is read off the check of its field
(`Stroke.valid_of_ofDocument`, `Options.valid_of_ofDocument`,
`Project.valid_of_ofDocument`).
-/
import SketchTurtle.Sketch.Document

namespace SketchTurtle

/-- The bounds of a stroke's fields. -/
structure Stroke.Valid (s : Stroke) : Prop where
  id : s.id ≠ ""
  color : Check.isColor s.color = true
  width : 0 < s.width
  speed : 0 ≤ s.speed.value ∧ s.speed.value ≤ 10

instance (s : Stroke) : Decidable s.Valid :=
  decidable_of_iff (s.id ≠ "" ∧ Check.isColor s.color = true ∧ 0 < s.width ∧
      0 ≤ s.speed.value ∧ s.speed.value ≤ 10)
    ⟨fun ⟨hid, hcolor, hwidth, hspeed⟩ => ⟨hid, hcolor, hwidth, hspeed⟩,
      fun ⟨hid, hcolor, hwidth, hspeed⟩ => ⟨hid, hcolor, hwidth, hspeed⟩⟩

/-- The bounds of the fields of options. -/
structure Options.Valid (o : Options) : Prop where
  width : 0 < o.width
  height : 0 < o.height
  speed : 0 ≤ o.speed ∧ o.speed ≤ 10
  background : Check.isColor o.background.value = true
  tolerance : 0 ≤ o.tolerance.value

instance (o : Options) : Decidable o.Valid :=
  decidable_of_iff (0 < o.width ∧ 0 < o.height ∧ (0 ≤ o.speed ∧ o.speed ≤ 10) ∧
      Check.isColor o.background.value = true ∧ 0 ≤ o.tolerance.value)
    ⟨fun ⟨hwidth, hheight, hspeed, hbackground, htolerance⟩ =>
        ⟨hwidth, hheight, hspeed, hbackground, htolerance⟩,
      fun ⟨hwidth, hheight, hspeed, hbackground, htolerance⟩ =>
        ⟨hwidth, hheight, hspeed, hbackground, htolerance⟩⟩

/-- The bounds of a layer's fields. -/
structure Layer.Valid (l : Layer) : Prop where
  id : l.id ≠ ""

/-- The bounds of the settings. -/
structure Settings.Valid (s : Settings) : Prop where
  speed : 0 ≤ s.speed.value ∧ s.speed.value ≤ 10
  background : Check.isColor s.background.value = true

/-- The bounds of a project's parts. -/
structure Project.Valid (p : Project) : Prop where
  layers : ∀ l ∈ p.layers.value, l.Valid
  strokes : ∀ s ∈ p.strokes.value, s.Valid
  settings : p.settings.value.Valid

/-! ## Checks that succeed -/

namespace Checked

theorem seq_eq_ok {α β : Type} {f : Checked (α → β)} {x : Checked α} {b : β} :
    (f <*> x) = ok b ↔ ∃ g a, f = ok g ∧ x = ok a ∧ g a = b := by
  cases f with
  | ok g =>
    cases x with
    | ok a =>
      show ok (g a) = ok b ↔ _
      simp
    | faulty faults =>
      show faulty faults = ok b ↔ _
      simp
  | faulty faults =>
    cases x with
    | ok a =>
      show faulty faults = ok b ↔ _
      simp
    | faulty more =>
      show faulty (faults ++ more) = ok b ↔ _
      simp

theorem map_eq_ok {α β : Type} {f : α → β} {x : Checked α} {b : β} :
    (f <$> x) = ok b ↔ ∃ a, x = ok a ∧ f a = b := by
  show ((ok f : Checked (α → β)) <*> x) = ok b ↔ _
  simp [seq_eq_ok]

theorem within_eq_ok {α : Type} {step : Step} {x : Checked α} {a : α} :
    x.within step = ok a ↔ x = ok a := by
  cases x <;> simp [within]

theorem require_eq_ok {α : Type} {x : Checked α} {condition : α → Bool} {p : Problem} {a : α} :
    x.require condition p = ok a ↔ x = ok a ∧ condition a = true := by
  cases x with
  | faulty faults => simp [require, andThen]
  | ok b =>
    by_cases h : condition b = true
    · simp only [require, andThen, h, if_true, ok.injEq]
      exact ⟨fun hb => ⟨hb, hb ▸ h⟩, And.left⟩
    · simp only [require, andThen, h, problem, ok.injEq]
      simp only [Bool.false_eq_true, if_false, reduceCtorEq, false_iff, not_and]
      rintro rfl
      exact h

theorem all_eq_ok {α : Type} {checks : List (Checked α)} {values : List α} :
    all checks = ok values ↔ checks = values.map ok := by
  induction checks generalizing values with
  | nil =>
    show ok [] = ok values ↔ _
    cases values <;> simp
  | cons x rest ih =>
    rw [all, seq_eq_ok]
    simp only [map_eq_ok, ih]
    constructor
    · rintro ⟨_, values, ⟨a, rfl, rfl⟩, rfl, rfl⟩
      rfl
    · intro h
      cases values with
      | nil => cases h
      | cons a values =>
        rw [List.map_cons, List.cons.injEq] at h
        exact ⟨_, values, ⟨a, h.1, rfl⟩, h.2, rfl⟩

end Checked

namespace Check

theorem object_eq_ok {α : Type} {model : String} {check : List (String × Json) → Checked α}
    {document : Json} {a : α} (h : object model check document = .ok a) :
    ∃ members, check members = .ok a := by
  unfold object at h
  split at h
  · exact ⟨_, h⟩
  · cases h

theorem required_eq_ok {α : Type} {p : PartName} {check : Json → Checked α}
    {members : List (String × Json)} {a : α} (h : required p check members = .ok a) :
    ∃ value, check value = .ok a := by
  unfold required at h
  split at h
  · exact ⟨_, Checked.within_eq_ok.1 h⟩
  · cases h

theorem defaulted_eq_ok {α : Type} {p : PartName} {check : Json → Checked α} {default : α}
    {members : List (String × Json)} {slot : Slot α}
    (h : defaulted p check default members = .ok slot) :
    slot.value = default ∨ ∃ value, check value = .ok slot.value := by
  unfold defaulted at h
  split at h
  · obtain ⟨a, ha, rfl⟩ := Checked.map_eq_ok.1 h
    exact .inr ⟨_, Checked.within_eq_ok.1 ha⟩
  · cases h
    exact .inl rfl

theorem items_eq_ok {α : Type} {check : Json → Checked α} {wrong : Problem} {document : Json} {values : List α}
    (h : items check wrong document = .ok values) : ∀ a ∈ values, ∃ item, check item = .ok a := by
  unfold items at h
  split at h
  · intro a ha
    rw [Checked.all_eq_ok] at h
    have hmem : Checked.ok a ∈ values.map Checked.ok := List.mem_map_of_mem ha
    rw [← h, List.mem_mapIdx] at hmem
    obtain ⟨i, hi, hitem⟩ := hmem
    exact ⟨_, Checked.within_eq_ok.1 hitem⟩
  · cases h

theorem nonempty_eq_ok {value : Json} {s : String} (h : nonempty value = .ok s) : s ≠ "" := by
  simpa using (Checked.require_eq_ok.1 h).2

theorem color_eq_ok {value : Json} {s : String} (h : color value = .ok s) : isColor s = true :=
  (Checked.require_eq_ok.1 h).2

theorem positive_eq_ok {value : Json} {x : Float} (h : positive value = .ok x) : 0 < x := by
  simpa using (Checked.require_eq_ok.1 h).2

theorem nonnegative_eq_ok {value : Json} {x : Float} (h : nonnegative value = .ok x) : 0 ≤ x := by
  simpa using (Checked.require_eq_ok.1 h).2

theorem speed_eq_ok {value : Json} {n : Int} (h : speed value = .ok n) : 0 ≤ n ∧ n ≤ 10 := by
  obtain ⟨h, hlow⟩ := Checked.require_eq_ok.1 h
  exact ⟨by simpa using hlow, by simpa using (Checked.require_eq_ok.1 h).2⟩

theorem ne_empty_of_isColor {s : String} (h : isColor s = true) : s ≠ "" := by
  rintro rfl
  cases h

end Check

/-! ## Documents -/

theorem Stroke.valid_of_ofDocument {document : Json} {s : Stroke}
    (h : Stroke.ofDocument document = .ok s) : s.Valid := by
  obtain ⟨members, h⟩ := Check.object_eq_ok h
  simp only [Checked.seq_eq_ok, Checked.map_eq_ok] at h
  obtain ⟨_, isText, ⟨_, points, ⟨_, speed, ⟨_, width, ⟨_, color, ⟨_, layer, ⟨id, hid, rfl⟩, hlayer, rfl⟩, hcolor,
    rfl⟩, hwidth, rfl⟩, hspeed, rfl⟩, hpoints, rfl⟩, -, rfl⟩ := h
  obtain ⟨_, hid⟩ := Check.required_eq_ok hid
  obtain ⟨_, hcolor⟩ := Check.required_eq_ok hcolor
  obtain ⟨_, hwidth⟩ := Check.required_eq_ok hwidth
  refine ⟨Check.nonempty_eq_ok hid, Check.color_eq_ok hcolor, Check.positive_eq_ok hwidth, ?_⟩
  rcases Check.defaulted_eq_ok hspeed with h | ⟨_, h⟩
  · rw [h]
    decide
  · exact Check.speed_eq_ok h

theorem Options.valid_of_ofDocument {document : Json} {o : Options}
    (h : Options.ofDocument document = .ok o) : o.Valid := by
  obtain ⟨members, h⟩ := Check.object_eq_ok h
  simp only [Checked.seq_eq_ok, Checked.map_eq_ok] at h
  obtain ⟨_, tolerance, ⟨_, background, ⟨_, speed, ⟨_, height, ⟨width, hwidth, rfl⟩, hheight, rfl⟩,
    hspeed, rfl⟩, hbackground, rfl⟩, htolerance, rfl⟩ := h
  obtain ⟨_, hwidth⟩ := Check.required_eq_ok hwidth
  obtain ⟨_, hheight⟩ := Check.required_eq_ok hheight
  obtain ⟨_, hspeed⟩ := Check.required_eq_ok hspeed
  refine ⟨Check.positive_eq_ok hwidth, Check.positive_eq_ok hheight, Check.speed_eq_ok hspeed, ?_, ?_⟩
  · rcases Check.defaulted_eq_ok hbackground with h | ⟨_, h⟩
    · rw [h]
      decide
    · exact Check.color_eq_ok h
  · rcases Check.defaulted_eq_ok htolerance with h | ⟨_, h⟩
    · rw [h]
      decide
    · exact Check.nonnegative_eq_ok h

theorem Layer.valid_of_ofDocument {document : Json} {l : Layer} (h : Layer.ofDocument document = .ok l) :
    l.Valid := by
  obtain ⟨members, h⟩ := Check.object_eq_ok h
  simp only [Checked.seq_eq_ok, Checked.map_eq_ok] at h
  obtain ⟨_, isText, ⟨_, visible, ⟨_, name, ⟨id, hid, rfl⟩, hname, rfl⟩, hvisible, rfl⟩, -, rfl⟩ := h
  obtain ⟨_, hid⟩ := Check.required_eq_ok hid
  exact ⟨Check.nonempty_eq_ok hid⟩

theorem Settings.valid_default : Settings.default.Valid := ⟨by decide, by decide⟩

theorem Settings.valid_of_ofDocument {document : Json} {s : Settings} (h : Settings.ofDocument document = .ok s) :
    s.Valid := by
  obtain ⟨members, h⟩ := Check.object_eq_ok h
  simp only [Checked.seq_eq_ok, Checked.map_eq_ok] at h
  obtain ⟨_, background, ⟨speed, hspeed, rfl⟩, hbackground, rfl⟩ := h
  refine ⟨?_, ?_⟩
  · rcases Check.defaulted_eq_ok hspeed with h | ⟨_, h⟩
    · rw [h]
      decide
    · exact Check.speed_eq_ok h
  · rcases Check.defaulted_eq_ok hbackground with h | ⟨_, h⟩
    · rw [h]
      decide
    · exact Check.color_eq_ok h

/-- A project read from a document is valid. -/
theorem Project.valid_of_ofDocument {freshId : String} {now : Int} {document : Json} {p : Project}
    (h : Project.ofDocument freshId now document = .ok p) : p.Valid := by
  obtain ⟨members, h⟩ := Check.object_eq_ok h
  simp only [Checked.seq_eq_ok, Checked.map_eq_ok] at h
  obtain ⟨_, isText, ⟨_, settings, ⟨_, strokes, ⟨_, layers, ⟨_, lastModified, ⟨_, name, ⟨id, hid, rfl⟩, hname, rfl⟩,
    hlastModified, rfl⟩, hlayers, rfl⟩, hstrokes, rfl⟩, hsettings, rfl⟩, -, rfl⟩ := h
  refine ⟨?_, ?_, ?_⟩
  · intro l hl
    rcases Check.defaulted_eq_ok hlayers with h | ⟨_, h⟩
    · simp [h] at hl
    · obtain ⟨_, h⟩ := Check.items_eq_ok h l hl
      exact Layer.valid_of_ofDocument h
  · intro s hs
    rcases Check.defaulted_eq_ok hstrokes with h | ⟨_, h⟩
    · simp [h] at hs
    · obtain ⟨_, h⟩ := Check.items_eq_ok h s hs
      exact Stroke.valid_of_ofDocument h
  · rcases Check.defaulted_eq_ok hsettings with h | ⟨_, h⟩
    · rw [h]
      exact Settings.valid_default
    · exact Settings.valid_of_ofDocument h

end SketchTurtle
