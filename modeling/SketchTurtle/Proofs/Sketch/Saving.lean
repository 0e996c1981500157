/-
Saving projects and loading them again.

The document of a project is written if its texts are sequences of characters
(`Project.toJson?`). It is read as one in which each real that is no number has
become `null` (`Project.reread_toDocument`), and that is accepted only if there
is no such real (`Project.ofDocument_saved`). So saving and loading gives back a
project whose numbers are finite, with all its parts given, and refuses every
other one (`Project.reload_eq_ok`).
-/
import SketchTurtle.Proofs.Json.Rereading
import SketchTurtle.Proofs.Sketch.Valid
import SketchTurtle.Sketch.Loading

namespace SketchTurtle

/-! ## What is lost -/

/-- A part with its value given. -/
def Slot.asGiven {α : Type} (s : Slot α) : Slot α := .of s.value

/-- A layer with all its parts given, and given as they are written. -/
def Layer.asGiven (l : Layer) : Layer := { l with visible := l.visible.asGiven, isText := true }

/-- A stroke with all its parts given, and given as they are written. -/
def Stroke.asGiven (s : Stroke) : Stroke :=
  { s with speed := s.speed.asGiven, points := s.points.asGiven, isText := true }

/-- Settings with all their parts given. -/
def Settings.asGiven (s : Settings) : Settings := ⟨s.speed.asGiven, s.background.asGiven⟩

/-- A project with all its parts given, and given as they are written. -/
def Project.asGiven (p : Project) : Project where
  id := p.id.asGiven
  name := p.name.asGiven
  lastModified := p.lastModified.asGiven
  layers := .of (p.layers.value.map Layer.asGiven)
  strokes := .of (p.strokes.value.map Stroke.asGiven)
  settings := .of p.settings.value.asGiven

/-- Both coordinates are numbers. -/
def Point.IsFinite (p : Point Float) : Prop :=
  (Exact.ofFloat p.x).isFinite = true ∧ (Exact.ofFloat p.y).isFinite = true

/-- The width and all coordinates are numbers. -/
structure Stroke.IsFinite (s : Stroke) : Prop where
  width : (Exact.ofFloat s.width).isFinite = true
  points : ∀ p ∈ s.points.value, p.IsFinite

/-- The widths and the coordinates of all strokes are numbers. -/
def Project.IsFinite (p : Project) : Prop := ∀ s ∈ p.strokes.value, s.IsFinite

/-! ## The document that is read -/

namespace Json

/-- A real number after it was written and read. -/
def savedReal (x : Float) : Json := if (Exact.ofFloat x).isFinite then .float x else .null

theorem rereadItems_map {α : Type} {f g : α → Json} {l : List α} (h : ∀ a ∈ l, reread (f a) = .ok (g a)) :
    rereadItems (l.map f) = .ok (l.map g) := by
  induction l with
  | nil => rfl
  | cons a l ih =>
    rw [List.forall_mem_cons] at h
    rw [List.map_cons, rereadItems, h.1, ih h.2]
    rfl

end Json

/-- The document of a point after it was written and read. -/
def Point.saved (p : Point Float) : Json := .object [("x", .savedReal p.x), ("y", .savedReal p.y)]

/-- The document of a stroke after it was written and read. -/
def Stroke.saved (s : Stroke) : Json :=
  .object [("id", .text s.id), ("layerId", .text s.layer), ("color", .text s.color), ("width", .savedReal s.width),
    ("speed", .int s.speed.value), ("points", .array (s.points.value.map Point.saved))]

/-- The document of a project after it was written and read. -/
def Project.saved (p : Project) : Json :=
  .object [("id", .text p.id.value), ("name", .text p.name.value), ("lastModified", .int p.lastModified.value),
    ("layers", .array (p.layers.value.map Layer.toDocument)), ("strokes", .array (p.strokes.value.map Stroke.saved)),
    ("settings", p.settings.value.toDocument)]

theorem isLongInt_of_le {n : Int} (h : 0 ≤ n ∧ n ≤ 10) : isLongInt n = false := by
  have hlong : 10 ^ 1 < 10 ^ maxIntDigits := Nat.pow_lt_pow_right (by decide) (by decide)
  rw [isLongInt, Nat.pow_eq, decide_eq_false_iff_not]
  omega

theorem Point.reread_toDocument (p : Point Float) : p.toDocument.reread = .ok p.saved := by
  simp [toDocument, saved, Json.reread, Json.rereadMembers, Json.insert, Json.savedReal, Except.bind, Except.map]

theorem Layer.reread_toDocument (l : Layer) : l.toDocument.reread = .ok l.toDocument := by
  simp [toDocument, Json.reread, Json.rereadMembers, Json.insert, Except.bind, Except.map]

theorem Stroke.reread_toDocument {s : Stroke} (h : s.Valid) : s.toDocument.reread = .ok s.saved := by
  have hpoints := Json.rereadItems_map (l := s.points.value) fun p _ => p.reread_toDocument
  simp [toDocument, saved, Json.reread, Json.rereadMembers, Json.insert, Json.savedReal, Except.bind, Except.map,
    isLongInt_of_le h.speed, hpoints]

theorem Settings.reread_toDocument {s : Settings} (h : s.Valid) : s.toDocument.reread = .ok s.toDocument := by
  simp [toDocument, Json.reread, Json.rereadMembers, Json.insert, Except.bind, Except.map, isLongInt_of_le h.speed]

theorem Project.reread_toDocument {p : Project} (h : p.Valid) :
    p.toDocument.reread =
      if isLongInt p.lastModified.value then
        .error (.tooManyDigits (Layout.digitsOf p.lastModified.value.natAbs).length)
      else .ok p.saved := by
  have hlayers := Json.rereadItems_map (l := p.layers.value) fun l _ => l.reread_toDocument
  have hstrokes := Json.rereadItems_map (l := p.strokes.value) fun s hs =>
    Stroke.reread_toDocument (h.strokes s hs)
  have hsettings := Settings.reread_toDocument h.settings
  split
  · next hlong => simp [toDocument, Json.reread, Json.rereadMembers, Except.bind, Except.map, hlong]
  · next hlong =>
    simp [toDocument, saved, Json.reread, Json.rereadMembers, Json.insert, Except.bind, Except.map, hlong, hlayers,
      hstrokes, hsettings]

/-! ## The project that is accepted -/

/-- A check yields this value under a condition, and no value without it. -/
def Checked.Yields {α : Type} (x : Checked α) (a : α) (P : Prop) : Prop := ∀ b, x = .ok b ↔ P ∧ b = a

namespace Checked.Yields

variable {α β : Type} {x : Checked α} {a : α} {P Q : Prop}

theorem congr (h : x.Yields a P) (hcondition : P ↔ Q) : x.Yields a Q := by
  intro b
  rw [h, hcondition]

theorem ok (a : α) : (Checked.ok a).Yields a True := by
  intro b
  rw [Checked.ok.injEq, true_and, eq_comm]

theorem seq {f : Checked (α → β)} {g : α → β} (hf : f.Yields g P) (hx : x.Yields a Q) :
    (f <*> x).Yields (g a) (P ∧ Q) := by
  intro b
  simp only [seq_eq_ok, hf _, hx _]
  constructor
  · rintro ⟨_, _, ⟨hP, rfl⟩, ⟨hQ, rfl⟩, rfl⟩
    exact ⟨⟨hP, hQ⟩, rfl⟩
  · rintro ⟨⟨hP, hQ⟩, rfl⟩
    exact ⟨g, a, ⟨hP, rfl⟩, ⟨hQ, rfl⟩, rfl⟩

theorem map (h : x.Yields a P) (f : α → β) : (f <$> x).Yields (f a) P :=
  ((ok f).seq h).congr (true_and P).to_iff

theorem within (h : x.Yields a P) (step : Step) : (x.within step).Yields a P := by
  intro b
  rw [within_eq_ok, h]

theorem require (h : x.Yields a P) (condition : α → Bool) (problem : Problem) :
    (x.require condition problem).Yields a (P ∧ condition a = true) := by
  intro b
  rw [require_eq_ok, h]
  constructor
  · rintro ⟨⟨hP, rfl⟩, hcondition⟩
    exact ⟨⟨hP, hcondition⟩, rfl⟩
  · rintro ⟨⟨hP, hcondition⟩, rfl⟩
    exact ⟨⟨hP, rfl⟩, hcondition⟩

theorem all {γ : Type} {checks : List (Checked β)} {l : List γ} {g : γ → β} {P : γ → Prop}
    (h : List.Forall₂ (fun check c => check.Yields (g c) (P c)) checks l) :
    (Checked.all checks).Yields (l.map g) (∀ c ∈ l, P c) := by
  induction h with
  | nil => exact (ok []).congr (by simp)
  | cons hcheck _ ih => exact ((hcheck.map List.cons).seq ih).congr List.forall_mem_cons.symm

end Checked.Yields

namespace Check

open Checked

variable {α β : Type} {check : Json → Checked α} {a : α} {P : Prop}

theorem required_yields {p : PartName} {members : List (String × Json)} {name : String} {value : Json}
    (hfind : p.find? members = some (name, value)) (h : (check value).Yields a P) :
    (required p check members).Yields a P := by
  rw [required, hfind]
  exact h.within _

theorem defaulted_yields {p : PartName} {default : α} {members : List (String × Json)} {name : String} {value : Json}
    (hfind : p.find? members = some (name, value)) (h : (check value).Yields a P) :
    (defaulted p check default members).Yields (.of a) P := by
  rw [defaulted, hfind]
  exact (h.within _).map _

theorem items_yields {wrong : Problem} {l : List β} {f : β → Json} {g : β → α} {P : β → Prop}
    (h : ∀ b ∈ l, (check (f b)).Yields (g b) (P b)) :
    (items check wrong (.array (l.map f))).Yields (l.map g) (∀ b ∈ l, P b) := by
  refine Checked.Yields.all (List.forall₂_iff_get.2 ⟨by simp, fun i hi hl => ?_⟩)
  simpa using (h _ (List.getElem_mem hl)).within (.index i)

theorem text_yields (s : String) : (text (.text s)).Yields s True := .ok s

theorem freeText_yields (s : String) : (freeText (.text s)).Yields s True := .ok s

theorem layerName_yields (s : String) : (layerName (.text s)).Yields s True := .ok s

theorem bool_yields (b : Bool) : (bool (.bool b)).Yields b True := .ok b

theorem whole_yields (n : Int) : (whole (.int n)).Yields n True := .ok n

theorem nonempty_yields (s : String) : (nonempty (.text s)).Yields s (s ≠ "") :=
  ((text_yields s).require _ _).congr (by simp)

theorem color_yields (s : String) : (color (.text s)).Yields s (isColor s = true) :=
  ((text_yields s).require _ _).congr (by simp)

theorem speed_yields (n : Int) : (speed (.int n)).Yields n (0 ≤ n ∧ n ≤ 10) :=
  (((whole_yields n).require _ _).require _ _).congr (by simp [and_comm])

/-- A real that was saved is one if it is a number, and `null` if not. -/
theorem real_yields (x : Float) : (real (.savedReal x)).Yields x ((Exact.ofFloat x).isFinite = true) := by
  rw [Json.savedReal]
  split
  · next h => exact (Yields.ok x).congr (by simp [h])
  · next h => exact fun y => ⟨nofun, fun hy => absurd hy.1 h⟩

theorem positive_yields (x : Float) :
    (positive (.savedReal x)).Yields x ((Exact.ofFloat x).isFinite = true ∧ 0 < x) :=
  ((real_yields x).require _ _).congr (by simp)

end Check

open Check

theorem Point.ofDocument_saved (p : Point Float) : (Point.ofDocument p.saved).Yields p p.IsFinite :=
  .seq (.map (required_yields rfl (real_yields p.x)) mk) (required_yields rfl (real_yields p.y))

theorem Layer.ofDocument_toDocument {l : Layer} (h : l.Valid) :
    (Layer.ofDocument l.toDocument).Yields l.asGiven True := by
  have hid := nonempty_yields l.id
  have hname := freeText_yields l.name
  have hvisible := bool_yields l.visible.value
  refine .congr (.seq (.seq (.seq (.map (required_yields rfl hid) mk) (required_yields rfl hname))
    (defaulted_yields rfl hvisible)) (.ok true)) ?_
  simp [h.id]

theorem Stroke.ofDocument_saved {s : Stroke} (h : s.Valid) :
    (Stroke.ofDocument s.saved).Yields s.asGiven s.IsFinite := by
  have hid := nonempty_yields s.id
  have hlayer := layerName_yields s.layer
  have hcolor := color_yields s.color
  have hwidth := positive_yields s.width
  have hspeed := speed_yields s.speed.value
  have hpoints : (items Point.ofDocument .notTuple (.array (s.points.value.map Point.saved))).Yields
      (s.points.value.map fun p => p) (∀ p ∈ s.points.value, p.IsFinite) :=
    items_yields fun p _ => p.ofDocument_saved
  rw [List.map_id'] at hpoints
  refine .congr (.seq (.seq (.seq (.seq (.seq (.seq (.map (required_yields rfl hid) mk) (required_yields rfl hlayer))
    (required_yields rfl hcolor)) (required_yields rfl hwidth)) (defaulted_yields rfl hspeed))
    (defaulted_yields rfl hpoints)) (.ok true)) ⟨?_, fun hfinite => ?_⟩
  · rintro ⟨⟨⟨⟨-, hwidth, -⟩, -⟩, hpoints⟩, -⟩
    exact ⟨hwidth, hpoints⟩
  · exact ⟨⟨⟨⟨⟨⟨h.id, trivial⟩, h.color⟩, hfinite.width, h.width⟩, h.speed⟩, hfinite.points⟩, trivial⟩

theorem Settings.ofDocument_toDocument {s : Settings} (h : s.Valid) :
    (Settings.ofDocument s.toDocument).Yields s.asGiven True := by
  have hspeed := speed_yields s.speed.value
  have hbackground := color_yields s.background.value
  refine .congr (.seq (.map (defaulted_yields rfl hspeed) mk) (defaulted_yields rfl hbackground)) ?_
  simp [h.speed, h.background]

/-- **A saved document is accepted if all its numbers were finite**, and nothing
but the parts that were left out is changed. -/
theorem Project.ofDocument_saved (freshId : String) (now : Int) {p : Project} (h : p.Valid) :
    (Project.ofDocument freshId now p.saved).Yields p.asGiven p.IsFinite := by
  have hid := freeText_yields p.id.value
  have hname := freeText_yields p.name.value
  have htime := whole_yields p.lastModified.value
  have hlayers : (items Layer.ofDocument .notList (.array (p.layers.value.map Layer.toDocument))).Yields
      (p.layers.value.map Layer.asGiven) (∀ l ∈ p.layers.value, True) :=
    items_yields fun l hl => Layer.ofDocument_toDocument (h.layers l hl)
  have hstrokes : (items Stroke.ofDocument .notList (.array (p.strokes.value.map Stroke.saved))).Yields
      (p.strokes.value.map Stroke.asGiven) p.IsFinite :=
    items_yields fun s hs => Stroke.ofDocument_saved (h.strokes s hs)
  have hsettings := Settings.ofDocument_toDocument h.settings
  refine .congr (.seq (.seq (.seq (.seq (.seq (.seq (.map (defaulted_yields rfl hid) mk) (defaulted_yields rfl hname))
    (defaulted_yields rfl htime)) (defaulted_yields rfl hlayers)) (defaulted_yields rfl hstrokes))
    (defaulted_yields rfl hsettings)) (.ok true)) ?_
  simp

/-! ## Saving and loading -/

/-- A project that was read from a document, or a new one. -/
def Project.Built (p : Project) : Prop :=
  (∃ freshId now document, Project.parse freshId now document = .ok p) ∨
    ∃ name layerId projectId now, layerId ≠ "" ∧ p = Project.new name layerId projectId now

theorem Project.parse_eq_ok {freshId : String} {now : Int} {document : Json} {p : Project} :
    Project.parse freshId now document = .ok p ↔ Project.ofDocument freshId now document = .ok p := by
  cases document with
  | object members =>
    rw [parse]
    cases ofDocument freshId now (.object members) <;> simp [Checked.toExcept, Except.mapError]
  | _ => exact ⟨nofun, nofun⟩

theorem Project.Built.valid {p : Project} (h : p.Built) : p.Valid := by
  rcases h with ⟨freshId, now, document, h⟩ | ⟨name, layerId, projectId, now, hlayer, rfl⟩
  · exact valid_of_ofDocument (parse_eq_ok.1 h)
  · exact ⟨List.forall_mem_singleton.2 ⟨hlayer⟩, nofun, Settings.valid_default⟩

/-- What a saved project is read and accepted as. -/
theorem Project.reload_eq_ok {freshId : String} {now : Int} {p q : Project} (h : p.Valid) :
    (∃ document, Json.read p.toText = .ok document ∧ Project.parse freshId now document = .ok q) ↔
      (p.IsFinite ∧ isLongInt p.lastModified.value = false) ∧ q = p.asGiven := by
  rw [toText, Json.read_pretty, reread_toDocument h]
  split
  · next hlong => simp [Except.mapError, hlong]
  · next hlong => simp [Except.mapError, hlong, parse_eq_ok, ofDocument_saved freshId _ h q]

/-- Two projects hold the same, whichever parts were given. -/
structure Project.SameContent (p q : Project) : Prop where
  id : q.id.value = p.id.value
  name : q.name.value = p.name.value
  lastModified : q.lastModified.value = p.lastModified.value
  speed : q.settings.value.speed.value = p.settings.value.speed.value
  background : q.settings.value.background.value = p.settings.value.background.value
  layers : q.layers.value.map (fun l => (l.id, l.name, l.visible.value)) =
    p.layers.value.map fun l => (l.id, l.name, l.visible.value)
  strokes : q.strokes.value.map (fun s => (s.id, s.layer, s.color, s.width, s.speed.value, s.points.value)) =
    p.strokes.value.map fun s => (s.id, s.layer, s.color, s.width, s.speed.value, s.points.value)

theorem Project.sameContent_asGiven (p : Project) : p.SameContent p.asGiven where
  id := rfl
  name := rfl
  lastModified := rfl
  speed := rfl
  background := rfl
  layers := by
    simp only [asGiven, Slot.of, List.map_map]
    rfl
  strokes := by
    simp only [asGiven, Slot.of, List.map_map]
    rfl

/-- **A project whose numbers are finite is saved and loaded without loss.** -/
theorem Project.reload_sameContent {p : Project} (hbuilt : p.Built) (hfinite : p.IsFinite)
    (hlong : isLongInt p.lastModified.value = false) (freshId : String) (now : Int) :
    ∃ document q, Json.read p.toText = .ok document ∧ Project.parse freshId now document = .ok q ∧
      p.SameContent q := by
  obtain ⟨document, hread, hparse⟩ := (reload_eq_ok hbuilt.valid).2 ⟨⟨hfinite, hlong⟩, rfl⟩
  exact ⟨document, p.asGiven, hread, hparse, p.sameContent_asGiven⟩

/-- A document with one stroke, which has one point. -/
def Project.sampleDocument (x y : Float) : Json :=
  .object [("name", .text "\"A\\B\"\n"), ("strokes", .array [.object [("id", .text "s"), ("layerId", .text "l"),
    ("color", .text "#000000"), ("width", .float 1), ("points", .array [Point.toDocument ⟨x, y⟩])]])]

/-- The project of that document. -/
def Project.sample (x y : Float) : Project where
  id := .default "p"
  name := .of "\"A\\B\"\n"
  lastModified := .default 0
  layers := .default []
  strokes := .of [⟨"s", "l", "#000000", 1, .default 6, .of [⟨x, y⟩], true⟩]
  settings := .default .default

theorem Project.parse_sampleDocument (x y : Float) : Project.parse "p" 0 (sampleDocument x y) = .ok (sample x y) := rfl

theorem Project.isFinite_sample {x y : Float} : (sample x y).IsFinite ↔ (⟨x, y⟩ : Point Float).IsFinite := by
  have hwidth : (Exact.ofFloat 1).isFinite = true := by decide
  constructor
  · intro h
    exact (h _ List.mem_cons_self).points _ List.mem_cons_self
  · intro h
    exact List.forall_mem_singleton.2 ⟨hwidth, List.forall_mem_singleton.2 h⟩

theorem Project.reload_sameContent_sample :
    ∃ document q, Json.read (Project.sample 0.5 2).toText = .ok document ∧
      Project.parse "q" 1 document = .ok q ∧ (Project.sample 0.5 2).SameContent q :=
  Project.reload_sameContent (.inl ⟨_, _, _, Project.parse_sampleDocument 0.5 2⟩)
    (Project.isFinite_sample.2 ⟨by decide, by decide⟩) (isLongInt_of_le (by decide)) "q" 1

theorem Project.toJson?_eq_some {p : Project} {text : String} :
    p.toJson? = some text ↔ p.allText = true ∧ p.toText = text := by
  simp [toJson?]

/-- **A project that was read from a document is loaded again after it was
saved if, and only if, its texts are sequences of characters and its numbers
are finite**, and its time of modification has no more digits than are read. -/
theorem Project.reload_iff {freshId : String} {now : Int} {document : Json} {p : Project}
    (h : Project.parse freshId now document = .ok p) (freshId' : String) (now' : Int) :
    (∃ text document' q, p.toJson? = some text ∧ Json.read text = .ok document' ∧
        Project.parse freshId' now' document' = .ok q) ↔
      p.allText = true ∧ p.IsFinite ∧ isLongInt p.lastModified.value = false := by
  have hvalid := valid_of_ofDocument (parse_eq_ok.1 h)
  constructor
  · rintro ⟨text, document', q, htext, hread, hparse⟩
    obtain ⟨hall, rfl⟩ := toJson?_eq_some.1 htext
    exact ⟨hall, ((reload_eq_ok hvalid).1 ⟨document', hread, hparse⟩).1⟩
  · rintro ⟨hall, hfinite⟩
    obtain ⟨document', hread, hparse⟩ := (reload_eq_ok hvalid).2 ⟨hfinite, rfl⟩
    exact ⟨p.toText, document', p.asGiven, toJson?_eq_some.2 ⟨hall, rfl⟩, hread, hparse⟩

theorem Project.reload_iff_sample :
    (∃ text document' q, (Project.sample 0.5 2).toJson? = some text ∧ Json.read text = .ok document' ∧
        Project.parse "q" 1 document' = .ok q) ↔
      (Project.sample 0.5 2).allText = true ∧ (Project.sample 0.5 2).IsFinite ∧
        isLongInt (Project.sample 0.5 2).lastModified.value = false :=
  Project.reload_iff (Project.parse_sampleDocument 0.5 2) "q" 1

/-- A project with an infinite coordinate is read and saved, and never read
again. -/
theorem Project.not_reload_infinite :
    Project.parse "p" 0 (Project.sampleDocument (Exact.toFloat (.infinite false)) 0) =
        .ok (Project.sample (Exact.toFloat (.infinite false)) 0) ∧
      (Project.sample (Exact.toFloat (.infinite false)) 0).allText = true ∧
      ¬ ∃ text document q, (Project.sample (Exact.toFloat (.infinite false)) 0).toJson? = some text ∧
        Json.read text = .ok document ∧ Project.parse "p" 0 document = .ok q := by
  have hparse := Project.parse_sampleDocument (Exact.toFloat (.infinite false)) 0
  refine ⟨hparse, rfl, ?_⟩
  rintro ⟨text, document, q, htext, hreload⟩
  obtain ⟨-, rfl⟩ := Project.toJson?_eq_some.1 htext
  have hvalid := Project.valid_of_ofDocument (Project.parse_eq_ok.1 hparse)
  have hfinite := ((Project.reload_eq_ok hvalid).1 ⟨document, hreload⟩).1.1
  exact absurd (Project.isFinite_sample.1 hfinite).1 (by decide)

/-- A name with half of a surrogate pair is read, and cannot be saved. -/
example : (Project.parse "p" 0 (.object [("name", .unpaired "\uFFFD")])).map Project.toJson? = .ok none := rfl

end SketchTurtle
