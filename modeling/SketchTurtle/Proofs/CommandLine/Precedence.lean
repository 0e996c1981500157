/-
Which of the flags, the document and the configuration tells a setting.

The rule is `Precedence`, setting by setting: a flag, or else what the document
says of the setting, or else the configuration. Options are built by that rule
from the flags that are heeded and the configuration that stands behind the
document, and only if all values are within their bounds
(`buildOptions_eq_ok`). All flags are heeded but an empty background, and
the whole configuration stands behind a document unless the document has
settings: then what they leave out is told by their own defaults. So the rule
fails for settings that are given in part, and for an empty background
(`not_precedence`).
-/
import SketchTurtle.CommandLine.Settings
import SketchTurtle.Proofs.Sketch.Bounds
import SketchTurtle.Proofs.Sketch.Saving

namespace SketchTurtle

/-! ## What a document says -/

/-- The value that a check yields. -/
def Checked.value? {α : Type} : Checked α → Option α
  | .ok a => some a
  | .faulty _ => none

/-- A part of a document. -/
def Json.part? (document : Json) (name : PartName) : Option Json :=
  match document with
  | .object members => (name.find? members).map (·.2)
  | _ => none

/-- The settings in the document of a project. -/
def Json.settings? (document : Json) : Option Json := document.part? (.plain "settings")

/-- The speed that the document of a project says. -/
def Json.suppliedSpeed (document : Json) : Option Int := do
  let settings ← document.settings?
  let speed ← settings.part? (.plain "speed")
  (Check.speed speed).value?

/-- The background that the document of a project says. -/
def Json.suppliedBackground (document : Json) : Option String := do
  let settings ← document.settings?
  let background ← settings.part? ⟨"backgroundColor", "background_color"⟩
  (Check.color background).value?

/-- The settings of a document, if it has any, say all that there is to say. -/
def Json.SettingsWhole (document : Json) : Prop :=
  document.settings?.isSome = true → document.suppliedSpeed.isSome = true ∧ document.suppliedBackground.isSome = true

namespace Check

theorem defaulted_eq_ok_iff {α : Type} {p : PartName} {check : Json → Checked α} {default : α}
    {members : List (String × Json)} {slot : Slot α} :
    defaulted p check default members = .ok slot ↔
      match (Json.object members).part? p with
      | some value => ∃ a, check value = .ok a ∧ slot = .of a
      | none => slot = .default default := by
  cases hfind : p.find? members with
  | none => simp [defaulted, Json.part?, hfind, eq_comm]
  | some found =>
    simp only [defaulted, Json.part?, hfind, Option.map_some, Checked.map_eq_ok, Checked.within_eq_ok]
    exact exists_congr fun a => and_congr_right' eq_comm

/-- What is given is the part of the document, and the value is what the check
yields of it. -/
theorem slot_of_defaulted {α : Type} {p : PartName} {check : Json → Checked α} {default : α}
    {members : List (String × Json)} {slot : Slot α} (h : defaulted p check default members = .ok slot) :
    slot.given = ((Json.object members).part? p).isSome ∧
      slot.value = (((Json.object members).part? p).bind fun value => (check value).value?).getD default := by
  rw [defaulted_eq_ok_iff] at h
  split at h
  · next hpart =>
    obtain ⟨a, ha, rfl⟩ := h
    rw [hpart, Option.bind_some, ha]
    exact ⟨rfl, rfl⟩
  · next hpart =>
    rw [h, hpart]
    exact ⟨rfl, rfl⟩

end Check

theorem Settings.values_of_ofDocument {document : Json} {s : Settings} (h : Settings.ofDocument document = .ok s) :
    s.speed.value =
        ((document.part? (.plain "speed")).bind fun value => (Check.speed value).value?).getD
          default.speed.value ∧
      s.background.value =
        ((document.part? ⟨"backgroundColor", "background_color"⟩).bind fun value =>
          (Check.color value).value?).getD default.background.value := by
  cases document with
  | object members =>
    simp only [ofDocument, Check.object, Checked.seq_eq_ok, Checked.map_eq_ok] at h
    obtain ⟨_, background, ⟨speed, hspeed, rfl⟩, hbackground, rfl⟩ := h
    exact ⟨(Check.slot_of_defaulted hspeed).2, (Check.slot_of_defaulted hbackground).2⟩
  | _ => cases h

/-- The settings of a project are those of its document. What they leave out,
and all of them if there are none, is told by their defaults. -/
theorem Project.settings_of_parse {freshId : String} {now : Int} {document : Json} {p : Project}
    (h : Project.parse freshId now document = .ok p) :
    p.settings.given = document.settings?.isSome ∧
      p.settings.value.speed.value = document.suppliedSpeed.getD Settings.default.speed.value ∧
      p.settings.value.background.value =
        document.suppliedBackground.getD Settings.default.background.value := by
  rw [parse_eq_ok] at h
  cases document with
  | object members =>
    simp only [ofDocument, Check.object, Checked.seq_eq_ok, Checked.map_eq_ok] at h
    obtain ⟨_, _, ⟨_, settings, ⟨_, _, ⟨_, _, ⟨_, _, ⟨_, _, ⟨_, -, rfl⟩, -, rfl⟩, -, rfl⟩, -, rfl⟩, -, rfl⟩,
      hsettings, rfl⟩, -, rfl⟩ := h
    refine ⟨(Check.slot_of_defaulted hsettings).1, ?_⟩
    rw [Check.defaulted_eq_ok_iff] at hsettings
    unfold Json.suppliedSpeed Json.suppliedBackground Json.settings?
    split at hsettings
    · next document hpart =>
      obtain ⟨s, hs, rfl⟩ := hsettings
      rw [hpart]
      exact Settings.values_of_ofDocument hs
    · next hpart =>
      rw [hsettings, hpart]
      exact ⟨rfl, rfl⟩
  | _ => cases h

/-! ## The options that are built -/

theorem Checked.toExcept_eq_ok {α : Type} {model : String} {x : Checked α} {a : α} :
    x.toExcept model = .ok a ↔ x = .ok a := by
  cases x <;> simp [toExcept]

theorem Options.ofValues_yields (width height : Float) (speed : Int) (background : String) (tolerance : Float) :
    (ofValues (.float width) (.float height) (.int speed) (.text background) (.float tolerance)).Yields
      ⟨width, height, speed, .of background, .of tolerance⟩
      (Valid ⟨width, height, speed, .of background, .of tolerance⟩) := by
  intro o
  rw [ofValues_eq, Checked.barring_eq_ok, faults_eq_nil_iff]

namespace CommandLine

/-- The options that the flags, the project and the configuration make. -/
def mergedOptions (project : Project) (config : Config) (choices : Choices) : Options where
  width := choices.width.getD config.width
  height := choices.height.getD config.height
  speed := choices.speed.getD (settledSpeed project config)
  background := .of (choices.givenBackground.getD (settledBackground project config))
  tolerance := .of (choices.tolerance.getD config.tolerance)

theorem buildOptions_eq_ok {project : Project} {config : Config} {choices : Choices} {options : Options} :
    buildOptions project config choices = .ok options ↔
      (mergedOptions project config choices).Valid ∧ options = mergedOptions project config choices := by
  rw [buildOptions, Checked.toExcept_eq_ok]
  exact Options.ofValues_yields _ _ _ _ _ options

/-! ## The rule -/

/-- Each setting is what a flag says, or else what the document says of it, or
else what the configuration says. A document says nothing of the canvas and the
tolerance. -/
structure Precedence (choices : Choices) (document : Json) (config : Config) (options : Options) : Prop where
  width : options.width = choices.width.getD config.width
  height : options.height = choices.height.getD config.height
  speed : options.speed = (choices.speed.or document.suppliedSpeed).getD config.speed
  background :
    options.background = .of ((choices.background.or document.suppliedBackground).getD config.background)
  tolerance : options.tolerance = .of (choices.tolerance.getD config.tolerance)

/-- What the flags say is within the bounds of options. -/
structure Choices.Acceptable (c : Choices) : Prop where
  width : ∀ x ∈ c.width, 0 < x
  height : ∀ x ∈ c.height, 0 < x
  speed : ∀ n ∈ c.speed, 0 ≤ n ∧ n ≤ 10
  background : ∀ s ∈ c.background, Check.isColor s = true
  tolerance : ∀ x ∈ c.tolerance, 0 ≤ x

/-- The flags that are heeded: all but an empty background. -/
def Choices.heeded (c : Choices) : Choices := { c with background := c.givenBackground }

end CommandLine

/-- The configuration in which settings that are left out have their own
defaults. -/
def Config.withDefaultSettings (config : Config) : Config :=
  { config with
    speed := Settings.default.speed.value
    background := Settings.default.background.value }

/-- The configuration that stands behind a document. -/
def Config.behind (config : Config) (document : Json) : Config :=
  if document.settings?.isSome then config.withDefaultSettings else config

theorem Config.canvas_behind (config : Config) (document : Json) :
    (config.behind document).width = config.width ∧ (config.behind document).height = config.height ∧
      (config.behind document).tolerance = config.tolerance := by
  rw [behind]
  split <;> exact ⟨rfl, rfl, rfl⟩

namespace CommandLine

section

variable {freshId : String} {now : Int} {document : Json} {project : Project}
  (h : Project.parse freshId now document = .ok project) (config : Config)
include h

theorem settled_eq :
    settledSpeed project config = document.suppliedSpeed.getD (config.behind document).speed ∧
      settledBackground project config =
        document.suppliedBackground.getD (config.behind document).background := by
  obtain ⟨hgiven, hspeed, hbackground⟩ := Project.settings_of_parse h
  rw [settledSpeed, settledBackground, hgiven, hspeed, hbackground, Config.behind]
  cases hsettings : document.settings? with
  | none => simp [Json.suppliedSpeed, Json.suppliedBackground, hsettings]
  | some settings => exact ⟨rfl, rfl⟩

theorem settled_of_none (hnone : document.settings? = none) :
    settledSpeed project config = config.speed ∧ settledBackground project config = config.background := by
  have hgiven : project.settings.given = false := by
    rw [(Project.settings_of_parse h).1, hnone]
    rfl
  rw [settledSpeed, settledBackground, hgiven]
  exact ⟨rfl, rfl⟩

/-- The options that are made follow the rule, for the flags that are heeded and
the configuration behind the document. -/
theorem precedence_mergedOptions (choices : Choices) :
    Precedence choices.heeded document (config.behind document) (mergedOptions project config choices) := by
  obtain ⟨hwidth, hheight, htolerance⟩ := Config.canvas_behind config document
  obtain ⟨hspeed, hbackground⟩ := settled_eq h config
  constructor
  · rw [hwidth]
    rfl
  · rw [hheight]
    rfl
  · rw [Option.getD_or, ← hspeed]
    rfl
  · rw [Option.getD_or, ← hbackground]
    rfl
  · rw [htolerance]
    rfl

end

/-- The rule leaves no choice. -/
theorem Precedence.eq {choices : Choices} {document : Json} {config : Config} {o o' : Options}
    (h : Precedence choices document config o) (h' : Precedence choices document config o') : o = o' := by
  cases o
  cases o'
  rw [Options.mk.injEq]
  exact ⟨h.width.trans h'.width.symm, h.height.trans h'.height.symm, h.speed.trans h'.speed.symm,
    h.background.trans h'.background.symm, h.tolerance.trans h'.tolerance.symm⟩

theorem Precedence.acceptable {choices : Choices} {document : Json} {config : Config} {options : Options}
    (h : Precedence choices document config options) (hvalid : options.Valid) : choices.Acceptable where
  width x hx := by
    simpa [h.width, Option.mem_def.1 hx] using hvalid.width
  height x hx := by
    simpa [h.height, Option.mem_def.1 hx] using hvalid.height
  speed n hn := by
    simpa [h.speed, Option.mem_def.1 hn] using hvalid.speed
  background s hs := by
    simpa [h.background, Option.mem_def.1 hs, Slot.of] using hvalid.background
  tolerance x hx := by
    simpa [h.tolerance, Option.mem_def.1 hx, Slot.of] using hvalid.tolerance

theorem Choices.heeded_eq {c : Choices} (h : c.background ≠ some "") : c.heeded = c := by
  have hgiven : c.givenBackground = c.background := by
    cases hbackground : c.background with
    | none => simp [givenBackground, hbackground]
    | some s =>
      have hne : s ≠ "" := fun hs => h (hs ▸ hbackground)
      simp [givenBackground, hbackground, hne]
  rw [heeded, hgiven]

/-- Nothing stands behind settings that say all. -/
theorem Precedence.of_whole {choices : Choices} {document : Json} {config : Config} {options : Options}
    (h : Precedence choices document (config.behind document) options) (hwhole : document.SettingsWhole) :
    Precedence choices document config options := by
  cases hsettings : document.settings?.isSome with
  | false => rwa [Config.behind, hsettings, if_neg Bool.false_ne_true] at h
  | true =>
    -- both are supplied, so the rule never comes to the configuration for them
    obtain ⟨hspeed, hbackground⟩ := hwhole hsettings
    obtain ⟨speed, hspeed⟩ := Option.isSome_iff_exists.1 hspeed
    obtain ⟨background, hbackground⟩ := Option.isSome_iff_exists.1 hbackground
    obtain ⟨hwidth, hheight, htolerance⟩ := Config.canvas_behind config document
    refine ⟨hwidth ▸ h.width, hheight ▸ h.height, ?_, ?_, htolerance ▸ h.tolerance⟩
    · rw [h.speed, hspeed, Option.getD_or, Option.getD_or]
      rfl
    · rw [h.background, hbackground, Option.getD_or, Option.getD_or]
      rfl

/-- **Options are built by the rule**, from the flags that are heeded and the
configuration behind the document, if they are within their bounds; a flag that
is heeded and is not acceptable leads to a refusal. So the rule holds of the
flags and the configuration as they are, unless the background is given as
empty or the settings of the document leave something out. -/
theorem buildOptions_precedence {freshId : String} {now : Int} {document : Json} {project : Project}
    (h : Project.parse freshId now document = .ok project) (config : Config) (choices : Choices) :
    (∀ options, buildOptions project config choices = .ok options ↔
        Precedence choices.heeded document (config.behind document) options ∧ options.Valid) ∧
      (¬ choices.heeded.Acceptable → ∃ refusal, buildOptions project config choices = .error refusal) ∧
      (choices.background ≠ some "" → document.SettingsWhole →
        ∀ options, buildOptions project config choices = .ok options →
          Precedence choices document config options ∧ choices.Acceptable) := by
  have hmerged := precedence_mergedOptions h config choices
  refine ⟨?_, ?_, ?_⟩
  · intro options
    rw [buildOptions_eq_ok]
    constructor
    · rintro ⟨hvalid, rfl⟩
      exact ⟨hmerged, hvalid⟩
    · rintro ⟨hrule, hvalid⟩
      have heq := hrule.eq hmerged
      exact ⟨heq ▸ hvalid, heq⟩
  · intro hnot
    cases hbuilt : buildOptions project config choices with
    | error refusal => exact ⟨refusal, rfl⟩
    | ok options =>
      obtain ⟨hvalid, -⟩ := buildOptions_eq_ok.1 hbuilt
      exact absurd (hmerged.acceptable hvalid) hnot
  · intro hbackground hwhole options hbuilt
    obtain ⟨hvalid, rfl⟩ := buildOptions_eq_ok.1 hbuilt
    rw [Choices.heeded_eq hbackground] at hmerged
    exact ⟨hmerged.of_whole hwhole, hmerged.acceptable hvalid⟩

/-- The project of a document that says nothing. -/
def bareProject : Project where
  id := .default "p"
  name := .default Project.defaultName
  lastModified := .default 0
  layers := .default []
  strokes := .default []
  settings := .default .default

/-- The document of a project that has settings and nothing else. -/
def settingsDocument (settings : List (String × Json)) : Json := .object [("settings", .object settings)]

def settingsProject (settings : Settings) : Project := { bareProject with settings := .of settings }

theorem buildOptions_precedence_sample :
    Project.parse "p" 0 (settingsDocument [("speed", .int 4), ("backgroundColor", .text "#202020")]) =
        .ok (settingsProject ⟨.of 4, .of "#202020"⟩) ∧
      Precedence { width := some 1000, background := some "#ffffff" }
        (settingsDocument [("speed", .int 4), ("backgroundColor", .text "#202020")]) .standard
        ⟨1000, 600, 4, .of "#ffffff", .of 2.0⟩ := by
  have hparse : Project.parse "p" 0 (settingsDocument [("speed", .int 4), ("backgroundColor", .text "#202020")]) =
      .ok (settingsProject ⟨.of 4, .of "#202020"⟩) := rfl
  refine ⟨hparse, ?_⟩
  have hrule := (buildOptions_precedence hparse .standard { width := some 1000, background := some "#ffffff" }).2.2
  exact (hrule (by decide) (fun _ => by decide) _ rfl).1

/-- The settings of a document say a speed and no background, and the background
of the configuration is passed over; the background is given as empty, which is
no colour, and options are built. -/
theorem not_precedence :
    (Project.parse "p" 0 (settingsDocument [("speed", .int 4)]) =
        .ok (settingsProject ⟨.of 4, .default "#0a0a0a"⟩) ∧
      ∃ options, buildOptions (settingsProject ⟨.of 4, .default "#0a0a0a"⟩) .standard {} = .ok options ∧
        ¬ Precedence {} (settingsDocument [("speed", .int 4)]) .standard options) ∧
    ∃ options, buildOptions (settingsProject ⟨.of 4, .default "#0a0a0a"⟩) .standard { background := some "" } =
        .ok options ∧ ¬ ({ background := some "" } : Choices).Acceptable := by
  refine ⟨⟨rfl, _, rfl, ?_⟩, _, rfl, ?_⟩
  · intro hrule
    exact absurd (congrArg Slot.value hrule.background) (by decide)
  · intro hacceptable
    exact absurd (hacceptable.background "" rfl) (by decide)

end CommandLine

end SketchTurtle
