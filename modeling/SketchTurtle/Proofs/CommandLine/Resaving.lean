/-
What a project compiles to after it was saved.

A saved project has settings, whether its document had any or not: those that
were left out are written with their defaults. So a project compiles after it
was saved as it did before with the defaults of the settings in the place of the
configuration's speed and background, and it compiles alike with every
configuration if, and only if, its document had settings (`buildOptions_reload`).
-/
import SketchTurtle.Proofs.CommandLine.Defaults
import SketchTurtle.Proofs.Turtle.Shown
import SketchTurtle.Turtle.Render

namespace SketchTurtle

/-- That all parts are given is not seen in a drawing. -/
theorem Turtle.unseen_asGiven : Unseen Stroke.asGiven Layer.asGiven where
  ink _ := rfl
  layer _ := rfl
  id _ := rfl
  name _ := rfl
  visible _ := rfl

theorem Turtle.plan_asGiven (options : Options) (p : Project) :
    plan options p.asGiven.strokes.value p.asGiven.layers.value = plan options p.strokes.value p.layers.value :=
  plan_map unseen_asGiven options p.strokes.value p.layers.value

namespace CommandLine

/-- The text of the program for a project. -/
def programText (project : Project) (config : Config) (choices : Choices) : Except Refusal String :=
  (buildOptions project config choices).map fun options =>
    (Turtle.plan options project.strokes.value project.layers.value).program.render

theorem programText_congr {p : Project} {config config' : Config} {choices : Choices}
    (h : buildOptions p.asGiven config choices = buildOptions p config' choices) :
    programText p.asGiven config choices = programText p config' choices := by
  simp only [programText, h, Turtle.plan_asGiven]

theorem settled_of_given {p : Project} (hgiven : p.settings.given = true) (config : Config) :
    settledSpeed p config = p.settings.value.speed.value ∧
      settledBackground p config = p.settings.value.background.value := by
  rw [settledSpeed, settledBackground, hgiven]
  exact ⟨rfl, rfl⟩

theorem buildOptions_of_settled {p q : Project} {config : Config} {speed : Int} {background : String}
    (hp : settledSpeed p config = speed ∧ settledBackground p config = background)
    (hq : settledSpeed q config.withDefaultSettings = speed ∧
      settledBackground q config.withDefaultSettings = background) (choices : Choices) :
    buildOptions p config choices = buildOptions q config.withDefaultSettings choices := by
  rw [buildOptions, hp.1, hp.2, ← hq.1, ← hq.2]
  rfl

section

variable {freshId : String} {now : Int} {document : Json} {p : Project}
  (h : Project.parse freshId now document = .ok p)
include h

/-- Behind any document, the default settings are the same. -/
theorem settled_withDefaultSettings (config : Config) :
    settledSpeed p config.withDefaultSettings = p.settings.value.speed.value ∧
      settledBackground p config.withDefaultSettings = p.settings.value.background.value := by
  obtain ⟨-, hspeed, hbackground⟩ := Project.settings_of_parse h
  have hbehind : (config.withDefaultSettings.behind document).speed = Settings.default.speed.value ∧
      (config.withDefaultSettings.behind document).background = Settings.default.background.value := by
    rw [Config.behind]
    split <;> exact ⟨rfl, rfl⟩
  obtain ⟨hsettledSpeed, hsettledBackground⟩ := settled_eq h config.withDefaultSettings
  rw [hsettledSpeed, hsettledBackground, hbehind.1, hbehind.2, hspeed, hbackground]
  exact ⟨rfl, rfl⟩

/-- A project whose parts are all given compiles as it did where settings that
are left out had their own defaults. -/
theorem buildOptions_asGiven (config : Config) (choices : Choices) :
    buildOptions p.asGiven config choices = buildOptions p config.withDefaultSettings choices :=
  buildOptions_of_settled (settled_of_given (p := p.asGiven) rfl config) (settled_withDefaultSettings h config)
    choices

/-- Where the document has settings, the configuration tells neither the speed
nor the background. -/
theorem buildOptions_withDefaultSettings (hsettings : document.settings?.isSome = true) (config : Config)
    (choices : Choices) : buildOptions p config.withDefaultSettings choices = buildOptions p config choices := by
  have hgiven : p.settings.given = true := by rw [(Project.settings_of_parse h).1, hsettings]
  exact (buildOptions_of_settled (settled_of_given hgiven config) (settled_withDefaultSettings h config)
    choices).symm

theorem buildOptions_standard (hnone : document.settings? = none) :
    buildOptions p .standard {} = .ok ⟨800, 600, 6, .of "#000000", .of 2.0⟩ := by
  obtain ⟨hspeed, hbackground⟩ := settled_of_none h .standard hnone
  rw [buildOptions, hspeed, hbackground]
  rfl

end

/-- **A saved project compiles as it did before with the default settings in the
place of the configuration's**, and it compiles alike with every configuration
if, and only if, its document had settings. -/
theorem buildOptions_reload {freshId : String} {now : Int} {document : Json} {p : Project}
    (h : Project.parse freshId now document = .ok p) (freshId' : String) (now' : Int) :
    (p.allText = true → p.IsFinite → isLongInt p.lastModified.value = false →
        ∃ text saved q, p.toJson? = some text ∧ Json.read text = .ok saved ∧
          Project.parse freshId' now' saved = .ok q) ∧
      ∀ text saved q, p.toJson? = some text → Json.read text = .ok saved → Project.parse freshId' now' saved = .ok q →
        (∀ config choices,
          buildOptions q config choices = buildOptions p config.withDefaultSettings choices ∧
            programText q config choices = programText p config.withDefaultSettings choices) ∧
        ((∀ config : Config, config.Loaded → ∀ choices,
            buildOptions q config choices = buildOptions p config choices ∧
              programText q config choices = programText p config choices) ↔
          document.settings?.isSome = true) := by
  have hvalid := Project.valid_of_ofDocument (Project.parse_eq_ok.1 h)
  constructor
  · intro hall hfinite hlong
    obtain ⟨saved, hread, hparse⟩ := (Project.reload_eq_ok hvalid).2 ⟨⟨hfinite, hlong⟩, rfl⟩
    exact ⟨p.toText, saved, p.asGiven, Project.toJson?_eq_some.2 ⟨hall, rfl⟩, hread, hparse⟩
  · intro text saved q htext hread hparse
    obtain ⟨-, rfl⟩ := Project.toJson?_eq_some.1 htext
    obtain ⟨-, rfl⟩ := (Project.reload_eq_ok hvalid).1 ⟨saved, hread, hparse⟩
    refine ⟨fun config choices => ?_, fun halike => ?_, fun hsettings config _ choices => ?_⟩
    · have hbuilt := buildOptions_asGiven h config choices
      exact ⟨hbuilt, programText_congr hbuilt⟩
    · by_contra hnone
      rw [Option.not_isSome_iff_eq_none] at hnone
      -- the background tells the default of the settings from that of the configuration
      have hafter := (halike .standard (.inr rfl) {}).1
      rw [buildOptions_standard h hnone, buildOptions_asGiven h] at hafter
      obtain ⟨-, hoptions⟩ := buildOptions_eq_ok.1 hafter
      have hbackground : "#000000" = settledBackground p Config.standard.withDefaultSettings :=
        congrArg (·.background.value) hoptions
      rw [(settled_of_none h _ hnone).2] at hbackground
      exact absurd hbackground (by decide)
    · have hbuilt := (buildOptions_asGiven h config choices).trans
        (buildOptions_withDefaultSettings h hsettings config choices)
      exact ⟨hbuilt, programText_congr hbuilt⟩

theorem buildOptions_reload_sample :
    Project.parse "p" 0 (Project.sampleDocument 0.5 2) = .ok (Project.sample 0.5 2) ∧
      ∃ text saved q, (Project.sample 0.5 2).toJson? = some text ∧ Json.read text = .ok saved ∧
        Project.parse "q" 1 saved = .ok q ∧
        programText q .standard {} = programText (Project.sample 0.5 2) Config.standard.withDefaultSettings {} := by
  have hparse := Project.parse_sampleDocument 0.5 2
  obtain ⟨hreload, halike⟩ := buildOptions_reload hparse "q" 1
  obtain ⟨text, saved, q, htext, hread, hsaved⟩ :=
    hreload rfl (Project.isFinite_sample.2 ⟨by decide, by decide⟩) (isLongInt_of_le (by decide))
  exact ⟨hparse, text, saved, q, htext, hread, hsaved, ((halike text saved q htext hread hsaved).1 .standard {}).2⟩

/-- A name with half of a surrogate pair is read, and cannot be written. -/
def halfNamed : Project := { bareProject with name := .of "\uFFFD", isText := false }

/-- The least number with more digits than are read. -/
def longNumber : Int := (Nat.pow 10 maxIntDigits : Nat)

theorem isLongInt_longNumber : isLongInt longNumber = true := by
  rw [isLongInt, longNumber, Int.natAbs_natCast]
  exact decide_eq_true le_rfl

/-- A time of modification that is accepted, and written with more digits than are
read. -/
def longDated : Project := { bareProject with lastModified := .of longNumber }

/-- A project without settings has the background of the configuration, and
after it was saved that of the default settings. A text that is no sequence of
characters, and a whole number that is too long, are lost by saving. -/
theorem not_buildOptions_reload :
    (Project.parse "p" 0 (.object []) = .ok bareProject ∧ bareProject.IsFinite ∧
      ∃ text saved q, bareProject.toJson? = some text ∧ Json.read text = .ok saved ∧
        Project.parse "p" 0 saved = .ok q ∧
        buildOptions bareProject .standard {} = .ok ⟨800, 600, 6, .of "#000000", .of 2.0⟩ ∧
        buildOptions q .standard {} = .ok ⟨800, 600, 6, .of "#0a0a0a", .of 2.0⟩ ∧
        programText q .standard {} ≠ programText bareProject .standard {}) ∧
      (Project.parse "p" 0 (.object [("name", .unpaired "\uFFFD")]) = .ok halfNamed ∧ halfNamed.IsFinite ∧
        halfNamed.toJson? = none) ∧
      Project.parse "p" 0 (.object [("lastModified", .int longNumber)]) = .ok longDated ∧
        longDated.IsFinite ∧
        ¬ ∃ text saved q, longDated.toJson? = some text ∧ Json.read text = .ok saved ∧
          Project.parse "p" 0 saved = .ok q := by
  have hparse : Project.parse "p" 0 (.object []) = .ok bareProject := rfl
  have hfinite : bareProject.IsFinite := nofun
  have hvalid := Project.valid_of_ofDocument (Project.parse_eq_ok.1 hparse)
  obtain ⟨saved, hread, hsaved⟩ :=
    (@Project.reload_eq_ok "p" 0 _ _ hvalid).2 ⟨⟨hfinite, isLongInt_of_le (by decide)⟩, rfl⟩
  have hlong : Project.parse "p" 0 (.object [("lastModified", .int longNumber)]) = .ok longDated := rfl
  refine ⟨⟨hparse, hfinite, bareProject.toText, saved, bareProject.asGiven, rfl, hread, hsaved, rfl, rfl, ?_⟩,
    ⟨rfl, nofun, rfl⟩, hlong, nofun, ?_⟩
  · intro htext
    exact absurd (Except.ok.inj htext) (by decide +kernel)
  · rintro ⟨text, saved, q, htext, hreload⟩
    obtain ⟨-, rfl⟩ := Project.toJson?_eq_some.1 htext
    have hvalid := Project.valid_of_ofDocument (Project.parse_eq_ok.1 hlong)
    have hshort := ((Project.reload_eq_ok hvalid).1 ⟨saved, hreload⟩).1.2
    cases isLongInt_longNumber.symm.trans hshort

end CommandLine

end SketchTurtle
