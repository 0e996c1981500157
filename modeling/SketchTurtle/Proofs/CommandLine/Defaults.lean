/-
What a configuration gives on its own.

A loaded configuration is within the bounds of options in all but one respect:
its background may end with a line feed, which no option may. So where neither
flags nor the project say anything, the options are those of the configuration,
and only the line feed is refused (`buildOptions_of_loaded`).
-/
import SketchTurtle.Proofs.CommandLine.Precedence
import SketchTurtle.Proofs.Config.Loaded

namespace SketchTurtle

/-- Of options whose background alone is out of its bounds, that is said. -/
theorem Options.ofValues_of_not_isColor {width height : Float} {speed : Int} {background : String}
    {tolerance : Float} (hwidth : 0 < width) (hheight : 0 < height) (hspeed : 0 ≤ speed ∧ speed ≤ 10)
    (hbackground : Check.isColor background = false) (htolerance : 0 ≤ tolerance) :
    ofValues (.float width) (.float height) (.int speed) (.text background) (.float tolerance) =
      .faulty [⟨[.name "background_color"], .notColor⟩] := by
  have hfaults : faults ⟨width, height, speed, .of background, .of tolerance⟩ =
      [⟨[.name "background_color"], .notColor⟩] := by
    simp [faults, Slot.of, Fault.unmet, Fault.ofSpeed, hwidth, hheight, hspeed, hbackground, htolerance]
  rw [ofValues_eq, hfaults]
  rfl

namespace CommandLine

/-- **A loaded configuration makes options by itself**, for a project without
settings and without any flag, and they have its values; only if a line feed
follows the colour of its background is that refused. -/
theorem buildOptions_of_loaded {config : Config} (hloaded : config.Loaded) {freshId : String} {now : Int}
    {document : Json} {project : Project} (h : Project.parse freshId now document = .ok project)
    (hnone : document.settings? = none) :
    buildOptions project config {} =
        (if Check.isColor config.background then
          .ok ⟨config.width, config.height, config.speed, .of config.background, .of config.tolerance⟩
        else .error ⟨"CompileOptions", [⟨[.name "background_color"], .notColor⟩]⟩) ∧
      (Check.isColor config.background = false →
        ∃ color, Check.isColor color = true ∧ config.background = color ++ "\n") := by
  have hrange := hloaded.inRange
  obtain ⟨hspeed, hbackground⟩ := settled_of_none h config hnone
  have hmerged : mergedOptions project config {} =
      ⟨config.width, config.height, config.speed, .of config.background, .of config.tolerance⟩ := by
    simp [mergedOptions, Choices.givenBackground, hspeed, hbackground]
  constructor
  · split
    · next hcolor =>
      refine buildOptions_eq_ok.2 ⟨?_, hmerged.symm⟩
      rw [hmerged]
      exact ⟨hrange.width.2, hrange.height.2, hrange.speed, hcolor, hrange.tolerance.2⟩
    · next hcolor =>
      have hfaulty := Options.ofValues_of_not_isColor hrange.width.2 hrange.height.2 hrange.speed
        (Bool.eq_false_iff.2 hcolor) hrange.tolerance.2
      simp only [buildOptions, Choices.givenBackground, Option.filter_none, Option.getD_none, hspeed, hbackground,
        hfaulty]
      rfl
  · intro hcolor
    refine (Config.isColorLine_eq hrange.background).resolve_left ?_
    rw [hcolor]
    exact Bool.false_ne_true

/-- A document of a configuration with this background. -/
def backgroundDocument (background : String) : Yaml.Value :=
  .map [(.text "canvas", .map [(.text "width", .float 800), (.text "height", .float 600)]),
    (.text "compile", .map [(.text "speed", .int 3), (.text "background_color", .text background)])]

def backgroundConfig (background : String) : Config := { Config.standard with speed := 3, background }

theorem backgroundConfig_loaded {background : String} (h : Config.isColorLine background = true) :
    (backgroundConfig background).Loaded := by
  refine .inl ⟨⟨"", ["c.yaml"]⟩, backgroundDocument background, Config.ofDocument_eq_ok.2 ⟨rfl, ?_⟩⟩
  exact { Config.inRange_standard with
    speed := show 0 ≤ 3 ∧ 3 ≤ 10 by decide
    background := h }

theorem buildOptions_of_loaded_sample :
    (backgroundConfig "#112233").Loaded ∧ Project.parse "p" 0 (.object []) = .ok bareProject ∧
      buildOptions bareProject (backgroundConfig "#112233") {} =
        .ok ⟨800, 600, 3, .of "#112233", .of 2.0⟩ := by
  have hloaded : (backgroundConfig "#112233").Loaded := backgroundConfig_loaded (by decide +kernel)
  have hparse : Project.parse "p" 0 (.object []) = .ok bareProject := rfl
  exact ⟨hloaded, hparse, (buildOptions_of_loaded hloaded hparse rfl).1⟩

/-- A configuration whose background ends with a line feed is loaded, and makes
no options. -/
theorem not_buildOptions_of_loaded :
    (backgroundConfig "#112233\n").Loaded ∧ Project.parse "p" 0 (.object []) = .ok bareProject ∧
      ∀ options, buildOptions bareProject (backgroundConfig "#112233\n") {} ≠ .ok options := by
  refine ⟨backgroundConfig_loaded (by decide +kernel), rfl, fun options h => ?_⟩
  cases h

end CommandLine

end SketchTurtle
