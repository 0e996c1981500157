/-
The options of a compiled program: a flag comes first, then the settings of
the project if it has any, then the configuration.
-/
import SketchTurtle.CommandLine.Request
import SketchTurtle.Config.Reader
import SketchTurtle.Sketch.Document

namespace SketchTurtle.CommandLine

/-- The speed where no flag tells it. -/
def settledSpeed (project : Project) (config : Config) : Int :=
  if project.settings.given then project.settings.value.speed.value else config.speed

/-- The background where no flag tells it. -/
def settledBackground (project : Project) (config : Config) : String :=
  if project.settings.given then project.settings.value.background.value else config.background

/-- The background of the flags, unless it is empty. -/
def Choices.givenBackground (c : Choices) : Option String :=
  c.background.filter (· != "")

/-- The options for a program. -/
def buildOptions (project : Project) (config : Config) (choices : Choices) :
    Except Refusal Options :=
  (Options.ofValues
    (.float (choices.width.getD config.width))
    (.float (choices.height.getD config.height))
    (.int (choices.speed.getD (settledSpeed project config)))
    (.text (choices.givenBackground.getD (settledBackground project config)))
    (.float (choices.tolerance.getD config.tolerance))).toExcept "CompileOptions"

end SketchTurtle.CommandLine
