/-
What the commands are called, and how they are used.
-/

namespace SketchTurtle.CommandLine

/-- What usage is told of: the program, or one of its commands. -/
inductive Topic where
  | program
  | compile
  | new
  deriving DecidableEq, Repr

/-- The names of some speeds. -/
def speedLabels : List (Int × String) :=
  [(0, "Instant"), (1, "Slowest"), (3, "Slow"), (6, "Normal"), (10, "Fast")]

/-- The name of a speed. -/
def speedLabel (speed : Int) : String := (speedLabels.lookup speed).getD "custom"

/-- The greatest speed. -/
def maxSpeed : Nat := 10

namespace Topic

/-- The name on the command line. -/
def title : Topic → String
  | .program => "pysketch"
  | .compile => "pysketch compile"
  | .new => "pysketch new"

/-- The lines that tell how something is called. -/
def usageLines : Topic → List String
  | .program => ["usage: pysketch [-h] [--config CONFIG] [--verbose] \x7bcompile,new\x7d ..."]
  | .compile =>
    ["usage: pysketch compile [-h] [--output OUTPUT] [--width WIDTH]",
      "                        [--height HEIGHT] [--speed \x7b0..10\x7d]",
      "                        [--background BACKGROUND] [--tolerance TOLERANCE]",
      "                        [--stdout] [--clipboard]",
      "                        project"]
  | .new => ["usage: pysketch new [-h] [--output OUTPUT] name"]

/-- Lines as a text. -/
def unlines (lines : List String) : String := String.join (lines.map (· ++ "\n"))

/-- How something is called. -/
def usage (topic : Topic) : String := unlines topic.usageLines

/-- What the arguments mean. -/
def description : Topic → List String
  | .program =>
    ["Compile freehand sketches to Python turtle programs",
      "",
      "positional arguments:",
      "  \x7bcompile,new\x7d",
      "    compile             Compile a project JSON file",
      "    new                 Create an empty project file",
      "",
      "options:",
      "  -h, --help            show this help message and exit",
      "  --config CONFIG, -c CONFIG",
      "                        Configuration file path",
      "  --verbose, -v         Enable debug logging",
      "",
      "Speed presets: " ++
        ", ".intercalate (speedLabels.map fun (speed, label) => s!"{speed}={label}")]
  | .compile =>
    ["positional arguments:",
      "  project               Project JSON file",
      "",
      "options:",
      "  -h, --help            show this help message and exit",
      "  --output OUTPUT, -o OUTPUT",
      "                        Output .py path (default: derived from project name)",
      "  --width WIDTH         Canvas width in pixels",
      "  --height HEIGHT       Canvas height in pixels",
      "  --speed \x7b0..10\x7d       Turtle animation speed",
      "  --background BACKGROUND",
      "                        Background colour '#RRGGBB'",
      "  --tolerance TOLERANCE",
      "                        Path simplification tolerance (pixels)",
      "  --stdout              Print the program instead of writing a file",
      "  --clipboard           Also copy the program to the clipboard"]
  | .new =>
    ["positional arguments:",
      "  name                  Project name",
      "",
      "options:",
      "  -h, --help            show this help message and exit",
      "  --output OUTPUT, -o OUTPUT",
      "                        Output JSON path"]

/-- The help on a topic. -/
def help (topic : Topic) : String :=
  unlines (topic.usageLines ++ "" :: topic.description)

end Topic

end SketchTurtle.CommandLine
