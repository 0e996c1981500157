/-
Copying programs to the clipboard, by the first of the known commands that is
there. A failure is logged and otherwise has no consequence.
-/
import SketchTurtle.Log.Record
import SketchTurtle.Text.Quoted

namespace SketchTurtle.Delivery

/-- The commands, in the order in which they are looked for. -/
def clipboardCommands : List (List String) :=
  [["pbcopy"], ["wl-copy"], ["xclip", "-selection", "clipboard"],
    ["xsel", "--clipboard", "--input"], ["clip"]]

/-- How the running of a command ends. -/
inductive RunResult where
  | success
  | exitStatus (status : Nat)
  | timeout
  | refused (reason : String)

/-- What there is to run: the commands that are installed, whether the last of
the known ones may be used, and how a run ends. -/
structure Commands where
  installed : List String
  windows : Bool
  result : RunResult

/-- The seconds that a command is given. -/
def clipboardTimeout : Float := 5.0

/-- Whether a command can be used. -/
def Commands.offers (commands : Commands) (command : List String) : Bool :=
  let name := command.headD ""
  (name != "clip" || commands.windows) && commands.installed.contains name

/-- A command in the words of a message. -/
def commandText (command : List String) : String :=
  let words := ", ".intercalate (command.map Text.quoted)
  "Command '(" ++ words ++ (if command.length = 1 then ",)'" else ")'")

/-- The reason of a failure. -/
def RunResult.reason? (command : List String) : RunResult → Option String
  | .success => none
  | .exitStatus status =>
    some s!"{commandText command} returned non-zero exit status {status}."
  | .timeout => some (commandText command ++ " timed out after 5.0 seconds")
  | .refused reason => some reason

/-- What copying does: whether it succeeds, the command that was run with the
text, and the record of it. -/
structure Copying where
  copied : Bool
  command? : Option (List String)
  record : Log.Record

/-- Copies a text to the clipboard. -/
def copy (commands : Commands) (text : String) : Copying :=
  match clipboardCommands.find? commands.offers with
  | none =>
    ⟨false, none, .error, Log.Source.delivery,
      "Failed to copy to clipboard: no clipboard command found"⟩
  | some command =>
    let name := command.headD ""
    match commands.result.reason? command with
    | some reason =>
      ⟨false, some command, .error, Log.Source.delivery,
        s!"Failed to copy to clipboard with {name}: {reason}"⟩
    | none =>
      ⟨true, some command, .debug, Log.Source.delivery,
        s!"Copied {text.length} characters with {name}"⟩

end SketchTurtle.Delivery
