/-
The command line. Commands run on the part of the disk that they touch: what
the arguments name is read first, and a command that comes upon a place that
was not read is run again with what stands there. What it changed is then
written back, a file by taking the place of the old one.
-/
import Std.Time.DateTime.Timestamp
import SketchTurtle.CommandLine.Session

namespace SketchTurtle.CommandLine

/-- A place on the disk. -/
def diskPath (place : Location) : String := "/" ++ "/".intercalate place

/-- What stands at a place of the disk: a file with its bytes, or a
directory. -/
def probe (place : Location) : IO (Option (Option Bytes)) := do
  try
    return some (some (← IO.FS.readBinFile (diskPath place)).toList)
  catch _ =>
    try
      let _ ← IO.FS.realPath (diskPath place)
      return some none
    catch _ => return none

/-- The tree with what stands at a place. -/
def mount (files : Files) (place : Location) : Option Bytes → Files
  | none => files.put place .directory
  | some bytes =>
    { files.put place (.file files.contents.length) with contents := files.contents ++ [bytes] }

/-- The place and those above it, the highest first. -/
def placesTo (place : Location) : List Location :=
  (List.range place.length).map fun n => place.take (n + 1)

/-- The places that arguments may name: each as a whole, and what follows an
equals sign. -/
def namedPlaces (here : Location) (arguments : List String) : List Location :=
  let texts := arguments.flatMap fun argument =>
    match splitAtEquals argument.toList with
    | (_, some value) => [argument, String.ofList value]
    | (_, none) => [argument]
  texts.map fun text => ((Path.ofString text).absolute here).names

/-- The tree with what stands at those of the places that are not known, and
whether there was anything. -/
def mountAll (files : Files) (known places : List Location) : IO (Files × Bool) := do
  let mut files := files
  let mut found := false
  for place in places do
    if !known.contains place then
      if let some node ← probe place then
        files := mount files place node
        found := true
  return (files, found)

/-- Runs a command, again as long as it comes upon something that was not
read. -/
partial def settle (command : Files → Ending × Session) (files : Files)
    (known places : List Location) : IO (Ending × Session × Files) := do
  let (files, found) ← mountAll files known places
  let known := known ++ places
  let (ending, session) := command files
  let touched := (session.files.nodes.flatMap fun (place, _) => placesTo place).eraseDups
  if !found && touched.all known.contains then return (ending, session, files)
  else settle command files known touched

/-- Writes back what a command changed. -/
def writeBack (before after : Files) : IO Unit := do
  for (place, node) in after.nodes.mergeSort fun a b => a.1.length ≤ b.1.length do
    match node, before.node? place with
    | .directory, none => IO.FS.createDir (diskPath place)
    | .directory, some _ => pure ()
    | .file number, old =>
      let bytes := after.content number
      let same := match old with
        | some (.file n) => before.content n == bytes
        | _ => false
      if !same then
        let path := diskPath place
        let temporary := path ++ Files.temporarySuffix
        IO.FS.writeBinFile temporary ⟨bytes.toArray⟩
        IO.FS.rename temporary path
  for (place, _) in before.nodes do
    if (after.node? place).isNone then IO.FS.removeFile (diskPath place)

/-- The number of this process. -/
def processNumber : IO Nat := do
  try
    return ((toString (← IO.FS.realPath "/proc/self")).splitOn "/").getLast?.bind String.toNat?
      |>.getD 0
  catch _ => return 0

/-- What commands find here. Identifiers follow a random one; no clipboard
command is run. -/
def surroundings : IO Surroundings := do
  let now ← Std.Time.Timestamp.now
  let seconds := now.val.second.val
  let seed := (← IO.getRandomBytes 16).toList.foldl (fun n byte => 256 * n + byte.toNat) 0
  return {
    stamp := ⟨⟨seconds * 1000000 + now.val.nano.val / 1000⟩, ← processNumber⟩
    isTerminal := ← (← IO.getStderr).isTty
    clipboard := ⟨[], false, .success⟩
    identifier := fun n => identifier ((seed + n) % Nat.pow 16 32) }

/-- The status of a command, after a fault that it did not handle has been
told. -/
def Ending.status : Ending → IO UInt32
  | .exit status => return UInt32.ofNat status
  | .config fault => do IO.eprintln fault.message; return 1
  | .setup fault => do IO.eprintln fault.message; return 1
  | .file fault => do IO.eprintln fault.message; return 1

end SketchTurtle.CommandLine

open SketchTurtle SketchTurtle.CommandLine in
/-- Runs the command that the arguments name. -/
def main (arguments : List String) : IO UInt32 := do
  let env ← surroundings
  let here := (Path.ofString (toString (← IO.currentDir))).names
  let start : Files := { here, nodes := (placesTo here).map ((·, .directory)), contents := [] }
  let places := (namedPlaces here arguments).flatMap placesTo
  let (ending, session, before) ←
    settle (fun files => runArguments env arguments (.start files)) start (placesTo here)
      places.eraseDups
  writeBack before session.files
  IO.print session.output
  IO.eprint session.errors
  ending.status
