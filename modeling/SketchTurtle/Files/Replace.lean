/-
Replacing a file at one stroke. The new contents are written to a temporary
file beside the target, which then takes the target's name; a reader of the
target sees the old contents or the new ones.
-/
import SketchTurtle.Files.Tree

namespace SketchTurtle

/-- A file to be replaced: its path, that of the temporary file, and the new
contents. -/
structure Replacement where
  target : Path
  temporary : Path
  data : Bytes

namespace Replacement

/-- How far a replacement has come. -/
inductive Stage where
  | planned
  /-- The temporary file is open and empty. -/
  | opened (number : Nat)
  | written (number : Nat)
  | renamed
  deriving DecidableEq, Repr

/-- The next step of a replacement. -/
def advance (r : Replacement) : Stage → Files → Except FileFault (Stage × Files)
  | .planned, fs => (fs.openFile false r.temporary).map fun (number, fs) => (.opened number, fs)
  | .opened number, fs => .ok (.written number, fs.overwrite number r.data)
  | .written _, fs => (fs.rename r.temporary r.target).map fun fs => (.renamed, fs)
  | .renamed, fs => .ok (.renamed, fs)

/-- The number of steps that a replacement takes. -/
def stepCount : Nat := 3

/-- The given number of steps, unless one of them fails. -/
def steps (r : Replacement) : Nat → Stage → Files → Except FileFault Unit × Files
  | 0, _, fs => (.ok (), fs)
  | n + 1, stage, fs =>
    match r.advance stage fs with
    | .ok (stage, fs) => r.steps n stage fs
    | .error fault => (.error fault, fs)

/-- Removes the temporary file, if there is one. -/
def discard (r : Replacement) (fs : Files) : Except FileFault Unit × Files :=
  match fs.exists? r.temporary with
  | .error fault => (.error fault, fs)
  | .ok false => (.ok (), fs)
  | .ok true =>
    match fs.unlink r.temporary with
    | .ok fs => (.ok (), fs)
    | .error fault => (.error fault, fs)

end Replacement

/-- Why a file is not replaced. -/
inductive WriteFault where
  /-- The path does not end in a name. -/
  | emptyName (path : Path)
  | invalidSuffix (suffix : String)
  /-- The directory is not there, or the temporary file could not be removed. -/
  | file (fault : FileFault)
  /-- A step failed, and nothing is left of the attempt. -/
  | failed (path : Path) (fault : FileFault)
  deriving DecidableEq, Repr

/-- The wording of a fault. -/
def WriteFault.message : WriteFault → String
  | .emptyName path => s!"PosixPath({Text.quoted path.text}) has an empty name"
  | .invalidSuffix suffix => "Invalid suffix " ++ Text.quoted suffix
  | .file fault => fault.message
  | .failed path fault => s!"Failed to write {path.text} atomically: {fault.message}"

namespace Files

/-- The suffix of temporary files. -/
def temporarySuffix : String := ".tmp"

/-- The path of the temporary file: the target's, with something added to its
name that makes a proper suffix. -/
def temporaryPath (target : Path) (added : String) : Except WriteFault Path :=
  let suffix := target.suffix ++ added
  if suffix.toList.contains '/' || (suffix != "" && suffix.toList.head? != some '.') || suffix == "." then
    .error (.invalidSuffix suffix)
  else if target.name == "" then .error (.emptyName target)
  else .ok (target.extendName added)

/-- Replaces the file at a path, or makes it. The directories above it are
made if they are missing. -/
def replace (fs : Files) (target : Path) (data : Bytes) (suffix : String) :
    Except WriteFault Unit × Files :=
  match fs.makeDirectories target.parent with
  | (.error fault, fs) => (.error (.file fault), fs)
  | (.ok (), fs) =>
    match temporaryPath target suffix with
    | .error fault => (.error fault, fs)
    | .ok temporary =>
      let r : Replacement := ⟨target, temporary, data⟩
      match r.steps Replacement.stepCount .planned fs with
      | (.ok (), fs) => (.ok (), fs)
      | (.error fault, fs) =>
        match r.discard fs with
        | (.ok (), fs) => (.error (.failed target fault), fs)
        | (.error fault, fs) => (.error (.file fault), fs)

/-- Replaces the file at a path by a text. -/
def replaceText (fs : Files) (target : Path) (text : String) : Except WriteFault Unit × Files :=
  fs.replace target (.ofText text) temporarySuffix

end Files

end SketchTurtle
