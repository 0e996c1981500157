/-
Where lines of the log go: to the error stream, or to a file, which may be
rotated when it would grow beyond a limit.
-/
import SketchTurtle.Files.Tree
import SketchTurtle.Log.Line

namespace SketchTurtle.Log

/-- What the log writes to: the files, and the text on the error stream. -/
structure Outlet where
  files : Files
  errors : String

/-- Writes on the error stream. -/
def Outlet.print (o : Outlet) (s : String) : Outlet := { o with errors := o.errors ++ s }

/-! ## Rotation -/

/-- When a log file is set aside for a new one. -/
inductive Rotation where
  | never
  /-- Before it would reach a size in bytes. Positions beyond a count of old
  files are dropped; a limit that is not positive is none. -/
  | bySize (limit backups : Int)
  /-- Once in a period. -/
  | byTime
  deriving DecidableEq, Repr

namespace Rotation

/-- The path of an old file. -/
def backup (path : Path) (n : Nat) : Path := path.extendName s!".{n}"

/-- Gives a file, if it is there, the name of another, which is removed. -/
def move (fs : Files) (source target : Path) : Except FileFault Unit × Files :=
  if !fs.has source then (.ok (), fs)
  else
    match if fs.has target then fs.unlink target else .ok fs with
    | .error fault => (.error fault, fs)
    | .ok fs => match fs.rename source target with
      | .error fault => (.error fault, fs)
      | .ok fs => (.ok (), fs)

/-- Moves the old files from the given position on up by one. -/
def shift (path : Path) : Nat → Files → Except FileFault Unit × Files
  | 0, fs => (.ok (), fs)
  | n + 1, fs =>
    match move fs (backup path (n + 1)) (backup path (n + 2)) with
    | (.ok (), fs) => shift path n fs
    | (.error fault, fs) => (.error fault, fs)

/-- Sets a log file aside. Without old files it is only continued. -/
def setAside (path : Path) (backups : Int) (fs : Files) : Except FileFault Unit × Files :=
  if backups ≤ 0 then (.ok (), fs)
  else
    match shift path (backups.toNat - 1) fs with
    | (.ok (), fs) => move fs path (backup path 1)
    | (.error fault, fs) => (.error fault, fs)

end Rotation

/-! ## Sinks -/

/-- A log file. -/
structure LogFile where
  /-- Its path from the root. -/
  path : Path
  style : Style
  rotation : Rotation
  /-- The number of the file while it is open. -/
  number? : Option Nat

namespace LogFile

/-- Opens the file unless it is open. -/
def reopen (f : LogFile) (fs : Files) : Except FileFault (Nat × Files) :=
  match f.number? with
  | some number => .ok (number, fs)
  | none => fs.openFile true f.path

/-- Whether a line would fill the file. Its length counts characters. -/
def isFull (limit : Int) (size : Nat) (line : String) : Bool :=
  0 < limit && limit ≤ size + line.length

/-- The open file that a line goes to. -/
def prepare (f : LogFile) (line : String) (fs : Files) : Except FileFault Nat × Files :=
  match f.reopen fs with
  | .error fault => (.error fault, fs)
  | .ok (number, fs) =>
    match f.rotation with
    | .bySize limit backups =>
      if isFull limit (fs.content number).length line && !fs.isDirectory f.path then
        match Rotation.setAside f.path backups fs with
        | (.error fault, fs) => (.error fault, fs)
        | (.ok (), fs) => match fs.openFile true f.path with
          | .error fault => (.error fault, fs)
          | .ok (number, fs) => (.ok number, fs)
      else (.ok number, fs)
    | _ => (.ok number, fs)

/-- Writes a line. One that cannot be written is lost. -/
def write (f : LogFile) (line : String) (fs : Files) : LogFile × Files :=
  match f.prepare line fs with
  | (.ok number, fs) => ({ f with number? := some number }, fs.write number (.ofText line))
  | (.error _, fs) => ({ f with number? := none }, fs)

end LogFile

/-- A place to which lines go. -/
inductive Sink where
  | terminal (style : Style)
  | file (f : LogFile)

namespace Sink

/-- Writes the line of an event. -/
def tell (context : Context) (e : Event) (o : Outlet) : Sink → Sink × Outlet
  | .terminal style => (.terminal style, o.print (style.line context e ++ "\n"))
  | .file f =>
    let (f, files) := f.write (f.style.line context e ++ "\n") o.files
    (.file f, { o with files })

/-- Writes the line of an event to each of the sinks. -/
def tellAll (context : Context) (e : Event) : List Sink → Outlet → List Sink × Outlet
  | [], o => ([], o)
  | sink :: rest, o =>
    let (sink, o) := sink.tell context e o
    let (rest, o) := tellAll context e rest o
    (sink :: rest, o)

/-- Closes a file. It is opened again for the next line. -/
def close : Sink → Sink
  | .terminal style => .terminal style
  | .file f => .file { f with number? := none }

end Sink

end SketchTurtle.Log
