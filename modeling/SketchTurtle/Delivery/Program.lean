/-
Storing programs: the name of a program's file, and writing it.
-/
import SketchTurtle.Files.Replace
import SketchTurtle.Log.Record

namespace SketchTurtle.Delivery

/-- The name of a program's file where nothing else is known. -/
def defaultFilename : String := "drawing.py"

/-- A character as it appears in the name of a file. -/
def filenameChar (c : Char) : Char := if c.isAlphanum then c.toLower else '_'

/-- The name of a project's file without its suffix: letters and digits in
lower case, and an underscore for every other character. -/
def filenameStem (name : String) : String := name.map filenameChar

/-- The name of the file for the program of a project. -/
def programFilename (name : String) : String :=
  if name == "" then defaultFilename else filenameStem name ++ ".py"

/-- Why a program is not stored. -/
inductive Fault where
  | undelivered (target : Path) (fault : WriteFault)
  /-- The path itself is not one of a file. -/
  | improper (fault : WriteFault)
  deriving DecidableEq, Repr

/-- The wording of a fault. -/
def Fault.message : Fault → String
  | .undelivered target fault => s!"Could not write program to {target.text}: {fault.message}"
  | .improper fault => fault.message

/-- Sorts out whose fault it is that a program was not written. -/
def Fault.ofWrite (target : Path) : WriteFault → Fault
  | fault@(.failed ..) | fault@(.file (.refused ..)) => .undelivered target fault
  | fault@(.emptyName _) | fault@(.invalidSuffix _) | fault@(.file .nullByte) => .improper fault

/-- The file in a directory; without one, in the working directory. -/
def fileIn (directory filename : String) : Path :=
  (Path.ofString (if directory == "" then "." else directory)).append (.ofString filename)

/-- Stores a program. -/
def store (fs : Files) (target : Path) (code : String) : Except Fault Unit × Files :=
  match fs.replaceText target code with
  | (.ok (), fs) => (.ok (), fs)
  | (.error fault, fs) => (.error (.ofWrite target fault), fs)

/-- The record of a stored program. -/
def stored (target : Path) (code : String) : Log.Record :=
  let lines := code.toList.count '\n' + 1
  ⟨.info, Log.Source.delivery, s!"Wrote {lines} lines to {target.text}"⟩

end SketchTurtle.Delivery
