/-
Paths: where they start, and the names that lead on from there. Empty names
and single points are dropped when a path is read; a double point is kept,
because what it leads to depends on the directories.
-/

namespace SketchTurtle

/-- A path: its root (`/`, `//`, or nothing for a path from the working
directory) and its names. -/
structure Path where
  root : String
  names : List String
  deriving DecidableEq, Repr

namespace Path

/-- The parts between slashes. -/
def split : List Char → List (List Char)
  | [] => [[]]
  | c :: rest =>
    if c == '/' then [] :: split rest
    else match split rest with
      | [] => [[c]]
      | part :: parts => (c :: part) :: parts

/-- The root that a number of leading slashes stands for. -/
def rootOf (slashes : Nat) : String :=
  if slashes = 0 then "" else if slashes = 2 then "//" else "/"

/-- Reads a path. -/
def ofString (s : String) : Path where
  root := rootOf (s.toList.takeWhile (· == '/')).length
  names := ((split s.toList).map String.ofList).filter fun part => part != "" && part != "."

/-- The text of a path; the empty path is a point. -/
def text (p : Path) : String :=
  if p.root == "" && p.names.isEmpty then "." else p.root ++ "/".intercalate p.names

/-- The path of the directory above. -/
def parent (p : Path) : Path := { p with names := p.names.dropLast }

/-- The last name, or nothing if there is none. -/
def name (p : Path) : String := p.names.getLastD ""

/-- A path continued by another one. A path with a root stands for itself. -/
def append (p q : Path) : Path :=
  if q.root == "" then { p with names := p.names ++ q.names } else q

/-- Names without double points: each takes back the name before it, and at
the root there is nothing to take back. -/
def collapse (names : List String) : List String :=
  names.foldl (fun kept name => if name == ".." then kept.dropLast else kept ++ [name]) []

/-- The path from the root that is meant by a path from a directory. Double
points are resolved in the names alone. -/
def absolute (here : List String) (p : Path) : Path :=
  if p.root == "" then ⟨"/", collapse (here ++ p.names)⟩ else { p with names := collapse p.names }

/-- The path with something added to its last name. -/
def extendName (p : Path) (s : String) : Path :=
  { p with names := p.names.dropLast ++ [p.name ++ s] }

/-- What follows the last point of a name, with that point, if there is
something on both sides of it. -/
def suffixOf (name : String) : String :=
  let s := name.toList
  let tail := (s.reverse.takeWhile (· != '.')).reverse
  if tail.isEmpty || s.length ≤ tail.length + 1 then "" else String.ofList ('.' :: tail)

/-- The suffix of the last name. -/
def suffix (p : Path) : String := suffixOf p.name

end Path

end SketchTurtle
