/-
JSON values. Whole numbers have any size and are kept apart from reals, and
the members of an object keep the order in which their names first appear.
-/

namespace SketchTurtle

/-- A JSON value. -/
inductive Json where
  | null
  | bool (b : Bool)
  | int (n : Int)
  | float (x : Float)
  | text (s : String)
  /-- A text with half of a surrogate pair, which is no sequence of characters.
  The character U+FFFD stands for each half. -/
  | unpaired (s : String)
  | array (items : List Json)
  | object (members : List (String × Json))
  deriving Inhabited

namespace Json

/-- The members with `name` holding `value`: in its place if the name is
there, else at the end. -/
def insert {α : Type} (members : List (String × α)) (name : String) (value : α) :
    List (String × α) :=
  match members with
  | [] => [(name, value)]
  | (n, v) :: rest =>
    if n = name then (n, value) :: rest else (n, v) :: insert rest name value

/-- The value of a member of an object. -/
def member? (name : String) : Json → Option Json
  | .object members => members.lookup name
  | _ => none

end Json

end SketchTurtle
