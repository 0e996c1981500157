/-
A file system: a tree of directories and files. Files are kept apart from
their names, so that one that is being written keeps its contents when it is
renamed. Every operation either succeeds or tells which fault it met.
-/
import SketchTurtle.Files.Path
import SketchTurtle.Text.Quoted

namespace SketchTurtle

/-- The contents of a file. -/
abbrev Bytes := List UInt8

/-- The bytes of a text in UTF-8. -/
def Bytes.ofText (s : String) : Bytes := s.toUTF8.toList

/-- The names that lead from the root to a place. -/
abbrev Location := List String

/-- What stands at a place: a directory, or the file of a number. Symbolic links
and the permissions of directories are left out; whatever else there is under a
name, such as a socket, is a file that may not be opened. -/
inductive Node where
  | directory
  | file (number : Nat)
  deriving DecidableEq, Repr

/-- Why an operation on files fails, or the output does not take what is printed.
Files that were opened can be read and written. -/
inductive Errno where
  | notPermitted
  | noEntry
  | noDevice
  | accessDenied
  | busy
  | exists
  | notDirectory
  | isDirectory
  | textBusy
  | noSpace
  | readOnly
  | brokenPipe
  | nameTooLong
  deriving DecidableEq, Repr

/-- The number of an error. -/
def Errno.number : Errno → Nat
  | .notPermitted => 1
  | .noEntry => 2
  | .noDevice => 6
  | .accessDenied => 13
  | .busy => 16
  | .exists => 17
  | .notDirectory => 20
  | .isDirectory => 21
  | .textBusy => 26
  | .noSpace => 28
  | .readOnly => 30
  | .brokenPipe => 32
  | .nameTooLong => 36

/-- The wording of an error. -/
def Errno.text : Errno → String
  | .notPermitted => "Operation not permitted"
  | .noEntry => "No such file or directory"
  | .noDevice => "No such device or address"
  | .accessDenied => "Permission denied"
  | .busy => "Device or resource busy"
  | .exists => "File exists"
  | .notDirectory => "Not a directory"
  | .isDirectory => "Is a directory"
  | .textBusy => "Text file busy"
  | .noSpace => "No space left on device"
  | .readOnly => "Read-only file system"
  | .brokenPipe => "Broken pipe"
  | .nameTooLong => "File name too long"

/-- What a file is opened for. -/
inductive Access where
  | reading
  | writing
  deriving DecidableEq, Repr

/-- Directories and files. The root is a directory. -/
structure Files where
  /-- The working directory. -/
  here : Location
  nodes : List (Location × Node)
  contents : List Bytes
  /-- Why the file of a number is not opened, if it is there and may not be. -/
  refusal? : Access → Nat → Option Errno := fun _ _ => none

/-- An operation that failed, with the paths it was about. -/
inductive FileFault where
  | refused (errno : Errno) (path : Path) (target : Option Path)
  /-- No path holds a null character. -/
  | nullByte
  deriving DecidableEq, Repr

/-- The wording of a fault. -/
def FileFault.message : FileFault → String
  | .refused errno path target =>
    let arrow := match target with
      | some target => " -> " ++ Text.quoted target.text
      | none => ""
    s!"[Errno {errno.number}] {errno.text}: {Text.quoted path.text}" ++ arrow
  | .nullByte => "embedded null byte"

/-- A failed operation on one path. -/
def FileFault.on (path : Path) (errno : Errno) : FileFault := .refused errno path none

namespace Files

/-- An empty working directory. -/
def empty : Files where
  here := ["work"]
  nodes := [(["work"], .directory)]
  contents := []

/-- What stands at a place. -/
def node? (fs : Files) (place : Location) : Option Node :=
  if place.isEmpty then some .directory else fs.nodes.lookup place

/-- The tree with something put at a place. -/
def put (fs : Files) (place : Location) (node : Node) : Files :=
  { fs with nodes := (place, node) :: fs.nodes.filter (·.1 != place) }

/-- The tree without what stands at a place. -/
def remove (fs : Files) (place : Location) : Files :=
  { fs with nodes := fs.nodes.filter (·.1 != place) }

/-- The contents of a file. -/
def content (fs : Files) (number : Nat) : Bytes := fs.contents.getD number []

/-- The tree with the contents of a file replaced. -/
def setContent (fs : Files) (number : Nat) (bytes : Bytes) : Files :=
  { fs with contents := fs.contents.set number bytes }

/-! ## Walking -/

/-- The most bytes that a name may have. -/
def maxName : Nat := 255

/-- The number of bytes that no path reaches. -/
def maxPath : Nat := 4096

/-- The place that a name leads to from a directory. -/
def enter (fs : Files) (place : Location) (name : String) : Except Errno Location :=
  match fs.node? place with
  | some .directory =>
    if name == ".." then .ok place.dropLast
    else if maxName < name.utf8ByteSize then .error .nameTooLong
    else .ok (place ++ [name])
  | some (.file _) => .error .notDirectory
  | none => .error .noEntry

/-- The place that names lead to from a directory. Every place on the way
exists; the last one may be missing. -/
def walk (fs : Files) (place : Location) : List String → Except Errno Location
  | [] => .ok place
  | name :: names =>
    match fs.enter place name with
    | .error e => .error e
    | .ok next => fs.walk next names

/-- The place that a path leads to. -/
@[irreducible]
def locate (fs : Files) (path : Path) : Except FileFault Location :=
  if path.text.toList.contains '\x00' then .error .nullByte
  else if maxPath ≤ path.text.utf8ByteSize then .error (.on path .nameTooLong)
  else (fs.walk (if path.root == "" then fs.here else []) path.names).mapError (.on path)

/-- Whether a path ends in a name by which something can be made. -/
def endsInName (path : Path) : Bool := path.name != "" && path.name != ".."

/-! ## Asking -/

/-- What stands at the end of a path. -/
def find (fs : Files) (path : Path) : Except FileFault Node := do
  let place ← fs.locate path
  match fs.node? place with
  | some node => pure node
  | none => .error (.on path .noEntry)

/-- Whether there is something at the end of a path. A name that is too long
cannot be asked for. -/
def exists? (fs : Files) (path : Path) : Except FileFault Bool :=
  match fs.find path with
  | .ok _ => .ok true
  | .error (.refused .nameTooLong p t) => .error (.refused .nameTooLong p t)
  | .error _ => .ok false

/-- Whether a path leads to something. -/
def has (fs : Files) (path : Path) : Bool := (fs.find path).toBool

/-- Whether a path leads to a directory. -/
def isDirectory (fs : Files) (path : Path) : Bool :=
  match fs.find path with
  | .ok .directory => true
  | _ => false

/-- What the file at the end of a path holds. -/
def read (fs : Files) (path : Path) : Except FileFault Bytes := do
  match ← fs.find path with
  | .file number => pure (fs.content number)
  | .directory => .error (.on path .isDirectory)

/-- What is read from the file at the end of a path, if it may be. -/
def readFile (fs : Files) (path : Path) : Except FileFault Bytes := do
  match ← fs.find path with
  | .file number => match fs.refusal? .reading number with
    | some errno => .error (.on path errno)
    | none => pure (fs.content number)
  | .directory => .error (.on path .isDirectory)

/-! ## Changing -/

/-- Makes a directory in one that exists. -/
def makeDirectory (fs : Files) (path : Path) : Except FileFault Files := do
  let place ← fs.locate path
  match fs.node? place with
  | some _ => .error (.on path .exists)
  | none => pure (fs.put place .directory)

/-- Makes a directory and those above it that are missing. That it exists is
no fault. -/
def makeDirectories (fs : Files) (path : Path) : Except FileFault Unit × Files :=
  let accept (fault : FileFault) (fs : Files) : Except FileFault Unit × Files :=
    if fs.isDirectory path then (.ok (), fs) else (.error fault, fs)
  match fs.makeDirectory path with
  | .ok fs => (.ok (), fs)
  | .error (.refused .noEntry p t) =>
    if _h : path.names = [] then (.error (.refused .noEntry p t), fs)
    else
      match fs.makeDirectories path.parent with
      | (.error fault, fs) => (.error fault, fs)
      | (.ok (), fs) =>
        match fs.makeDirectory path with
        | .ok fs => (.ok (), fs)
        | .error (.refused .noEntry p t) => (.error (.refused .noEntry p t), fs)
        | .error fault => accept fault fs
  | .error fault => accept fault fs
  termination_by path.names.length
  decreasing_by
    simp only [Path.parent, List.length_dropLast]
    have := List.length_pos_iff.mpr _h
    omega

/-- Opens a file for writing, making it if it is missing. An existing file
keeps its contents if `keep` says so. -/
def openFile (fs : Files) (keep : Bool) (path : Path) : Except FileFault (Nat × Files) := do
  let place ← fs.locate path
  match fs.node? place with
  | some .directory => .error (.on path .isDirectory)
  | some (.file number) => match fs.refusal? .writing number with
    | some errno => .error (.on path errno)
    | none => pure (number, if keep then fs else fs.setContent number [])
  | none =>
    let number := fs.contents.length
    pure (number, { fs.put place (.file number) with contents := fs.contents ++ [[]] })

/-- Adds bytes at the end of a file. -/
def write (fs : Files) (number : Nat) (bytes : Bytes) : Files :=
  fs.setContent number (fs.content number ++ bytes)

/-- Writes bytes over the beginning of a file. What lies behind them stays. -/
def overwrite (fs : Files) (number : Nat) (bytes : Bytes) : Files :=
  fs.setContent number (bytes ++ (fs.content number).drop bytes.length)

/-- Gives the file at one path the name of another, in place of a file that
has it. -/
def rename (fs : Files) (source target : Path) : Except FileFault Files :=
  let refuse (fault : FileFault) : FileFault :=
    match fault with
    | .refused errno _ _ => .refused errno source (some target)
    | .nullByte => .nullByte
  match fs.locate source, fs.locate target with
  | .error fault, _ => .error (refuse fault)
  | _, .error fault => .error (refuse fault)
  | .ok old, .ok new =>
    if !endsInName source || !endsInName target then .error (.refused .busy source (some target))
    else
      match fs.node? old, fs.node? new with
      | none, _ => .error (.refused .noEntry source (some target))
      | some .directory, _ | _, some .directory =>
        .error (.refused .isDirectory source (some target))
      | some node, _ => .ok (if old = new then fs else (fs.remove old).put new node)

/-- Removes the name of a file. -/
def unlink (fs : Files) (path : Path) : Except FileFault Files := do
  let place ← fs.locate path
  match fs.node? place with
  | some (.file _) => pure (fs.remove place)
  | some .directory => .error (.on path .isDirectory)
  | none => .error (.on path .noEntry)

/-! ## Listing -/

/-- All that lies below the working directory, in the order of the paths:
directories, and files with their contents. -/
def entries (fs : Files) : List (String × Option Bytes) :=
  let below := fs.nodes.filterMap fun (place, node) =>
    if fs.here.isPrefixOf place && place != fs.here then
      some ("/".intercalate (place.drop fs.here.length), match node with
        | .directory => none
        | .file number => some (fs.content number))
    else none
  below.mergeSort fun a b => a.1 ≤ b.1

end Files

end SketchTurtle
