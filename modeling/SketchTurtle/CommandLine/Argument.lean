/-
Arguments on a command line: flags, the values of flags, and words.

A long flag may be cut short as far as no other begins like it, and may be
given its value after an equals sign. Short flags may be written in one
cluster; the first that takes a value takes the rest of the cluster, or the
word after it. After `--` there are only words.
-/
import SketchTurtle.Text.Digit
import SketchTurtle.Text.Quoted

namespace SketchTurtle.CommandLine

/-- A flag: what it stands for, its names, and whether it takes a value. -/
structure Flag (α : Type) where
  key : α
  names : List String
  takesValue : Bool

/-- Why arguments are not understood. -/
inductive Fault where
  | ambiguous (argument : String) (candidates : List String)
  | noValue (flag : String)
  | unwantedValue (flag value : String)
  | badReal (flag text : String)
  | badWhole (flag text : String)
  | badChoice (flag : String) (value : Int) (low high : Nat)
  | unknownCommand (name : String) (commands : List String)
  | required (name : String)
  | unrecognized (arguments : List String)
  deriving DecidableEq, Repr

/-- The wording of a fault. -/
def Fault.message : Fault → String
  | .ambiguous argument candidates =>
    s!"ambiguous option: {argument} could match " ++ ", ".intercalate candidates
  | .noValue flag => s!"argument {flag}: expected one argument"
  | .unwantedValue flag value =>
    s!"argument {flag}: ignored explicit argument " ++ Text.quoted value
  | .badReal flag text => s!"argument {flag}: invalid float value: " ++ Text.quoted text
  | .badWhole flag text => s!"argument {flag}: invalid int value: " ++ Text.quoted text
  | .badChoice flag value low high =>
    let choices := (List.range (high + 1)).drop low
    s!"argument {flag}: invalid choice: {value} (choose from " ++
      ", ".intercalate (choices.map toString) ++ ")"
  | .unknownCommand name commands =>
    s!"argument command: invalid choice: {Text.quoted name} (choose from " ++
      ", ".intercalate (commands.map Text.quoted) ++ ")"
  | .required name => "the following arguments are required: " ++ name
  | .unrecognized arguments => "unrecognized arguments: " ++ " ".intercalate arguments

namespace Flag

/-- The names of a flag in the words of a fault. -/
def title {α : Type} (flag : Flag α) : String := "/".intercalate flag.names

/-- The names of flags, in order. -/
def table {α : Type} (flags : List (Flag α)) : List (String × Flag α) :=
  flags.flatMap fun flag => flag.names.map fun name => (name, flag)

end Flag

/-! ## Tokens -/

/-- What stands after a flag in the same argument. -/
structure Attached where
  /-- Whether an equals sign is between them. -/
  joined : Bool
  text : List Char
  deriving DecidableEq, Repr

/-- An argument before it is known what takes it. -/
inductive Token (α : Type) where
  | word
  /-- The argument `--`. -/
  | divider
  | flag (flag : Flag α) (long : Bool) (attached : Option Attached)
  /-- It looks like a flag, but there is none of this name. -/
  | unknown

/-- The text before the first equals sign, and that after it. -/
def splitAtEquals (s : List Char) : List Char × Option (List Char) :=
  match s.dropWhile (· != '=') with
  | _ :: rest => (s.takeWhile (· != '='), some rest)
  | [] => (s, none)

/-- Whether a text is a minus sign and a number, with digits of any script,
and perhaps a line feed. -/
def isNegativeNumber (s : List Char) : Bool :=
  let isDigit (c : Char) : Bool := (Text.digitValue? c).isSome
  let s := if s.getLast? == some '\n' then s.dropLast else s
  match s with
  | '-' :: rest =>
    let fraction := rest.dropWhile isDigit
    match fraction with
    | [] => !rest.isEmpty
    | '.' :: ds => !ds.isEmpty && ds.all isDigit
    | _ => false
  | _ => false

/-- The flags that an argument may be short for, with their full names. -/
def candidates {α : Type} (flags : List (Flag α)) (argument : List Char) :
    List (String × Token α) :=
  match argument with
  | '-' :: '-' :: _ =>
    let (start, value) := splitAtEquals argument
    (Flag.table flags).filterMap fun (name, flag) =>
      if start.isPrefixOf name.toList then some (name, .flag flag true (value.map (⟨true, ·⟩)))
      else none
  | _ =>
    let short := String.ofList (argument.take 2)
    (Flag.table flags).filterMap fun (name, flag) =>
      if name == short then some (name, .flag flag false (some ⟨false, argument.drop 2⟩))
      else none

/-- What kind of argument a text that begins with a minus sign is. -/
def classifyDashed {α : Type} (flags : List (Flag α)) (argument : String) :
    Except Fault (Token α) :=
  let s := argument.toList
  let long := "--".toList.isPrefixOf s
  let (start, value) := splitAtEquals s
  let table := Flag.table flags
  match table.lookup argument, table.lookup (String.ofList start), value with
  | some flag, _, _ => .ok (.flag flag long none)
  | none, some flag, some value => .ok (.flag flag long (some ⟨true, value⟩))
  | none, _, _ =>
    match candidates flags s with
    | [(_, token)] => .ok token
    | [] => .ok (if isNegativeNumber s || s.contains ' ' then .word else .unknown)
    | several => .error (.ambiguous argument (several.map (·.1)))

/-- What kind of argument a text is. -/
def classify {α : Type} (flags : List (Flag α)) (argument : String) : Except Fault (Token α) :=
  match argument.toList with
  | '-' :: _ :: _ => classifyDashed flags argument
  | _ => .ok .word

/-- The kinds of arguments, each with its text. -/
def tokens {α : Type} (flags : List (Flag α)) : List String → Except Fault (List (Token α × String))
  | [] => .ok []
  | argument :: rest =>
    if argument == "--" then .ok ((.divider, argument) :: rest.map ((.word, ·)))
    else do
      let token ← classify flags argument
      pure ((token, argument) :: (← tokens flags rest))

/-! ## Reading -/

/-- Something given: a flag with its value, if it takes one, or words. -/
inductive Given (α : Type) where
  | flag (key : α) (value : String)
  | words (ws : List String)

/-- What was read: what is given in order, the arguments that nothing takes,
and the fault at which reading ended. What was given before a fault still
counts. -/
structure Reading (α : Type) where
  given : List (Given α)
  extras : List String
  fault? : Option Fault

namespace Reading

/-- A reading that ends. -/
def done {α : Type} (extras : List String) : Reading α := ⟨[], extras, none⟩

/-- A reading that ends with a fault. -/
def failed {α : Type} (fault : Fault) : Reading α := ⟨[], [], some fault⟩

/-- A reading after something that was given. -/
def give {α : Type} (given : List (Given α)) (r : Reading α) : Reading α :=
  { r with given := given ++ r.given }

/-- A reading after arguments that nothing takes. -/
def spare {α : Type} (extras : List String) (r : Reading α) : Reading α :=
  { r with extras := extras ++ r.extras }

end Reading

/-- A cluster that was read: its flags, what is left of it without a flag of
that name, and a flag that waits for its value. -/
structure Cluster (α : Type) where
  given : List (Given α)
  extras : List String
  pending? : Option (Flag α)

/-- Reads a flag with what stands after it in the same argument. -/
def readCluster {α : Type} (flags : List (Flag α)) (flag : Flag α) (long joined : Bool) :
    List Char → Except Fault (Cluster α)
  | [] =>
    if flag.takesValue then .ok ⟨[.flag flag.key ""], [], none⟩
    else .error (.unwantedValue flag.title "")
  | c :: rest =>
    let value := String.ofList (c :: rest)
    if flag.takesValue then .ok ⟨[.flag flag.key value], [], none⟩
    else if long || joined || c == '-' then .error (.unwantedValue flag.title value)
    else
      let first : Given α := .flag flag.key ""
      match (Flag.table flags).lookup (String.ofList ['-', c]) with
      | none => .ok ⟨[first], ["-" ++ value], none⟩
      | some next =>
        let more : Except Fault (Cluster α) := match rest with
          | [] => .ok ⟨[], [], some next⟩
          | '=' :: rest => readCluster flags next false true rest
          | rest => readCluster flags next false false rest
        more.map fun more => { more with given := first :: more.given }

/-- Reads arguments. The words go to one taker, who waits for them as
`awaiting` says, and takes one word or, if `whole` says so, everything from
the first word on. -/
def read {α : Type} (flags : List (Flag α)) (whole : Bool) :
    Bool → List (Token α × String) → Reading α
  | _, [] => .done []
  | awaiting, (.divider, s) :: rest =>
    let ws := rest.map (·.2)
    match awaiting, whole, ws with
    | true, true, _ :: _ => (Reading.done []).give [.words (s :: ws)]
    | true, false, w :: ws => (Reading.done ws).give [.words [w]]
    | _, _, _ => .done (s :: ws)
  | true, (.word, s) :: rest =>
    if whole then (Reading.done []).give [.words (s :: rest.map (·.2))]
    else match rest with
      | (.divider, _) :: rest => (Reading.done (rest.map (·.2))).give [.words [s]]
      | rest => (read flags whole false rest).give [.words [s]]
  | false, (.word, s) :: rest => (read flags whole false rest).spare [s]
  | awaiting, (.unknown, s) :: rest => (read flags whole awaiting rest).spare [s]
  | awaiting, (.flag flag long attached, _) :: rest =>
    let cluster : Except Fault (Cluster α) := match attached with
      | none => .ok ⟨[], [], some flag⟩
      | some a => readCluster flags flag long a.joined a.text
    match cluster with
    | .error fault => .failed fault
    | .ok c =>
      match c.pending? with
      | none => ((read flags whole awaiting rest).give c.given).spare c.extras
      | some flag =>
        if flag.takesValue then
          match rest with
          | (.word, value) :: rest =>
            (read flags whole awaiting rest).give (c.given ++ [.flag flag.key value])
          | _ => .failed (.noValue flag.title)
        else (read flags whole awaiting rest).give (c.given ++ [.flag flag.key ""])

end SketchTurtle.CommandLine
