/-
The three ways of writing a text in YAML: between quotes, as a block under
its header, and plain. Within quotes and in plain texts a line end is read as
a space, and each empty line as a line feed.
-/
import SketchTurtle.Text.Digit
import SketchTurtle.Yaml.Cursor

namespace SketchTurtle.Yaml

/-- The line ends that are left of several in a row: a single line feed
becomes a space. -/
def folded (first : Option Char) (others : List Char) : List Char :=
  if first == some '\n' then (if others.isEmpty then [' '] else others)
  else first.toList ++ others

/-! ## Quoted texts -/

/-- The characters that stand behind a backslash. -/
def escapes : List (Char × Char) :=
  [('0', '\x00'), ('a', '\x07'), ('b', '\x08'), ('t', '\t'), ('\t', '\t'), ('n', '\n'),
    ('v', '\x0b'), ('f', '\x0c'), ('r', '\r'), ('e', '\x1b'), (' ', ' '), ('"', '"'),
    ('\\', '\\'), ('/', '/'), ('N', '\u0085'), ('_', '\u00a0'), ('L', '\u2028'), ('P', '\u2029')]

/-- The number of digits after the letters of numeric escapes. -/
def escapeWidth? (c : Char) : Option Nat :=
  if c == 'x' then some 2 else if c == 'u' then some 4 else if c == 'U' then some 8 else none

/-- The number that hexadecimal digits write. -/
def hexNumber? (ds : List Char) : Option Nat :=
  ds.foldlM (fun n d => (Text.hexValue? d).map (16 * n + ·)) 0

/-- The empty lines that follow a line end within quotes, and the blanks at
the beginning of the next line. A document cannot end there. -/
def quotedBreaks : (fuel : Nat) → Cursor → Except Fault (List Char × Cursor)
  | 0, _ => .error .malformed
  | fuel + 1, c =>
    if c.atSeparator then .error .malformed
    else
      let c := c.skipping isBlank
      if c.atBreak then do
        let (x, c) := c.lineBreak
        let (xs, c) ← quotedBreaks fuel c
        pure (x.toList ++ xs, c)
      else .ok ([], c)

/-- A numeric escape after its letter. One that denotes half of a surrogate pair
is read as the replacement character. -/
def numericEscape (width : Nat) (c : Cursor) : Except Fault (Char × Cursor) :=
  let ds := c.rest.take width
  if ds.length < width then .error .malformed
  else match hexNumber? ds with
    | none => .error .malformed
    | some code =>
      if 0x10FFFF < code then .error (.noCharacter code)
      else .ok (if Nat.isValidChar code then Char.ofNat code else '\uFFFD', c.forward width)

/-- A quoted text after its opening quote; `read` holds what was read, the
last character first. -/
def quotedText (quote : Char) : (fuel : Nat) → (read : List Char) → Cursor →
    Except Fault (List Char × Cursor)
  | 0, _, _ => .error .malformed
  | fuel + 1, read, c =>
    match c.rest with
    | [] => .error .malformed
    | x :: rest =>
      if x == quote then
        if quote == '\'' && rest.head? == some '\'' then
          quotedText quote fuel ('\'' :: read) (c.forward 2)
        else .ok (read.reverse, c.next)
      else if x == '\\' && quote == '"' then
        let c := c.next
        match rest with
        | [] => .error .malformed
        | e :: _ =>
          match escapes.lookup e, escapeWidth? e with
          | some y, _ => quotedText quote fuel (y :: read) c.next
          | none, some width => do
            let (y, c) ← numericEscape width c.next
            quotedText quote fuel (y :: read) c
          | none, none =>
            if isBreak e then do
              let (breaks, c) ← quotedBreaks c.rest.length c.lineBreak.2
              quotedText quote fuel (breaks.reverse ++ read) c
            else .error .malformed
      else if isBlank x || isBreak x then
        let blanks := c.taking isBlank
        let c := c.skipping isBlank
        if c.rest.isEmpty then .error .malformed
        else if c.atBreak then do
          let (first, c) := c.lineBreak
          let (others, c) ← quotedBreaks (c.rest.length + 1) c
          quotedText quote fuel ((folded first others).reverse ++ read) c
        else quotedText quote fuel (blanks.reverse ++ read) c
      else quotedText quote fuel (x :: read) c.next

/-- A quoted text from its opening quote. -/
def quoted (quote : Char) (c : Cursor) : Except Fault (List Char × Cursor) :=
  quotedText quote c.rest.length [] c.next

/-! ## Blocks -/

/-- What is done with the line ends that close a block. -/
inductive Chomping where
  | strip
  | clip
  | keep
  deriving DecidableEq, Repr

/-- The sign of a header, if there is one here. -/
def chompingSign (c : Cursor) : Option Chomping × Cursor :=
  if c.isAt '+' then (some .keep, c.next)
  else if c.isAt '-' then (some .strip, c.next)
  else (none, c)

/-- The indentation in a header, if it is given here. It is not zero. -/
def indentDigit (c : Cursor) : Except Fault (Option Nat × Cursor) :=
  match c.rest with
  | x :: _ =>
    if x.isDigit then
      if x == '0' then .error .malformed else .ok (some (x.toNat - 48), c.next)
    else .ok (none, c)
  | [] => .ok (none, c)

/-- The header of a block: sign and indentation in either order, and nothing
else but a comment. -/
def blockHeader (c : Cursor) : Except Fault (Chomping × Option Nat × Cursor) := do
  let (sign, c) := chompingSign c
  let (indent, c) ← indentDigit c
  let (sign, c) := if sign.isSome then (sign, c) else
    if indent.isSome then chompingSign c else (none, c)
  if c.rest.head?.any (fun x => x != ' ' && !isBreak x) then .error .malformed
  let c := c.skipSpaces.skipComment
  if !c.atLineEnd then .error .malformed
  pure (sign.getD .clip, indent, c.lineBreak.2)

/-- The empty lines before the first line of a block, and the widest
indentation among them and that line. -/
def blockIndentation : (fuel : Nat) → (breaks : List Char) → (widest : Nat) → Cursor →
    List Char × Nat × Cursor
  | 0, breaks, widest, c => (breaks.reverse, widest, c)
  | fuel + 1, breaks, widest, c =>
    if c.isAt ' ' then
      let c := c.next
      blockIndentation fuel breaks (max widest c.column) c
    else if c.atBreak then
      let (x, c) := c.lineBreak
      blockIndentation fuel (x.toList ++ breaks) widest c
    else (breaks.reverse, widest, c)

/-- Past the spaces up to a column. -/
def skipTo (column : Nat) (c : Cursor) : Cursor :=
  c.forward (min (c.taking (· == ' ')).length (column - c.column))

/-- The empty lines before the next line of a block. -/
def blockBreaks (indent : Nat) : (fuel : Nat) → Cursor → List Char × Cursor
  | 0, c => ([], c)
  | fuel + 1, c =>
    let c := skipTo indent c
    if c.atBreak then
      let (x, c) := c.lineBreak
      let (xs, c) := blockBreaks indent fuel c
      (x.toList ++ xs, c)
    else ([], c)

/-- The lines of a block. `before` are the line ends that precede the line at
hand, and `read` is what was read, the last character first. What is left at
the end are the line end of the last line and those of the empty lines after
it. -/
def blockLines (fold : Bool) (indent : Nat) : (fuel : Nat) → (before read : List Char) →
    (last : Option Char) → Cursor → List Char × Option Char × List Char × Cursor
  | 0, before, read, last, c => (read, last, before, c)
  | fuel + 1, before, read, last, c =>
    if c.column = indent && !c.rest.isEmpty then
      let startsBlank := c.rest.head?.any isBlank
      let text := c.taking (!isBreak ·)
      let read := text.reverse ++ (before.reverse ++ read)
      let (last, c) := (c.forward text.length).lineBreak
      let (breaks, c) := blockBreaks indent (c.rest.length + 1) c
      if c.column = indent && !c.rest.isEmpty then
        let joins := fold && last == some '\n' && !startsBlank && !c.rest.head?.any isBlank
        let between := if joins then (if breaks.isEmpty then [' '] else []) else last.toList
        blockLines fold indent fuel breaks (between.reverse ++ read) none c
      else (read, last, breaks, c)
    else (read, last, before, c)

/-- A block from its header; `parent` is the indentation of what holds it. -/
def block (fold : Bool) (parent : Int) (c : Cursor) : Except Fault (List Char × Cursor) := do
  let (chomping, given, c) ← blockHeader c.next
  let least := (max (parent + 1) 1).toNat
  let fuel := c.rest.length + 1
  let (indent, breaks, c) := match given with
    | some extra =>
      let indent := least + extra - 1
      let (breaks, c) := blockBreaks indent fuel c
      (indent, breaks, c)
    | none =>
      let (breaks, widest, c) := blockIndentation fuel [] 0 c
      (max least widest, breaks, c)
  let (read, last, breaks, c) := blockLines fold indent fuel breaks [] none c
  let tail := match chomping with
    | .strip => []
    | .clip => last.toList
    | .keep => last.toList ++ breaks
  pure (read.reverse ++ tail, c)

/-! ## Plain texts -/

/-- The length of the part of a plain text up to a blank, the end of the line,
or an indicator; within brackets there are more of these. -/
def plainLength (flow : Bool) : List Char → Nat
  | [] => 0
  | x :: rest =>
    let ends :=
      isBlank x || isBreak x ||
        (x == ':' && rest.head?.all fun y =>
          isBlank y || isBreak y || (flow && [',', '[', ']', '{', '}'].contains y)) ||
        (flow && [',', '?', '[', ']', '{', '}'].contains x)
    if ends then 0 else plainLength flow rest + 1

/-- The empty lines after the end of a line of a plain text; nothing if the
document ends there. -/
def plainBreaks : (fuel : Nat) → Cursor → Option (List Char) × Cursor
  | 0, c => (some [], c)
  | fuel + 1, c =>
    if c.isAt ' ' then plainBreaks fuel c.next
    else if c.atBreak then
      let (x, c) := c.lineBreak
      if c.atSeparator then (none, c)
      else
        let (xs, c) := plainBreaks fuel c
        (xs.map (x.toList ++ ·), c)
    else (some [], c)

/-- What separates two parts of a plain text; nothing if it ends before. Also
whether a line end was passed. -/
def plainGap (c : Cursor) : List Char × Bool × Cursor :=
  let spaces := c.taking (· == ' ')
  let c := c.skipSpaces
  if c.atBreak then
    let (first, c) := c.lineBreak
    if c.atSeparator then ([], true, c)
    else match plainBreaks (c.rest.length + 1) c with
      | (none, c) => ([], true, c)
      | (some others, c) => (folded first others, true, c)
  else (spaces, false, c)

/-- The parts of a plain text. `gap` separates the part at hand from what was
read; `passed` tells whether the last gap passed a line end. -/
def plainParts (flow : Bool) (indent : Int) : (fuel : Nat) → (gap read : List Char) →
    (passed : Bool) → Cursor → List Char × Bool × Cursor
  | 0, _, read, passed, c => (read.reverse, passed, c)
  | fuel + 1, gap, read, passed, c =>
    let n := if c.isAt '#' then 0 else plainLength flow c.rest
    if n = 0 then (read.reverse, passed, c)
    else
      let read := (c.rest.take n).reverse ++ (gap.reverse ++ read)
      let (gap, passed, c) := plainGap (c.forward n)
      if gap.isEmpty || c.isAt '#' || (!flow && (c.column : Int) < indent) then
        (read.reverse, passed, c)
      else plainParts flow indent fuel gap read passed c

/-- A plain text, and whether a line end was passed behind it. Outside of
brackets every line of it is indented further than what holds it. -/
def plain (flow : Bool) (parent : Int) (c : Cursor) : List Char × Bool × Cursor :=
  plainParts flow (parent + 1) (c.rest.length + 1) [] [] false c

end SketchTurtle.Yaml
