/-
The tokens of a YAML document.

Indentation is made explicit: a collection outside of brackets begins where a
line is indented further than before and ends where one is indented less. A
key in front of a colon is recognised when the colon is met, and its token
then goes to the place where the key began, provided that this was on the
same line and not too long ago.
-/
import SketchTurtle.Number.Numeral
import SketchTurtle.Text.Utf8
import SketchTurtle.Yaml.Scalar

namespace SketchTurtle.Yaml

/-- The name of a tag: a handle, which stands for the beginning of the name,
and the rest. -/
structure TagName where
  handle : Option String
  suffix : String
  deriving DecidableEq, Repr

/-- A token. -/
inductive Token where
  | version (major minor : Nat)
  | handle (name stands : String)
  | otherDirective
  | documentStart
  | documentEnd
  | blockSequence
  | blockMapping
  | blockEnd
  | openSequence
  | closeSequence
  | openMapping
  | closeMapping
  | blockEntry
  | flowEntry
  | key
  | value
  | alias (name : String)
  | anchor (name : String)
  | tag (name : TagName)
  | scalar (text : String) (plain : Bool)
  /-- What cannot be read, which ends the tokens. -/
  | unreadable (fault : Fault)
  deriving DecidableEq, Repr

/-! ## Names -/

/-- The characters of names of anchors, directives and handles. -/
def isWordChar (c : Char) : Bool := c.isAlphanum || c == '-' || c == '_'

/-- The characters of tags. -/
def isTagChar (c : Char) : Bool := isWordChar c || "-;/?:@&=+$,_.!~*'()[]%".contains c

/-- A word, which is not empty. -/
def word (c : Cursor) : Except Fault (String × Cursor) :=
  let w := c.taking isWordChar
  if w.isEmpty then .error .malformed else .ok (String.ofList w, c.forward w.length)

/-- The name of an anchor or an alias. -/
def anchorName (c : Cursor) : Except Fault (String × Cursor) := do
  let (name, c) ← word c.next
  let ends := c.rest.head?.all fun x =>
    isBlank x || isBreak x || ['?', ':', ',', ']', '}', '%', '@', '\x60'].contains x
  if ends then pure (name, c) else .error .malformed

/-- The handle of a tag: an exclamation mark, or a word between two. -/
def tagHandle (c : Cursor) : Except Fault (String × Cursor) :=
  if !c.isAt '!' then .error .malformed
  else
    let c := c.next
    if c.isAt ' ' then .ok ("!", c)
    else
      let w := c.taking isWordChar
      let c := c.forward w.length
      if c.isAt '!' then .ok (String.ofList ('!' :: w ++ ['!']), c.next) else .error .malformed

/-- The bytes of escapes by percent signs. -/
def percentBytes : List Char → Except Fault (List UInt8)
  | '%' :: a :: b :: rest =>
    match Text.hexValue? a, Text.hexValue? b with
    | some a, some b => (percentBytes rest).map (UInt8.ofNat (16 * a + b) :: ·)
    | _, _ => .error .malformed
  | '%' :: _ => .error .malformed
  | _ => .ok []

/-- The text of a tag, or of what a handle stands for. -/
def tagText : (fuel : Nat) → (read : List Char) → Cursor → Except Fault (List Char × Cursor)
  | 0, read, c => .ok (read.reverse, c)
  | fuel + 1, read, c =>
    match c.rest with
    | x :: _ =>
      if x == '%' then do
        let bytes ← percentBytes c.rest
        match Utf8.decodeFrom 0 bytes with
        | .ok xs => tagText fuel (xs.reverse ++ read) (c.forward (3 * bytes.length))
        | .error _ => .error .malformed
      else if isTagChar x then tagText fuel (x :: read) c.next
      else .ok (read.reverse, c)
    | [] => .ok (read.reverse, c)

/-- A tag's text, which is not empty. -/
def tagUri (c : Cursor) : Except Fault (String × Cursor) := do
  let (text, rest) ← tagText c.rest.length [] c
  if text.isEmpty then .error .malformed
  pure (String.ofList text, rest)

/-- A tag. -/
def tagName (c : Cursor) : Except Fault (TagName × Cursor) := do
  let (name, c) ←
    if c.peek? 1 == some '<' then do
      let (text, c) ← tagUri (c.forward 2)
      if c.isAt '>' then pure ((⟨none, text⟩ : TagName), c.next) else .error .malformed
    else if c.endsWord 1 then pure ((⟨none, "!"⟩ : TagName), c.next)
    else
      let inWord := c.next.taking fun x => x != ' ' && !isBreak x
      let (handle, c) ← if inWord.contains '!' then tagHandle c else pure ("!", c.next)
      let (text, c) ← tagUri c
      pure ((⟨some handle, text⟩ : TagName), c)
  if c.rest.head?.all fun x => x == ' ' || isBreak x then pure (name, c) else .error .malformed

/-! ## Directives -/

/-- A number in a directive. -/
def directiveNumber (c : Cursor) : Except Fault (Nat × Cursor) :=
  let ds := c.taking Char.isDigit
  if ds.isEmpty then .error .malformed
  else .ok (Numeral.ofDigits ds, c.forward ds.length)

/-- Whether a part of a directive ends here. -/
def endsPart (c : Cursor) : Bool := c.rest.head?.all fun x => x == ' ' || isBreak x

/-- A directive, with the line that it stands on. -/
def directive (c : Cursor) : Except Fault (Token × Cursor) := do
  let (name, c) ← word c.next
  if !endsPart c then .error .malformed
  let (token, c) ←
    if name == "YAML" then do
      let (major, c) ← directiveNumber c.skipSpaces
      if !c.isAt '.' then .error .malformed
      let (minor, c) ← directiveNumber c.next
      if !endsPart c then .error .malformed
      pure (Token.version major minor, c)
    else if name == "TAG" then do
      let (handle, c) ← tagHandle c.skipSpaces
      if !c.isAt ' ' then .error .malformed
      let (stands, c) ← tagUri c.skipSpaces
      if !endsPart c then .error .malformed
      pure (Token.handle handle stands, c)
    else pure (Token.otherDirective, c.skipping (!isBreak ·))
  let c := c.skipSpaces.skipComment
  if c.atLineEnd then pure (token, c.lineBreak.2) else .error .malformed

/-! ## The lexer -/

/-- Where something began that may turn out to be a key: the number of tokens
before it, and the place. A required key stands where nothing else may. -/
structure PossibleKey where
  level : Nat
  position : Nat
  required : Bool
  cursor : Cursor

/-- How far the lexer has come. -/
structure Lexer where
  cursor : Cursor
  /-- The tokens found, the last one first. -/
  tokens : List Token
  /-- The number of open brackets. -/
  level : Nat
  /-- The column of the innermost collection outside of brackets. -/
  indent : Int
  indents : List Int
  keyAllowed : Bool
  /-- At most one for each level. -/
  keys : List PossibleKey

namespace Lexer

/-- The beginning of a document. -/
def start (s : List Char) : Lexer := ⟨.start s, [], 0, -1, [], true, []⟩

/-- Adds a token. -/
def push (l : Lexer) (t : Token) : Lexer := { l with tokens := t :: l.tokens }

/-- Adds a token at an earlier place. -/
def insertAt (l : Lexer) (position : Nat) (t : Token) : Lexer :=
  let after := l.tokens.length - position
  { l with tokens := l.tokens.take after ++ t :: l.tokens.drop after }

/-- The longest distance between the beginning of a key and its colon. -/
def maxKeyLength : Nat := 1024

/-- Forgets keys that began on an earlier line or too long ago. -/
def dropStale (l : Lexer) : Except Fault Lexer :=
  let isStale (k : PossibleKey) : Bool :=
    k.cursor.line != l.cursor.line || maxKeyLength < l.cursor.index - k.cursor.index
  if l.keys.any fun k => isStale k && k.required then .error .malformed
  else .ok { l with keys := l.keys.filter (!isStale ·) }

/-- Forgets the key of the level at hand. -/
def dropKey (l : Lexer) : Except Fault Lexer :=
  if l.keys.any fun k => k.level == l.level && k.required then .error .malformed
  else .ok { l with keys := l.keys.filter (·.level != l.level) }

/-- Notes that a key may begin here. -/
def noteKey (l : Lexer) : Except Fault Lexer :=
  if !l.keyAllowed then .ok l
  else do
    let required := l.level = 0 && l.indent == (l.cursor.column : Int)
    let l ← l.dropKey
    pure { l with keys := ⟨l.level, l.tokens.length, required, l.cursor⟩ :: l.keys }

/-- Ends the collections that are indented further than a column. Within
brackets, indentation has no meaning. -/
def unindent (l : Lexer) (column : Int) : Lexer :=
  if l.level != 0 then l
  else
    let rec go (indent : Int) (indents : List Int) (tokens : List Token) : Lexer :=
      if indent ≤ column then { l with indent, indents, tokens }
      else match indents with
        | [] => { l with indent := -1, indents := [], tokens := .blockEnd :: tokens }
        | outer :: rest => go outer rest (.blockEnd :: tokens)
    go l.indent l.indents l.tokens

/-- Whether a column is indented further than the collection at hand. -/
def isDeeper (l : Lexer) (column : Nat) : Bool := l.indent < (column : Int)

/-- Makes a column the indentation. -/
def indentTo (l : Lexer) (column : Nat) : Lexer :=
  { l with indents := l.indent :: l.indents, indent := column }

/-- Past spaces, comments and line ends. Outside of brackets a key may begin
on each line. -/
def skipBlanks : (fuel : Nat) → Lexer → Lexer
  | 0, l => l
  | fuel + 1, l =>
    let c := l.cursor.skipSpaces.skipComment
    if c.atBreak then
      skipBlanks fuel { l with
        cursor := c.lineBreak.2
        keyAllowed := l.keyAllowed || l.level = 0 }
    else { l with cursor := c }

/-- A line that belongs to no collection: a directive, or the beginning or end
of a document. -/
def outermost (l : Lexer) : Except Fault Lexer := do
  let l ← (l.unindent (-1)).dropKey
  pure { l with keyAllowed := false }

/-- An opening bracket. -/
def openFlow (l : Lexer) (t : Token) : Except Fault Lexer := do
  let l ← l.noteKey
  pure ({ l with level := l.level + 1, keyAllowed := true, cursor := l.cursor.next }.push t)

/-- A closing bracket. -/
def closeFlow (l : Lexer) (t : Token) : Except Fault Lexer := do
  let l ← l.dropKey
  if l.level = 0 then .error .malformed
  pure ({ l with level := l.level - 1, keyAllowed := false, cursor := l.cursor.next }.push t)

/-- A comma between brackets. -/
def flowEntry (l : Lexer) : Except Fault Lexer := do
  let l ← { l with keyAllowed := true }.dropKey
  pure ({ l with cursor := l.cursor.next }.push .flowEntry)

/-- The beginning of a collection outside of brackets, where a key may begin. -/
def beginBlock (l : Lexer) (t : Token) : Except Fault Lexer :=
  if l.level != 0 then .ok l
  else if !l.keyAllowed then .error .malformed
  else .ok (if l.isDeeper l.cursor.column then (l.indentTo l.cursor.column).push t else l)

/-- A hyphen in front of an item. -/
def blockEntry (l : Lexer) : Except Fault Lexer := do
  let l ← l.beginBlock .blockSequence
  let l ← { l with keyAllowed := true }.dropKey
  pure ({ l with cursor := l.cursor.next }.push .blockEntry)

/-- A question mark in front of a key. -/
def explicitKey (l : Lexer) : Except Fault Lexer := do
  let l ← l.beginBlock .blockMapping
  let l ← { l with keyAllowed := l.level = 0 }.dropKey
  pure ({ l with cursor := l.cursor.next }.push .key)

/-- A colon: after a key that began earlier, or in front of the value of a key
with a question mark or of none. -/
def colon (l : Lexer) : Except Fault Lexer := do
  let l ← match l.keys.find? (·.level == l.level) with
    | some k =>
      let l := { l with keys := l.keys.filter (·.level != l.level) }.insertAt k.position .key
      let l := if l.level = 0 && l.isDeeper k.cursor.column then
          (l.indentTo k.cursor.column).insertAt k.position .blockMapping
        else l
      pure { l with keyAllowed := false }
    | none =>
      let l ← l.beginBlock .blockMapping
      { l with keyAllowed := l.level = 0 }.dropKey
  pure ({ l with cursor := l.cursor.next }.push .value)

/-- Something in front of or in place of a value, which may also begin a key. -/
def item (l : Lexer) (read : Cursor → Except Fault (Token × Cursor)) : Except Fault Lexer := do
  let l ← l.noteKey
  let (t, c) ← read l.cursor
  pure ({ l with keyAllowed := false, cursor := c }.push t)

/-- A block under its header. -/
def blockScalar (l : Lexer) (fold : Bool) : Except Fault Lexer := do
  let l ← { l with keyAllowed := true }.dropKey
  let (text, c) ← block fold l.indent l.cursor
  pure ({ l with cursor := c }.push (.scalar (String.ofList text) false))

/-- A plain text. If a line end was passed behind it, a key may begin. -/
def plainScalar (l : Lexer) : Except Fault Lexer := do
  let l ← l.noteKey
  let (text, passed, c) := plain (l.level != 0) l.indent l.cursor
  pure ({ l with keyAllowed := passed, cursor := c }.push (.scalar (String.ofList text) true))

/-- Whether a plain text may begin here. -/
def startsPlain (l : Lexer) (x : Char) : Bool :=
  let indicator := isBlank x || isBreak x || "-?:,[]\x7b\x7d#&*!|>'\"%@\x60".contains x
  !indicator || (!l.cursor.endsWord 1 && (x == '-' || (l.level = 0 && (x == '?' || x == ':'))))

/-- The next token, with what comes before it; nothing at the end. -/
def step (l : Lexer) : Except Fault (Option Lexer) := do
  let l := skipBlanks (l.cursor.rest.length + 1) l
  let l ← l.dropStale
  let l := l.unindent l.cursor.column
  let c := l.cursor
  let wordEnds := c.endsWord 1
  match c.rest with
  | [] => pure none
  | x :: _ =>
    if x == '%' && c.column = 0 then
      let l ← l.outermost
      let (t, c) ← directive l.cursor
      pure (some ({ l with cursor := c }.push t))
    else if c.column = 0 && c.atSeparator then
      let l ← l.outermost
      pure (some ({ l with cursor := l.cursor.forward 3 }.push
        (if x == '-' then .documentStart else .documentEnd)))
    else some <$>
      if x == '[' then l.openFlow .openSequence
      else if x == '\x7b' then l.openFlow .openMapping
      else if x == ']' then l.closeFlow .closeSequence
      else if x == '\x7d' then l.closeFlow .closeMapping
      else if x == ',' then l.flowEntry
      else if x == '-' && wordEnds then l.blockEntry
      else if x == '?' && (l.level != 0 || wordEnds) then l.explicitKey
      else if x == ':' && (l.level != 0 || wordEnds) then l.colon
      else if x == '*' then
        l.item fun c => (anchorName c).map fun (name, c) => (.alias name, c)
      else if x == '&' then
        l.item fun c => (anchorName c).map fun (name, c) => (.anchor name, c)
      else if x == '!' then l.item fun c => (tagName c).map fun (name, c) => (.tag name, c)
      else if (x == '|' || x == '>') && l.level = 0 then l.blockScalar (x == '>')
      else if x == '\'' || x == '"' then
        l.item fun c => (quoted x c).map fun (s, c) => (.scalar (String.ofList s) false, c)
      else if l.startsPlain x then l.plainScalar
      else .error .malformed

/-- All tokens to the end of the text, or to what cannot be read. Every step
but the last uses up a character. -/
def run : (fuel : Nat) → Lexer → List Token
  | 0, l => (l.push (.unreadable .malformed)).tokens.reverse
  | fuel + 1, l =>
    match l.step with
    | .ok (some l) => run fuel l
    | .ok none =>
      let l := (skipBlanks (l.cursor.rest.length + 1) l).unindent (-1)
      match l.dropStale.bind dropKey with
      | .ok l => l.tokens.reverse
      | .error fault => (l.push (.unreadable fault)).tokens.reverse
    | .error fault => (l.push (.unreadable fault)).tokens.reverse

end Lexer

/-- Whether a document may hold a character. -/
def isAllowed (c : Char) : Bool :=
  let n := c.toNat
  n == 0x9 || n == 0xA || n == 0xD || (0x20 ≤ n && n ≤ 0x7E) || n == 0x85 ||
    (0xA0 ≤ n && n != 0xFFFE && n != 0xFFFF)

/-- The tokens of a document. A byte order mark at its beginning is no part of
it. -/
def tokens (s : List Char) : List Token :=
  if !s.all isAllowed then [.unreadable .malformed]
  else
    let l := Lexer.start s
    let l := if l.cursor.isAt '\uFEFF' then { l with cursor := l.cursor.next } else l
    l.run (s.length + 1)

end SketchTurtle.Yaml
