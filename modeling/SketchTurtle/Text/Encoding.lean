/-
Encodings of text as bytes, and the names they go by. A text with characters
that an encoding lacks is refused, with the first run of them.
-/
import SketchTurtle.Files.Tree

namespace SketchTurtle

/-- The encodings in which texts are written. -/
inductive Encoding where
  | utf8
  /-- Begins with a byte order mark. -/
  | utf8Marked
  /-- Begins with a byte order mark, least significant byte first. -/
  | utf16Marked
  | utf16Little
  | utf16Big
  | latin1
  | ascii
  deriving DecidableEq, Repr

/-- Why a text is not encoded. -/
inductive EncodeFault where
  | unknown (name : String)
  /-- The characters from `first` up to but not including `after` are not
  among the first `limit` ones. -/
  | unencodable (encoding : String) (first after : Nat) (char : Char) (limit : Nat)
  deriving DecidableEq, Repr

/-- The escape by which a character is shown. -/
def EncodeFault.charText (c : Char) : String :=
  let n := c.toNat
  if n < 0x100 then "\\x" ++ String.ofList (Text.hexDigits 2 n)
  else if n < 0x10000 then "\\u" ++ String.ofList (Text.hexDigits 4 n)
  else "\\U" ++ String.ofList (Text.hexDigits 8 n)

/-- The wording of a fault. -/
def EncodeFault.message : EncodeFault → String
  | .unknown name => s!"unknown encoding: {name}"
  | .unencodable encoding first after char limit =>
    let what :=
      if after = first + 1 then s!"character '{charText char}' in position {first}"
      else s!"characters in position {first}-{after - 1}"
    s!"'{encoding}' codec can't encode {what}: ordinal not in range({limit})"

namespace Encoding

/-- A name in the form in which names are looked up: in lower case, with one
underscore for each run of other characters than letters, digits and points. -/
def normalizedName (s : String) : String :=
  let rec go (gap : Bool) : List Char → List Char
    | [] => []
    | c :: rest =>
      if c.isAlphanum || c == '.' then
        (if gap then ['_', c.toLower] else [c.toLower]) ++ go false rest
      else go true rest
  match go false s.toList with
  | '_' :: rest => String.ofList rest
  | cs => String.ofList cs

/-- The encodings by their names. -/
def names : List (String × Encoding) :=
  [("utf_8", .utf8), ("utf8", .utf8), ("u8", .utf8), ("utf", .utf8), ("cp65001", .utf8),
    ("utf8_ucs2", .utf8), ("utf8_ucs4", .utf8), ("utf_8_sig", .utf8Marked),
    ("utf_16", .utf16Marked), ("utf16", .utf16Marked), ("u16", .utf16Marked),
    ("utf_16_le", .utf16Little), ("utf_16le", .utf16Little),
    ("unicodelittleunmarked", .utf16Little),
    ("utf_16_be", .utf16Big), ("utf_16be", .utf16Big), ("unicodebigunmarked", .utf16Big),
    ("latin_1", .latin1), ("latin1", .latin1), ("latin", .latin1), ("l1", .latin1),
    ("iso_8859_1", .latin1), ("iso8859_1", .latin1), ("iso8859", .latin1), ("8859", .latin1),
    ("iso_8859_1_1987", .latin1), ("iso_ir_100", .latin1), ("ibm819", .latin1), ("cp819", .latin1),
    ("csisolatin1", .latin1), ("ascii", .ascii), ("us_ascii", .ascii), ("us", .ascii),
    ("646", .ascii), ("iso646_us", .ascii), ("iso_646.irv_1991", .ascii), ("iso_ir_6", .ascii),
    ("ansi_x3.4_1968", .ascii), ("ansi_x3.4_1986", .ascii), ("ansi_x3_4_1968", .ascii),
    ("cp367", .ascii), ("csascii", .ascii), ("ibm367", .ascii)]

/-- The encoding of the given name. -/
def ofName? (name : String) : Option Encoding := names.lookup (normalizedName name)

/-- The code units of a character in UTF-16. -/
def units16 (c : Char) : List Nat :=
  let n := c.toNat
  if n < 0x10000 then [n] else [0xD800 + (n - 0x10000) / 0x400, 0xDC00 + (n - 0x10000) % 0x400]

/-- A text in UTF-16, each unit written by its two bytes. -/
def utf16 (unit : Nat → Bytes) (s : List Char) : Bytes :=
  s.flatMap fun c => (units16 c).flatMap unit

/-- A unit with its least significant byte first. -/
def littleUnit (n : Nat) : Bytes := [UInt8.ofNat (n % 256), UInt8.ofNat (n / 256)]

/-- A unit with its most significant byte first. -/
def bigUnit (n : Nat) : Bytes := [UInt8.ofNat (n / 256), UInt8.ofNat (n % 256)]

/-- A text of which each character is one byte below `limit`. -/
def narrow (encoding : String) (limit : Nat) (s : List Char) : Except EncodeFault Bytes :=
  let fits (c : Char) : Bool := c.toNat < limit
  match s.dropWhile fits with
  | [] => .ok (s.map fun c => UInt8.ofNat c.toNat)
  | c :: rest =>
    let first := (s.takeWhile fits).length
    .error (.unencodable encoding first (first + 1 + (rest.takeWhile (!fits ·)).length) c limit)

/-- The bytes of a text. -/
def encode (s : String) : Encoding → Except EncodeFault Bytes
  | .utf8 => .ok (.ofText s)
  | .utf8Marked => .ok (.ofText (String.ofList ('\uFEFF' :: s.toList)))
  | .utf16Marked => .ok (utf16 littleUnit ('\uFEFF' :: s.toList))
  | .utf16Little => .ok (utf16 littleUnit s.toList)
  | .utf16Big => .ok (utf16 bigUnit s.toList)
  | .latin1 => narrow "latin-1" 256 s.toList
  | .ascii => narrow "ascii" 128 s.toList

/-- The bytes of a text in the encoding of the given name. -/
def encodeNamed (name : String) (s : String) : Except EncodeFault Bytes :=
  match ofName? name with
  | some encoding => encode s encoding
  | none => .error (.unknown name)

end Encoding

end SketchTurtle
