/-
Reading UTF-8. Bytes that encode no text are refused at the first sequence
that is malformed, with the bytes that are at fault.
-/
import SketchTurtle.Text.Digit

namespace SketchTurtle

/-- What is wrong with a sequence of bytes. -/
inductive Utf8Problem where
  | invalidStart
  | invalidContinuation
  | unexpectedEnd
  deriving DecidableEq, Repr

/-- The wording of a problem. -/
def Utf8Problem.text : Utf8Problem → String
  | .invalidStart => "invalid start byte"
  | .invalidContinuation => "invalid continuation byte"
  | .unexpectedEnd => "unexpected end of data"

/-- A malformed sequence: the number of bytes before it, its first byte, and
how many bytes are at fault. -/
structure Utf8Fault where
  position : Nat
  byte : UInt8
  length : Nat
  problem : Utf8Problem
  deriving DecidableEq, Repr

/-- The wording of a fault. -/
def Utf8Fault.message (f : Utf8Fault) : String :=
  let digits := String.ofList (Text.hexDigits 2 f.byte.toNat)
  let what :=
    if f.length = 1 then
      s!"byte 0x{digits} in position {f.position}"
    else s!"bytes in position {f.position}-{f.position + f.length - 1}"
  s!"'utf-8' codec can't decode {what}: {f.problem.text}"

namespace Utf8

/-- Whether a byte continues a character. -/
def continues (b : UInt8) : Bool := 0x80 ≤ b && b < 0xC0

/-- The bytes that may follow the first one of a character: not every one of
the continuing bytes where a shorter form exists, a surrogate would be meant,
or the last character would be passed. -/
def mayFollow (first second : UInt8) : Bool :=
  continues second &&
    !(first == 0xE0 && second < 0xA0) && !(first == 0xED && 0xA0 ≤ second) &&
    !(first == 0xF0 && second < 0x90) && !(first == 0xF4 && 0x90 ≤ second)

/-- The low bits of a continuing byte. -/
def low (b : UInt8) : Nat := b.toNat % 64

/-- The number of bytes of the character that a byte starts. -/
def width? (b : UInt8) : Option Nat :=
  if b < 0x80 then some 1
  else if b < 0xC2 then none
  else if b < 0xE0 then some 2
  else if b < 0xF0 then some 3
  else if b < 0xF5 then some 4
  else none

/-- The characters that bytes encode; `position` bytes came before. -/
def decodeFrom (position : Nat) : List UInt8 → Except Utf8Fault (List Char)
  | [] => .ok []
  | a :: rest =>
    let fault (length : Nat) (problem : Utf8Problem) : Except Utf8Fault (List Char) :=
      .error ⟨position, a, length, problem⟩
    match width? a, rest with
    | none, _ => fault 1 .invalidStart
    | some 1, rest => (decodeFrom (position + 1) rest).map (Char.ofNat a.toNat :: ·)
    | some 2, b :: rest =>
      if !continues b then fault 1 .invalidContinuation
      else (decodeFrom (position + 2) rest).map (Char.ofNat (a.toNat % 32 * 64 + low b) :: ·)
    | some 3, b :: c :: rest =>
      if !mayFollow a b then fault 1 .invalidContinuation
      else if !continues c then fault 2 .invalidContinuation
      else (decodeFrom (position + 3) rest).map
        (Char.ofNat (a.toNat % 16 * 4096 + low b * 64 + low c) :: ·)
    | some 4, b :: c :: d :: rest =>
      if !mayFollow a b then fault 1 .invalidContinuation
      else if !continues c then fault 2 .invalidContinuation
      else if !continues d then fault 3 .invalidContinuation
      else (decodeFrom (position + 4) rest).map
        (Char.ofNat (a.toNat % 8 * 262144 + low b * 4096 + low c * 64 + low d) :: ·)
    | some _, [] => fault 1 .unexpectedEnd
    | some _, [b] =>
      if !mayFollow a b then fault 1 .invalidContinuation else fault 2 .unexpectedEnd
    | some _, b :: c :: _ =>
      if !mayFollow a b then fault 1 .invalidContinuation
      else if !continues c then fault 2 .invalidContinuation
      else fault 3 .unexpectedEnd

/-- The text that bytes encode. -/
def decode (bytes : List UInt8) : Except Utf8Fault String :=
  (decodeFrom 0 bytes).map String.ofList

end Utf8

end SketchTurtle
