/-
The value of a YAML document: each node gives the value that its tag asks
for, and the mappings named by merge keys are merged in.

Collections are filled level by level from the root. So of several faults the
one reported is that nearest to the root, and the first one on its level.
-/
import SketchTurtle.Yaml.Node
import SketchTurtle.Yaml.Value

namespace SketchTurtle.Yaml

/-! ## Merging -/

/-- The pairs of a mapping. -/
def Node.pairs? : Node → Option (List (Node × Node))
  | .mapping _ pairs => some pairs
  | _ => none

/-- Whether a node is the key of mappings to be merged. -/
def Node.isMergeKey : Node → Bool
  | .scalar .merge _ => true
  | _ => false

/-- Whether some of the pairs are still to be merged. -/
def hasMergeKey (pairs : List (Node × Node)) : Bool := pairs.any (·.1.isMergeKey)

/-- The pairs that the value of a merge key stands for: those of a mapping, or
those of several, the last one first. Nothing if there is anything else, or a
mapping that could not be merged itself. -/
def Node.mergedPairs? : Node → Option (List (Node × Node))
  | .mapping _ pairs => if hasMergeKey pairs then none else some pairs
  | .sequence _ items => do
    let parts ← items.mapM Node.pairs?
    if parts.any hasMergeKey then none else some parts.reverse.flatten
  | _ => none

/-- The pairs of a mapping with those to be merged in front, if they can be
merged. -/
def mergePairs? (pairs : List (Node × Node)) : Option (List (Node × Node)) := do
  let merged ← (pairs.filter (·.1.isMergeKey)).mapM (·.2.mergedPairs?)
  some (merged.flatten ++ pairs.filter (!·.1.isMergeKey))

mutual

/-- The tree with the merge keys resolved, from the leaves up. A mapping keeps
its merge keys if it cannot be merged. -/
def Node.merge : Node → Node
  | .sequence tag items => .sequence tag (mergeItems items)
  | .mapping tag pairs =>
    let pairs := mergeInside pairs
    .mapping tag ((mergePairs? pairs).getD pairs)
  | node => node

/-- Resolves the merge keys in the items of a sequence. -/
def mergeItems : List Node → List Node
  | [] => []
  | node :: rest => node.merge :: mergeItems rest

/-- Resolves the merge keys within the pairs of a mapping. -/
def mergeInside : List (Node × Node) → List (Node × Node)
  | [] => []
  | (k, v) :: rest => (k.merge, v.merge) :: mergeInside rest

end

/-! ## Texts -/

/-- A text without underscores and sign, and whether it is negative. -/
def unsigned (s : String) : Except Fault (Bool × List Char) :=
  match s.toList.filter (· != '_') with
  | [] => .error .emptyNumber
  | '-' :: rest => .ok (true, rest)
  | '+' :: rest => .ok (false, rest)
  | rest => .ok (false, rest)

/-- The number that digits of a base write. A prefix that names the base may
stand in front. -/
def basedNat (base : Nat) (s : List Char) : Except Fault Nat :=
  let digits := match s with
    | '0' :: p :: rest =>
      if (base = 8 && (p == 'o' || p == 'O')) || (base = 16 && (p == 'x' || p == 'X')) ||
          (base = 2 && (p == 'b' || p == 'B')) then rest else s
    | _ => s
  if digits.isEmpty then .error (.badInteger base (String.ofList s))
  else
    let step (n : Nat) (d : Char) := ((Text.hexValue? d).filter (· < base)).map (base * n + ·)
    match digits.foldlM step 0 with
    | some n => .ok n
    | none => .error (.badInteger base (String.ofList s))

/-- The whole number that decimal digits write. -/
def decimalInt (s : List Char) : Except Fault Int :=
  match parseInt (String.ofList s) with
  | .ok n => .ok n
  | .error .malformed => .error (.badInteger 10 (String.ofList s))
  | .error (.tooLong n) => .error (.tooManyDigits n)

/-- The value of parts to the base of sixty, the most significant first. -/
def sexagesimal (parts : List Int) : Int := parts.foldl (fun n part => 60 * n + part) 0

/-- The whole number of a text. -/
def intOf (s : String) : Except Fault Int := do
  let (negative, digits) ← unsigned s
  let n ← match digits with
    | ['0'] => pure 0
    | '0' :: 'b' :: rest => Int.ofNat <$> basedNat 2 rest
    | '0' :: 'x' :: rest => Int.ofNat <$> basedNat 16 rest
    | '0' :: _ => Int.ofNat <$> basedNat 8 digits
    | [] => .error .emptyNumber
    | _ =>
      if digits.contains ':' then sexagesimal <$> (colonParts digits).mapM decimalInt
      else decimalInt digits
  pure (if negative then -n else n)

/-- The real number of a part of a text. -/
def floatPart (s : List Char) : Except Fault Float :=
  match parseFloat? (String.ofList s) with
  | some x => .ok x
  | none => .error (.badFloat (String.ofList s))

/-- The value of real parts to the base of sixty, the least significant
first. -/
def sexagesimalFloat (scale : Nat) (sum : Float) : List Float → Except Fault Float
  | [] => .ok sum
  | part :: rest =>
    match floatOfInt? scale with
    | some x => sexagesimalFloat (60 * scale) (sum + part * x) rest
    | none => .error .tooLarge

/-- The real number of a text. -/
def floatOf (s : String) : Except Fault Float := do
  let (negative, digits) ← unsigned (s.map Char.toLower)
  let sign : Float := if negative then -1 else 1
  if digits == ".inf".toList then pure (sign * (Exact.infinite false).toFloat)
  else if digits == ".nan".toList then pure Exact.nan.toFloat
  else if digits.contains ':' then
    let parts ← (colonParts digits).mapM floatPart
    let x ← sexagesimalFloat 1 0 parts.reverse
    pure (sign * x)
  else
    let x ← floatPart digits
    pure (sign * x)

/-- The value of a digit of the base sixty-four. -/
def base64Value? (c : Char) : Option Nat :=
  if 'A' ≤ c && c ≤ 'Z' then some (c.toNat - 65)
  else if 'a' ≤ c && c ≤ 'z' then some (c.toNat - 71)
  else if c.isDigit then some (c.toNat + 4)
  else if c == '+' then some 62
  else if c == '/' then some 63
  else none

/-- The bytes that digits of the base sixty-four write. Other characters are
passed over; an equals sign ends the last group once it is long enough. -/
def base64 (group : List Nat) : List Char → Except Fault (List UInt8)
  | [] => if group.isEmpty then .ok [] else .error .malformed
  | c :: rest =>
    match base64Value? c, group with
    | some d, [a, b, x] => do
      let n := ((a * 64 + b) * 64 + x) * 64 + d
      return UInt8.ofNat (n / 65536) :: UInt8.ofNat (n / 256 % 256) :: UInt8.ofNat (n % 256) ::
        (← base64 [] rest)
    | some d, group => base64 (group ++ [d]) rest
    | none, [a, b] =>
      if c == '=' && rest.contains '=' then .ok [UInt8.ofNat ((a * 64 + b) / 16)]
      else base64 group rest
    | none, [a, b, x] =>
      if c == '=' then
        let n := (a * 64 + b) * 64 + x
        .ok [UInt8.ofNat (n / 1024), UInt8.ofNat (n / 4 % 256)]
      else base64 group rest
    | none, group => base64 group rest

/-! ## Times -/

/-- Whether a year has a day more. -/
def isLeapYear (y : Nat) : Bool := y % 4 = 0 && (y % 100 != 0 || y % 400 = 0)

/-- The number of days of a month. -/
def daysIn (year month : Nat) : Nat :=
  if month = 2 then (if isLeapYear year then 29 else 28)
  else if [4, 6, 9, 11].contains month then 30 else 31

/-- Checks that a date exists. -/
def checkDate (year month day : Nat) : Except Fault Unit :=
  if year = 0 then .error (.yearRange year)
  else if month = 0 || 12 < month then .error .monthRange
  else if day = 0 || daysIn year month < day then .error .dayRange
  else .ok ()

/-- The millionths that the digits of a fraction write; further digits are
dropped. -/
def microseconds (fraction : List Char) : Nat :=
  let ds := fraction.take 6
  Numeral.ofDigits (ds ++ List.replicate (6 - ds.length) '0')

/-- The date or time of a text. -/
def timestampOf (s : String) : Except Fault Value :=
  match written? s.toList with
  | none => .error .badTimestamp
  | some w =>
    match w.time with
    | none => do
      checkDate w.year w.month w.day
      return .date w.year w.month w.day
    | some (hour, minute, second, fraction) => do
      if let some z := w.zone then
        if 1440 ≤ z.natAbs then throw (.zoneRange (60 * z))
      checkDate w.year w.month w.day
      if 23 < hour then throw .hourRange
      if 59 < minute then throw .minuteRange
      if 59 < second then throw .secondRange
      return .dateTime ⟨w.year, w.month, w.day, hour, minute, second, microseconds fraction, w.zone⟩

/-! ## Values -/

/-- The value of a text with a tag. -/
def scalarValue (tag : Tag) (text : String) : Except Fault Value :=
  match tag with
  | .null => .ok .null
  | .bool => match boolWords.lookup (text.map Char.toLower) with
    | some b => .ok (.bool b)
    | none => .error (.badBool (text.map Char.toLower))
  | .int => .int <$> intOf text
  | .float => .float <$> floatOf text
  | .binary =>
    if text.toList.all (·.toNat < 128) then .bytes <$> base64 [] text.toList else .error .malformed
  | .timestamp => timestampOf text
  | .str => .ok (.text text)
  | _ => .error .malformed

/-- Whether a tag asks for a collection. -/
def Tag.isCollection (tag : Tag) : Bool :=
  [Tag.seq, Tag.map, Tag.set, Tag.orderedMap, Tag.pairs].contains tag

/-- The text of a node whose tag asks for one. In a mapping it is that of the
value key. -/
def Node.text? : Node → Option String
  | .scalar _ text => some text
  | .mapping _ pairs => valueText? pairs
  | _ => none
where
  valueText? : List (Node × Node) → Option String
    | [] => none
    | (.scalar .value _, v) :: _ => v.text?
    | _ :: rest => valueText? rest

/-- What is made of a part of a document: a value, or its fault and how many
levels of collections this lies below. -/
abbrev Outcome (α : Type) := Except (Nat × Fault) α

namespace Outcome

variable {α β : Type}

/-- A fault of the part itself. -/
def ofFault (fault : Fault) : Outcome α := .error (0, fault)

/-- What is made of a part without parts. -/
def ofExcept (made : Except Fault α) : Outcome α := made.mapError (0, ·)

/-- What is made of a part, as part of a collection. -/
def inside (made : Outcome α) : Outcome α := made.mapError fun (depth, fault) => (depth + 1, fault)

/-- What is made of two parts. Of their faults the one on the higher level
counts, and of two on the same level the first. -/
def both : Outcome α → Outcome β → Outcome (α × β)
  | .ok a, .ok b => .ok (a, b)
  | .ok _, .error f => .error f
  | .error e, .ok _ => .error e
  | .error e, .error f => .error (if f.1 < e.1 then f else e)

end Outcome

/-- The value of a key. Collections are no keys, whatever they hold. A value
key is an ordinary text here. -/
def keyValue (key : Node) (made : Outcome Value) : Outcome Value :=
  match key, made with
  | .scalar .value text, _ => .ok (.text text)
  | _, .ok v => if v.canBeKey then .ok v else .ofFault .malformed
  | _, .error (0, fault) => .ofFault fault
  | _, .error _ => .ofFault .malformed

/-- A mapping of pairs of values. -/
def mapOf (pairs : List (Value × Value)) : List (Value × Value) :=
  pairs.foldl (fun read (k, v) => Value.insert read k v) []

mutual

/-- The value of a node. -/
def Node.value : Node → Outcome Value
  | .scalar tag text =>
    if tag.isCollection then .inside (.ofFault .malformed) else .ofExcept (scalarValue tag text)
  | .sequence tag items =>
    match tag with
    | .seq => .inside ((itemValues items).map .list)
    | .orderedMap | .pairs => .inside ((singlePairs items).map .list)
    | tag => if tag.isCollection then .inside (.ofFault .malformed) else .ofFault .malformed
  | .mapping tag pairs =>
    match tag with
    | .map => .inside ((pairValues pairs).map fun pairs => .map (mapOf pairs))
    | .set => .inside ((pairValues pairs).map fun pairs => .set ((mapOf pairs).map (·.1)))
    | tag =>
      if tag.isCollection then .inside (.ofFault .malformed)
      else match Node.text?.valueText? pairs with
        | some text => .ofExcept (scalarValue tag text)
        | none => .ofFault .malformed
  | .enclosing isMapping => .ok (.enclosing isMapping)

/-- The values of the items of a sequence. -/
def itemValues : List Node → Outcome (List Value)
  | [] => .ok []
  | node :: rest => (Outcome.both node.value (itemValues rest)).map fun (v, vs) => v :: vs

/-- The values of the pairs of a mapping that has been merged. -/
def pairValues (pairs : List (Node × Node)) : Outcome (List (Value × Value)) :=
  if hasMergeKey pairs then .ofFault .malformed else go pairs
where
  go : List (Node × Node) → Outcome (List (Value × Value))
    | [] => .ok []
    | (k, v) :: rest =>
      (Outcome.both (Outcome.both (keyValue k k.value) v.value) (go rest)).map
        fun (pair, pairs) => pair :: pairs

/-- The pairs of mappings of one key each. -/
def singlePairs : List Node → Outcome (List Value)
  | [] => .ok []
  | .mapping _ [(k, v)] :: rest =>
    (Outcome.both (Outcome.both k.value v.value) (singlePairs rest)).map
      fun ((k, v), vs) => .pair k v :: vs
  | _ :: _ => .ofFault .malformed

end

/-- The value of a document; nothing if it is empty. -/
def read (s : List Char) : Except Fault Value := do
  match ← Node.read s with
  | none => pure .null
  | some node => node.merge.value.mapError (·.2)

end SketchTurtle.Yaml
