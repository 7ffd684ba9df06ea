import SqlTemplate.Json.Basic
import SqlTemplate.Number.Integer
import SqlTemplate.Number.Decimal
import SqlTemplate.Text.CodeRange

/-!
# Reading documents

Strict JSON: one value with white space around it and nothing else. Arrays and objects are nested
at most 127 deep. A whole number that fits 64 bits, with sign or without, stays whole; any other
number becomes a double by arithmetic on doubles, which is not always the nearest one.
-/

set_option autoImplicit false

namespace SqlTemplate

namespace Json

/-! ## Space -/

/-- Whether the character is white space between the parts of a document. -/
def isSpace (c : Char) : Bool :=
  c = ' ' || c = '\t' || c = '\n' || c = '\r'

/-- The text from its first character that is no white space. -/
def skipSpace (s : List Char) : List Char :=
  s.dropWhile isSpace

/-! ## Numbers -/

/-- The greatest significand that is collected digit by digit. -/
def significandLimit : Nat := (1 <<< 64) - 1

/-- Adds digits to a significand until the next one would take it past the limit: the significand,
and the digits that are left. -/
def collectDigits : Nat → List Char → Nat × List Char
  | n, [] => (n, [])
  | n, c :: rest =>
    let n' := 10 * n + (c.toNat - '0'.toNat)
    if significandLimit < n' then (n, c :: rest) else collectDigits n' rest

/-- The greatest power of ten that is a double. -/
def topPower : Nat := 308

/-- The power of ten as a double. -/
def powerOfTen (k : Nat) : Float :=
  Float.ofScientific 1 false k

/-- Divides by `10 ^ k`, taking out the greatest power as long as the rest is too large for one
step. -/
def divideByPower : Nat → Float → Nat → Float
  | 0, x, _ => x
  | fuel + 1, x, k =>
    if k ≤ topPower then x / powerOfTen k
    else if x == 0 then x
    else divideByPower fuel (x / powerOfTen topPower) (k - topPower)

/-- The double of a significand and an exponent of ten; none if it is too large. -/
def scale (significand : Nat) (exponent : Int) : Option Float :=
  let x := (UInt64.ofNat significand).toFloat
  if exponent < 0 then some (divideByPower 4 x exponent.natAbs)
  else if x == 0 then some x
  else if topPower < exponent then none
  else
    let y := x * powerOfTen exponent.toNat
    if y.isInf then none else some y

/-- The parts of a number: its sign, the digits before and after the point, and the exponent. -/
structure NumberParts where
  negative : Bool
  whole : List Char
  fraction : Option (List Char)
  exponent : Option Int
deriving Repr

/-- The double that the parts of a number make. -/
def NumberParts.toDouble (p : NumberParts) : Option Float :=
  let (n, dropped) := collectDigits 0 p.whole
  let fraction := p.fraction.getD []
  let (m, left) := collectDigits n fraction
  let shift : Int := (dropped.length : Int) - (fraction.length - left.length : Nat)
  let exponent := max (-0x80000000) (min 0x7fffffff (shift + p.exponent.getD 0))
  (scale m exponent).map fun x => if p.negative then -x else x

/-- The document that a number makes. A negative zero is not whole. -/
def NumberParts.toJson (p : NumberParts) : Option Json :=
  let n := Nat.ofDigitChars 10 p.whole 0
  if p.fraction.isNone && p.exponent.isNone &&
      (if p.negative then 0 < n && n ≤ int64Floor else n ≤ significandLimit) then
    some (.integer (if p.negative then -(n : Int) else n))
  else p.toDouble.map .double

/-- Reads the digits before the point: a zero alone, or digits that do not begin with one. -/
def takeWhole (s : List Char) : Option (List Char × List Char) :=
  match s with
  | '0' :: rest => if (rest.head?.map Char.isDigit).getD false then none else some (['0'], rest)
  | _ =>
    let digits := s.takeWhile Char.isDigit
    if digits = [] then none else some (digits, s.drop digits.length)

/-- Reads a point and the digits after it, if there is a point. -/
def takePoint (s : List Char) : Option (Option (List Char) × List Char) :=
  match s with
  | '.' :: rest =>
    let digits := rest.takeWhile Char.isDigit
    if digits = [] then none else some (some digits, rest.drop digits.length)
  | _ => some (none, s)

/-- Reads the letter and the digits of an exponent, if there is a letter. -/
def takeExponent (s : List Char) : Option (Option Int × List Char) :=
  match s with
  | c :: rest =>
    if c = 'e' ∨ c = 'E' then
      let (negative, rest) :=
        match rest with
        | '-' :: r => (true, r)
        | '+' :: r => (false, r)
        | _ => (false, rest)
      let digits := rest.takeWhile Char.isDigit
      let n : Int := Nat.ofDigitChars 10 digits 0
      if digits = [] then none
      else some (some (if negative then -n else n), rest.drop digits.length)
    else some (none, s)
  | [] => some (none, s)

/-- Reads a number. -/
def takeNumber (s : List Char) : Option (Json × List Char) := do
  let (negative, s) :=
    match s with
    | '-' :: rest => (true, rest)
    | _ => (false, s)
  let (whole, s) ← takeWhole s
  let (fraction, s) ← takePoint s
  let (exponent, s) ← takeExponent s
  let value ← NumberParts.toJson ⟨negative, whole, fraction, exponent⟩
  some (value, s)

/-! ## Texts -/

/-- Whether the character is a digit of base sixteen. -/
def isHexDigit (c : Char) : Bool :=
  c.isDigit || ('a' ≤ c && c ≤ 'f') || ('A' ≤ c && c ≤ 'F')

/-- The unit that four digits of base sixteen write. -/
def unit? (a b c d : Char) : Option Nat :=
  if isHexDigit a && isHexDigit b && isHexDigit c && isHexDigit d then
    some (CodeRange.number [a, b, c, d])
  else none

/-- The character after a backslash that stands for one other character. -/
def shortEscape? (c : Char) : Option Char :=
  if c = '"' ∨ c = '\\' ∨ c = '/' then some c
  else if c = 'b' then some '\x08'
  else if c = 'f' then some '\x0c'
  else if c = 'n' then some '\n'
  else if c = 'r' then some '\r'
  else if c = 't' then some '\t'
  else none

/-- The character of a pair of units. -/
def ofPair (high low : Nat) : Char :=
  Char.ofNat (0x10000 + (high - 0xd800) * 0x400 + (low - 0xdc00))

/-- What a text may hold besides escaped units: the characters that stand for themselves, and the
characters that may follow a backslash. -/
structure TextRule where
  isBare : Char → Bool
  escape? : Char → Option Char

/-- Controls do not stand for themselves, and a backslash comes before eight characters only. -/
def TextRule.strict : TextRule := ⟨fun c => 32 ≤ c.toNat, shortEscape?⟩

/-- Reads a text from behind its opening quote. A unit of a pair has to have its partner. -/
def takeText (rule : TextRule) : List Char → Option (List Char × List Char)
  | [] => none
  | '"' :: rest => some ([], rest)
  | '\\' :: 'u' :: a :: b :: c :: d :: rest =>
    match unit? a b c d with
    | none => none
    | some n =>
      if 0xd800 ≤ n ∧ n < 0xdc00 then
        match rest with
        | '\\' :: 'u' :: e :: f :: g :: h :: rest =>
          match unit? e f g h with
          | some low =>
            if 0xdc00 ≤ low ∧ low < 0xe000 then
              (takeText rule rest).map fun (t, r) => (ofPair n low :: t, r)
            else none
          | none => none
        | _ => none
      else if 0xdc00 ≤ n ∧ n < 0xe000 then none
      else (takeText rule rest).map fun (t, r) => (Char.ofNat n :: t, r)
  | '\\' :: c :: rest =>
    match rule.escape? c with
    | some e => (takeText rule rest).map fun (t, r) => (e :: t, r)
    | none => none
  | c :: rest =>
    if c ≠ '\\' ∧ rule.isBare c then (takeText rule rest).map fun (t, r) => (c :: t, r)
    else none
termination_by structural s => s

/-! ## Values -/

/-- Reads the rest of an array behind an item or the opening bracket; `item` reads one item. -/
def takeItems (item : List Char → Option (Json × List Char)) :
    Nat → List Char → Option (List Json × List Char)
  | 0, _ => none
  | fuel + 1, s => do
    let (value, s) ← item (skipSpace s)
    match skipSpace s with
    | ',' :: rest => do
      let (values, s) ← takeItems item fuel rest
      some (value :: values, s)
    | ']' :: rest => some ([value], rest)
    | _ => none

/-- Reads the rest of an object behind a field or the opening brace; `item` reads one value. -/
def takeFields (item : List Char → Option (Json × List Char)) :
    Nat → List Char → Option (List (String × Json) × List Char)
  | 0, _ => none
  | fuel + 1, s =>
    match skipSpace s with
    | '"' :: rest => do
      let (key, s) ← takeText .strict rest
      match skipSpace s with
      | ':' :: rest => do
        let (value, s) ← item (skipSpace rest)
        match skipSpace s with
        | ',' :: rest => do
          let (fields, s) ← takeFields item fuel rest
          some ((String.ofList key, value) :: fields, s)
        | '\x7d' :: rest => some ([(String.ofList key, value)], rest)
        | _ => none
      | _ => none
    | _ => none

/-- Reads a word, given what it stands for. -/
def takeWord {α : Type} (word : String) (value : α) (s : List Char) : Option (α × List Char) :=
  if word.toList.isPrefixOf s then some (value, s.drop word.length) else none

/-- Reads a value whose arrays and objects are nested less than `depth` deep. -/
def takeValue : Nat → List Char → Option (Json × List Char)
  | 0, _ => none
  | depth + 1, s =>
    match s with
    | '"' :: rest => (takeText .strict rest).map fun (t, r) => (.text (String.ofList t), r)
    | '[' :: rest =>
      if depth = 0 then none
      else match skipSpace rest with
        | ']' :: rest => some (.array [], rest)
        | _ => (takeItems (takeValue depth) s.length rest).map fun (v, r) => (.array v, r)
    | '\x7b' :: rest =>
      if depth = 0 then none
      else match skipSpace rest with
        | '\x7d' :: rest => some (.object [], rest)
        | _ => (takeFields (takeValue depth) s.length rest).map fun (v, r) => (ofFields v, r)
    | 'n' :: _ => takeWord "null" .null s
    | 't' :: _ => takeWord "true" (.bool true) s
    | 'f' :: _ => takeWord "false" (.bool false) s
    | _ => takeNumber s

/-- The greatest depth of a document, plus one. -/
def depthLimit : Nat := 128

/-- The document that a text writes. -/
def ofText? (text : String) : Option Json :=
  match takeValue depthLimit (skipSpace text.toList) with
  | some (value, rest) => if skipSpace rest = [] then some value else none
  | none => none

end Json

end SqlTemplate
