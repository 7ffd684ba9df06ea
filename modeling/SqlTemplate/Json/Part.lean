import SqlTemplate.Json.Reader

/-!
# Parts of loose documents

Settings are written by hand, and what is read for them need not be strict JSON. The text is cut
into parts without regard to how they fit together: brackets, separators, words, texts and
numbers. Texts may hold controls, and a backslash may stand before any ASCII character. A number
may begin with zeros and lack digits on one side of its point; it is kept as text. The first place
that begins no part ends the list.
-/

set_option autoImplicit false

namespace SqlTemplate

namespace Json

/-- What holds other values. -/
inductive Container
  | array
  | object
deriving Repr, DecidableEq

/-- A value that holds no other. -/
inductive Scalar
  | null
  | bool (b : Bool)
  | text (s : String)
  | number (s : String)
deriving Repr, DecidableEq

/-- The text of a text or a number. -/
def Scalar.text? : Scalar → Option String
  | .text s => some s
  | .number s => some s
  | .null => none
  | .bool _ => none

/-- A part of a document. -/
inductive Part
  | opening (c : Container)
  | closing (c : Container)
  | comma
  | colon
  | scalar (x : Scalar)
deriving Repr, DecidableEq

namespace Part

/-! ## Texts -/

/-- Everything stands for itself. A backslash before an ASCII character without a meaning of its
own is passed over. -/
def loose : TextRule where
  isBare _ := true
  escape? c := (shortEscape? c).or (if c ≠ 'u' ∧ c.toNat < 128 then some c else none)

/-! ## Numbers -/

/-- The digits at the beginning, and the text behind them. -/
def digits (s : List Char) : List Char × List Char :=
  (s.takeWhile Char.isDigit, s.dropWhile Char.isDigit)

/-- A point at the beginning with the digits behind it. -/
def pointChars : List Char → List Char × List Char
  | '.' :: rest => ('.' :: (digits rest).1, (digits rest).2)
  | s => ([], s)

/-- The letter of an exponent at the beginning with the sign and the digits behind it. -/
def exponentChars : List Char → List Char × List Char
  | c :: rest =>
    if c = 'e' ∨ c = 'E' then
      match rest with
      | '+' :: rest => (c :: '+' :: (digits rest).1, (digits rest).2)
      | '-' :: rest => (c :: '-' :: (digits rest).1, (digits rest).2)
      | rest => (c :: (digits rest).1, (digits rest).2)
    else ([], c :: rest)
  | [] => ([], [])

/-- The characters of a number without its sign, and the text behind them. -/
def numberChars (s : List Char) : List Char × List Char :=
  let (whole, s) := digits s
  let (point, s) := pointChars s
  let (exponent, s) := exponentChars s
  (whole ++ point ++ exponent, s)

/-- The greatest number without point and exponent, its sign left out, that is kept with all its
digits: it fits 128 bits. -/
def wholeLimit (negative : Bool) : Nat :=
  if negative then 1 <<< 127 else (1 <<< 128) - 1

/-- The text of a number: its digits if it is whole, otherwise the text of the nearest double. -/
def numberText (negative : Bool) (chars : List Char) : Option String :=
  let n := Nat.ofDigitChars 10 chars 0
  if chars ≠ [] ∧ chars.all Char.isDigit ∧ n ≤ wholeLimit negative then
    some (toString (if negative then -(n : Int) else n))
  else
    (readMagnitude chars).map fun d =>
      writeDouble .plain (if negative then -d.toDouble else d.toDouble)

/-- Reads a number. -/
def takeNumber (s : List Char) : Option (Scalar × List Char) :=
  let (negative, s) :=
    match s with
    | '-' :: rest => (true, rest)
    | _ => (false, s)
  let (chars, rest) := numberChars s
  (numberText negative chars).map fun t => (.number t, rest)

/-! ## Parts -/

/-- The part that a single character makes. -/
def mark? (c : Char) : Option Part :=
  if c = '\x7b' then some (.opening .object)
  else if c = '\x7d' then some (.closing .object)
  else if c = '[' then some (.opening .array)
  else if c = ']' then some (.closing .array)
  else if c = ',' then some .comma
  else if c = ':' then some .colon
  else none

/-- Reads a scalar. -/
def takeScalar (s : List Char) : Option (Scalar × List Char) :=
  match s with
  | '"' :: rest => (takeText loose rest).map fun (t, r) => (.text (String.ofList t), r)
  | 'n' :: _ => takeWord "null" .null s
  | 't' :: _ => takeWord "true" (.bool true) s
  | 'f' :: _ => takeWord "false" (.bool false) s
  | _ => takeNumber s

/-- Reads a part. -/
def take? : List Char → Option (Part × List Char)
  | [] => none
  | c :: rest =>
    match mark? c with
    | some part => some (part, rest)
    | none => (takeScalar (c :: rest)).map fun (x, r) => (.scalar x, r)

/-- The parts of a text, `fuel` of them at most. -/
def takeAll : Nat → List Char → List Part
  | 0, _ => []
  | fuel + 1, s =>
    match take? (skipSpace s) with
    | some (part, rest) => part :: takeAll fuel rest
    | none => []

/-- The parts of a text. No part is empty, so there are no more of them than characters. -/
def ofText (text : String) : List Part :=
  takeAll text.length text.toList

end Part

end Json

end SqlTemplate
