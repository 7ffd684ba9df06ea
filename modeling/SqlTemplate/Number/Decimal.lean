import SqlTemplate.Number.Shortest

/-!
# Doubles as decimal text

A double is written from its shortest decimal in one of three layouts, and read from the usual
notation with a point and an exponent, rounded to the nearest double.
-/

set_option autoImplicit false

namespace SqlTemplate

/-! ## Writing -/

/-- How a double is written: the decimal exponents of the leading digit between which no exponent
is shown, whether a whole number keeps a zero after the point, whether an exponent that is not
negative has a plus sign, and which of two equally short decimals is taken. -/
structure DecimalLayout where
  positional : Int → Bool
  keepsPoint : Bool
  plusSign : Bool
  tie : DecimalTie

/-- Values are printed without exponent, a whole number as its digits alone. -/
def DecimalLayout.plain : DecimalLayout := ⟨fun _ => true, false, false, .upper⟩

/-- Operands in messages keep a point and are positional from `10⁻⁴` up to `10¹⁶`. -/
def DecimalLayout.operand : DecimalLayout := ⟨fun e => -4 ≤ e && e < 16, true, false, .upper⟩

/-- Documents keep a point and are positional from `10⁻⁵` up to `10¹⁶`; beyond that the exponent
has a plus sign. -/
def DecimalLayout.document : DecimalLayout := ⟨fun e => -5 ≤ e && e < 16, true, true, .even⟩

/-- The digits of a decimal with the point in its place. -/
def Decimal.positional (keepsPoint : Bool) (x : Decimal) : List Char :=
  let digits := Nat.toDigits 10 x.digits
  if 0 ≤ x.exponent then
    digits ++ List.replicate x.exponent.toNat '0' ++ (if keepsPoint then ['.', '0'] else [])
  else
    let places := (-x.exponent).toNat
    if places < digits.length then
      digits.take (digits.length - places) ++ ['.'] ++ digits.drop (digits.length - places)
    else ['0', '.'] ++ List.replicate (places - digits.length) '0' ++ digits

/-- The digits of a decimal with one digit before the point and an exponent. -/
def Decimal.scientific (plusSign : Bool) (x : Decimal) : List Char :=
  let digits := Nat.toDigits 10 x.digits
  let exponent : Int := x.exponent + (digits.length - 1 : Nat)
  let point := if digits.length = 1 then [] else ['.']
  let sign := if plusSign && 0 ≤ exponent then ['+'] else []
  digits.take 1 ++ point ++ digits.drop 1 ++ ['e'] ++ sign ++ (toString exponent).toList

/-- A finite double without its sign. -/
def writeMagnitude (layout : DecimalLayout) (m : Nat) (e : Int) : List Char :=
  if m = 0 then if layout.keepsPoint then ['0', '.', '0'] else ['0']
  else
    let x := Decimal.shortest layout.tie m e
    let lead : Int := x.exponent + (digitCount x.digits - 1 : Nat)
    if layout.positional lead then x.positional layout.keepsPoint
    else x.scientific layout.plusSign

/-- A double as text. -/
def writeDouble (layout : DecimalLayout) (x : Float) : String :=
  match parts x with
  | .notANumber => "NaN"
  | .infinite negative => if negative then "-inf" else "inf"
  | .finite negative m e =>
    String.ofList ((if negative then ['-'] else []) ++ writeMagnitude layout m e)

/-! ## Reading -/

/-- Why a text is not a number. -/
inductive DecimalFault
  | empty
  | invalid
deriving Repr, DecidableEq

/-- The wording of the failure. -/
def DecimalFault.message : DecimalFault → String
  | .empty => "cannot parse float from empty string"
  | .invalid => "invalid float literal"

/-- The double nearest to `digits · 10 ^ exponent`. Beyond the exponents of doubles the exponent
itself does not matter. -/
def Decimal.toDouble (x : Decimal) : Float :=
  if x.digits = 0 then Float.ofBits 0
  else
    let lead : Int := x.exponent + digitCount x.digits
    if 310 < lead then Float.ofBits (UInt64.ofNat BinaryFormat.double.infinity)
    else if lead < -330 then Float.ofBits 0
    else Float.ofScientific x.digits (x.exponent < 0) x.exponent.natAbs

/-- Reads the digits of an exponent after its letter: an optional sign and at least one digit. -/
def readExponent (s : List Char) : Option Int :=
  match s with
  | '-' :: digits => (digitsOnly digits).map fun n => -(n : Int)
  | '+' :: digits => (digitsOnly digits).map fun n => (n : Int)
  | digits => (digitsOnly digits).map fun n => (n : Int)
where
  /-- The number that a text of digits writes. -/
  digitsOnly (s : List Char) : Option Nat :=
    if s ≠ [] ∧ s.all Char.isDigit then some (Nat.ofDigitChars 10 s 0) else none

/-- Reads a number without sign: digits, perhaps a point among or beside them, perhaps an
exponent. -/
def readMagnitude (s : List Char) : Option Decimal :=
  let whole := s.takeWhile Char.isDigit
  let afterWhole := s.drop whole.length
  let (fraction, afterFraction) :=
    match afterWhole with
    | '.' :: rest => (rest.takeWhile Char.isDigit, rest.dropWhile Char.isDigit)
    | _ => ([], afterWhole)
  if whole = [] ∧ fraction = [] then none
  else
    let digits := Nat.ofDigitChars 10 (whole ++ fraction) 0
    match afterFraction with
    | [] => some ⟨digits, -(fraction.length : Int)⟩
    | c :: exponent =>
      if c = 'e' ∨ c = 'E' then
        (readExponent exponent).map fun e => ⟨digits, e - fraction.length⟩
      else none

/-- Reads a number without sign or one of the words for what is not finite. -/
def readUnsignedDouble (s : List Char) : Option Float :=
  let word := String.ofList (s.map Char.toLower)
  if word = "inf" ∨ word = "infinity" then
    some (Float.ofBits (UInt64.ofNat BinaryFormat.double.infinity))
  else if word = "nan" then some (Float.ofBits (UInt64.ofNat BinaryFormat.double.notANumber))
  else (readMagnitude s).map Decimal.toDouble

/-- The double that a text writes. -/
def readDouble (s : List Char) : Except DecimalFault Float :=
  let value :=
    match s with
    | '-' :: rest => (readUnsignedDouble rest).map Float.neg
    | '+' :: rest => readUnsignedDouble rest
    | _ => readUnsignedDouble s
  if s = [] then .error .empty
  else match value with
    | some x => .ok x
    | none => .error .invalid

end SqlTemplate
