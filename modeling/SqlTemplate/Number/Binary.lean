/-!
# Binary floating point numbers

The single and double formats as numbers `m · 2 ^ q`, and the rounding of a quotient to the
nearest number of a format, ties going to the even one. Both formats are handled through their bit
patterns, so that conversions between them are arithmetic on integers.
-/

set_option autoImplicit false

namespace SqlTemplate

/-- A binary format: the number of bits of a full significand, the exponent of the last place of
the smallest numbers, and the exponent field that stands for what is not finite. -/
structure BinaryFormat where
  precision : Nat
  minExponent : Int
  topField : Nat
deriving Repr, DecidableEq

namespace BinaryFormat

/-- Single precision. -/
def single : BinaryFormat := ⟨24, -149, 255⟩

/-- Double precision. -/
def double : BinaryFormat := ⟨53, -1074, 2047⟩

variable (fmt : BinaryFormat)

/-- The weight of the exponent field in a bit pattern. -/
def fieldUnit : Nat := 1 <<< (fmt.precision - 1)

/-- The bit pattern of infinity without its sign. -/
def infinity : Nat := fmt.topField * fmt.fieldUnit

/-- The weight of the sign bit. -/
def signUnit : Nat := (fmt.topField + 1) * fmt.fieldUnit

/-- The canonical pattern of what is not a number. -/
def notANumber : Nat := fmt.infinity + fmt.fieldUnit / 2

end BinaryFormat

/-- A number of a binary format taken apart. -/
inductive BinaryParts
  | finite (negative : Bool) (significand : Nat) (exponent : Int)
  | infinite (negative : Bool)
  | notANumber
deriving Repr, DecidableEq

/-- Takes a bit pattern apart. -/
def BinaryFormat.decode (fmt : BinaryFormat) (bits : Nat) : BinaryParts :=
  let negative := fmt.signUnit ≤ bits
  let magnitude := bits % fmt.signUnit
  let field := magnitude / fmt.fieldUnit
  let fraction := magnitude % fmt.fieldUnit
  if field = fmt.topField then
    if fraction = 0 then .infinite negative else .notANumber
  else if field = 0 then .finite negative fraction fmt.minExponent
  else .finite negative (fmt.fieldUnit + fraction) (fmt.minExponent + (field - 1 : Nat))

/-- The quotient rounded to the nearest integer, a tie going to the even one. -/
def roundDiv (num den : Nat) : Nat :=
  let q := num / den
  let r := num % den
  if 2 * r < den then q
  else if den < 2 * r then q + 1
  else if q % 2 = 0 then q else q + 1

/-- The fraction `num / den` in units of `2 ^ e`, as numerator and denominator. -/
def scaleBinary (num den : Nat) (e : Int) : Nat × Nat :=
  if 0 ≤ e then (num, den <<< e.toNat) else (num <<< (-e).toNat, den)

/-- The exponent of the last place of the number of the format that is nearest to `num / den`. -/
def BinaryFormat.placeExponent (fmt : BinaryFormat) (num den : Nat) : Int :=
  let guess := max fmt.minExponent ((Nat.log2 num : Int) - Nat.log2 den - fmt.precision)
  let (n, d) := scaleBinary num den guess
  if d <<< fmt.precision ≤ n then guess + 1 else guess

/-- The bit pattern, without sign, of the number of the format nearest to `num / den`. -/
def BinaryFormat.ofRatio (fmt : BinaryFormat) (num den : Nat) : Nat :=
  if num = 0 then 0
  else
    let e := fmt.placeExponent num den
    let (n, d) := scaleBinary num den e
    min fmt.infinity ((e - fmt.minExponent).toNat * fmt.fieldUnit + roundDiv n d)

/-- The bit pattern of the number of the format nearest to the given parts. -/
def BinaryFormat.encode (fmt : BinaryFormat) : BinaryParts → Nat
  | .notANumber => fmt.notANumber
  | .infinite negative => fmt.infinity + (if negative then fmt.signUnit else 0)
  | .finite negative m e =>
    let (n, d) := scaleBinary m 1 (-e)
    fmt.ofRatio n d + (if negative then fmt.signUnit else 0)

/-- The parts of a double. -/
def parts (x : Float) : BinaryParts :=
  BinaryFormat.double.decode x.toBits.toNat

/-- The double with the same value as a single. -/
def widen (x : Float32) : Float :=
  Float.ofBits (UInt64.ofNat (BinaryFormat.double.encode
    (BinaryFormat.single.decode x.toBits.toNat)))

/-- The single nearest to a double. -/
def narrow (x : Float) : Float32 :=
  Float32.ofBits (UInt32.ofNat (BinaryFormat.single.encode (parts x)))

/-- The double nearest to a 64-bit integer. -/
def doubleOfInt (n : Int64) : Float :=
  Float.ofInt n.toInt

end SqlTemplate
