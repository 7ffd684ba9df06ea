/-!
# Hexadecimal text

Octets as two hexadecimal digits each.
-/

set_option autoImplicit false

namespace SqlTemplate

/-- The two digits of an octet. -/
def hexDigits (b : UInt8) : List Char :=
  [Nat.digitChar (b.toNat / 16), Nat.digitChar (b.toNat % 16)]

/-- Octets in lower-case digits. -/
def toHex (data : List UInt8) : String :=
  String.ofList (data.flatMap hexDigits)

/-- The value of a digit. -/
def hexValue? (c : Char) : Option Nat :=
  if c.isDigit then some (c.toNat - '0'.toNat)
  else if 'a' ≤ c ∧ c ≤ 'f' then some (c.toNat - 'a'.toNat + 10)
  else if 'A' ≤ c ∧ c ≤ 'F' then some (c.toNat - 'A'.toNat + 10)
  else none

/-- The octets that digits write, two digits each. -/
def octetsOfDigits? : List Char → Option (List UInt8)
  | [] => some []
  | [_] => none
  | a :: b :: rest => do
    let high ← hexValue? a
    let low ← hexValue? b
    let octets ← octetsOfDigits? rest
    some (UInt8.ofNat (16 * high + low) :: octets)

/-- The octets that a text writes in digits. -/
def ofHex? (s : String) : Option (List UInt8) :=
  octetsOfDigits? s.toList

end SqlTemplate
