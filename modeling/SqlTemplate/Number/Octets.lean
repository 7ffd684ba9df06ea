/-!
# Octets of numbers

Numbers as octets, from the lowest or from the highest, and integers in two's complement.
-/

set_option autoImplicit false

namespace SqlTemplate

/-- The given number of octets of a natural number, the lowest first. -/
def littleOctets : Nat → Nat → List UInt8
  | 0, _ => []
  | count + 1, n => UInt8.ofNat (n % 256) :: littleOctets count (n / 256)

/-- The given number of octets of a natural number, the highest first. -/
def bigOctets (count n : Nat) : List UInt8 :=
  (littleOctets count n).reverse

/-- An integer as a natural number of the given number of octets, in two's complement. -/
def complement (count : Nat) (n : Int) : Nat :=
  (n % (1 <<< (8 * count) : Nat)).toNat

/-- The number that octets write, the highest first. -/
def ofBigOctets (data : List UInt8) : Nat :=
  data.foldl (fun n b => 256 * n + b.toNat) 0

/-- The integer that octets write in two's complement, the highest first. -/
def intOfBigOctets (data : List UInt8) : Int :=
  let n := ofBigOctets data
  if 2 * n < (1 <<< (8 * data.length) : Nat) then n else n - (1 <<< (8 * data.length) : Nat)

end SqlTemplate
