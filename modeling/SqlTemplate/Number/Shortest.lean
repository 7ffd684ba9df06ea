import SqlTemplate.Number.Binary

/-!
# Shortest decimals

The decimal with the fewest digits among those that are read back as a given double. The reals
that round to a double form an interval around it, which holds its ends exactly if the
significand is even. For one, two, … seventeen digits the two neighbours of the double on that
decimal grid are tried: the first grid with a neighbour inside the interval decides, of two the
nearer, and of two equally near the one that the tie rule names.
-/

set_option autoImplicit false

namespace SqlTemplate

/-- The number `digits · 10 ^ exponent`. -/
structure Decimal where
  digits : Nat
  exponent : Int
deriving Repr, DecidableEq

/-- Which of two equally near decimals is taken. -/
inductive DecimalTie
  | upper
  | even
deriving Repr, DecidableEq

/-- The number of decimal digits of `n`. -/
def digitCount (n : Nat) : Nat :=
  (Nat.toDigits 10 n).length

/-- The exponent of the leading digit of the positive fraction `num / den`. -/
def leadingExponent (num den : Nat) : Int :=
  if den ≤ num then digitCount (num / den) - 1
  else -(digitCount ((den - 1) / num) : Int)

/-- A positive double and the ends of its interval: all three are multiples of one unit, given as
a fraction. -/
structure RoundingInterval where
  low : Nat
  value : Nat
  high : Nat
  unitNum : Nat
  unitDen : Nat
  closed : Bool
deriving Repr, DecidableEq

/-- The interval of the double `m · 2 ^ e`. The unit is a quarter of the last place; below a power
of two the neighbour is only half as far. -/
def RoundingInterval.ofDouble (m : Nat) (e : Int) : RoundingInterval :=
  let narrowBelow := m = BinaryFormat.double.fieldUnit ∧ BinaryFormat.double.minExponent < e
  let (unitNum, unitDen) := scaleBinary 1 1 (2 - e)
  ⟨4 * m - (if narrowBelow then 1 else 2), 4 * m, 4 * m + 2, unitNum, unitDen, m % 2 = 0⟩

namespace RoundingInterval

variable (r : RoundingInterval)

/-- Numerator and denominator of the number of units in `10 ^ k`. -/
def grid (k : Int) : Nat × Nat :=
  if 0 ≤ k then (Nat.pow 10 k.toNat * r.unitDen, r.unitNum)
  else (r.unitDen, r.unitNum * Nat.pow 10 (-k).toNat)

/-- Whether `d · 10 ^ k` lies in the interval. -/
def holds (d : Nat) (k : Int) : Bool :=
  let (n, den) := r.grid k
  let x := d * n
  if r.closed then r.low * den ≤ x && x ≤ r.high * den
  else r.low * den < x && x < r.high * den

/-- The greatest multiple of `10 ^ k` that is no greater than the double, as a multiple. -/
def below (k : Int) : Nat :=
  let (n, den) := r.grid k
  r.value * den / n

/-- Whether the double is nearer to `d · 10 ^ k` than to the next multiple, by the tie rule where
it lies in the middle. -/
def prefersBelow (tie : DecimalTie) (d : Nat) (k : Int) : Bool :=
  let (n, den) := r.grid k
  let twice := 2 * (r.value * den)
  let middle := (2 * d + 1) * n
  if twice = middle then
    match tie with
    | .upper => false
    | .even => d % 2 = 0
  else twice < middle

/-- The decimal of the grid `10 ^ k` that stands for the double, if one does. -/
def choose (tie : DecimalTie) (k : Int) : Option Decimal :=
  let d := r.below k
  match r.holds d k, r.holds (d + 1) k with
  | true, true => some ⟨if r.prefersBelow tie d k then d else d + 1, k⟩
  | true, false => some ⟨d, k⟩
  | false, true => some ⟨d + 1, k⟩
  | false, false => none

end RoundingInterval

/-- Takes zeros off the end of the digits, at most `fuel` of them. -/
def Decimal.stripZeros : Nat → Decimal → Decimal
  | 0, x => x
  | fuel + 1, x =>
    if x.digits ≠ 0 ∧ x.digits % 10 = 0 then stripZeros fuel ⟨x.digits / 10, x.exponent + 1⟩
    else x

/-- The shortest decimal of the positive double `m · 2 ^ e`. -/
def Decimal.shortest (tie : DecimalTie) (m : Nat) (e : Int) : Decimal :=
  let r := RoundingInterval.ofDouble m e
  let (num, den) := scaleBinary m 1 (-e)
  let lead := leadingExponent num den
  let found := (List.range 17).findSome? fun (n : Nat) => r.choose tie (lead - n)
  let x := found.getD ⟨r.below (lead - 16), lead - 16⟩
  x.stripZeros (digitCount x.digits)

end SqlTemplate
