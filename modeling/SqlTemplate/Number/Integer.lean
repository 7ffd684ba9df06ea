/-!
# Integers as text

Reading a decimal integer that has to fit 64 bits with sign. The text is read from the left and
the first thing that is wrong decides the failure: a character that is no digit, or a digit that
takes the number out of its range.
-/

set_option autoImplicit false

namespace SqlTemplate

/-- Why a text is not a 64-bit integer. -/
inductive IntegerFault
  | empty
  | invalidDigit
  | tooLarge
  | tooSmall
deriving Repr, DecidableEq

/-- The wording of the failure. -/
def IntegerFault.message : IntegerFault → String
  | .empty => "cannot parse integer from empty string"
  | .invalidDigit => "invalid digit found in string"
  | .tooLarge => "number too large to fit in target type"
  | .tooSmall => "number too small to fit in target type"

/-- Reads digits after those that made `n`, as long as the number stays within `limit`. -/
def readDigits (limit : Nat) (overflow : IntegerFault) : Nat → List Char → Except IntegerFault Nat
  | n, [] => .ok n
  | n, c :: rest =>
    if c.isDigit then
      let n' := 10 * n + (c.toNat - '0'.toNat)
      if limit < n' then .error overflow else readDigits limit overflow n' rest
    else .error .invalidDigit

/-- Reads at least one digit. -/
def readNumber (limit : Nat) (overflow : IntegerFault) : List Char → Except IntegerFault Nat
  | [] => .error .invalidDigit
  | digits => readDigits limit overflow 0 digits

/-- The least 64-bit integer without its sign. -/
def int64Floor : Nat := 1 <<< 63

/-- The greatest 64-bit integer. -/
def int64Ceiling : Nat := (1 <<< 63) - 1

/-- Reads an integer: an optional sign and digits. -/
def readInteger : List Char → Except IntegerFault Int
  | [] => .error .empty
  | '-' :: digits => (readNumber int64Floor .tooSmall digits).map fun n => -(n : Int)
  | '+' :: digits => (readNumber int64Ceiling .tooLarge digits).map fun n => (n : Int)
  | digits => (readNumber int64Ceiling .tooLarge digits).map fun n => (n : Int)

/-- The 64-bit integer that a text writes. -/
def readInt64 (s : List Char) : Except IntegerFault Int64 :=
  (readInteger s).map Int64.ofInt

/-- The 64-bit integer `n`, if it is one. -/
def toInt64? (n : Int) : Option Int64 :=
  if -(int64Floor : Int) ≤ n ∧ n < int64Floor then some (Int64.ofInt n) else none

end SqlTemplate
