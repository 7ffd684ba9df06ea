import SqlTemplate.Value.Basic
import SqlTemplate.Number.Binary

/-!
# Comparing values

The order that template comparisons use, and equality of values. Numbers compare with each other
as doubles unless both are whole; every other kind compares with itself only, if at all. Equality
looks at the whole structure: maps are equal whatever the order of their entries, and scanners
whatever their mappers.
-/

set_option autoImplicit false

namespace SqlTemplate

/-- The order of two doubles; none if one is not a number. -/
def compareDoubles (a b : Float) : Option Ordering :=
  if a < b then some .lt
  else if a == b then some .eq
  else if b < a then some .gt
  else none

/-- The order of two byte sequences: the first difference decides, then the length. -/
def compareBytes : List UInt8 → List UInt8 → Ordering
  | [], [] => .eq
  | [], _ :: _ => .lt
  | _ :: _, [] => .gt
  | a :: as, b :: bs => if a < b then .lt else if b < a then .gt else compareBytes as bs

namespace Value

/-- The order of two values, if they have one. -/
def compare? : Value → Value → Option Ordering
  | .nil, .nil => some .eq
  | .bool a, .bool b => some (compare a b)
  | .int a, .int b => some (compare a.toInt b.toInt)
  | .int a, .float b => compareDoubles (doubleOfInt a) b
  | .float a, .int b => compareDoubles a (doubleOfInt b)
  | .float a, .float b => compareDoubles a b
  | .text a, .text b => some (compare a b)
  | .bytes a, .bytes b => some (compareBytes a b)
  | .instant a, .instant b => some (compare a.nanos b.nanos)
  | _, _ => none

end Value

mutual

/-- Whether two values are equal. -/
def Value.same : Value → Value → Bool
  | .nil, .nil => true
  | .bool a, .bool b => a = b
  | .int a, .int b => a = b
  | .float a, .float b => a == b
  | .text a, .text b => a = b
  | .bytes a, .bytes b => a = b
  | .instant a, .instant b => a = b
  | .list a, .list b => sameItems a b
  | .map a, .map b => a.length = b.length && sameEntries a b
  | .fragment a, .fragment b => a.same b
  | .dest a, .dest b => a = b
  | _, _ => false

/-- Whether two fragments are equal. -/
def Fragment.same : Fragment → Fragment → Bool
  | .raw a, .raw b => a = b
  | .scanner a p _, .scanner b q _ => a = b && p = q
  | .list a, .list b => sameItems a b
  | _, _ => false

/-- Whether two lists hold equal values in the same order. -/
def sameItems : List Value → List Value → Bool
  | [], [] => true
  | a :: as, b :: bs => a.same b && sameItems as bs
  | _, _ => false

/-- Whether every entry has a partner with an equal value under the same key. -/
def sameEntries : List (String × Value) → List (String × Value) → Bool
  | [], _ => true
  | (k, v) :: rest, others =>
    (match others.lookup k with
      | some w => v.same w
      | none => false) && sameEntries rest others

end

end SqlTemplate
