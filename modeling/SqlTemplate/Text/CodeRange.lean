/-!
# Ranges of code points

Properties of characters are given by tables of code point ranges. A table is written as text:
words separated by spaces, each a code point `a` or a range `a-b` in base sixteen.
-/

set_option autoImplicit false

namespace SqlTemplate

/-- The code points from `first` to `last`, both included. -/
structure CodeRange where
  first : Nat
  last : Nat
deriving Repr, DecidableEq

namespace CodeRange

/-- Whether the code point `n` lies in the range. -/
def contains (r : CodeRange) (n : Nat) : Bool :=
  r.first ≤ n && n ≤ r.last

/-- The value of one digit of base sixteen, zero for any other character. -/
def digitValue (c : Char) : Nat :=
  if '0' ≤ c ∧ c ≤ '9' then c.toNat - 48
  else if 'a' ≤ c ∧ c ≤ 'f' then c.toNat - 87
  else if 'A' ≤ c ∧ c ≤ 'F' then c.toNat - 55
  else 0

/-- The number that a word of base sixteen digits writes. -/
def number (digits : List Char) : Nat :=
  digits.foldl (fun n c => 16 * n + digitValue c) 0

/-- The range that one word of a table writes. -/
def ofWord (word : List Char) : CodeRange :=
  let low := word.takeWhile (· ≠ '-')
  match word.drop low.length with
  | [] => ⟨number low, number low⟩
  | _ :: high => ⟨number low, number high⟩

/-- The words of a line, cut at single spaces. -/
def words (line : String) : List (List Char) :=
  (line.splitOn " ").map String.toList

/-- The table that the lines write. -/
def table (lines : List String) : List CodeRange :=
  lines.flatMap fun line => (words line).map ofWord

/-- Whether some range of the table holds the code point. -/
def any (ranges : List CodeRange) (n : Nat) : Bool :=
  ranges.any (·.contains n)

end CodeRange

end SqlTemplate
