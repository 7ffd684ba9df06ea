/-!
# Blanks

Templates and statements know four blank characters: space, tab, carriage return and line feed.
The texts of scanned columns are trimmed of any Unicode white space.
-/

set_option autoImplicit false

namespace SqlTemplate

/-- Whether the character is one of the four blanks of a template. -/
def isBlank (c : Char) : Bool :=
  c = ' ' || c = '\t' || c = '\r' || c = '\n'

/-- Whether the character has the Unicode property `White_Space`. -/
def isWhite (c : Char) : Bool :=
  let n := c.toNat
  (9 ≤ n && n ≤ 13) || n = 0x20 || n = 0x85 || n = 0xa0 || n = 0x1680 ||
    (0x2000 ≤ n && n ≤ 0x200a) || n = 0x2028 || n = 0x2029 || n = 0x202f || n = 0x205f ||
    n = 0x3000

/-- Every blank is white space. -/
theorem isWhite_of_isBlank {c : Char} (h : isBlank c = true) : isWhite c = true := by
  simp only [isBlank, Bool.or_eq_true, decide_eq_true_eq] at h
  rcases h with ((rfl | rfl) | rfl) | rfl <;> decide

/-- A text without the characters of a class at its front. -/
def trimFront (p : Char → Bool) (s : List Char) : List Char :=
  s.dropWhile p

/-- A text without the characters of a class at its back. -/
def trimBack (p : Char → Bool) (s : List Char) : List Char :=
  (s.reverse.dropWhile p).reverse

/-- A text without the characters of a class at either end. -/
def trim (p : Char → Bool) (s : List Char) : List Char :=
  trimBack p (trimFront p s)

end SqlTemplate
