import SqlTemplate.Text.Blank

/-!
# Spacing

The text of a statement does not depend on the layout of its template: every run of blanks
becomes one space, and none is left at either end. Text is taken in pieces, so a run may begin in
one piece and end in another.
-/

set_option autoImplicit false

namespace SqlTemplate

/-- Text with its runs of blanks narrowed, and whether a run has begun behind it. -/
structure Spacing where
  text : String
  pending : Bool
deriving Repr, DecidableEq, Inhabited

namespace Spacing

/-- No text. -/
def empty : Spacing := ⟨"", false⟩

/-- Takes one character. A run of blanks counts only behind some text. -/
def push (s : Spacing) (c : Char) : Spacing :=
  if isBlank c then { s with pending := s.text ≠ "" }
  else if s.pending then ⟨(s.text.push ' ').push c, false⟩
  else { s with text := s.text.push c }

/-- Takes a piece of text. -/
def write (s : Spacing) (piece : String) : Spacing :=
  piece.toList.foldl push s

end Spacing

/-- A text with its runs of blanks narrowed. -/
def normalize (text : String) : String :=
  (Spacing.empty.write text).text

end SqlTemplate
