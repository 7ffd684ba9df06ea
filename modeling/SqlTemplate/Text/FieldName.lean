import SqlTemplate.Text.Lowercase

/-!
# Field names

A template may spell the name of a field or column in its own way: two names match if they are
the same when underscores are dropped and every character is put into lower case.
-/

set_option autoImplicit false

namespace SqlTemplate

/-- A name without its underscores, in lower case. -/
def squash (name : String) : List Char :=
  (name.toList.filter (· ≠ '_')).flatMap lowercase

/-- Whether a declared name answers to the name that a template uses. -/
def nameMatches (declared wanted : String) : Bool :=
  declared = wanted || squash declared = squash wanted

/-- Names match exactly if they squash to the same characters. -/
theorem nameMatches_iff {a b : String} : nameMatches a b = true ↔ squash a = squash b := by
  simp only [nameMatches, Bool.or_eq_true, decide_eq_true_eq]
  constructor
  · rintro (rfl | h)
    · rfl
    · exact h
  · exact Or.inr

/-- A name matches itself. -/
theorem nameMatches_self (a : String) : nameMatches a a = true :=
  nameMatches_iff.2 rfl

/-- Matching does not depend on which of the names is the declared one. -/
theorem nameMatches_comm (a b : String) : nameMatches a b = nameMatches b a := by
  rw [Bool.eq_iff_iff, nameMatches_iff, nameMatches_iff]
  exact eq_comm

/-- Matching passes from name to name. -/
theorem nameMatches_trans {a b c : String} (hab : nameMatches a b = true)
    (hbc : nameMatches b c = true) : nameMatches a c = true :=
  nameMatches_iff.2 ((nameMatches_iff.1 hab).trans (nameMatches_iff.1 hbc))

end SqlTemplate
