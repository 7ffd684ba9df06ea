import SqlTemplate.Text.Quoted

/-!
# Placeholders

How a bound argument is written into the text of a statement: a symbol, which some databases
want followed by the position of the argument, counted from one.
-/

set_option autoImplicit false

namespace SqlTemplate

/-- A style of placeholders. -/
structure Placeholder where
  symbol : String
  positional : Bool
deriving Repr, DecidableEq

namespace Placeholder

/-- A question mark, without position. -/
def question : Placeholder := ⟨"?", false⟩

/-- A dollar sign and the position. -/
def dollar : Placeholder := ⟨"$", true⟩

/-- A colon and the position. -/
def colon : Placeholder := ⟨":", true⟩

/-- An at sign, the letter p and the position. -/
def atP : Placeholder := ⟨"@p", true⟩

instance : Inhabited Placeholder := ⟨question⟩

/-- The style of a name. -/
def ofName? (name : String) : Option Placeholder :=
  if name = "question" ∨ name = "?" then some question
  else if name = "dollar" ∨ name = "$" then some dollar
  else if name = "colon" ∨ name = ":" then some colon
  else if name = "at" ∨ name = "@p" then some atP
  else none

/-- The placeholder of the argument at a position. -/
def render (p : Placeholder) (index : Nat) : String :=
  if p.positional then p.symbol ++ toString index else p.symbol

/-- Appends the placeholder of the argument at a position. -/
def write (p : Placeholder) (index : Nat) (text : String) : String :=
  text ++ p.render index

/-- How a configuration shows the style. -/
def describe (p : Placeholder) : String :=
  "Placeholder \x7b symbol: " ++ quoted p.symbol ++ ", positional: " ++
    (if p.positional then "true" else "false") ++ " \x7d"

end Placeholder

end SqlTemplate
