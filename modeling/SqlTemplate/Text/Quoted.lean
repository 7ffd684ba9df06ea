import SqlTemplate.Text.Visible

/-!
# Quoted text

Messages show names and operands between quotes. The quote and a backslash inside are written after
a backslash, the common controls by a letter, and any other character that has no visible form of
its own or extends the one before it by its code point in base sixteen between braces.
-/

set_option autoImplicit false

namespace SqlTemplate

/-- The code point of a character as an escape. -/
def escapeCode (c : Char) : List Char :=
  ['\\', 'u', '\x7b'] ++ Nat.toDigits 16 c.toNat ++ ['\x7d']

/-- The short escapes, which do not depend on the kind of quote. -/
def shortEscape? (c : Char) : Option (List Char) :=
  if c = '\x00' then some ['\\', '0']
  else if c = '\t' then some ['\\', 't']
  else if c = '\r' then some ['\\', 'r']
  else if c = '\n' then some ['\\', 'n']
  else if c = '\\' then some ['\\', '\\']
  else none

/-- How one character is written between quotes of the given kind. -/
def escapeChar (quote c : Char) : List Char :=
  match shortEscape? c with
  | some e => e
  | none =>
    if c = quote then ['\\', c]
    else if isVisible c && !isExtender c then [c]
    else escapeCode c

/-- A text between double quotes. -/
def quoted (s : String) : String :=
  String.ofList (['"'] ++ s.toList.flatMap (escapeChar '"') ++ ['"'])

/-- A character between single quotes. -/
def quotedChar (c : Char) : String :=
  String.ofList (['\''] ++ escapeChar '\'' c ++ ['\''])

/-- Quoted texts between square brackets. -/
def quotedList (names : List String) : String :=
  "[" ++ ", ".intercalate (names.map quoted) ++ "]"

/-- Quoted texts between braces. -/
def quotedSet (names : List String) : String :=
  "\x7b" ++ ", ".intercalate (names.map quoted) ++ "\x7d"

end SqlTemplate
