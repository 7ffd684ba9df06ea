import SqlTemplate.Json.Basic
import SqlTemplate.Number.Decimal

/-!
# Writing documents

The compact form: no white space, and in texts only quotes, backslashes and controls escaped. A
double that is not finite has no form in JSON and is written as null.
-/

set_option autoImplicit false

namespace SqlTemplate

namespace Json

/-- How one character of a text is written. -/
def escape (c : Char) : List Char :=
  if c = '"' then ['\\', '"']
  else if c = '\\' then ['\\', '\\']
  else if c = '\x08' then ['\\', 'b']
  else if c = '\x0c' then ['\\', 'f']
  else if c = '\n' then ['\\', 'n']
  else if c = '\r' then ['\\', 'r']
  else if c = '\t' then ['\\', 't']
  else if c.toNat < 32 then
    ['\\', 'u', '0', '0'] ++ [Nat.digitChar (c.toNat / 16), Nat.digitChar (c.toNat % 16)]
  else [c]

/-- A text between quotes. -/
def writeText (s : String) : String :=
  String.ofList (['"'] ++ s.toList.flatMap escape ++ ['"'])

/-- A double; null if it is not finite. -/
def writeNumber (x : Float) : String :=
  if x.isFinite then writeDouble .document x else "null"

mutual

/-- The compact form of a document. -/
def write : Json → String
  | .null => "null"
  | .bool b => if b then "true" else "false"
  | .integer n => toString n
  | .double x => writeNumber x
  | .text s => writeText s
  | .array items => "[" ++ writeItems items ++ "]"
  | .object fields => "\x7b" ++ writeFields fields ++ "\x7d"

/-- Items with commas between them. -/
def writeItems : List Json → String
  | [] => ""
  | [item] => write item
  | item :: rest => write item ++ "," ++ writeItems rest

/-- Fields with commas between them. -/
def writeFields : List (String × Json) → String
  | [] => ""
  | [(key, value)] => writeText key ++ ":" ++ write value
  | (key, value) :: rest => writeText key ++ ":" ++ write value ++ "," ++ writeFields rest

end

end Json

end SqlTemplate
