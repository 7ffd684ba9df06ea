import SqlTemplate.Text.Keyed

/-!
# Documents

The values that a JSON text can hold. The fields of an object are kept sorted by their keys, each
key once, so that an object has one form only.
-/

set_option autoImplicit false

namespace SqlTemplate

/-- A JSON document. Whole numbers are kept apart from doubles. -/
inductive Json
  | null
  | bool (b : Bool)
  | integer (n : Int)
  | double (x : Float)
  | text (s : String)
  | array (items : List Json)
  | object (fields : List (String × Json))
deriving Inhabited

namespace Json

/-- The object with the given fields, the last one of each key. -/
def ofFields (fields : List (String × Json)) : Json :=
  .object (sortKeys fields)

/-- The value of a field of an object. -/
def field? (key : String) : Json → Option Json
  | .object fields => fields.lookup key
  | _ => none

end Json

end SqlTemplate
