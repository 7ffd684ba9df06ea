import SqlTemplate.Value.Basic
import SqlTemplate.Number.Integer
import SqlTemplate.Number.Binary
import SqlTemplate.Json.Basic
import SqlTemplate.Time.Rfc3339

/-!
# Values and documents

Every document is a value. A value is a document unless it holds bytes, a fragment or a
destination somewhere.
-/

set_option autoImplicit false

namespace SqlTemplate

/-! ## From documents -/

/-- The value of a whole number: an integer if it fits, otherwise the nearest double. -/
def Value.ofWhole (n : Int) : Value :=
  match toInt64? n with
  | some i => .int i
  | none => .float (Float.ofInt n)

mutual

/-- The value that a document holds. -/
def Value.ofJson : Json → Value
  | .null => .nil
  | .bool b => .bool b
  | .integer n => Value.ofWhole n
  | .double x => .float x
  | .text s => .text s
  | .array items => .list (valuesOfJson items)
  | .object fields => .map (entriesOfJson fields)

/-- The values that documents hold. -/
def valuesOfJson : List Json → List Value
  | [] => []
  | item :: rest => Value.ofJson item :: valuesOfJson rest

/-- The entries that the fields of an object hold. -/
def entriesOfJson : List (String × Json) → List (String × Value)
  | [] => []
  | (key, item) :: rest => (key, Value.ofJson item) :: entriesOfJson rest

end

/-! ## To documents -/

/-- The document of a double; null if it is not finite. -/
def Json.ofDouble (x : Float) : Json :=
  if x.isFinite then .double x else .null

mutual

/-- The document that a value makes, if it makes one. -/
def Value.toJson? : Value → Option Json
  | .nil => some .null
  | .bool b => some (.bool b)
  | .int n => some (.integer n.toInt)
  | .float x => some (Json.ofDouble x)
  | .text s => some (.text s)
  | .instant t => some (.text t.toText)
  | .list items => (jsonOfValues? items).map .array
  | .map entries => (jsonOfEntries? entries).map Json.ofFields
  | .bytes _ | .fragment _ | .dest _ => none

/-- The documents that values make, if every one makes one. -/
def jsonOfValues? : List Value → Option (List Json)
  | [] => some []
  | v :: rest => do
    let item ← v.toJson?
    let items ← jsonOfValues? rest
    some (item :: items)

/-- The fields that entries make, if every one makes one. -/
def jsonOfEntries? : List (String × Value) → Option (List (String × Json))
  | [] => some []
  | (key, v) :: rest => do
    let item ← v.toJson?
    let items ← jsonOfEntries? rest
    some ((key, item) :: items)

end

end SqlTemplate
