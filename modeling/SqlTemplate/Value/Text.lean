import SqlTemplate.Value.Basic
import SqlTemplate.Number.Decimal
import SqlTemplate.Text.Quoted
import SqlTemplate.Text.Utf8
import SqlTemplate.Time.Rfc3339

/-!
# Values as text

How a value is printed where no statement is built, and how messages show a fragment.
-/

set_option autoImplicit false

namespace SqlTemplate

/-! ## Printing -/

mutual

/-- A value as it is printed. -/
def Value.toText : Value → String
  | .nil => "<nil>"
  | .bool b => if b then "true" else "false"
  | .int n => toString n.toInt
  | .float x => writeDouble .plain x
  | .text s => s
  | .bytes data => utf8Lossy data
  | .instant t => t.toText
  | .list items => "[" ++ joinTexts " " items ++ "]"
  | .map entries => "map[" ++ joinEntries entries ++ "]"
  | .fragment f => f.toText
  | .dest path => path.toText

/-- A fragment as it is printed. -/
def Fragment.toText : Fragment → String
  | .raw sql => sql
  | .scanner sql _ _ => sql
  | .list items => "(" ++ joinTexts ", " items ++ ")"

/-- Printed values with a separator between them. -/
def joinTexts (separator : String) : List Value → String
  | [] => ""
  | [v] => v.toText
  | v :: w :: rest => v.toText ++ separator ++ joinTexts separator (w :: rest)

/-- Printed entries with spaces between them. -/
def joinEntries : List (String × Value) → String
  | [] => ""
  | [(k, v)] => k ++ ":" ++ v.toText
  | (k, v) :: e :: rest => k ++ ":" ++ v.toText ++ " " ++ joinEntries (e :: rest)

end

/-! ## Structure

Messages that show a fragment give its structure: constructors with their parts, texts quoted. -/

/-- A path with its structure. -/
def DestPath.describe (path : DestPath) : String :=
  "DestPath(" ++ quotedList path.segments ++ ")"

/-- Bytes with commas between them. -/
def describeBytes (data : List UInt8) : String :=
  "[" ++ ", ".intercalate (data.map fun b => toString b.toNat) ++ "]"

mutual

/-- A value with its structure. -/
def Value.describe : Value → String
  | .nil => "Nil"
  | .bool b => "Bool(" ++ (if b then "true" else "false") ++ ")"
  | .int n => "Int(" ++ toString n.toInt ++ ")"
  | .float x => "Float(" ++ writeDouble .operand x ++ ")"
  | .text s => "String(" ++ quoted s ++ ")"
  | .bytes data => "Bytes(" ++ describeBytes data ++ ")"
  | .instant t => "Timestamp(" ++ t.toText ++ ")"
  | .list items => "List([" ++ describeItems items ++ "])"
  | .map entries => "Map(\x7b" ++ describeEntries entries ++ "\x7d)"
  | .fragment f => "Fragment(" ++ f.describe ++ ")"
  | .dest path => "Dest(" ++ path.describe ++ ")"

/-- A fragment with its structure. -/
def Fragment.describe : Fragment → String
  | .raw sql => "Raw(" ++ quoted sql ++ ")"
  | .scanner sql dest mapper =>
    "Scanner \x7b sql: " ++ quoted sql ++ ", dest: " ++ dest.describe ++ ", mapper: " ++
      (if mapper.isSome then "true" else "false") ++ " \x7d"
  | .list items => "List([" ++ describeItems items ++ "])"

/-- The structures of values with commas between them. -/
def describeItems : List Value → String
  | [] => ""
  | [v] => v.describe
  | v :: w :: rest => v.describe ++ ", " ++ describeItems (w :: rest)

/-- The structures of entries with commas between them. -/
def describeEntries : List (String × Value) → String
  | [] => ""
  | [(k, v)] => quoted k ++ ": " ++ v.describe
  | (k, v) :: e :: rest => quoted k ++ ": " ++ v.describe ++ ", " ++ describeEntries (e :: rest)

end

end SqlTemplate
