import SqlTemplate.Cause
import SqlTemplate.Json.Reader
import SqlTemplate.Text.Blank
import SqlTemplate.Text.Utf8
import SqlTemplate.Value.Document

/-!
# Converting columns

What a scan does to the value of a column before it is stored. Texts of numbers, truth values and
instants are read without the white space around them.
-/

set_option autoImplicit false

namespace SqlTemplate

/-- The text of a column without the white space around it. -/
def trimmed (s : String) : List Char :=
  trim isWhite s.toList

namespace ScanKind

/-- The bounds of the integer conversions. -/
def bounds? : ScanKind → Option (Int × Int)
  | .int | .int64 => some (-0x8000000000000000, 0x7fffffffffffffff)
  | .int8 => some (-0x80, 0x7f)
  | .int16 => some (-0x8000, 0x7fff)
  | .int32 => some (-0x80000000, 0x7fffffff)
  | .uint => some (0, 0x7fffffffffffffff)
  | _ => none

/-- An integer that has to lie within the bounds of a conversion. -/
def bounded (kind : ScanKind) (low high : Int) (n : Int64) : Except Cause Value :=
  if n.toInt < low ∨ high < n.toInt then .error (.column (.outOfRange n.toInt kind))
  else .ok (.int n)

/-- The value cannot be converted. -/
def refuse (kind : ScanKind) (v : Value) : Except Cause Value :=
  .error (.column (.kindOf v.typeName kind))

/-- Converts to an integer. -/
def toInteger (kind : ScanKind) (low high : Int) : Value → Except Cause Value
  | .int n => kind.bounded low high n
  | .text s =>
    match readInt64 (trimmed s) with
    | .ok n => kind.bounded low high n
    | .error fault => .error (.column (.integer fault))
  | v => kind.refuse v

/-- Converts to a text. -/
def toText (kind : ScanKind) : Value → Except Cause Value
  | .text s => .ok (.text s)
  | .bytes data =>
    match utf8? data with
    | some s => .ok (.text s)
    | none => .error (.foreign .utf8)
  | v => kind.refuse v

/-- Converts to a double. -/
def toFloat (kind : ScanKind) : Value → Except Cause Value
  | .float x => .ok (.float x)
  | .int n => .ok (.float (doubleOfInt n))
  | .text s =>
    match readDouble (trimmed s) with
    | .ok x => .ok (.float x)
    | .error fault => .error (.column (.decimal fault))
  | v => kind.refuse v

/-- Converts to a truth value. -/
def toBool (kind : ScanKind) : Value → Except Cause Value
  | .bool b => .ok (.bool b)
  | .int n => .ok (.bool (n ≠ 0))
  | .text s =>
    if trimmed s = "true".toList then .ok (.bool true)
    else if trimmed s = "false".toList then .ok (.bool false)
    else .error (.column .truth)
  | v => kind.refuse v

/-- Converts to an instant. -/
def toTime (kind : ScanKind) : Value → Except Cause Value
  | .instant t => .ok (.instant t)
  | .text s =>
    match Instant.ofText? (String.ofList (trimmed s)) with
    | some t => .ok (.instant t)
    | none => .error (.foreign .time)
  | v => kind.refuse v

/-- Converts to bytes. -/
def toBytes (kind : ScanKind) : Value → Except Cause Value
  | .bytes data => .ok (.bytes data)
  | .text s => .ok (.bytes (utf8 s))
  | v => kind.refuse v

/-- Reads a document. -/
def readJson (text : Option String) : Except Cause Value :=
  match text.bind Json.ofText? with
  | some j => .ok (Value.ofJson j)
  | none => .error (.foreign .json)

/-- Reads a document from a text or from bytes; any other value has been read already. -/
def toDocument : Value → Except Cause Value
  | .text s => readJson (some s)
  | .bytes data => readJson (utf8? data)
  | v => .ok v

/-- Converts the value of a column. -/
def convert (kind : ScanKind) (v : Value) : Except Cause Value :=
  match kind.bounds? with
  | some (low, high) => kind.toInteger low high v
  | none =>
    match kind with
    | .float | .float32 | .float64 => kind.toFloat v
    | .bool => kind.toBool v
    | .time => kind.toTime v
    | .bytes => kind.toBytes v
    | .json => toDocument v
    | _ => kind.toText v

end ScanKind

/-- The transformations of columns that are known by name. -/
abbrev Transforms := String → Value → Except Cause Value

/-- What a mapper makes of the value of a column. NULL is refused or gives way to the fallback of
the conversion. -/
def Mapper.apply (transforms : Transforms) : Mapper → Value → Except Cause Value
  | .custom name, v => transforms name v
  | .scan kind nullable fallback, v =>
    if v.isNil then
      if nullable then .ok fallback else .error (.column (.null kind))
    else kind.convert v

end SqlTemplate
