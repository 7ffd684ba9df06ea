import SqlTemplate.Number.Decimal
import SqlTemplate.Number.Integer
import SqlTemplate.Text.Quoted
import SqlTemplate.Value.Basic

/-!
# Why a function or a conversion failed

The causes that template functions and column conversions can give, and their wording. Some come
from the formats of texts that are read; of those only the format is known.
-/

set_option autoImplicit false

namespace SqlTemplate

/-- A format whose reader found a text or a value unfit; its wording is not this library's. -/
inductive Foreign
  | json
  | time
  | utf8
  | wireType
deriving Repr, DecidableEq

/-- How messages call a conversion. -/
def ScanKind.label : ScanKind → String
  | .text => "String"
  | .int => "Int"
  | .int8 => "Int8"
  | .int16 => "Int16"
  | .int32 => "Int32"
  | .int64 => "Int64"
  | .uint => "Uint"
  | .float => "Float"
  | .float32 => "Float32"
  | .float64 => "Float64"
  | .bool => "Bool"
  | .time => "Time"
  | .bytes => "Bytes"
  | .json => "Json"

/-- Why a column could not be converted. -/
inductive ColumnFault
  | null (kind : ScanKind)
  | kindOf (value : String) (kind : ScanKind)
  | outOfRange (n : Int) (kind : ScanKind)
  | integer (fault : IntegerFault)
  | decimal (fault : DecimalFault)
  | truth
deriving Repr, DecidableEq

/-- The wording of a failed conversion. -/
def ColumnFault.message : ColumnFault → String
  | .null kind => "unexpected NULL for " ++ kind.label
  | .kindOf value kind => "cannot convert " ++ value ++ " to " ++ kind.label
  | .outOfRange n kind => toString n ++ " out of range for " ++ kind.label
  | .integer fault => fault.message
  | .decimal fault => fault.message
  | .truth => "provided string was not \x60true\x60 or \x60false\x60"

/-- Why a statement function could not be called. -/
inductive CallFault
  | rawKind (value : String)
  | rawCount
  | listEmpty
  | listKind (value : String)
  | listCount
  | scanCount (name : String)
  | scanText (name : String) (value : String)
  | scanDest (name : String) (value : String)
  | scanExtra (name : String)
  | interceptCount (got : Nat)
  | destArguments
  | undefined (name : String)
deriving Repr, DecidableEq

/-- The wording of a failed call. -/
def CallFault.message : CallFault → String
  | .rawKind value => "Raw expects a string, got " ++ value
  | .rawCount => "Raw expects exactly one argument"
  | .listEmpty => "List of an empty list"
  | .listKind value => "List expects a list, got " ++ value
  | .listCount => "List expects exactly one argument"
  | .scanCount name => name ++ " expects a destination and a SQL expression"
  | .scanText name value => name ++ ": SQL expression must be a string, got " ++ value
  | .scanDest name value => name ++ ": invalid destination " ++ value
  | .scanExtra name => name ++ ": too many arguments"
  | .interceptCount got => "expected one value, got " ++ toString got
  | .destArguments => "Dest takes no arguments"
  | .undefined name => "function " ++ quoted name ++ " not defined"

/-- Why a function or a conversion failed. -/
inductive Cause
  | text (s : String)
  | call (fault : CallFault)
  | column (fault : ColumnFault)
  | foreign (format : Foreign)
deriving Repr, DecidableEq

/-- The wording of a cause, where it is this library's or the function's own. -/
def Cause.message? : Cause → Option String
  | .text s => some s
  | .call fault => some fault.message
  | .column fault => some fault.message
  | .foreign _ => none

end SqlTemplate
