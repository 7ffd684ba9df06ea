import SqlTemplate.Json.Reader
import SqlTemplate.Wire.Encode

/-!
# Columns in binary form

How a value is read from a column of a type. Only some types can be read, and every one takes
exactly the octets of its form.
-/

set_option autoImplicit false

namespace SqlTemplate

/-- Why a column could not be read: its type has no values here, or its octets are not of the
type. -/
inductive DecodeFault
  | unsupported
  | malformed
deriving Repr, DecidableEq

/-- An integer of exactly the given number of octets. -/
def readInt? (count : Nat) (data : List UInt8) : Option Int :=
  if data.length = count then some (intOfBigOctets data) else none

/-- An integer of exactly the given number of octets, as a value. -/
def decodeInt (count : Nat) (data : List UInt8) : Option Value :=
  (readInt? count data).map fun n => .int (Int64.ofInt n)

/-- A truth value: one octet, which is not zero for true. -/
def decodeBool : List UInt8 → Option Value
  | [b] => some (.bool (b ≠ 0))
  | _ => none

/-- A single as a double. -/
def decodeSingle (data : List UInt8) : Option Value :=
  if data.length = 4 then
    some (.float (widen (Float32.ofBits (UInt32.ofNat (ofBigOctets data)))))
  else none

/-- A double. -/
def decodeDouble (data : List UInt8) : Option Value :=
  if data.length = 8 then some (.float (Float.ofBits (UInt64.ofNat (ofBigOctets data)))) else none

/-- A text. -/
def decodeText (data : List UInt8) : Option Value :=
  (utf8? data).map .text

/-- An instant: the microseconds since the year 2000. -/
def decodeInstant (data : List UInt8) : Option Value := do
  let micros ← readInt? 8 data
  let t ← Instant.ofNanos? (micros * 1000 + wireEpoch)
  some (.instant t)

/-- A document. -/
def decodeJson (data : List UInt8) : Option Value := do
  let j ← Json.ofText? (← utf8? data)
  some (Value.ofJson j)

/-- A document behind the number of its format. -/
def decodeJsonb : List UInt8 → Option Value
  | 1 :: data => decodeJson data
  | _ => none

/-! ## Arrays -/

/-- The integer that the first four octets write, and the rest. -/
def takeInt? (data : List UInt8) : Option (Int × List UInt8) :=
  if 4 ≤ data.length then some (intOfBigOctets (data.take 4), data.drop 4) else none

/-- The first cell, which stands behind its length, and the rest. -/
def takeCell? (data : List UInt8) : Option (Cell × List UInt8) := do
  let (size, rest) ← takeInt? data
  if size < 0 then some (none, rest)
  else if size.toNat ≤ rest.length then some (some (rest.take size.toNat), rest.drop size.toNat)
  else none

/-- A number of cells, behind which nothing is left. -/
def readCells? : Nat → List UInt8 → Option (List Cell)
  | 0, data => if data.isEmpty then some [] else none
  | count + 1, data => do
    let (cell, rest) ← takeCell? data
    let cells ← readCells? count rest
    some (cell :: cells)

/-- The cells of an array of at most one dimension. -/
def readArray? (data : List UInt8) : Option (List Cell) := do
  let (dimensions, data) ← takeInt? data
  let (_, data) ← takeInt? data
  let (_, data) ← takeInt? data
  if dimensions = 0 then readCells? 0 data
  else if dimensions = 1 then
    let (count, data) ← takeInt? data
    let (_, data) ← takeInt? data
    if count < 0 then none else readCells? count.toNat data
  else none

/-- The values of cells; that of NULL is NULL. -/
def decodeCells (read : List UInt8 → Option Value) : List Cell → Option (List Value)
  | [] => some []
  | none :: rest => (decodeCells read rest).map (.nil :: ·)
  | some data :: rest => do
    let v ← read data
    let vs ← decodeCells read rest
    some (v :: vs)

/-- An array of items that are read in the given way. -/
def decodeArray (read : List UInt8 → Option Value) (data : List UInt8) : Option Value := do
  let cells ← readArray? data
  let items ← decodeCells read cells
  some (.list items)

/-! ## Columns -/

/-- How the values of a type are read, if they can be. -/
def ColumnType.reader? : ColumnType → Option (List UInt8 → Option Value)
  | .bool => some decodeBool
  | .int2 => some (decodeInt 2)
  | .int4 => some (decodeInt 4)
  | .int8 => some (decodeInt 8)
  | .float4 => some decodeSingle
  | .float8 => some decodeDouble
  | .text | .varchar | .bpchar | .name => some decodeText
  | .bytea => some fun data => some (.bytes data)
  | .timestamptz => some decodeInstant
  | .json => some decodeJson
  | .jsonb => some decodeJsonb
  | .array .text | .array .varchar => some (decodeArray decodeText)
  | .array .int4 => some (decodeArray (decodeInt 4))
  | .array .int8 => some (decodeArray (decodeInt 8))
  | _ => none

/-- The value of a cell of a column. -/
def ColumnType.ofCell (t : ColumnType) (cell : Cell) : Except DecodeFault Value :=
  match t.reader? with
  | none => .error .unsupported
  | some read =>
    match cell with
    | none => .ok .nil
    | some data =>
      match read data with
      | some v => .ok v
      | none => .error .malformed

end SqlTemplate
