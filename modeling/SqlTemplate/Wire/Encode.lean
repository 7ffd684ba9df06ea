import SqlTemplate.Json.Writer
import SqlTemplate.Number.Binary
import SqlTemplate.Number.Integer
import SqlTemplate.Number.Octets
import SqlTemplate.Text.Utf8
import SqlTemplate.Value.Document
import SqlTemplate.Wire.ColumnType

/-!
# Arguments in binary form

How a value is sent to the database as an argument of a type. Integers are narrowed to the type,
documents can be made of most values, and lists become arrays.
-/

set_option autoImplicit false

namespace SqlTemplate

/-- Why a value cannot be sent as an argument of a type. -/
inductive EncodeFault
  | wrongType
  | kindOf (value : String) (type : String)
  | noDocument (value : String)
  | unbindable (value : String)
  | narrow (fault : IntegerFault)
  | tooLong
deriving Repr, DecidableEq

/-- The wording of the failure, where it is this library's. -/
def EncodeFault.message? : EncodeFault → Option String
  | .wrongType => none
  | .kindOf value type => some ("cannot encode " ++ value ++ " as " ++ type)
  | .noDocument value => some (value ++ " has no JSON representation")
  | .unbindable value => some ("cannot bind a " ++ value ++ " as a query argument")
  | .narrow fault => some fault.message
  | .tooLong => some "value too large to transmit"

/-- The octets of an argument; none for NULL. -/
abbrev Cell := Option (List UInt8)

/-- The start of the year 2000, in nanoseconds since 1970. -/
def wireEpoch : Int := 946684800 * nanosPerSecond

/-- The microseconds since the year 2000, cut off toward it. -/
def wireMicros (t : Instant) : Int :=
  Int.tdiv (t.nanos - wireEpoch) 1000

/-- An integer narrowed to a number of octets. -/
def encodeInt (count : Nat) (n : Int64) : Except EncodeFault (List UInt8) :=
  if n.toInt < -(1 <<< (8 * count - 1) : Nat) then .error (.narrow .tooSmall)
  else if (1 <<< (8 * count - 1) : Nat) ≤ n.toInt then .error (.narrow .tooLarge)
  else .ok (bigOctets count (complement count n.toInt))

/-- The single nearest to an integer. -/
def singleOfInt (n : Int64) : Nat :=
  BinaryFormat.single.encode (.finite (n.toInt < 0) n.toInt.natAbs 0)

/-- A document of a type. -/
def encodeDocument (t : ColumnType) (j : Json) : Except EncodeFault (List UInt8) :=
  match t with
  | .json => .ok (utf8 j.write)
  | .jsonb => .ok (1 :: utf8 j.write)
  | _ => .error .wrongType

/-- The document of a value as an argument of a type. -/
def encodeAsDocument (t : ColumnType) (v : Value) : Except EncodeFault (List UInt8) :=
  match v.toJson? with
  | some j => encodeDocument t j
  | none => .error (.noDocument v.typeName)

/-- A truth value. -/
def encodeBool (t : ColumnType) (b : Bool) : Except EncodeFault (List UInt8) :=
  match t with
  | .bool => .ok [if b then 1 else 0]
  | t => encodeDocument t (.bool b)

/-- An integer. -/
def encodeInteger (t : ColumnType) (n : Int64) : Except EncodeFault (List UInt8) :=
  match t with
  | .int2 => encodeInt 2 n
  | .int4 => encodeInt 4 n
  | .int8 => encodeInt 8 n
  | .float4 => .ok (bigOctets 4 (singleOfInt n))
  | .float8 => .ok (bigOctets 8 (doubleOfInt n).toBits.toNat)
  | .text | .varchar => .ok (utf8 (toString n.toInt))
  | t =>
    if t.isDocument then encodeDocument t (.integer n.toInt)
    else .error (.kindOf (Value.int n).typeName t.label)

/-- A double. -/
def encodeFloat (t : ColumnType) (x : Float) : Except EncodeFault (List UInt8) :=
  match t with
  | .float4 => .ok (bigOctets 4 (narrow x).toBits.toNat)
  | .float8 => .ok (bigOctets 8 x.toBits.toNat)
  | t =>
    if t.isDocument then encodeDocument t (Json.ofDouble x)
    else .error (.kindOf (Value.float x).typeName t.label)

/-- A text. -/
def encodeText (t : ColumnType) (s : String) : Except EncodeFault (List UInt8) :=
  if t.isText then .ok (utf8 s) else encodeDocument t (.text s)

/-- A cell behind its length; the length of NULL is -1. -/
def sizedCell : Cell → List UInt8
  | none => bigOctets 4 (complement 4 (-1))
  | some data => bigOctets 4 data.length ++ data

/-- The first length that is too long: lengths and counts are sent as integers of four octets. -/
def lengthLimit : Nat := 1 <<< 31

/-- A cell whose length can be sent. -/
def checkLength : Cell → Except EncodeFault Cell
  | none => .ok none
  | some data => if data.length < lengthLimit then .ok (some data) else .error .tooLong

/-- An array of one dimension: whether it has NULLs, the number of the type of its items, their
count, the position of the first, and the items. -/
def encodeArray (first : Nat) (item : ColumnType) (cells : List Cell) : List UInt8 :=
  bigOctets 4 1 ++ bigOctets 4 (if cells.contains none then 1 else 0) ++
    bigOctets 4 item.number ++ bigOctets 4 cells.length ++ bigOctets 4 first ++
    cells.flatMap sizedCell

/-- An array of so many items, given their cells, unless they are too many. -/
def arrayOfCells (first : Nat) (item : ColumnType) (count : Nat)
    (cells : Except EncodeFault (List Cell)) : Except EncodeFault Cell :=
  if count < lengthLimit then cells.map fun cs => some (encodeArray first item cs)
  else .error .tooLong

mutual

/-- A value as an argument of a type. -/
def Value.toCell : Value → ColumnType → Except EncodeFault Cell
  | .nil, _ => .ok none
  | .bool b, t => (encodeBool t b).map some
  | .int n, t => (encodeInteger t n).map some
  | .float x, t => (encodeFloat t x).map some
  | .text s, t => (encodeText t s).map some
  | .bytes data, t => if t = .bytea then .ok (some data) else .error .wrongType
  | .instant moment, t =>
    if t = .timestamptz then .ok (some (bigOctets 8 (complement 8 (wireMicros moment))))
    else .error .wrongType
  | .list items, .array item => arrayOfCells 1 item items.length (cellsOfValues items item)
  | .list items, .vector _ _ item => arrayOfCells 0 item items.length (cellsOfValues items item)
  | .list items, t => (encodeAsDocument t (.list items)).map some
  | .map entries, t => (encodeAsDocument t (.map entries)).map some
  | .fragment f, _ => .error (.unbindable (Value.fragment f).typeName)
  | .dest path, _ => .error (.unbindable (Value.dest path).typeName)

/-- Values as items of an array, up to the first that cannot be sent. -/
def cellsOfValues : List Value → ColumnType → Except EncodeFault (List Cell)
  | [], _ => .ok []
  | v :: rest, t => do
    let c ← v.toCell t
    let c ← checkLength c
    let cs ← cellsOfValues rest t
    .ok (c :: cs)

end

end SqlTemplate
