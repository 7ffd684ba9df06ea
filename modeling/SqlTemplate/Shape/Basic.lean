import SqlTemplate.Text.FieldName
import SqlTemplate.Time.Instant

/-!
# Shapes

The types that parameters and destinations have outside a template, and the typed values that
inhabit them. A typed value carries enough of its type to be turned into a dynamic value without
it; a shape says what a dynamic value has to look like to become a typed one.
-/

set_option autoImplicit false

namespace SqlTemplate

/-! ## Integers -/

/-- The widths of integers; `size` is that of an address. -/
inductive IntWidth
  | w8
  | w16
  | w32
  | w64
  | w128
  | size
deriving Repr, DecidableEq

/-- The number of bits of a width. -/
def IntWidth.bits : IntWidth → Nat
  | .w8 => 8
  | .w16 => 16
  | .w32 => 32
  | .w64 => 64
  | .w128 => 128
  | .size => 64

/-- How the name of a type writes a width. -/
def IntWidth.label : IntWidth → String
  | .size => "size"
  | width => toString width.bits

/-- A type of integers. -/
structure IntType where
  signed : Bool
  width : IntWidth
deriving Repr, DecidableEq

namespace IntType

/-- The name of the type. -/
def identifier (t : IntType) : String :=
  (if t.signed then "i" else "u") ++ t.width.label

/-- The least integer of the type. -/
def low (t : IntType) : Int :=
  if t.signed then -(1 <<< (t.width.bits - 1) : Nat) else 0

/-- The greatest integer of the type. -/
def high (t : IntType) : Int :=
  ((1 <<< (if t.signed then t.width.bits - 1 else t.width.bits) : Nat) : Int) - 1

/-- Whether values of the type are exchanged with dynamic values at all. -/
def isExchanged (t : IntType) : Bool :=
  t.width ≠ .w128

/-- Octets. -/
def u8 : IntType := ⟨false, .w8⟩

/-- Signed 32-bit integers. -/
def i32 : IntType := ⟨true, .w32⟩

/-- Signed 64-bit integers. -/
def i64 : IntType := ⟨true, .w64⟩

end IntType

/-! ## Typed values -/

/-- A typed value. Optional values are `absent` or `present`; `marker` is the value of a type
without content, and `variant` one case of an enumeration. -/
inductive Datum
  | unit
  | bool (b : Bool)
  | char (c : Char)
  | int (type : IntType) (n : Int)
  | float32 (x : Float32)
  | float64 (x : Float)
  | text (s : String)
  | borrowed (s : String)
  | bytes (data : List UInt8)
  | instant (t : Instant)
  | absent
  | present (value : Datum)
  | list (items : List Datum)
  | array (items : List Datum)
  | tuple (items : List Datum)
  | boxed (value : Datum)
  | map (entries : List (Datum × Datum))
  | record (type : String) (fields : List (String × Datum))
  | marker (type : String)
  | variant (type : String) (case : String)

instance : Inhabited Datum := ⟨.unit⟩

/-! ## Types -/

/-- A field of a record: its name, the name that is declared for it instead, and the value that
it takes if none is given, where that is not the default of its type. -/
structure FieldInfo where
  name : String
  declared : String
  default? : Option Datum

/-- A field that is declared under its own name. -/
def FieldInfo.plain (name : String) : FieldInfo := ⟨name, name, none⟩

/-- Whether a field answers to the name that a template uses. -/
def FieldInfo.answersTo (field : FieldInfo) (name : String) : Bool :=
  nameMatches field.declared name || nameMatches field.name name

/-- A type. -/
inductive Shape
  | unit
  | bool
  | char
  | int (type : IntType)
  | float32
  | float64
  | text
  | borrowed
  | bytes
  | instant
  | option (inner : Shape)
  | list (item : Shape)
  | array (item : Shape) (size : Nat)
  | tuple (items : List Shape)
  | boxed (inner : Shape)
  | map (key value : Shape)
  | record (name : String) (fields : List (FieldInfo × Shape))
  | marker (name : String)
  | enumeration (name : String)

instance : Inhabited Shape := ⟨.unit⟩

namespace Shape

/-- The name of a type, as messages use it. -/
def identifier : Shape → String
  | .unit => "()"
  | .bool => "bool"
  | .char => "char"
  | .int type => type.identifier
  | .float32 => "f32"
  | .float64 => "f64"
  | .text => "String"
  | .borrowed => "&T"
  | .bytes => "Vec"
  | .instant => "Timestamp"
  | .option _ => "Option"
  | .list _ => "Vec"
  | .array _ _ => "[T; N]"
  | .tuple _ => "(…)"
  | .boxed _ => "Box"
  | .map _ _ => "BTreeMap"
  | .record name _ => name
  | .marker name => name
  | .enumeration name => name

/-- Whether the type is a record. -/
def isRecord : Shape → Bool
  | .record _ _ => true
  | _ => false

/-- The value that a field of the type takes if none is given. -/
def default? : Shape → Option Datum
  | .bool => some (.bool false)
  | .int type => some (.int type 0)
  | .float32 => some (.float32 0)
  | .float64 => some (.float64 0)
  | .text => some (.text "")
  | .bytes => some (.bytes [])
  | .option _ => some .absent
  | .list _ => some (.list [])
  | .map _ _ => some (.map [])
  | .array item size => item.default?.map fun d => .array (List.replicate size d)
  | _ => none

/-- The type under all layers of optionality. -/
def peel : Shape → Shape
  | .option inner => inner.peel
  | s => s

/-- The type of the items of a sequence. -/
def item? : Shape → Option Shape
  | .list item => some item
  | .array item _ => some item
  | .bytes => some (.int .u8)
  | _ => none

end Shape

/-- What a type says about a field of a name: that it has it and of what type, that only values
tell, or that it has no such field. -/
inductive FieldLookup
  | found (shape : Shape)
  | dynamic
  | missing

/-- Looks a field up: the first one that answers to the name. -/
def Shape.lookup (shape : Shape) (name : String) : FieldLookup :=
  match shape with
  | .map _ _ => .dynamic
  | .record _ fields =>
    match fields.find? fun e => e.1.answersTo name with
    | some (_, s) => .found s
    | none => .missing
  | _ => .missing

end SqlTemplate
