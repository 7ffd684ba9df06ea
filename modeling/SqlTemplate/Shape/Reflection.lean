import SqlTemplate.Number.Binary
import SqlTemplate.Number.Integer
import SqlTemplate.Shape.Basic
import SqlTemplate.Text.Utf8
import SqlTemplate.Time.Rfc3339
import SqlTemplate.Value.Text

/-!
# Typed and dynamic values

Parameters are turned into dynamic values before a template runs, and what was scanned is turned
into a typed value of the destination. Both directions can fail: not every type is exchanged, and
not every value fits.
-/

set_option autoImplicit false

namespace SqlTemplate

/-! ## Failures -/

/-- Why a typed value could not be turned into a dynamic one, or the other way round. What is
`unsuited` has a wording that is not this library's: a field without value and default, or a text
that cannot be read. -/
inductive ReflectionFault
  | unsupported (type : String)
  | tooWide (n : Int)
  | kindOf (value : String) (type : String)
  | null (type : String)
  | outOfRange (n : Int) (type : String)
  | unsuited
  | other (text : String)
deriving Repr, DecidableEq

/-- The text of the failure, where it is this library's. -/
def ReflectionFault.message? : ReflectionFault → Option String
  | .unsupported type => some ("unsupported type: " ++ type)
  | .tooWide n => some ("reflection error: " ++ toString n ++ " does not fit in a 64-bit integer")
  | .kindOf value type =>
    some ("reflection error: cannot store " ++ value ++ " value in " ++ type)
  | .null type => some ("reflection error: cannot store NULL in non-nullable " ++ type)
  | .outOfRange n type =>
    some ("reflection error: " ++ toString n ++ " out of range for " ++ type)
  | .unsuited => none
  | .other text => some ("reflection error: " ++ text)

/-! ## From typed values -/

/-- The name of an entry of a map. -/
def keyText : Value → String
  | .text s => s
  | v => v.toText

mutual

/-- The dynamic value of a typed value. -/
def Datum.toValue : Datum → Except ReflectionFault Value
  | .unit => .error (.unsupported Shape.unit.identifier)
  | .bool b => .ok (.bool b)
  | .char _ => .error (.unsupported Shape.char.identifier)
  | .int type n =>
    if type.isExchanged then
      match toInt64? n with
      | some i => .ok (.int i)
      | none => .error (.tooWide n)
    else .error (.unsupported type.identifier)
  | .float32 x => .ok (.float (widen x))
  | .float64 x => .ok (.float x)
  | .text s => .ok (.text s)
  | .borrowed _ => .error (.unsupported Shape.borrowed.identifier)
  | .bytes data => .ok (.bytes data)
  | .instant t => .ok (.instant t)
  | .absent => .ok .nil
  | .present d => d.toValue
  | .list items => (valuesOfData items).map .list
  | .array items => (valuesOfData items).map .list
  | .tuple _ => .error (.unsupported (Shape.tuple []).identifier)
  | .boxed _ => .error (.unsupported (Shape.boxed .unit).identifier)
  | .map entries => (entriesOfMap entries).map Value.ofEntries
  | .record _ fields => (entriesOfFields fields).map Value.ofEntries
  | .marker _ => .ok .nil
  | .variant type _ => .error (.unsupported type)

/-- The dynamic values of typed values, up to the first that has none. -/
def valuesOfData : List Datum → Except ReflectionFault (List Value)
  | [] => .ok []
  | d :: rest => do
    let v ← d.toValue
    let vs ← valuesOfData rest
    .ok (v :: vs)

/-- The entries of a map; keys are printed. -/
def entriesOfMap : List (Datum × Datum) → Except ReflectionFault Entries
  | [] => .ok []
  | (key, d) :: rest => do
    let k ← key.toValue
    let v ← d.toValue
    let vs ← entriesOfMap rest
    .ok ((keyText k, v) :: vs)

/-- The entries of a record, under the names of its fields. -/
def entriesOfFields : List (String × Datum) → Except ReflectionFault Entries
  | [] => .ok []
  | (name, d) :: rest => do
    let v ← d.toValue
    let vs ← entriesOfFields rest
    .ok ((name, v) :: vs)

end

/-! ## To typed values -/

/-- The value cannot be stored in the type. -/
def Shape.refuse {α : Type} (shape : Shape) (v : Value) : Except ReflectionFault α :=
  .error (.kindOf v.typeName shape.identifier)

/-- An integer of a type. -/
def IntType.store (type : IntType) : Value → Except ReflectionFault Datum
  | .int n =>
    if n.toInt < type.low ∨ type.high < n.toInt then
      .error (.outOfRange n.toInt type.identifier)
    else .ok (.int type n.toInt)
  | v => (Shape.int type).refuse v

/-- The double of a number. -/
def Shape.storeFloat (shape : Shape) : Value → Except ReflectionFault Float
  | .float x => .ok x
  | .int n => .ok (doubleOfInt n)
  | v => shape.refuse v

/-- The item of a list of the given type, if there are lists of it. -/
def Shape.itemReader? : Shape → Option (Value → Option Datum)
  | .text => some fun v =>
    match v with
    | .text s => some (.text s)
    | _ => none
  | .int type =>
    if type = .i64 ∨ type = .i32 then
      some fun v =>
        match v with
        | .int n => if n.toInt < type.low ∨ type.high < n.toInt then none else some (.int type n.toInt)
        | _ => none
    else none
  | .float64 => some fun v =>
    match v with
    | .float x => some (.float64 x)
    | .int n => some (.float64 (doubleOfInt n))
    | _ => none
  | _ => none

/-- Reads the items of a list; the first that does not fit decides the failure. -/
def Shape.storeItems (shape : Shape) (read : Value → Option Datum) :
    List Value → Except ReflectionFault (List Datum)
  | [] => .ok []
  | v :: rest =>
    match read v with
    | none => shape.refuse v
    | some d => (shape.storeItems read rest).map (d :: ·)

/-- Stores a value that is not NULL in a type that is neither optional nor a record. -/
def Shape.storePlain (shape : Shape) (v : Value) : Except ReflectionFault Datum :=
  match shape with
  | .bool =>
    match v with
    | .bool b => .ok (.bool b)
    | v => shape.refuse v
  | .int type =>
    if type.isExchanged then type.store v else .error (.unsupported type.identifier)
  | .float32 => (shape.storeFloat v).map fun x => .float32 (narrow x)
  | .float64 => (shape.storeFloat v).map .float64
  | .text =>
    match v with
    | .text s => .ok (.text s)
    | v => shape.refuse v
  | .bytes =>
    match v with
    | .bytes data => .ok (.bytes data)
    | .text s => .ok (.bytes (utf8 s))
    | v => shape.refuse v
  | .list item =>
    match item.itemReader? with
    | none => .error (.unsupported shape.identifier)
    | some read =>
      match v with
      | .list items => (shape.storeItems read items).map .list
      | v => shape.refuse v
  | .instant =>
    match v with
    | .instant t => .ok (.instant t)
    | .text s =>
      match Instant.ofText? s with
      | some t => .ok (.instant t)
      | none => .error .unsuited
    | v => shape.refuse v
  | .char =>
    match v with
    | .text s =>
      match s.toList with
      | [c] => .ok (.char c)
      | _ => .error .unsuited
    | v => shape.refuse v
  | _ => .error (.unsupported shape.identifier)

/-- The value for a field: the first entry whose key the field answers to. -/
def FieldInfo.find? (field : FieldInfo) (entries : Entries) : Option Value :=
  (entries.find? fun e => field.answersTo e.1).map (·.2)

/-- What a field takes if no value is given. -/
def FieldInfo.missing (field : FieldInfo) (shape : Shape) : Except ReflectionFault Datum :=
  match field.default?.or shape.default? with
  | some d => .ok d
  | none => .error .unsuited

mutual

/-- The typed value of a dynamic value. -/
def Shape.ofValue (v : Value) : Shape → Except ReflectionFault Datum
  | .option inner => if v.isNil then .ok .absent else (inner.ofValue v).map .present
  | .record name fields =>
    match v with
    | .map entries => (fieldsOfEntries entries fields).map (.record name)
    | v => .error (.kindOf v.typeName name)
  | .marker _ => .error .unsuited
  | shape => if v.isNil then .error (.null shape.identifier) else shape.storePlain v

/-- The fields of a record, each from the entry that it answers to. -/
def fieldsOfEntries (entries : Entries) :
    List (FieldInfo × Shape) → Except ReflectionFault (List (String × Datum))
  | [] => .ok []
  | (field, shape) :: rest => do
    let d ← match field.find? entries with
      | some v => shape.ofValue v
      | none => field.missing shape
    let ds ← fieldsOfEntries entries rest
    .ok ((field.name, d) :: ds)

end

end SqlTemplate
