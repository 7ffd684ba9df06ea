import SqlTemplate.Text.FieldName
import SqlTemplate.Time.Instant

/-!
# Values

The dynamic values that flow through a template: parameters, bound arguments and scanned columns,
and the pieces of statement text that template functions produce. The entries of a map are kept
in the order in which their keys were first put; every map is built by `putEntry`, so that a key
has one entry.
-/

set_option autoImplicit false

namespace SqlTemplate

/-! ## Types -/

/-- A field path inside the destination of a statement; the empty path is the destination. -/
structure DestPath where
  segments : List String
deriving Repr, DecidableEq, Inhabited

namespace DestPath

/-- The destination itself. -/
def root : DestPath := ⟨[]⟩

/-- The path one field further in. -/
def child (path : DestPath) (name : String) : DestPath := ⟨path.segments ++ [name]⟩

/-- Whether the path is the destination itself. -/
def isRoot (path : DestPath) : Bool := path.segments.isEmpty

/-- The path as it is printed. -/
def toText (path : DestPath) : String :=
  String.join ("Dest" :: path.segments.map ("." ++ ·))

end DestPath

/-- The column conversions that a scan can ask for. -/
inductive ScanKind
  | text
  | int
  | int8
  | int16
  | int32
  | int64
  | uint
  | float
  | float32
  | float64
  | bool
  | time
  | bytes
  | json
deriving Repr, DecidableEq

mutual

/-- A dynamic value. -/
inductive Value
  | nil
  | bool (b : Bool)
  | int (n : Int64)
  | float (x : Float)
  | text (s : String)
  | bytes (data : List UInt8)
  | instant (t : Instant)
  | list (items : List Value)
  | map (entries : List (String × Value))
  | fragment (f : Fragment)
  | dest (path : DestPath)

/-- A value that is not bound as an argument: literal text, a column with the place where it is
stored, or a list of arguments. -/
inductive Fragment
  | raw (sql : String)
  | scanner (sql : String) (dest : DestPath) (mapper : Option Mapper)
  | list (items : List Value)

/-- What is done to a column before it is stored: a conversion, which may let NULL pass and store
`fallback` for it, or a transformation known by its name. -/
inductive Mapper
  | scan (kind : ScanKind) (nullable : Bool) (fallback : Value)
  | custom (name : String)

end

instance : Inhabited Value := ⟨.nil⟩

/-- The entries of a map, each key once. -/
abbrev Entries := List (String × Value)

/-! ## Entries -/

/-- Gives a key its value: in the place that the key has, or behind all others. -/
def putEntry (key : String) (value : Value) : Entries → Entries
  | [] => [(key, value)]
  | (k, v) :: rest => if k = key then (k, value) :: rest else (k, v) :: putEntry key value rest

/-- The map with the given entries, put one after the other. -/
def Value.ofEntries (entries : Entries) : Value :=
  .map (entries.foldl (fun m (k, v) => putEntry k v m) [])

/-- The value of a name among entries: that of the key that equals it, or else of the first key
that matches it. -/
def findEntry (name : String) (entries : Entries) : Option Value :=
  (entries.lookup name).or ((entries.find? fun e => nameMatches e.1 name).map (·.2))

/-- The position of a name among names: the first that equals it, or else the first that
matches. -/
def findName (name : String) (names : List String) : Option Nat :=
  (names.findIdx? (· = name)).or (names.findIdx? fun n => nameMatches n name)

namespace Value

/-! ## Kinds -/

/-- Whether the value is NULL. -/
def isNil : Value → Bool
  | .nil => true
  | _ => false

/-- Whether a condition takes the value as true: not false, zero, NULL or empty. -/
def isTruthy : Value → Bool
  | .nil => false
  | .bool b => b
  | .int n => n ≠ 0
  | .float x => x != 0
  | .text s => s ≠ ""
  | .bytes data => !data.isEmpty
  | .list items => !items.isEmpty
  | .map entries => !entries.isEmpty
  | .instant _ | .fragment _ | .dest _ => true

/-- The name of the kind of a value, as messages use it. -/
def typeName : Value → String
  | .nil => "nil"
  | .bool _ => "bool"
  | .int _ => "int"
  | .float _ => "float"
  | .text _ => "string"
  | .bytes _ => "bytes"
  | .instant _ => "timestamp"
  | .list _ => "list"
  | .map _ => "map"
  | .fragment _ => "fragment"
  | .dest _ => "destination"

/-- The zero of the kind of a value. -/
def zeroLike : Value → Value
  | .bool _ => .bool false
  | .int _ => .int 0
  | .float _ => .float 0
  | .text _ => .text ""
  | .bytes _ => .bytes []
  | .list _ => .list []
  | .map _ => .map []
  | _ => .nil

/-! ## Fields -/

/-- The field of a map. -/
def field? (v : Value) (name : String) : Option Value :=
  match v with
  | .map entries => findEntry name entries
  | _ => none

/-- The entries of a map; none for any other value. -/
def entries : Value → Entries
  | .map entries => entries
  | _ => []

/-- The value in which another is stored at a path of keys. What is no map gives way to one. -/
def insertAt (v : Value) (path : List String) (value : Value) : Value :=
  match path with
  | [] => value
  | key :: path =>
    .map (putEntry key (((v.entries.lookup key).getD .nil).insertAt path value) v.entries)

/-- Follows a path of keys exactly. -/
def follow? (v : Value) : List String → Option Value
  | [] => some v
  | key :: path =>
    match v.entries.lookup key with
    | some w => w.follow? path
    | none => none

end Value

end SqlTemplate
