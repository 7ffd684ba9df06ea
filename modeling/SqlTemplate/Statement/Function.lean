import SqlTemplate.Cause
import SqlTemplate.Text.Keyed

/-!
# Statement functions

The functions by which a template writes literal text, registers scans and expands lists, and
sets of functions by name.
-/

set_option autoImplicit false

namespace SqlTemplate

/-- A template function. -/
abbrev Function := List Value → Except Cause Value

/-- Functions by name, sorted by their names. -/
abbrev Functions := List (String × Function)

namespace Functions

/-- No functions. -/
def empty : Functions := []

/-- Registers a function; an earlier one of the same name gives way. -/
def insert (name : String) (f : Function) (fs : Functions) : Functions :=
  putSorted name f fs

/-- Registers functions one after the other. -/
def ofList (items : List (String × Function)) : Functions :=
  sortKeys items

/-- The function of a name. -/
def get? (fs : Functions) (name : String) : Option Function :=
  fs.lookup name

/-- Whether there is a function of the name. -/
def contains (fs : Functions) (name : String) : Bool :=
  (fs.get? name).isSome

/-- The names, sorted. -/
def names (fs : Functions) : List String :=
  fs.map (·.1)

/-- Adds other functions; they win over those of the same name. -/
def merge (fs others : Functions) : Functions :=
  others.foldl (fun fs e => fs.insert e.1 e.2) fs

end Functions

/-! ## Literal text and lists -/

/-- The name of the function that stands for the destination. -/
def destName : String := "Dest"

/-- Makes a text literal. -/
def rawFunction : Function
  | [.text sql] => .ok (.fragment (.raw sql))
  | [.fragment (.raw sql)] => .ok (.fragment (.raw sql))
  | [v] => .error (.call (.rawKind v.typeName))
  | _ => .error (.call .rawCount)

/-- Expands a list that is not empty into arguments. -/
def listFunction : Function
  | [.list []] => .error (.call .listEmpty)
  | [.list items] => .ok (.fragment (.list items))
  | [v] => .error (.call (.listKind v.typeName))
  | _ => .error (.call .listCount)

/-! ## Scans -/

namespace ScanKind

/-- All conversions. -/
def all : List ScanKind :=
  [.text, .int, .int8, .int16, .int32, .int64, .uint, .float, .float32, .float64, .bool, .time,
    .bytes, .json]

/-- How the names of scan functions call a conversion. -/
def suffix : ScanKind → String
  | .json => "JSON"
  | kind => kind.label

end ScanKind

/-- What a scan function does to its column: nothing, or a conversion that may let NULL pass. -/
structure ScanMode where
  kind : ScanKind
  nullable : Bool
deriving Repr, DecidableEq

/-- The name of a scan function. -/
def scanName : Option ScanMode → String
  | none => "Scan"
  | some ⟨kind, nullable⟩ => (if nullable then "ScanNull" else "Scan") ++ kind.suffix

/-- The mapper that the arguments behind the first two ask for. -/
def scanMapper (name : String) (mode : Option ScanMode) (extra : List Value) :
    Except Cause (Option Mapper) :=
  match mode, extra with
  | none, [] => .ok none
  | some m, [] => .ok (some (.scan m.kind m.nullable .nil))
  | some ⟨kind, true⟩, [fallback] => .ok (some (.scan kind true fallback))
  | _, _ => .error (.call (.scanExtra name))

/-- Registers a scan: the column expression, and the place where its value is stored. -/
def scanFunction (mode : Option ScanMode) : Function
  | dest :: .text sql :: extra =>
    match dest with
    | .dest path => do
      let mapper ← scanMapper (scanName mode) mode extra
      .ok (.fragment (.scanner sql path mapper))
    | v => .error (.call (.scanDest (scanName mode) v.typeName))
  | _ :: v :: _ => .error (.call (.scanText (scanName mode) v.typeName))
  | _ => .error (.call (.scanCount (scanName mode)))

/-- The modes of all scan functions. -/
def scanModes : List (Option ScanMode) :=
  none :: ScanKind.all.flatMap fun kind => [some ⟨kind, false⟩, some ⟨kind, true⟩]

/-- Whether the name is that of a scan function. -/
def isScanName (name : String) : Bool :=
  (scanModes.map scanName).contains name

/-- The functions that every statement has. -/
def standardFunctions : Functions :=
  Functions.ofList
    (("Raw", rawFunction) :: ("List", listFunction) ::
      scanModes.map fun mode => (scanName mode, scanFunction mode))

end SqlTemplate
