import SqlTemplate.Statement.Config
import SqlTemplate.Statement.Rendering
import SqlTemplate.Statement.Rows

/-!
# Scanning

How rows become typed values of the destination. Every column goes to the place that the scan of
its position registered, after the mapper of that scan was applied to it. Without scans, a record
takes the columns by their names, and any other type takes the only column.
-/

set_option autoImplicit false

namespace SqlTemplate

/-! ## Steps and events -/

/-- What a driver is asked to run; `exec` is asked for the number of rows that it affects, and
everything else for rows. -/
structure Request where
  exec : Bool
  sql : String
  args : List Value

/-- What happens in the course of operations: a hook runs before the template, a driver is asked,
a mapper is applied to a column of a row, a hook may replace an error, and a hook is told of the
end. Hooks are known by their positions. -/
inductive Event
  | before (hook : Nat) (scope : Scope)
  | asked (request : Request)
  | mapped (row column : Nat) (value : Value)
  | replaced (hook : Nat) (error : Error) (call : Call)
  | ended (hook : Nat) (call : Call) (error : Option Error)

/-- A step of an operation, which tells what happens in it. -/
abbrev Step (α : Type) := ExceptT Error (StateM (List Event)) α

namespace Step

/-- Tells an event. -/
def tell (event : Event) : Step Unit :=
  modify fun events => events ++ [event]

/-- Continues with a result, or stops with its error. -/
def ofExcept {α : Type} (result : Except Error α) : Step α :=
  match result with
  | .ok a => pure a
  | .error e => throw e

/-- Continues with a typed or dynamic value, or stops because there is none. -/
def ofReflection {α : Type} (result : Except ReflectionFault α) : Step α :=
  ofExcept (result.mapError .reflection)

end Step

/-! ## Targets -/

/-- Where the columns of a row go, and what is done to them before. -/
structure Targets where
  dests : List DestPath
  mappers : List (Option Mapper)

/-- The targets that a rendering has registered. -/
def Rendering.targets (r : Rendering) : Targets :=
  ⟨r.dests, r.mappers⟩

namespace Targets

/-- A column of a row: its position, the place where it is stored, and its value. -/
structure Cell where
  column : Nat
  path : DestPath
  mapper : Option Mapper
  value : Value

/-- The columns of a row with their places. -/
def cells (targets : Targets) (row : Row) : List Cell :=
  (targets.dests.zip row.values).mapIdx fun i (path, value) =>
    ⟨i, path, (targets.mappers[i]?).join, value⟩

/-- The value of a column after its mapper was applied. -/
def mapCell (transforms : Transforms) (row : Row) (position : Nat) (cell : Cell) : Step Value :=
  match cell.mapper with
  | none => return cell.value
  | some mapper => do
    Step.tell (.mapped position cell.column cell.value)
    match mapper.apply transforms cell.value with
    | .ok v => return v
    | .error cause => throw (.mapper (row.columnName cell.column) cause)

/-- Stores columns one after the other. -/
def storeCells (transforms : Transforms) (row : Row) (position : Nat) :
    List Cell → Value → Step Value
  | [], stored => return stored
  | cell :: rest, stored => do
    let value ← mapCell transforms row position cell
    storeCells transforms row position rest (stored.insertAt cell.path.segments value)

/-- Puts the columns of a row together. -/
def assemble (targets : Targets) (transforms : Transforms) (position : Nat) (row : Row) :
    Step Value :=
  if targets.dests.isEmpty then return row.toMap
  else if row.values.length ≠ targets.dests.length then
    throw (.columnCount targets.dests.length row.values.length)
  else storeCells transforms row position (targets.cells row) .nil

/-- Scans a row into a value of the destination. -/
def scan (targets : Targets) (transforms : Transforms) (dest : Shape) (position : Nat)
    (row : Row) : Step Datum :=
  if targets.dests.isEmpty && !dest.isRecord then
    match row.values with
    | [v] => Step.ofReflection (dest.ofValue v)
    | values => throw (.columnCount 1 values.length)
  else do
    let v ← targets.assemble transforms position row
    Step.ofReflection (dest.ofValue v)

/-- Scans rows one after the other. -/
def scanAll (targets : Targets) (transforms : Transforms) (dest : Shape) :
    Nat → List Row → Step (List Datum)
  | _, [] => return []
  | position, row :: rest => do
    let d ← targets.scan transforms dest position row
    let ds ← scanAll targets transforms dest (position + 1) rest
    return d :: ds

end Targets

end SqlTemplate
