import SqlTemplate.Statement.Operation
import SqlTemplate.Transaction
import SqlTemplate.Wire.Decode

/-!
# Servers

A database server as a driver. A statement is described by the server before it is run: its
arguments are encoded as the types that the server names, and its rows are decoded from them.
Transactions are commands, and transactions within transactions are savepoints.
-/

set_option autoImplicit false

namespace SqlTemplate

/-- A column of a result. -/
structure Column where
  name : String
  type : ColumnType

/-- What a server says about a statement: the types of its arguments and its columns. -/
structure Description where
  params : List ColumnType
  columns : List Column

/-- What a server yields for a statement: rows, and a tag that may end in a count. -/
structure Response where
  rows : List (List Cell)
  tag : String

/-- A server: it describes statements, runs them with arguments, and takes commands; it may refuse
any of that. A command can also be posted: the server takes it some time before the next request,
and whether it refuses it does not become known. -/
structure Server (σ : Type) where
  describe : String → StateM σ (Option Description)
  run : String → List Cell → StateM σ (Option Response)
  command : String → StateM σ Bool
  post : String → StateM σ Unit

/-! ## Statements -/

/-- Arguments as the types that a server names; there has to be one for each. -/
def encodeArgs : List ColumnType → List Value → Option (List Cell)
  | [], [] => some []
  | t :: types, v :: args =>
    match v.toCell t >>= checkLength with
    | .ok cell => (encodeArgs types args).map (cell :: ·)
    | .error _ => none
  | _, _ => none

/-- The error of a column that cannot be read. -/
def Column.refuse (column : Column) : DecodeFault → Error
  | .unsupported =>
    .reflection (.unsupported ("column " ++ column.name ++ " has type " ++ column.type.label))
  | .malformed => .scan column.name

/-- The values of a row, from the left up to the first that cannot be read. -/
def decodeRow : List Column → List Cell → Except Error (List Value)
  | column :: columns, cell :: cells => do
    let v ← (column.type.ofCell cell).mapError column.refuse
    let vs ← decodeRow columns cells
    .ok (v :: vs)
  | _, _ => .ok []

/-- The values of rows, up to the first that cannot be read. -/
def decodeRows (columns : List Column) : List (List Cell) → Except Error (List (List Value))
  | [] => .ok []
  | row :: rest => do
    let vs ← decodeRow columns row
    let rows ← decodeRows columns rest
    .ok (vs :: rows)

/-- The characters behind the last space. -/
def lastWord (tag : String) : List Char :=
  (tag.toList.reverse.takeWhile (· ≠ ' ')).reverse

/-- The count at the end of a tag; zero if there is none. -/
def affectedRows (tag : String) : Nat :=
  let word := lastWord tag
  let digits := if word.head? = some '+' then word.tail else word
  match readNumber ((1 <<< 64) - 1) .tooLarge digits with
  | .ok n => n
  | .error _ => 0

namespace Server

variable {σ : Type}

/-- Runs a statement whose arguments have been encoded, unless the server refuses it. -/
def submit (server : Server σ) (sql : String) (args : List Value) :
    StateM σ (Except Error (Description × Response)) := do
  match ← server.describe sql with
  | none => return .error .server
  | some description =>
    match encodeArgs description.params args with
    | none => return .error .server
    | some cells =>
      match ← server.run sql cells with
      | none => return .error .server
      | some response => return .ok (description, response)

/-- The number of rows that a statement affects. -/
def execute (server : Server σ) (sql : String) (args : List Value) :
    StateM σ (Except Error Nat) := do
  return (← server.submit sql args).map fun e => affectedRows e.2.tag

/-- The rows of a statement. -/
def query (server : Server σ) (sql : String) (args : List Value) :
    StateM σ (Except Error Rows) := do
  return (← server.submit sql args).bind fun e =>
    (decodeRows e.1.columns e.2.rows).map fun rows => ⟨e.1.columns.map (·.name), rows⟩

/-- The answer of a server to a request. -/
def answer (server : Server σ) (request : Request) : StateM σ (Except Error Answer) := do
  if request.exec then return (← server.execute request.sql request.args).map .affected
  else return (← server.query request.sql request.args).map .rows

/-! ## Transactions -/

/-- Gives a command. -/
def issue (server : Server σ) (command : String) : StateM σ (Except Error Unit) := do
  if ← server.command command then return .ok () else return .error .server

/-- The name of the savepoint at a depth. -/
def savepoint (depth : Nat) : String :=
  "sp_" ++ toString depth

/-- Opens a transaction. Should the server refuse that, it is told to roll back all the same. -/
def openTransaction (server : Server σ) : StateM σ (Except Error Unit) := do
  match ← server.issue "START TRANSACTION" with
  | .ok _ => return .ok ()
  | .error e =>
    server.post "ROLLBACK"
    return .error e

/-- The server as a connection in which so many transactions are open. -/
def connection (server : Server σ) : Nat → Connection σ
  | 0 => {
    begin := server.openTransaction
    commit := server.issue "COMMIT"
    rollback := server.issue "ROLLBACK" }
  | depth + 1 => {
    begin := server.issue ("SAVEPOINT " ++ savepoint (depth + 1))
    commit := server.issue ("RELEASE " ++ savepoint (depth + 1))
    rollback := server.issue ("ROLLBACK TO " ++ savepoint (depth + 1)) }

end Server

end SqlTemplate
