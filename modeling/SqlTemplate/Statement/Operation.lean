import SqlTemplate.Statement.Basic
import SqlTemplate.Statement.Pool
import SqlTemplate.Statement.Scan

/-!
# Operations

An operation on a statement has two halves, between which the driver works: it is started, which
makes the text of the statement and its arguments, and it is finished with the answer of the
driver. Several operations can be between their halves at the same time.
-/

set_option autoImplicit false

namespace SqlTemplate

/-! ## Requests and answers -/

/-- The answer of a driver. -/
inductive Answer
  | affected (count : Nat)
  | rows (rows : Rows)

namespace Answer

/-- The number of rows that were affected. -/
def count : Answer → Nat
  | .affected count => count
  | .rows result => result.size

/-- The rows of the answer. -/
def toRows : Answer → Rows
  | .affected _ => .empty
  | .rows result => result

end Answer

/-- What an operation yields. -/
inductive Output
  | affected (count : Nat)
  | rows (rows : Rows)
  | row (row : Row)
  | value (d : Datum)
  | values (ds : List Datum)

/-- What a driver does with a request. -/
abbrev Driver := Request → Except Error Answer

/-- A statement as it would be sent, with the places of its columns. -/
structure Rendered where
  sql : String
  args : List Value
  dests : List DestPath

/-! ## Sessions -/

/-- What operations share: the runners, and the events that have happened. -/
structure Session where
  pool : RunnerPool
  events : List Event

namespace Session

/-- Nothing has happened. -/
def empty : Session := ⟨.empty, []⟩

/-- Lends a runner. -/
def acquire : StateM Session Runner := do
  let s ← get
  let (runner, pool) := s.pool.acquire
  set { s with pool := pool }
  return runner

/-- Takes a runner back. -/
def release (runner : Runner) : StateM Session Unit :=
  modify fun s => { s with pool := s.pool.release runner }

/-- Takes a step. -/
def step {α : Type} (action : Step α) : StateM Session (Except Error α) := do
  let s ← get
  let (result, events) := action.run.run s.events
  set { s with events := events }
  return result

end Session

namespace Access

/-- Whether the driver is asked for the number of affected rows. -/
def isExec (a : Access) : Bool :=
  a = .exec

/-- What an operation makes of the answer of the driver. -/
def finish (a : Access) (transforms : Transforms) (dest : Shape) (targets : Targets)
    (answer : Answer) : Step Output :=
  match a with
  | .exec => return .affected answer.count
  | .query => return .rows answer.toRows
  | .queryRow =>
    match answer.toRows.first? with
    | some row => return .row row
    | none => throw .notFound
  | .first =>
    match answer.toRows.first? with
    | some row => return .value (← targets.scan transforms dest 0 row)
    | none => throw .notFound
  | .one =>
    match answer.toRows.toList with
    | [] => throw .notFound
    | [row] => return .value (← targets.scan transforms dest 0 row)
    | _ => throw .tooManyRows
  | .all => return .values (← targets.scanAll transforms dest 0 answer.toRows.toList)

end Access

/-! ## The two halves -/

namespace Statement

/-- Runs hooks before the template, in their order, up to the first that fails. -/
def runBefore : Nat → List BeforeHook → Scope → Step Scope
  | _, [], scope => return scope
  | position, hook :: rest, scope => do
    Step.tell (.before position scope)
    let scope ← Step.ofExcept (hook scope)
    runBefore (position + 1) rest scope

/-- The parameters and variables with which the template is executed. -/
def openScope (st : Statement) (op : Op) (params : Datum) : Step Scope := do
  let params ← Step.ofReflection params.toValue
  runBefore 0 st.before ⟨st.name, op, params, st.vars.map fun name => (name, .nil)⟩

/-- Makes the text of the statement and its arguments on a runner. -/
def prepare (st : Statement) (op : Op) (params : Datum) (runner : Runner) :
    StateM Session (Except Error Unit × Runner) := do
  match ← Session.step (st.openScope op params) with
  | .error e => return (.error e, runner)
  | .ok scope =>
    let (result, made) := Rendering.run st.recipe scope.params scope.vars runner.made
    return (result.mapError .eval, { runner with made := made })

/-- What hooks see of an operation. -/
def callOf (st : Statement) (a : Access) (runner : Runner) : Call :=
  ⟨st.name, .access a, runner.made.text.text, runner.made.args⟩

/-- Passes an error through hooks, in their order. -/
def replaceError (call : Call) : Nat → List ErrorHook → Error → Step Error
  | _, [], e => return e
  | position, hook :: rest, e => do
    Step.tell (.replaced position e call)
    replaceError call (position + 1) rest (hook e call)

/-- Passes the error of a result, if it has one, through the hooks. -/
def settle (st : Statement) (call : Call) : Except Error Output → Step (Except Error Output)
  | .ok output => return .ok output
  | .error e => return .error (← replaceError call 0 st.onError e)

/-- The error of a result. -/
def errorOf? : Except Error Output → Option Error
  | .ok _ => none
  | .error e => some e

/-- Tells the hooks behind the first `position` of the end. -/
def tellEnd (call : Call) (error : Option Error) (position : Nat) : Nat → Step Unit
  | 0 => return
  | count + 1 => do
    Step.tell (.ended position call error)
    tellEnd call error (position + 1) count

/-- What happens between the result of an operation and its caller. -/
def conclude (st : Statement) (call : Call) (result : Except Error Output) : Step Output := do
  let result ← st.settle call result
  tellEnd call (errorOf? result) 0 st.observers
  Step.ofExcept result

/-- Ends an operation: the hooks have their say and the runner is given back. -/
def close (st : Statement) (a : Access) (runner : Runner) (result : Except Error Output) :
    StateM Session (Except Error Output) := do
  let result ← Session.step (st.conclude (st.callOf a runner) result)
  Session.release runner
  return result

/-- An operation that waits for the driver. -/
structure Pending where
  access : Access
  runner : Runner
  request : Request

/-- What has become of an operation that was started. -/
inductive Started
  | finished (result : Except Error Output)
  | waiting (pending : Pending)

/-- Starts an operation. -/
def start (st : Statement) (a : Access) (params : Datum) : StateM Session Started := do
  let runner ← Session.acquire
  match ← st.prepare (.access a) params runner with
  | (.error e, runner) => return .finished (← st.close a runner (.error e))
  | (.ok _, runner) =>
    let request : Request := ⟨a.isExec, runner.made.text.text, runner.made.args⟩
    let _ ← Session.step (Step.tell (.asked request))
    return .waiting ⟨a, runner, request⟩

/-- Finishes an operation with the answer of the driver. -/
def finish (st : Statement) (pending : Pending) (answer : Except Error Answer) :
    StateM Session (Except Error Output) := do
  let result ← match answer with
    | .ok answer =>
      Session.step
        (pending.access.finish st.transforms st.dest pending.runner.made.targets answer)
    | .error e => pure (.error e)
  st.close pending.access pending.runner result

/-- Runs an operation on a driver. -/
def run (st : Statement) (db : Driver) (a : Access) (params : Datum) :
    StateM Session (Except Error Output) := do
  match ← st.start a params with
  | .finished result => return result
  | .waiting pending => st.finish pending (db pending.request)

/-- Makes the text of the statement and its arguments without running it. -/
def render (st : Statement) (params : Datum) : StateM Session (Except Error Rendered) := do
  let runner ← Session.acquire
  let (result, runner) ← st.prepare .render params runner
  let made := runner.made
  Session.release runner
  return result.map fun _ => ⟨made.text.text, made.args, made.dests⟩

end Statement

end SqlTemplate
