import SqlTemplate.Cache.Service

/-!
# Tasks

Operations on a statement and its caches that run at the same time: all are started in their
order, and then all are finished in their order with the answers of the driver. A task that shares
the load of another is finished after it, since that one was started before.
-/

set_option autoImplicit false

namespace SqlTemplate

/-- Something that can be asked of a statement and its caches. -/
inductive Task
  | render (params : Datum)
  | access (a : Access) (params : Datum)
  | cached (op : CachedOp) (params : Datum)
  | size
  | clear

/-- What a task yields. -/
inductive Reply
  | rendered (r : Rendered)
  | output (output : Output)
  | size (count : Nat)
  | cleared

/-- A task that has been started. -/
inductive RunningTask
  | replied (result : Except Error Reply)
  | access (pending : Statement.Pending)
  | cached (op : CachedOp) (progress : CachedStatement.Progress)

namespace CachedStatement

variable [Lru Key Output]

/-- Starts a task. -/
def startTask (cs : CachedStatement) : Task → StateM Service RunningTask
  | .render params => do
    let result ← Service.onSession (cs.statement.render params)
    return .replied (result.map .rendered)
  | .access a params => do
    match ← Service.onSession (cs.statement.start a params) with
    | .finished result => return .replied (result.map .output)
    | .waiting pending => return .access pending
  | .cached op params => return .cached op (← cs.start op params)
  | .size => return .replied (.ok (.size (← get).size))
  | .clear => do
    modify Service.clear
    return .replied (.ok .cleared)

/-- The answer of a driver to what a cached operation waits for. -/
def answerTo (db : Driver) : Progress → Except Error Answer
  | .loading _ pending => db pending.request
  | _ => .ok (.rows .empty)

/-- Finishes a task; there is no result if it waits for one that has not been finished. -/
def finishTask (cs : CachedStatement) (db : Driver) :
    RunningTask → StateM Service (Option (Except Error Reply))
  | .replied result => return some result
  | .access pending => do
    let result ← Service.onSession (cs.statement.finish pending (db pending.request))
    return some (result.map .output)
  | .cached op progress => do
    match ← cs.proceed op (answerTo db progress) progress with
    | .finished result => return some (result.map .output)
    | _ => return none

/-- Starts tasks in their order. -/
def startTasks (cs : CachedStatement) : List Task → StateM Service (List RunningTask)
  | [] => return []
  | task :: rest => do
    let running ← cs.startTask task
    let others ← startTasks cs rest
    return running :: others

/-- Finishes tasks in their order. -/
def finishTasks (cs : CachedStatement) (db : Driver) :
    List RunningTask → StateM Service (List (Option (Except Error Reply)))
  | [] => return []
  | task :: rest => do
    let result ← cs.finishTask db task
    let others ← finishTasks cs db rest
    return result :: others

/-- Runs tasks at the same time on a driver. -/
def runTasks (cs : CachedStatement) (db : Driver) (tasks : List Task) :
    StateM Service (List (Option (Except Error Reply))) := do
  cs.finishTasks db (← cs.startTasks tasks)

end CachedStatement

end SqlTemplate
