import SqlTemplate.Cache.Flight
import SqlTemplate.Cache.Options
import SqlTemplate.Statement.Operation

/-!
# Cached statements

A statement whose scanning operations are served from caches, one for each operation, under the
keys of their parameters. What is stored is answered without running the statement.
-/

set_option autoImplicit false

namespace SqlTemplate

/-- The operations that are served from caches. -/
inductive CachedOp
  | first
  | one
  | all
deriving Repr, DecidableEq

/-- The operation of the statement that a cached one loads from. -/
def CachedOp.access : CachedOp → Access
  | .first => .first
  | .one => .one
  | .all => .all

/-- A statement with the key function of its caches. -/
structure CachedStatement where
  statement : Statement
  keyOf : Value → Key

variable [Lru Key Output]

/-- What operations on a statement and its caches share. -/
structure Service where
  session : Session
  first : Cache Key Output
  one : Cache Key Output
  all : Cache Key Output

namespace Service

/-- Nothing has happened. -/
def empty (capacity : Option Nat) : Service :=
  ⟨.empty, .empty capacity, .empty capacity, .empty capacity⟩

/-- The cache of an operation. -/
def cache (s : Service) : CachedOp → Cache Key Output
  | .first => s.first
  | .one => s.one
  | .all => s.all

/-- Gives an operation another cache. -/
def withCache (s : Service) (cache : Cache Key Output) : CachedOp → Service
  | .first => { s with first := cache }
  | .one => { s with one := cache }
  | .all => { s with all := cache }

/-- The number of stored results of all operations. -/
def size (s : Service) : Nat :=
  s.first.size + s.one.size + s.all.size

/-- Forgets all results. -/
def clear (s : Service) : Service :=
  { s with first := s.first.clear, one := s.one.clear, all := s.all.clear }

/-- Works on the session. -/
def onSession {α : Type} (action : StateM Session α) : StateM Service α := do
  let s ← get
  let (a, session) := action.run s.session
  set { s with session := session }
  return a

/-- Works on the cache of an operation. -/
def onCache {α : Type} (op : CachedOp) (f : Cache Key Output → α × Cache Key Output) :
    StateM Service α := do
  let s ← get
  let (a, cache) := f (s.cache op)
  set (s.withCache cache op)
  return a

end Service

namespace CachedStatement

/-- What has become of a cached operation: it is finished, it waits for another call, or it loads
and waits for the driver. -/
inductive Progress
  | finished (result : Except Error Output)
  | waiting (number : Nat)
  | loading (number : Nat) (pending : Statement.Pending)

/-- The result of a call, if it has finished. -/
def result? (op : CachedOp) (number : Nat) : StateM Service (Option (Except Error Output)) := do
  return ((← get).cache op).result? number

/-- The progress of a call that does not load. -/
def progress (op : CachedOp) (number : Nat) : StateM Service Progress := do
  match ← result? op number with
  | some result => return .finished result
  | none => return .waiting number

/-- The load of a call has ended. -/
def land (op : CachedOp) (number : Nat) (result : Except Error Output) :
    StateM Service Progress := do
  Service.onCache op fun cache => ((), cache.resume number result)
  progress op number

/-- Starts a cached operation. Parameters that have no value have no key either. -/
def start (cs : CachedStatement) (op : CachedOp) (params : Datum) : StateM Service Progress := do
  match params.toValue with
  | .error fault => return .finished (.error (.reflection fault))
  | .ok v =>
    let number ← Service.onCache op fun cache => cache.begin (cs.keyOf v)
    if ((← get).cache op).isLoading number then
      match ← Service.onSession (cs.statement.start op.access params) with
      | .finished result => land op number result
      | .waiting pending => return .loading number pending
    else progress op number

/-- Continues a cached operation with the answer of the driver, if it waits for that. -/
def proceed (cs : CachedStatement) (op : CachedOp) (answer : Except Error Answer) :
    Progress → StateM Service Progress
  | .finished result => return .finished result
  | .waiting number => do
    Service.onCache op fun cache => ((), cache.settle number)
    progress op number
  | .loading number pending => do
    let result ← Service.onSession (cs.statement.finish pending answer)
    land op number result

/-- Runs a cached operation on a driver; there is no result if it waits for another call. -/
def run? (cs : CachedStatement) (db : Driver) (op : CachedOp) (params : Datum) :
    StateM Service (Option (Except Error Output)) := do
  match ← cs.start op params with
  | .finished result => return some result
  | .waiting _ => return none
  | .loading number pending =>
    match ← cs.proceed op (db pending.request) (.loading number pending) with
    | .finished result => return some result
    | _ => return none

end CachedStatement

end SqlTemplate
