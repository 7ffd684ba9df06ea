import SqlTemplate.Cache.Store
import SqlTemplate.Error

/-!
# Caches

A cache keeps the results of loads. Calls for a key that is not stored board the flight of that
key: one of them leads it and runs the load, the others wait for its result. Everything a call
does is cut into small steps, between which the steps of other calls may come.
-/

set_option autoImplicit false

namespace SqlTemplate

/-! ## States -/

/-- How far a call has come. It arrives, and boards a flight if the store has nothing for it.
Aboard, it takes the result of the flight or comes to lead it. The leader looks into the store
again, loads, lands its result in the store, and publishes it to the others. Last, a call that was
aboard takes the flight off the board. -/
inductive Phase (ν : Type)
  | arriving
  | boarding
  | aboard (flight : Nat)
  | leading (flight : Nat)
  | loading (flight : Nat)
  | landing (flight : Nat) (result : Except Error ν)
  | publishing (flight : Nat) (result : Except Error ν)
  | leaving (flight : Nat) (result : Except Error ν)
  | finished (result : Except Error ν)
  | cancelled

/-- A call for a key. -/
structure CacheCall (κ ν : Type) where
  key : κ
  phase : Phase ν

/-- A flight: whether a call leads it, and its result once it is published. -/
structure Flight (ν : Type) where
  led : Bool
  result : Option (Except Error ν)

/-- A cache: the store, the flights that can be boarded, all flights, and all calls. -/
structure Cache (κ ν : Type) [Lru κ ν] where
  store : Store κ ν
  board : List (κ × Nat)
  flights : List (Flight ν)
  calls : List (CacheCall κ ν)

namespace Cache

variable {κ ν : Type} [Lru κ ν] [DecidableEq κ]

/-- A cache of a capacity, without values and calls. -/
def empty (capacity : Option Nat) : Cache κ ν := ⟨.empty capacity, [], [], []⟩

/-! ## Steps -/

/-- Brings a call into a phase. -/
def enter (cache : Cache κ ν) (number : Nat) (call : CacheCall κ ν) (phase : Phase ν) :
    Cache κ ν :=
  { cache with calls := cache.calls.set number { call with phase := phase } }

/-- Looks into the store. -/
def lookUp (cache : Cache κ ν) (key : κ) : Option ν × Cache κ ν :=
  let (found, store) := cache.store.get key
  (found, { cache with store := store })

/-- Takes a flight off the board if it is still that of its key. -/
def unlist (key : κ) (flight : Nat) (board : List (κ × Nat)) : List (κ × Nat) :=
  if board.lookup key = some flight then board.filter fun e => e.1 ≠ key else board

/-- The step of a call that has arrived. -/
def arrive (cache : Cache κ ν) (number : Nat) (call : CacheCall κ ν) : Cache κ ν :=
  match cache.lookUp call.key with
  | (some v, cache) => cache.enter number call (.finished (.ok v))
  | (none, cache) => cache.enter number call .boarding

/-- The step of a call that boards a flight, a new one if there is none for its key. -/
def embark (cache : Cache κ ν) (number : Nat) (call : CacheCall κ ν) : Cache κ ν :=
  match cache.board.lookup call.key with
  | some flight => cache.enter number call (.aboard flight)
  | none =>
    let flight := cache.flights.length
    let cache : Cache κ ν := { cache with
      board := (call.key, flight) :: cache.board
      flights := cache.flights ++ [⟨false, none⟩] }
    cache.enter number call (.aboard flight)

/-- The step of a call aboard: it takes the result, or leads if nobody does, or else waits. -/
def sit (cache : Cache κ ν) (number : Nat) (call : CacheCall κ ν) (flight : Nat) :
    Option (Cache κ ν) :=
  match cache.flights[flight]? with
  | some ⟨_, some result⟩ => some (cache.enter number call (.leaving flight result))
  | some ⟨false, none⟩ =>
    some ({ cache with flights := cache.flights.set flight ⟨true, none⟩ }.enter number call
      (.leading flight))
  | _ => none

/-- The step of a leader before it loads. -/
def lead (cache : Cache κ ν) (number : Nat) (call : CacheCall κ ν) (flight : Nat) : Cache κ ν :=
  match cache.lookUp call.key with
  | (some v, cache) => cache.enter number call (.publishing flight (.ok v))
  | (none, cache) => cache.enter number call (.loading flight)

/-- The step of a leader whose load has ended: a value is stored, an error is not. -/
def land (cache : Cache κ ν) (number : Nat) (call : CacheCall κ ν) (flight : Nat)
    (result : Except Error ν) : Cache κ ν :=
  let store := match result with
    | .ok v => cache.store.put call.key v
    | .error _ => cache.store
  { cache with store := store }.enter number call (.publishing flight result)

/-- The step of a leader that hands its result over. -/
def publish (cache : Cache κ ν) (number : Nat) (call : CacheCall κ ν) (flight : Nat)
    (result : Except Error ν) : Cache κ ν :=
  { cache with flights := cache.flights.set flight ⟨false, some result⟩ }.enter number call
    (.leaving flight result)

/-- The last step of a call that was aboard. Its error is one that others may have got too. -/
def leave (cache : Cache κ ν) (number : Nat) (call : CacheCall κ ν) (flight : Nat)
    (result : Except Error ν) : Cache κ ν :=
  { cache with board := unlist call.key flight cache.board }.enter number call
    (.finished (result.mapError .shared))

/-- The next step of a call, if it can take one by itself. -/
def step (cache : Cache κ ν) (number : Nat) : Option (Cache κ ν) :=
  match cache.calls[number]? with
  | none => none
  | some call =>
    match call.phase with
    | .arriving => some (cache.arrive number call)
    | .boarding => some (cache.embark number call)
    | .aboard flight => cache.sit number call flight
    | .leading flight => some (cache.lead number call flight)
    | .loading _ => none
    | .landing flight result => some (cache.land number call flight result)
    | .publishing flight result => some (cache.publish number call flight result)
    | .leaving flight result => some (cache.leave number call flight result)
    | .finished _ | .cancelled => none

/-! ## What comes from outside -/

/-- A new call arrives. -/
def request (cache : Cache κ ν) (key : κ) : Cache κ ν :=
  { cache with calls := cache.calls ++ [⟨key, .arriving⟩] }

/-- The load of a call ends. -/
def loaded (cache : Cache κ ν) (number : Nat) (result : Except Error ν) : Option (Cache κ ν) :=
  match cache.calls[number]? with
  | some ⟨key, .loading flight⟩ =>
    some (cache.enter number ⟨key, .loading flight⟩ (.landing flight result))
  | _ => none

/-- A call is given up while it waits or loads. The flight of a leader can be led by another
call. -/
def cancel (cache : Cache κ ν) (number : Nat) : Option (Cache κ ν) :=
  match cache.calls[number]? with
  | some ⟨key, .arriving⟩ => some (cache.enter number ⟨key, .arriving⟩ .cancelled)
  | some ⟨key, .aboard flight⟩ => some (cache.enter number ⟨key, .aboard flight⟩ .cancelled)
  | some ⟨key, .loading flight⟩ =>
    some ({ cache with flights := cache.flights.set flight ⟨false, none⟩ }.enter number
      ⟨key, .loading flight⟩ .cancelled)
  | _ => none

/-- Forgets all values. -/
def clear (cache : Cache κ ν) : Cache κ ν :=
  { cache with store := cache.store.clear }

/-! ## Runs -/

/-- Takes the steps of a call, at most the given number of them, until it has to wait. -/
def advance (number : Nat) : Nat → Cache κ ν → Cache κ ν
  | 0, cache => cache
  | count + 1, cache =>
    match cache.step number with
    | some cache => advance number count cache
    | none => cache

/-- No call takes more steps than this by itself. -/
def longest : Nat := 8

/-- Takes the steps of a call until it has to wait. -/
def settle (cache : Cache κ ν) (number : Nat) : Cache κ ν :=
  advance number longest cache

/-- A new call arrives and takes its steps until it has to wait: its number, and the cache. -/
def begin (cache : Cache κ ν) (key : κ) : Nat × Cache κ ν :=
  (cache.calls.length, (cache.request key).settle cache.calls.length)

/-- A call takes its steps until it has to wait, with the result of its load if it loads. -/
def resume (cache : Cache κ ν) (number : Nat) (result : Except Error ν) : Cache κ ν :=
  ((cache.loaded number result).getD cache).settle number

/-- Whether a call waits for its load. -/
def isLoading (cache : Cache κ ν) (number : Nat) : Bool :=
  match cache.calls[number]? with
  | some ⟨_, .loading _⟩ => true
  | _ => false

/-- The result of a call that has finished. -/
def result? (cache : Cache κ ν) (number : Nat) : Option (Except Error ν) :=
  match cache.calls[number]? with
  | some ⟨_, .finished result⟩ => some result
  | _ => none

/-- New calls arrive one after the other: their numbers, and the cache. -/
def beginAll : List κ → Cache κ ν → List Nat × Cache κ ν
  | [], cache => ([], cache)
  | key :: rest, cache =>
    let (number, cache) := cache.begin key
    let (numbers, cache) := beginAll rest cache
    (number :: numbers, cache)

/-- Calls go on one after the other, each with the result of its load: their results, and the
cache. -/
def resumeAll : List (Nat × Except Error ν) → Cache κ ν → List (Option (Except Error ν)) × Cache κ ν
  | [], cache => ([], cache)
  | (number, result) :: rest, cache =>
    let cache := cache.resume number result
    let found := cache.result? number
    let (results, cache) := resumeAll rest cache
    (found :: results, cache)

/-- The number of stored values. -/
def size (cache : Cache κ ν) : Nat :=
  cache.store.size

end Cache

end SqlTemplate
