import SqlTemplate.Cache.Lru

/-!
# Stores

What a cache keeps: values by their keys, either all of them, or as many as a bounded store has room
for.
-/

set_option autoImplicit false

namespace SqlTemplate

/-- Values by their keys. -/
inductive Store (κ ν : Type) [Lru κ ν]
  | unbounded (entries : List (κ × ν))
  | bounded (lru : Lru.State κ ν)

namespace Store

variable {κ ν : Type} [Lru κ ν]

/-- A store that keeps nothing yet. -/
def empty : Option Nat → Store κ ν
  | none => .unbounded []
  | some n => .bounded (Lru.new n)

/-- The number of values. -/
def size : Store κ ν → Nat
  | .unbounded entries => entries.length
  | .bounded lru => Lru.size lru

/-- The store without its values. -/
def clear : Store κ ν → Store κ ν
  | .unbounded _ => .unbounded []
  | .bounded lru => .bounded (Lru.clear lru)

variable [DecidableEq κ]

/-- Looks for the value of a key, which a bounded store takes for a use of it. -/
def get (store : Store κ ν) (key : κ) : Option ν × Store κ ν :=
  match store with
  | .unbounded entries => (entries.lookup key, .unbounded entries)
  | .bounded lru =>
    let (found, lru) := Lru.get lru key
    (found, .bounded lru)

/-- Gives a key a value. -/
def put (store : Store κ ν) (key : κ) (v : ν) : Store κ ν :=
  match store with
  | .unbounded entries => .unbounded ((key, v) :: without key entries)
  | .bounded lru => .bounded (Lru.put lru key v)

end Store

end SqlTemplate
