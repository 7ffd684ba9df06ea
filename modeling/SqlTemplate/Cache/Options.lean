import SqlTemplate.Cache.Key
import SqlTemplate.Statement.Settings

/-!
# Cache options

How much a cache keeps, and what it takes as the key of a value.
-/

set_option autoImplicit false

namespace SqlTemplate

/-- The options of a cache. -/
structure CacheOptions where
  capacity : Option Nat
  keyOf : Value → Key

namespace CacheOptions

/-- A cache that keeps everything. -/
def unbounded : CacheOptions := ⟨none, Key.of⟩

/-- A cache that keeps a number of values; zero stands for all. -/
def bounded (capacity : Nat) : CacheOptions :=
  ⟨if capacity = 0 then none else some capacity, Key.of⟩

/-- The options that settings give. -/
def ofSettings (settings : Settings) : CacheOptions :=
  match settings.cacheCapacity with
  | some capacity => bounded capacity
  | none => unbounded

/-- The text that shows options. -/
def describe (options : CacheOptions) : String :=
  let capacity := match options.capacity with
    | some n => "Some(" ++ toString n ++ ")"
    | none => "None"
  "CacheOptions \x7b capacity: " ++ capacity ++ ", .. \x7d"

end CacheOptions

end SqlTemplate
