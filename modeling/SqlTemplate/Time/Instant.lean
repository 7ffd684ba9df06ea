/-!
# Instants

An instant is a number of nanoseconds since the first of January 1970 in universal time. The
range is that of the years from -9999 to 9999, less a day's margin for offsets at either end.
-/

set_option autoImplicit false

namespace SqlTemplate

/-- The nanoseconds of a second. -/
def nanosPerSecond : Int := 1000000000

/-- The first instant. -/
def Instant.floor : Int := -377705023201 * nanosPerSecond

/-- The last instant. -/
def Instant.ceiling : Int := 253402207200 * nanosPerSecond + 999999999

/-- An instant, in nanoseconds since 1970. -/
structure Instant where
  nanos : Int
  floor_le : Instant.floor ≤ nanos
  le_ceiling : nanos ≤ Instant.ceiling
deriving DecidableEq

namespace Instant

/-- The instant with the given number of nanoseconds, if it is in range. -/
def ofNanos? (n : Int) : Option Instant :=
  if h : Instant.floor ≤ n ∧ n ≤ Instant.ceiling then some ⟨n, h.1, h.2⟩ else none

/-- The start of 1970. -/
def epoch : Instant := ⟨0, by decide, by decide⟩

instance : Inhabited Instant := ⟨epoch⟩

/-- The instant of a number is found again from its nanoseconds. -/
theorem ofNanos?_nanos (t : Instant) : ofNanos? t.nanos = some t := by
  simp [ofNanos?, t.floor_le, t.le_ceiling]

end Instant

end SqlTemplate
