/-
# The clock

Instants as nanoseconds since 1970, and the microseconds that writes are stamped
with.  Stamps are unsigned 64-bit numbers; an instant that has none is stamped 0.

* `micros_lt` : every stamp fits into 64 bits.
-/

namespace DashboardAccess

/-- An instant, in nanoseconds since 1970. -/
structure Clock where
  nanos : Int
deriving DecidableEq, Repr

namespace Clock

/-- The instant some seconds and nanoseconds after 1970. -/
def ofUnix (secs nanos : Int) : Clock :=
  ⟨secs * 1000000000 + nanos⟩

/-- One microsecond later. -/
def tick (c : Clock) : Clock :=
  ⟨c.nanos + 1000⟩

/-- Whole microseconds since 1970, rounded down; 0 for an instant before it or beyond 64
bits. -/
def micros (c : Clock) : Nat :=
  if c.nanos < 0 then 0
  else if c.nanos.toNat / 1000 < UInt64.size then c.nanos.toNat / 1000
  else 0

/-- Every stamp fits into 64 bits. -/
theorem micros_lt (c : Clock) : c.micros < UInt64.size := by
  unfold micros
  split
  · decide
  · split
    · assumption
    · decide

end Clock

end DashboardAccess
