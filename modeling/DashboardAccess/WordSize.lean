/-
# Numbers of 64 bits

Ids, and the integers in settings and key paths, are signed numbers of 64 bits.  The
integers of this library have no bounds; where it matters that a number has 64 bits, the
test here says so.

* `isInt64` : whether an integer has 64 bits with its sign.
-/

namespace DashboardAccess

/-- Whether an integer has 64 bits with its sign. -/
def isInt64 (n : Int) : Bool :=
  decide (-0x8000000000000000 ≤ n ∧ n < 0x8000000000000000)

end DashboardAccess
