/-
# Failures

What can go wrong, by cause.  Every failure has a kind, and its text is the name
of the kind, followed by a message where there is one.
-/
import DashboardAccess.Scope

namespace DashboardAccess

/-- The kinds of failures, as the text of a failure names them. -/
inductive FailureKind where
  | unspecified
  | notFound
  | storage
  | evaluation
  | listing
  | permission
  | configuration
deriving DecidableEq, Repr

namespace FailureKind

/-- The name of a kind. -/
def name : FailureKind → String
  | .unspecified => "Unspecified"
  | .notFound => "DashboardNotFound"
  | .storage => "StorageFailure"
  | .evaluation => "EvaluationFailure"
  | .listing => "ListingFailure"
  | .permission => "InvalidPermission"
  | .configuration => "ConfigurationError"

end FailureKind

/-- What went wrong. -/
inductive Failure where
  /-- No resource with the id is stored in the organization. -/
  | noResource (id org : Int)
  /-- Id 0 stands for a resource that is about to be made and cannot be stored. -/
  | reservedId
  /-- The permissions of a kind of resource have no such name. -/
  | unknownName (name : String) (kind : Kind)
  /-- The grants on a scope could not be listed. -/
  | unlisted (scope : Scope) (cause : Failure)
  /-- The configured kind of storage does not exist. -/
  | unknownStorage (name : String)
  /-- Any failure that a collaborator of a gate reports. -/
  | reported (kind : FailureKind) (message : Option String)
deriving DecidableEq, Repr

namespace Failure

/-- The kind of a failure. -/
def kind : Failure → FailureKind
  | .noResource .. => .notFound
  | .reservedId => .storage
  | .unknownName .. => .permission
  | .unlisted .. => .listing
  | .unknownStorage _ => .configuration
  | .reported kind _ => kind

/-- The name of the kind, and the message after a blank. -/
def text : Failure → String
  | .noResource id org =>
    "DashboardNotFound No dashboard or folder with id " ++ toString id ++
      " in organization " ++ toString org ++ "."
  | .reservedId => "StorageFailure Dashboard identifier 0 is reserved for new dashboards."
  | .unknownName name kind =>
    "InvalidPermission '" ++ name ++ "' is not a " ++ kind.name ++ " permission."
  | .unlisted scope cause =>
    "ListingFailure Unable to list permissions on '" ++ scope ++ "': " ++ cause.text
  | .unknownStorage name =>
    "ConfigurationError Unknown database provider type '" ++ name ++ "'."
  | .reported kind none => kind.name
  | .reported kind (some message) => kind.name ++ " " ++ message

end Failure

end DashboardAccess
