/-
# Resources

Folders and dashboards.  A dashboard is kept in a folder, a folder is kept
nowhere; the address of a resource shows its kind, its uid and its slug.

* `scope` : the scope of a resource;
* `url` : the address of a resource.
-/
import DashboardAccess.Scope
import DashboardAccess.Text.Slug

namespace DashboardAccess

/-- What a resource is: a folder, or a dashboard in a folder. -/
inductive Place where
  | folder
  | dashboardIn (folder : Int)
deriving DecidableEq, Repr

/-- A folder or dashboard of an organization. -/
structure Resource where
  org : Int
  id : Int
  uid : String
  title : String
  place : Place
deriving DecidableEq, Repr

namespace Resource

/-- The kind of the resource. -/
def kind (r : Resource) : Kind :=
  match r.place with
  | .folder => .folder
  | .dashboardIn _ => .dashboard

/-- The folder of a dashboard; 0 for a folder. -/
def folder (r : Resource) : Int :=
  match r.place with
  | .folder => 0
  | .dashboardIn f => f

/-- Whether the resource is a folder. -/
def isFolder (r : Resource) : Bool :=
  decide (r.kind = .folder)

/-- The title as it stands in the address. -/
def slug (r : Resource) : String :=
  Text.slug r.title

/-- The scope of the resource itself. -/
def scope (r : Resource) : Scope :=
  Scope.ofId r.kind r.id

/-- The step of the path that tells the kind. -/
def pathStep : Kind → String
  | .folder => "/dashboards/f/"
  | .dashboard => "/d/"

/-- The address of the resource under a root path. -/
def url (r : Resource) (root : String) : String :=
  Text.trimSlashes root ++ pathStep r.kind ++ r.uid ++ "/" ++ r.slug

end Resource

end DashboardAccess
