/-
# Permissions and grants

A permission is an action together with the scope it is allowed on.  A grant
gives several actions on one scope to one subject through a named role; its role
name tells whether it is managed by name or was set up otherwise.

* `mem_permissions` : the permissions of a grant are its actions on its scope;
* `isManagedRole_managedRole` : a managed role name is recognised as one.
-/
import DashboardAccess.Scope
import DashboardAccess.Subject

namespace DashboardAccess

/-! ## Permissions -/

/-- An action allowed on a scope. -/
structure Permission where
  action : String
  scope : Scope
deriving DecidableEq, Repr

/-! ## Actions

Each kind of resource has its own family of actions, named after it. -/

namespace Action

/-- See the resource. -/
def read : Kind → String
  | .folder => "folders:read"
  | .dashboard => "dashboards:read"

/-- Store the resource. -/
def write : Kind → String
  | .folder => "folders:write"
  | .dashboard => "dashboards:write"

/-- Change the resource. -/
def edit : Kind → String
  | .folder => "folders:edit"
  | .dashboard => "dashboards:edit"

/-- Remove the resource. -/
def delete : Kind → String
  | .folder => "folders:delete"
  | .dashboard => "dashboards:delete"

/-- Make a new resource. -/
def create : Kind → String
  | .folder => "folders:create"
  | .dashboard => "dashboards:create"

/-- See who is allowed what on the resource. -/
def readPermissions : Kind → String
  | .folder => "folders.permissions:read"
  | .dashboard => "dashboards.permissions:read"

/-- Decide who is allowed what on the resource. -/
def writePermissions : Kind → String
  | .folder => "folders.permissions:write"
  | .dashboard => "dashboards.permissions:write"

end Action

/-! ## Grants -/

/-- Actions given to a subject on a scope through a role, with the times of the
first and the last write in microseconds. -/
structure Grant where
  id : Int
  role : String
  actions : List String
  scope : Scope
  subject : Subject
  created : Nat
  updated : Nat
deriving DecidableEq, Repr

/-- Whether a role name is one of those that grants to a subject are managed
under. -/
def isManagedRole (role : String) : Bool :=
  Subject.managedMark.toList.isPrefixOf role.toList

/-- Every subject's managed role name is recognised. -/
theorem isManagedRole_managedRole (s : Subject) : isManagedRole s.managedRole = true := by
  cases s <;> simp [isManagedRole, Subject.managedRole, List.append_assoc]

namespace Grant

/-- Whether the grant is managed by permission name. -/
def isManaged (g : Grant) : Bool :=
  isManagedRole g.role

/-- One permission for each action of the grant. -/
def permissions (g : Grant) : List Permission :=
  g.actions.map fun action => ⟨action, g.scope⟩

/-- The permissions of a grant are its actions on its scope. -/
theorem mem_permissions {g : Grant} {p : Permission} :
    p ∈ g.permissions ↔ p.action ∈ g.actions ∧ p.scope = g.scope := by
  cases p
  simp only [permissions, List.mem_map, Permission.mk.injEq]
  constructor
  · rintro ⟨a, ha, rfl, rfl⟩
    exact ⟨ha, rfl⟩
  · rintro ⟨ha, rfl⟩
    exact ⟨_, ha, rfl, rfl⟩

end Grant

end DashboardAccess
