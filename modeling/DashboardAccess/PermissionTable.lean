/-
# Named permissions

A table gives names to sets of actions on one kind of resource.  Names are
looked up from the top, and so are the names of given actions.

* `dashboards`, `folders` : the two standard tables;
* `actions?` : the actions of a name;
* `fits_iff` : when a row is named for given actions;
* `name?` : the name of a list of actions.
-/
import DashboardAccess.Permission

namespace DashboardAccess

/-- The named permissions on a kind of resource. -/
structure PermissionTable where
  kind : Kind
  rows : List (String × List String)
deriving DecidableEq, Repr

namespace PermissionTable

/-! ## The standard tables -/

/-- The named permissions on a dashboard. -/
def dashboards : PermissionTable where
  kind := .dashboard
  rows :=
    [("View", [Action.read .dashboard]),
     ("Edit", [Action.read .dashboard, Action.write .dashboard, Action.delete .dashboard,
       Action.edit .dashboard]),
     ("Admin", [Action.read .dashboard, Action.write .dashboard, Action.delete .dashboard,
       Action.edit .dashboard, Action.readPermissions .dashboard,
       Action.writePermissions .dashboard])]

/-- The named permissions on a folder.  They hold the actions on dashboards too,
because a folder's permissions reach the dashboards in it. -/
def folders : PermissionTable where
  kind := .folder
  rows :=
    [("View", [Action.read .folder, Action.read .dashboard]),
     ("Edit", [Action.read .folder, Action.write .folder, Action.delete .folder,
       Action.edit .folder, Action.read .dashboard, Action.write .dashboard,
       Action.delete .dashboard, Action.edit .dashboard, Action.create .dashboard]),
     ("Admin", [Action.read .folder, Action.write .folder, Action.delete .folder,
       Action.edit .folder, Action.readPermissions .folder, Action.writePermissions .folder,
       Action.read .dashboard, Action.write .dashboard, Action.delete .dashboard,
       Action.edit .dashboard, Action.create .dashboard, Action.readPermissions .dashboard,
       Action.writePermissions .dashboard])]

/-- The standard table of a kind. -/
def standard : Kind → PermissionTable
  | .folder => folders
  | .dashboard => dashboards

/-- The standard table of a kind is about that kind. -/
theorem kind_standard (k : Kind) : (standard k).kind = k := by
  cases k <;> rfl

/-! ## Looking up -/

/-- The actions of the first row with the name. -/
def actions? (table : PermissionTable) (name : String) : Option (List String) :=
  table.rows.lookup name

/-- Whether a row is named for the given actions: as many actions, each of them
among the given ones. -/
def fits (row actions : List String) : Bool :=
  decide (row.length = actions.length) && row.all (actions.contains ·)

/-- A row fits actions if it has as many, all of them among the given ones. -/
theorem fits_iff {row actions : List String} :
    fits row actions = true ↔ row.length = actions.length ∧ row ⊆ actions := by
  rw [fits, Bool.and_eq_true, decide_eq_true_eq, List.all_eq_true]
  simp only [List.contains_iff_mem]
  rfl

/-- The name of the first row that fits the actions. -/
def name? (table : PermissionTable) (actions : List String) : Option String :=
  (table.rows.find? fun row => fits row.2 actions).map (·.1)

/-- The name of the first row that fits the actions, and the empty name if there
is none. -/
def nameOf (table : PermissionTable) (actions : List String) : String :=
  (table.name? actions).getD ""

end PermissionTable

end DashboardAccess
