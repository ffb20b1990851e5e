/-
# Access lists

What a listing tells about one grant on a resource: whom it is for, at which
level, since when, together with the data of the resource.

* `AccessRule` : a single stored rule, as requests to change an access list give
  it;
* `AccessEntry.ofGrant` : the line of a listing for a grant.
-/
import DashboardAccess.PermissionTable
import DashboardAccess.Resource

namespace DashboardAccess

/-! ## Rules -/

/-- A rule of an access list: a level for a user, a team or a role. -/
structure AccessRule where
  org : Int
  resource : Int
  user : Option Int
  team : Option Int
  role : Option Role
  level : Level
  created : Nat
  updated : Nat
deriving DecidableEq, Repr

/-! ## Lines of a listing -/

/-- A line of a listing: the level of a subject on a resource. -/
structure AccessEntry where
  resource : Resource
  url : String
  subject : Subject
  level : Level
  created : Nat
  updated : Nat
deriving DecidableEq, Repr

namespace AccessEntry

/-- The level that a table and a level map give to a grant, through the name of
its actions. -/
def levelOf (table : PermissionTable) (levels : LevelMap) (g : Grant) : Level :=
  levels.level (table.nameOf g.actions)

/-- The line of a grant on a resource. -/
def ofGrant (r : Resource) (root : String) (table : PermissionTable) (levels : LevelMap)
    (g : Grant) : AccessEntry where
  resource := r
  url := r.url root
  subject := g.subject
  level := levelOf table levels g
  created := g.created
  updated := g.updated

/-- The number of the user, 0 if the line is not about one. -/
def userId (e : AccessEntry) : Int :=
  match e.subject with
  | .user id _ _ => id
  | _ => 0

/-- The login of the user. -/
def userLogin (e : AccessEntry) : String :=
  match e.subject with
  | .user _ login _ => login
  | _ => ""

/-- The address of the user. -/
def userEmail (e : AccessEntry) : String :=
  match e.subject with
  | .user _ _ email => email
  | _ => ""

/-- The number of the team, 0 if the line is not about one. -/
def teamId (e : AccessEntry) : Int :=
  match e.subject with
  | .team id _ _ => id
  | _ => 0

/-- The name of the team. -/
def teamName (e : AccessEntry) : String :=
  match e.subject with
  | .team _ name _ => name
  | _ => ""

/-- The address of the team. -/
def teamEmail (e : AccessEntry) : String :=
  match e.subject with
  | .team _ _ email => email
  | _ => ""

/-- The role, if the line is about one. -/
def role? (e : AccessEntry) : Option Role :=
  match e.subject with
  | .role r => some r
  | _ => none

end AccessEntry

end DashboardAccess
