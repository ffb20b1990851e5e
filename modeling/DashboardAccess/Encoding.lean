/-
# JSON forms

How resources, rules and lines of access lists, and settings are given to others
as JSON.
-/
import DashboardAccess.AccessList
import DashboardAccess.Json
import DashboardAccess.Settings

namespace DashboardAccess

/-- A value, or null where there is none. -/
def Json.orNull (value : Option Json) : Json :=
  value.getD .null

/-- The form of a resource. -/
def Resource.json (r : Resource) : Json :=
  .object
    [("id", .int r.id),
     ("uid", .string r.uid),
     ("orgId", .int r.org),
     ("folderId", .int r.folder),
     ("isFolder", .bool r.isFolder),
     ("title", .string r.title),
     ("slug", .string r.slug)]

/-- The form of a rule. -/
def AccessRule.json (r : AccessRule) : Json :=
  .object
    [("orgId", .int r.org),
     ("dashboardId", .int r.resource),
     ("userId", .orNull (r.user.map .int)),
     ("teamId", .orNull (r.team.map .int)),
     ("role", .orNull (r.role.map fun role => .string role.name)),
     ("permission", .int r.level.value),
     ("created", .int r.created),
     ("updated", .int r.updated)]

/-- The form of a line of an access list. -/
def AccessEntry.json (e : AccessEntry) : Json :=
  .object
    [("orgId", .int e.resource.org),
     ("dashboardId", .int e.resource.id),
     ("folderId", .int e.resource.folder),
     ("created", .int e.created),
     ("updated", .int e.updated),
     ("userId", .int e.userId),
     ("userLogin", .string e.userLogin),
     ("userEmail", .string e.userEmail),
     ("teamId", .int e.teamId),
     ("teamEmail", .string e.teamEmail),
     ("team", .string e.teamName),
     ("role", .orNull (e.role?.map fun role => .string role.name)),
     ("permission", .int e.level.value),
     ("permissionName", .string e.level.name),
     ("uid", .string e.resource.uid),
     ("title", .string e.resource.title),
     ("slug", .string e.resource.slug),
     ("isFolder", .bool e.resource.isFolder),
     ("url", .string e.url),
     ("inherited", .bool false)]

/-- The form of settings. -/
def Settings.json (s : Settings) : Json :=
  .object
    [("backend", .object [("implementation", .string s.storage)]),
     ("web", .object [("rootpath", .string s.rootPath)]),
     ("app_name", .string s.app)]

end DashboardAccess
