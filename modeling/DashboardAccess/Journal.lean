/-
# The journal

What is noted down while a store is used, and how it reads.

* `Record.text` : a line as it is written;
* `Change.records` : the lines about a change.
-/
import DashboardAccess.Store.History

namespace DashboardAccess

/-- A line of the journal. -/
inductive Record where
  /-- A resource is stored. -/
  | saved (r : Resource)
  /-- A named permission on a scope is set through a managed role. -/
  | naming (name : String) (scope : Scope) (role : String)
  /-- A managed grant on a scope is taken away. -/
  | removed (role : String) (scope : Scope)
  /-- A number of permissions is granted through a role. -/
  | granted (count : Nat) (role : String)
  /-- A member holds a number of permissions. -/
  | found (count : Nat) (m : Member)
  /-- A requirement is decided for a member. -/
  | decided (verdict : Bool) (m : Member) (r : Requirement)
deriving Repr

namespace Record

/-- How closely a line follows the course of things. -/
def level : Record → String
  | .naming .. => "DEBUG"
  | .removed .. => "DEBUG"
  | .granted .. => "DEBUG"
  | _ => "TRACE"

/-- What a line tells. -/
def message : Record → String
  | .saved r =>
    "Saving '" ++ r.title ++ "' with id " ++ toString r.id ++ " in organization " ++
      toString r.org ++ "."
  | .naming name scope role =>
    "Setting permission '" ++ name ++ "' on '" ++ scope ++ "' for '" ++ role ++ "'."
  | .removed role scope => "Removed '" ++ role ++ "' grant on '" ++ scope ++ "'."
  | .granted count role =>
    "Granted " ++ toString count ++ " permissions through '" ++ role ++ "'."
  | .found count m => "Found " ++ toString count ++ " permissions for '" ++ m.text ++ "'."
  | .decided verdict m r =>
    (if verdict then "Granted '" else "Denied '") ++ m.text ++ "' " ++ r.text ++ "."

/-- A line as it is written: its level, a blank and what it tells. -/
def text (r : Record) : String :=
  r.level ++ " " ++ r.message

end Record

/-! ## Changes -/

namespace Change

/-- The line about a managed grant that was stored before and has been taken
away. -/
def removal (before : Store) (org : Int) (subject : Subject) (scope : Scope) :
    Receipt → List Record
  | .grant none =>
    if (before.lookup (Store.managedKey org subject scope)).isSome then
      [.removed subject.managedRole scope]
    else []
  | _ => []

/-- The lines about a change that has succeeded, by the store before it and what it
handed back. -/
def records (before : Store) (receipt : Receipt) : Change → List Record
  | .save r => [.saved r]
  | .grantRole _ role _ permissions => [.granted permissions.length role]
  | .setGrant org subject scope _ => removal before org subject scope receipt
  | .setPermission table org resource subject name =>
    let scope := Scope.ofResource table.kind resource
    .naming name scope subject.managedRole :: removal before org subject scope receipt

end Change

end DashboardAccess
