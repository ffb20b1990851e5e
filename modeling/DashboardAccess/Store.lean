/-
# The store

Resources and grants of all organizations.  Resources are kept by organization
and id, grants by organization, role name, subject and scope, so that there is at
most one grant of a role to a subject on a scope.

* `fetch`, `save` : resources;
* `setGrant`, `grantRole`, `setPermission` : the three ways to change grants;
* `grantsOn`, `permissionsOf`, `decides` : what the grants say;
* `WellFormed` : the order in which both are kept, kept by every operation.
-/
import DashboardAccess.Ascending
import DashboardAccess.Failure
import DashboardAccess.PermissionTable
import DashboardAccess.Requirement
import DashboardAccess.Resource

namespace DashboardAccess

/-! ## Keys -/

/-- What tells resources apart. -/
structure ResourceKey where
  org : Int
  id : Int
deriving DecidableEq, Repr

namespace ResourceKey

/-- By organization, then id. -/
def order : ResourceKey → ResourceKey → Ordering :=
  compareLex (compareOn org) (compareOn id)

instance : Ord ResourceKey := ⟨order⟩

instance : Std.TransOrd ResourceKey := by
  show Std.TransCmp order
  unfold order
  infer_instance

/-- Only equal keys compare as equal. -/
theorem compare_eq_eq_iff {a b : ResourceKey} : compare a b = .eq ↔ a = b := by
  constructor
  · intro h
    have h : order a b = .eq := h
    simp only [order, compareLex_eq_eq, compareOn, Std.LawfulEqCmp.compare_eq_iff_eq] at h
    cases a
    cases b
    simp_all
  · rintro rfl
    exact Std.ReflCmp.compare_self

instance : Std.LawfulEqOrd ResourceKey where
  compare_self := compare_eq_eq_iff.2 rfl
  eq_of_compare := compare_eq_eq_iff.1

end ResourceKey

/-- What tells grants apart. -/
structure GrantKey where
  org : Int
  role : String
  subject : Subject
  scope : Scope
deriving DecidableEq, Repr

namespace GrantKey

/-- By organization, then role name, then subject, then scope. -/
def order : GrantKey → GrantKey → Ordering :=
  compareLex (compareOn org) <| compareLex (compareOn role) <|
    compareLex (compareOn subject) (compareOn scope)

instance : Ord GrantKey := ⟨order⟩

instance : Std.TransOrd GrantKey := by
  show Std.TransCmp order
  unfold order
  infer_instance

/-- Only equal keys compare as equal. -/
theorem compare_eq_eq_iff {a b : GrantKey} : compare a b = .eq ↔ a = b := by
  constructor
  · intro h
    have h : order a b = .eq := h
    simp only [order, compareLex_eq_eq, compareOn, Std.LawfulEqCmp.compare_eq_iff_eq] at h
    cases a
    cases b
    simp_all
  · rintro rfl
    exact Std.ReflCmp.compare_self

instance : Std.LawfulEqOrd GrantKey where
  compare_self := compare_eq_eq_iff.2 rfl
  eq_of_compare := compare_eq_eq_iff.1

end GrantKey

/-! ## Entries and stores -/

/-- The key of a resource. -/
def Resource.key (r : Resource) : ResourceKey :=
  ⟨r.org, r.id⟩

/-- A grant in an organization. -/
structure Entry where
  org : Int
  grant : Grant
deriving DecidableEq, Repr

/-- The key of an entry. -/
def Entry.key (e : Entry) : GrantKey :=
  ⟨e.org, e.grant.role, e.grant.subject, e.grant.scope⟩

/-- Resources and grants in the order of their keys, and the id of the next new
grant. -/
structure Store where
  resources : List Resource := []
  entries : List Entry := []
  /-- Ids are counted without a bound.  A signed counter of 64 bits that starts at 1 as
  well has the same value as long as fewer than `2 ^ 63 - 1` grants have been made; after
  that it would go on with the least number. -/
  nextId : Int := 1
deriving DecidableEq, Repr

namespace Store

/-- Nothing is stored, and the first grant will have id 1. -/
def empty : Store := {}

/-! ## Resources -/

/-- The resource with an id in an organization. -/
def fetch (s : Store) (id org : Int) : Except Failure Resource :=
  match Ascending.find? Resource.key ⟨org, id⟩ s.resources with
  | some r => .ok r
  | none => .error (.noResource id org)

/-- Store a resource in place of the one with its id.  Id 0 is refused. -/
def save (s : Store) (r : Resource) : Except Failure Store :=
  if r.id = 0 then .error .reservedId
  else .ok { s with resources := Ascending.insert Resource.key r s.resources }

/-! ## Grants -/

/-- The entry with a key. -/
def lookup (s : Store) (key : GrantKey) : Option Entry :=
  Ascending.find? Entry.key key s.entries

/-- Write the actions of a key, made from those stored there so far.  A new entry
takes the next id; an old one keeps its id and the time of its first write. -/
def write (s : Store) (now : Nat) (key : GrantKey) (revise : List String → List String) :
    Grant × Store :=
  match s.lookup key with
  | some e =>
    let g : Grant := { e.grant with actions := revise e.grant.actions, updated := now }
    (g, { s with entries := Ascending.insert Entry.key ⟨key.org, g⟩ s.entries })
  | none =>
    let g : Grant := ⟨s.nextId, key.role, revise [], key.scope, key.subject, now, now⟩
    (g, { s with
      entries := Ascending.insert Entry.key ⟨key.org, g⟩ s.entries
      nextId := s.nextId + 1 })

/-- The key of the managed grant to a subject on a scope. -/
def managedKey (org : Int) (subject : Subject) (scope : Scope) : GrantKey :=
  ⟨org, subject.managedRole, subject, scope⟩

/-- Make the actions of the managed grant to a subject on a scope exactly the given
ones; without actions there is no grant. -/
def setGrant (s : Store) (now : Nat) (org : Int) (subject : Subject) (scope : Scope)
    (actions : List String) : Option Grant × Store :=
  let key := managedKey org subject scope
  if actions.isEmpty then
    (none, { s with entries := Ascending.erase Entry.key key s.entries })
  else
    let (g, s) := s.write now key fun _ => Ascending.ofList actions
    (some g, s)

/-- Add permissions to what a role grants to a subject, scope by scope.  All scopes are
written at the one time of the call.  If the clock is read for every scope and goes on
meanwhile, the call is a history of calls with the permissions on one scope each, in the
order of the scopes and each at its own time. -/
def grantRole (s : Store) (now : Nat) (org : Int) (role : String) (subject : Subject)
    (permissions : List Permission) : Store :=
  (Ascending.ofList (permissions.map (·.scope))).foldl
    (fun s scope =>
      (s.write now ⟨org, role, subject, scope⟩ fun actions =>
        Ascending.ofList
          (actions ++ (permissions.filter (·.scope = scope)).map (·.action))).2)
    s

/-! ## Named permissions -/

/-- The actions that a name stands for in a table; the empty name stands for
none. -/
def namedActions (table : PermissionTable) (name : String) : Except Failure (List String) :=
  if name = "" then .ok []
  else match table.actions? name with
    | some actions => .ok actions
    | none => .error (.unknownName name table.kind)

/-- Make a subject's permission on a resource the named one; the empty name takes
it away. -/
def setPermission (s : Store) (now : Nat) (table : PermissionTable) (org : Int)
    (resource : String) (subject : Subject) (name : String) :
    Except Failure (Option Grant × Store) :=
  match namedActions table name with
  | .ok actions =>
    .ok (s.setGrant now org subject (Scope.ofResource table.kind resource) actions)
  | .error e => .error e

/-! ## What the grants say -/

/-- The grants on exactly a scope, the oldest first. -/
def grantsOn (s : Store) (org : Int) (scope : Scope) : List Grant :=
  ((s.entries.filter fun e => e.org = org ∧ e.grant.scope = scope).map (·.grant)).mergeSort
    fun a b => a.id ≤ b.id

/-- The permissions of a member: those of every grant whose subject reaches the
member, in the order of their keys. -/
def permissionsOf (s : Store) (m : Member) : List Permission :=
  (s.entries.filter fun e => decide (e.org = m.org) && e.grant.subject.appliesTo m).flatMap
    (·.grant.permissions)

/-- Whether a member's permissions are enough for a requirement. -/
def decides (s : Store) (m : Member) (r : Requirement) : Bool :=
  r.holds (GrantedScopes.ofPermissions (s.permissionsOf m))

/-! ## Order -/

/-- Resources and entries stand in the order of their keys. -/
structure WellFormed (s : Store) : Prop where
  resources : Ascending.IsAscending Resource.key s.resources
  entries : Ascending.IsAscending Entry.key s.entries

theorem wellFormed_empty : WellFormed empty :=
  ⟨List.Pairwise.nil, List.Pairwise.nil⟩

theorem wellFormed_save {s t : Store} {r : Resource} (h : WellFormed s) (hs : s.save r = .ok t) :
    WellFormed t := by
  unfold save at hs
  split at hs
  · cases hs
  · cases hs
    exact ⟨Ascending.isAscending_insert r h.resources, h.entries⟩

theorem wellFormed_write {s : Store} (h : WellFormed s) (now : Nat) (key : GrantKey)
    (revise : List String → List String) : WellFormed (s.write now key revise).2 := by
  unfold write
  split
  · exact ⟨h.resources, Ascending.isAscending_insert _ h.entries⟩
  · exact ⟨h.resources, Ascending.isAscending_insert _ h.entries⟩

theorem wellFormed_setGrant {s : Store} (h : WellFormed s) (now : Nat) (org : Int)
    (subject : Subject) (scope : Scope) (actions : List String) :
    WellFormed (s.setGrant now org subject scope actions).2 := by
  unfold setGrant
  split
  · exact ⟨h.resources, Ascending.isAscending_erase _ h.entries⟩
  · exact wellFormed_write h now _ _

theorem wellFormed_grantRole {s : Store} (h : WellFormed s) (now : Nat) (org : Int)
    (role : String) (subject : Subject) (permissions : List Permission) :
    WellFormed (s.grantRole now org role subject permissions) := by
  unfold grantRole
  induction Ascending.ofList (permissions.map (·.scope)) generalizing s with
  | nil => exact h
  | cons scope rest ih =>
    rw [List.foldl_cons]
    exact ih (wellFormed_write h now _ _)

/-! ## Looking up after a write -/

/-- The entry that a write leaves under its key. -/
theorem lookup_write {s : Store} (h : WellFormed s) (now : Nat) (key k : GrantKey)
    (revise : List String → List String) :
    (s.write now key revise).2.lookup k =
      if key = k then some ⟨key.org, (s.write now key revise).1⟩ else s.lookup k := by
  unfold write
  split
  · rename_i e he
    have hk : e.key = key := ((Ascending.find?_eq_some_iff h.entries).1 he).2
    rw [lookup, Ascending.find?_insert h.entries]
    have : Entry.key ⟨key.org, { e.grant with
        actions := revise e.grant.actions, updated := now }⟩ = key := by
      rw [← hk]
      rfl
    rw [this]
    rfl
  · rw [lookup, Ascending.find?_insert h.entries]
    rfl

end Store

end DashboardAccess
