/-
# Managed grants and all others

Grants that are managed by name stand among the grants that were set up through other
roles, and only the name of the role tells them apart.  What is granted through another
role leaves the managed grants alone, and with them all access lists.  To give, replace or
take away a managed grant leaves all other grants alone, and with them the permissions that
members have through them.

* `managed`, `unmanaged` : the two parts of the entries;
* `managed_grantRole`, `unmanaged_apply` : each part under changes of the other one;
* `managed_grantsOn_congr` : managed lines of a listing depend on managed entries only;
* `managed_apart` : both parts, with what is read off them.
-/
import DashboardAccess.Proofs.Access
import DashboardAccess.Proofs.LifeCycle

namespace DashboardAccess

/-- The change gives, replaces or takes away a managed grant. -/
def Change.Manages : Change → Prop
  | .setGrant .. => True
  | .setPermission .. => True
  | _ => False

namespace Store

/-! ## The two parts of the entries -/

/-- The entries with managed grants. -/
def managed (s : Store) : List Entry :=
  s.entries.filter fun e => e.grant.isManaged

/-- The entries with other grants. -/
def unmanaged (s : Store) : List Entry :=
  s.entries.filter fun e => !e.grant.isManaged

/-- Permissions granted to a role that is not managed leave managed entries alone. -/
theorem managed_grantRole (s : Store) (now : Nat) (org : Int) {role : String}
    (subject : Subject) (permissions : List Permission) (hrole : isManagedRole role = false) :
    (s.grantRole now org role subject permissions).managed = s.managed := by
  refine Change.filter_entries_apply (c := .grantRole org role subject permissions)
    (p := fun key => isManagedRole key.role) ?_ now s
  rintro key ⟨p, -, rfl⟩
  exact hrole

/-- A change of managed grants leaves all other entries alone. -/
theorem unmanaged_apply (s : Store) (now : Nat) {c : Change} (hc : c.Manages) :
    (c.apply now s).unmanaged = s.unmanaged := by
  refine Change.filter_entries_apply (p := fun key => !isManagedRole key.role) ?_ now s
  intro key htouch
  -- whichever subject and scope it is, the role of the key is the managed one
  have hrole : ∃ subject : Subject, key.role = subject.managedRole := by
    cases c with
    | save r => cases hc
    | grantRole org role subject permissions => cases hc
    | setGrant org subject scope actions => exact ⟨subject, congrArg GrantKey.role htouch⟩
    | setPermission table org resource subject name =>
      exact ⟨subject, congrArg GrantKey.role htouch⟩
  obtain ⟨subject, hrole⟩ := hrole
  rw [hrole, isManagedRole_managedRole]
  rfl

/-! ## Access lists -/

/-- In a store that a history leads to, the managed lines of a listing are in the strictly
ascending order of their ids. -/
theorem isAscending_managed_grantsOn {s : Store} (hs : s.Reachable) (org : Int)
    (scope : Scope) :
    Ascending.IsAscending Grant.id ((s.grantsOn org scope).filter Grant.isManaged) := by
  obtain ⟨history, rfl⟩ := hs
  refine List.Pairwise.filter _ (List.Pairwise.imp ?_
    ((recorded_history history).pairwise_grantsOn org scope))
  exact fun hlt => Int.compare_eq_lt.2 hlt

/-- The managed lines of a listing are the managed entries on the scope. -/
theorem mem_managed_grantsOn {s : Store} {org : Int} {scope : Scope} {g : Grant} :
    g ∈ (s.grantsOn org scope).filter Grant.isManaged ↔
      ⟨org, g⟩ ∈ s.managed ∧ g.scope = scope := by
  rw [List.mem_filter, mem_grantsOn, managed, List.mem_filter, and_right_comm]

/-- Stores with the same managed entries list the same managed grants in the same
order. -/
theorem managed_grantsOn_congr {s t : Store} (hs : s.Reachable) (ht : t.Reachable)
    (h : t.managed = s.managed) (org : Int) (scope : Scope) :
    (t.grantsOn org scope).filter Grant.isManaged =
      (s.grantsOn org scope).filter Grant.isManaged := by
  refine Ascending.eq_of_mem_iff (isAscending_managed_grantsOn ht org scope)
    (isAscending_managed_grantsOn hs org scope) fun g => ?_
  rw [mem_managed_grantsOn, mem_managed_grantsOn, h]

/-- Every gate, whatever it keeps, gives the same access list over stores with the same
resources and the same managed entries. -/
theorem reply_accessList_congr {s t : Store} (hs : s.Reachable) (ht : t.Reachable)
    (hresources : t.resources = s.resources) (hmanaged : t.managed = s.managed) (g : Gate)
    {q : Question} (hq : q = .accessList ∨ q = .distinctAccessList) :
    t.reply g q = s.reply g q := by
  refine reply_congr rfl (resourceFor_congr hresources g) (fun r _ _ => ?_) fun hfree => ?_
  · rcases hq with rfl | rfl <;> simp only [replyOn, managed_grantsOn_congr hs ht hmanaged]
  · -- both questions are about the resource
    rcases hq with rfl | rfl <;> cases hfree

/-! ## Permissions -/

/-- The permissions of an entry that reaches a member are among those of the member. -/
theorem permissions_subset_permissionsOf {s : Store} {m : Member} {e : Entry}
    (he : e ∈ s.entries) (horg : e.org = m.org) (happ : e.grant.subject.appliesTo m = true) :
    e.grant.permissions ⊆ s.permissionsOf m := by
  intro p hp
  obtain ⟨haction, hscope⟩ := Grant.mem_permissions.1 hp
  exact mem_permissionsOf.2 ⟨e, he, horg, happ, haction, hscope⟩

/-- Managed grants and all others are kept apart in every store that a history leads to.
Permissions granted to a role that is not managed change no managed entry, so that every
gate gives the same access list as before.  A change of managed grants leaves all other
entries as they are, so that every member still has all permissions that come from them. -/
theorem managed_apart {s : Store} (hs : s.Reachable) (now : Nat) :
    (∀ org role subject permissions, isManagedRole role = false →
      let t := s.grantRole now org role subject permissions
      t.managed = s.managed ∧
      ∀ g q, q = .accessList ∨ q = .distinctAccessList → t.reply g q = s.reply g q) ∧
    ∀ c : Change, c.Manages →
      let t := c.apply now s
      t.unmanaged = s.unmanaged ∧
      ∀ m, ∀ e ∈ s.unmanaged, e.org = m.org → e.grant.subject.appliesTo m = true →
        e.grant.permissions ⊆ t.permissionsOf m := by
  constructor
  · intro org role subject permissions hrole t
    have ht : t.Reachable := hs.after [(now, .grantRole org role subject permissions)]
    have hsame := managed_grantRole s now org subject permissions hrole
    refine ⟨hsame, fun g q hq => reply_accessList_congr hs ht ?_ hsame g hq⟩
    exact resources_grantRole s now org role subject permissions
  · intro c hc t
    have hsame : t.unmanaged = s.unmanaged := unmanaged_apply s now hc
    refine ⟨hsame, fun m e he horg happ => ?_⟩
    rw [← hsame] at he
    exact permissions_subset_permissionsOf (List.mem_filter.1 he).1 horg happ

/-- A user who may edit folder 7 by name is given the same actions through another role.
The access list of a gate that keeps the folder stays as it was, and when the named
permission is taken away the user still has the permission to read the folder. -/
theorem managed_apart_revoked :
    let folder : Resource := ⟨1, 7, "ops", "Ops", .folder⟩
    let ann : Subject := .user 10 "ann" ""
    let m : Member := ⟨1, 10, "ann", .viewer, []⟩
    let s := empty.after
      [(1, .save folder), (2, .setPermission .folders 1 "7" ann "View")]
    let same : List Permission :=
      [⟨"folders:read", "folders:id:7"⟩, ⟨"dashboards:read", "folders:id:7"⟩]
    let t := s.grantRole 3 1 "fixed:reader" ann same
    let g : Gate := { member := m, target := 7, kept := some folder }
    isManagedRole "fixed:reader" = false ∧
    t.reply g .accessList = s.reply g .accessList ∧
    ∃ u, t.setPermission 4 .folders 1 "7" ann "" = .ok (none, u) ∧
      u.managed = [] ∧ ⟨"folders:read", "folders:id:7"⟩ ∈ u.permissionsOf m := by
  intro folder ann m s same t g
  have hs : s.Reachable := ⟨_, rfl⟩
  have hrole : isManagedRole "fixed:reader" = false := by decide
  refine ⟨hrole, ((managed_apart hs 3).1 1 _ ann same hrole).2 g _ (.inl rfl), ?_⟩
  have ht : t.Reachable := hs.after [(3, .grantRole 1 "fixed:reader" ann same)]
  refine ⟨_, rfl, by decide +kernel, ?_⟩
  -- the entry of the other role is there before, so its permissions are there afterwards
  obtain ⟨e, he, horg, happ, hp⟩ : ∃ e ∈ t.unmanaged, e.org = m.org ∧
      e.grant.subject.appliesTo m = true ∧
        ⟨"folders:read", "folders:id:7"⟩ ∈ e.grant.permissions := by decide +kernel
  exact ((managed_apart ht 4).2 (.setPermission .folders 1 "7" ann "") trivial).2 m e he horg
    happ hp

end Store

end DashboardAccess
