/-
# The access relation

Who is allowed what, said without requirements, tables of granted scopes or
gates: a member has a right on a resource if stored grants that reach the member
list all its actions on the scope of the resource itself or of its folder.  A
gate that has loaded nothing yet answers exactly by this relation.

* `Store.Grants` : an action is granted to a member on a scope;
* `Store.Permits` : a member has a right on a resource;
* `decides_requirement_iff` : the requirement of a right says the same;
* `reply_may_iff_permits` : the answers of a gate.
-/
import DashboardAccess.Proofs.Entries
import DashboardAccess.Proofs.Replies

namespace DashboardAccess

/-! ## Rights by name and scope -/

namespace Scope

/-- A granted scope reaches a requested one if it is empty, the same, or the start
of the requested one followed by a star. -/
def Reaches (granted requested : Scope) : Prop :=
  granted = "" ∨ granted = requested ∨
    ∃ start, granted = start ++ "*" ∧ start.toList <+: requested.toList

/-- Coverage is reach. -/
theorem covers_iff_reaches (granted requested : Scope) :
    covers granted requested = true ↔ Reaches granted requested :=
  covers_iff granted requested

end Scope

/-- The scopes on which rights on a resource are held: its own and, for a
dashboard, that of its folder. -/
def Resource.scopes (r : Resource) : List Scope :=
  match r.place with
  | .folder => ["folders:id:" ++ toString r.id]
  | .dashboardIn folder =>
    ["dashboards:id:" ++ toString r.id, "folders:id:" ++ toString folder]

/-- The actions that make up a right on a kind of resource. -/
def Right.actions : Right → Kind → List String
  | .view, .folder => ["folders:read"]
  | .view, .dashboard => ["dashboards:read"]
  | .edit, .folder => ["folders:edit"]
  | .edit, .dashboard => ["dashboards:edit"]
  | .save, .folder => ["folders:write"]
  | .save, .dashboard => ["dashboards:write"]
  | .delete, .folder => ["folders:delete"]
  | .delete, .dashboard => ["dashboards:delete"]
  | .admin, .folder => ["folders.permissions:read", "folders.permissions:write"]
  | .admin, .dashboard => ["dashboards.permissions:read", "dashboards.permissions:write"]

namespace Store

/-- Some grant in the member's organization reaches the member, lists the action,
and is on a scope that reaches the given one. -/
def Grants (s : Store) (m : Member) (action : String) (scope : Scope) : Prop :=
  ∃ e ∈ s.entries, e.org = m.org ∧ e.grant.subject.appliesTo m = true ∧
    action ∈ e.grant.actions ∧ Scope.Reaches e.grant.scope scope

/-- All actions of the right are granted to the member on one of the scopes of the
resource. -/
def Permits (s : Store) (m : Member) (r : Resource) (right : Right) : Prop :=
  ∃ scope ∈ r.scopes, ∀ action ∈ right.actions r.kind, s.Grants m action scope

end Store

/-! ## Requirements decided by a list of permissions -/

/-- An action on a scope needs a covering scope in the row of the action; an action
without a row has no scopes. -/
theorem Requirement.leafHolds_some (granted : GrantedScopes) (action : String) (scope : Scope) :
    leafHolds granted action (some scope) =
      ((granted.lookup action).getD []).any (Scope.covers · scope) := by
  unfold leafHolds
  cases granted.lookup action with
  | none => rfl
  | some scopes => rfl

/-- An action is allowed on a scope if one permission for the action covers the
scope. -/
theorem Requirement.holds_on_iff {permissions : List Permission} {action : String}
    {scope : Scope} :
    (Requirement.on action scope).holds (GrantedScopes.ofPermissions permissions) = true ↔
      ∃ p ∈ permissions, p.action = action ∧ Scope.covers p.scope scope = true := by
  rw [on, holds_leaf, leafHolds_some, GrantedScopes.lookup_ofPermissions]
  by_cases ha : action ∈ permissions.map (·.action)
  · rw [if_pos ha]
    simp
  · rw [if_neg ha]
    constructor
    · intro h
      cases h
    · rintro ⟨p, hp, rfl, -⟩
      exact absurd (List.mem_map_of_mem hp) ha

namespace Store

/-- A member's permissions are the actions of the grants that reach the member, on
the scopes of these grants. -/
theorem mem_permissionsOf {s : Store} {m : Member} {p : Permission} :
    p ∈ s.permissionsOf m ↔
      ∃ e ∈ s.entries, e.org = m.org ∧ e.grant.subject.appliesTo m = true ∧
        p.action ∈ e.grant.actions ∧ p.scope = e.grant.scope := by
  simp only [permissionsOf, List.mem_flatMap, List.mem_filter, Bool.and_eq_true,
    decide_eq_true_eq, Grant.mem_permissions, and_assoc]

/-- An action on a scope is decided by the grants that reach the member. -/
theorem decides_on_iff {s : Store} {m : Member} {action : String} {scope : Scope} :
    s.decides m (.on action scope) = true ↔ s.Grants m action scope := by
  rw [decides, Requirement.holds_on_iff]
  constructor
  · rintro ⟨p, hp, rfl, hc⟩
    obtain ⟨e, he, ho, ha, hact, hs⟩ := mem_permissionsOf.1 hp
    rw [hs, Scope.covers_iff_reaches] at hc
    exact ⟨e, he, ho, ha, hact, hc⟩
  · rintro ⟨e, he, ho, ha, hact, hc⟩
    refine ⟨⟨action, e.grant.scope⟩, ?_, rfl, (Scope.covers_iff_reaches _ _).2 hc⟩
    exact mem_permissionsOf.2 ⟨e, he, ho, ha, hact, rfl⟩

@[simp] theorem decides_all (s : Store) (m : Member) (parts : List Requirement) :
    s.decides m (.all parts) = parts.all (s.decides m) :=
  Requirement.holds_all _ parts

@[simp] theorem decides_any (s : Store) (m : Member) (parts : List Requirement) :
    s.decides m (.any parts) = parts.any (s.decides m) :=
  Requirement.holds_any _ parts

/-! ## Requirements of rights -/

/-- The requirement of a right asks for the actions of the right on one of the
scopes of the resource. -/
theorem decides_requirement_iff (s : Store) (m : Member) (r : Resource) (right : Right) :
    s.decides m (right.requirement r) = true ↔ s.Permits m r right := by
  obtain ⟨org, id, uid, title, place⟩ := r
  cases place with
  | folder =>
    cases right <;>
      simp [Right.requirement, Resource.needs, Resource.needsGovernance, governs, Action.read,
        Action.write, Action.edit, Action.delete, Action.readPermissions,
        Action.writePermissions, Permits, Resource.scopes, Resource.kind, Right.actions,
        decides_on_iff, Scope.ofId_eq, Kind.plural]
  | dashboardIn folder =>
    cases right <;>
      simp [Right.requirement, Resource.needs, Resource.needsGovernance, governs, Action.read,
        Action.write, Action.edit, Action.delete, Action.readPermissions,
        Action.writePermissions, Permits, Resource.scopes, Resource.kind, Right.actions,
        decides_on_iff, Scope.ofId_eq, Kind.plural]

/-- One grant that reaches the member and a scope of the resource permits a right if it
lists all its actions. -/
theorem permits_of_mem {s : Store} {m : Member} {r : Resource} {right : Right} {e : Entry}
    (he : e ∈ s.entries) (horg : e.org = m.org) (happ : e.grant.subject.appliesTo m = true)
    {scope : Scope} (hscope : scope ∈ r.scopes) (hreach : Scope.Reaches e.grant.scope scope)
    (hacts : right.actions r.kind ⊆ e.grant.actions) : s.Permits m r right :=
  ⟨scope, hscope, fun _ ha => ⟨e, he, horg, happ, hacts ha, hreach⟩⟩

/-! ## Answers of gates -/

/-- About a stored resource a gate that has loaded nothing yet replies with the decision
on the requirement of the right. -/
theorem reply_may_of_mem {s : Store} (hs : s.Reachable) {r : Resource} (hr : r ∈ s.resources)
    {g : Gate} (hg : g.kept = none) (horg : r.org = g.member.org) (hid : r.id = g.target)
    (right : Right) :
    s.reply g (.may right) = .ok (.verdict (s.decides g.member (right.requirement r))) :=
  reply_may hg (needsResource_may (hid ▸ id_ne_zero hs r hr) right)
    ((fetch_eq_ok_iff (wellFormed_of_reachable hs)).2 ⟨hr, horg, hid⟩)

/-- A gate that has loaded nothing yet fails to find a resource that is not stored,
and grants a right on a stored one if the access relation permits it, for every
right and every store that a history leads to. -/
theorem reply_may_iff_permits {s : Store} (hs : s.Reachable) {g : Gate} (hg : g.kept = none)
    (hid : g.target ≠ 0) (right : Right) :
    ((∀ r ∈ s.resources, r.org = g.member.org → r.id ≠ g.target) →
      s.reply g (.may right) = .error (.noResource g.target g.member.org)) ∧
    ∀ r ∈ s.resources, r.org = g.member.org → r.id = g.target →
      ∃ verdict, s.reply g (.may right) = .ok (.verdict verdict) ∧
        (verdict = true ↔ s.Permits g.member r right) := by
  have hq := needsResource_may hid right
  constructor
  · intro hnone
    exact reply_of_fetch_eq_error hg hq (fetch_eq_error hnone)
  · intro r hr horg hrid
    have hf : s.fetch g.target g.member.org = .ok r :=
      (fetch_eq_ok_iff (wellFormed_of_reachable hs)).2 ⟨hr, horg, hrid⟩
    exact ⟨_, reply_may hg hq hf, decides_requirement_iff s g.member r right⟩

/-- A viewer sees a dashboard through a grant on all folders, and a dashboard that
is not stored is not found. -/
theorem reply_may_iff_permits_viewer :
    let s := empty.after
      [(1, .save ⟨1, 42, "load", "Load", .dashboardIn 7⟩),
       (2, .grantRole 1 "fixed:reader" (.role .viewer) [⟨"dashboards:read", "folders:*"⟩])]
    let m : Member := { org := 1, user := 10, login := "ann", role := .editor }
    s.reply { member := m, target := 42 } (.may .view) = .ok (.verdict true) ∧
      s.reply { member := m, target := 7 } (.may .view) = .error (.noResource 7 1) := by
  intro s m
  have hs : s.Reachable := ⟨_, rfl⟩
  constructor
  · obtain ⟨verdict, hv, hiff⟩ := (reply_may_iff_permits (g := { member := m, target := 42 })
      hs rfl (by decide) .view).2 ⟨1, 42, "load", "Load", .dashboardIn 7⟩
      (by decide +kernel) rfl rfl
    have hp : s.Permits m ⟨1, 42, "load", "Load", .dashboardIn 7⟩ .view := by
      refine ⟨"folders:id:7", by decide +kernel, fun action ha => ?_⟩
      obtain rfl : action = "dashboards:read" := by simpa [Right.actions, Resource.kind] using ha
      refine ⟨⟨1, 1, "fixed:reader", ["dashboards:read"], "folders:*", .role .viewer, 2, 2⟩, ?_⟩
      refine ⟨by decide +kernel, rfl, rfl, by decide, .inr (.inr ⟨"folders:", ?_⟩)⟩
      decide +kernel
    rw [hv, hiff.2 hp]
  · exact (reply_may_iff_permits (g := { member := m, target := 7 }) hs rfl (by decide)
      .view).1 (by decide +kernel)

end Store

end DashboardAccess
