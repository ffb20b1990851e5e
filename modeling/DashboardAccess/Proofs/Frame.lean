/-
# What a named permission changes

A managed grant changes the answers for a member on a resource only if it is in the
member's organization, its subject reaches the member, and its scope covers a scope on
which rights on the resource are held.  For the scope of a single resource this means
the resource itself or a dashboard in the folder.

* `Resource.ConcernedBy` : a scope bears on a resource;
* `grants_setGrant_iff` : what a managed grant leaves alone;
* `concernedBy_ofId_iff` : the resources that the scope of a single resource bears on;
* `reply_may_setPermission` : the answers about all other members and resources.
-/
import DashboardAccess.Proofs.Access
import DashboardAccess.Proofs.Entries
import DashboardAccess.Proofs.ScopeText

namespace DashboardAccess

/-! ## Resources that a scope bears on -/

/-- A written scope covers the scope of the resource itself or, for a dashboard, that
of its folder. -/
def Resource.ConcernedBy (r : Resource) (written : Scope) : Prop :=
  Scope.covers written r.scope = true ∨
    ∃ folder, r.place = .dashboardIn folder ∧
      Scope.covers written (Scope.ofId .folder folder) = true

/-- A scope bears on a resource if it reaches one of the scopes on which rights on the
resource are held. -/
theorem Resource.concernedBy_iff {r : Resource} {written : Scope} :
    r.ConcernedBy written ↔ ∃ scope ∈ r.scopes, Scope.Reaches written scope := by
  obtain ⟨org, id, uid, title, place⟩ := r
  cases place with
  | folder =>
    simp [ConcernedBy, scopes, scope, kind, Scope.ofId_eq, Kind.plural, Scope.covers_iff_reaches]
  | dashboardIn folder =>
    simp [ConcernedBy, scopes, scope, kind, Scope.ofId_eq, Kind.plural, Scope.covers_iff_reaches]

/-- The scope of a single resource bears on that resource and, if it is a folder, on the
dashboards in it. -/
theorem Resource.concernedBy_ofId_iff {r : Resource} {kind : Kind} {id : Int} :
    r.ConcernedBy (Scope.ofId kind id) ↔
      (r.kind = kind ∧ r.id = id) ∨ (kind = .folder ∧ r.place = .dashboardIn id) := by
  unfold ConcernedBy
  rw [scope, Scope.covers_ofId_iff]
  refine or_congr ⟨fun h => ⟨h.1.symm, h.2.symm⟩, fun h => ⟨h.1.symm, h.2.symm⟩⟩ ?_
  constructor
  · rintro ⟨folder, hplace, hc⟩
    obtain ⟨hk, rfl⟩ := Scope.covers_ofId_iff.1 hc
    exact ⟨hk, hplace⟩
  · rintro ⟨hk, hplace⟩
    exact ⟨id, hplace, Scope.covers_ofId_iff.2 ⟨hk, rfl⟩⟩

namespace Store

/-! ## Managed grants -/

/-- A managed grant leaves the entries under all other keys as they are. -/
theorem mem_setGrant_of_key_ne {s : Store} (h : s.WellFormed) (now : Nat) {org : Int}
    {subject : Subject} {scope : Scope} (actions : List String) {e : Entry}
    (hk : e.key ≠ managedKey org subject scope) :
    e ∈ (s.setGrant now org subject scope actions).2.entries ↔ e ∈ s.entries := by
  rw [mem_entries_iff (wellFormed_setGrant h now org subject scope actions), mem_entries_iff h,
    lookup_setGrant h, if_neg (Ne.symm hk)]

/-- A managed grant in another organization, to a subject that does not reach the
member, or on a scope that does not reach the given one, changes nothing for the
member on that scope. -/
theorem grants_setGrant_iff {s : Store} (h : s.WellFormed) (now : Nat) {org : Int}
    {subject : Subject} {scope : Scope} (actions : List String) {m : Member} {action : String}
    {requested : Scope}
    (hn : ¬ (m.org = org ∧ subject.appliesTo m = true ∧ Scope.Reaches scope requested)) :
    (s.setGrant now org subject scope actions).2.Grants m action requested ↔
      s.Grants m action requested := by
  -- an entry that counts for the member has another key than the managed one
  have hkey : ∀ e : Entry, e.org = m.org → e.grant.subject.appliesTo m = true →
      Scope.Reaches e.grant.scope requested → e.key ≠ managedKey org subject scope := by
    intro e ho ha hr hk
    obtain ⟨horg, -, hsub, hscope⟩ : e.org = org ∧ e.grant.role = subject.managedRole ∧
        e.grant.subject = subject ∧ e.grant.scope = scope := by
      simpa [Entry.key, managedKey] using hk
    exact hn ⟨ho.symm.trans horg, hsub ▸ ha, hscope ▸ hr⟩
  constructor
  · rintro ⟨e, he, ho, ha, hact, hr⟩
    exact ⟨e, (mem_setGrant_of_key_ne h now actions (hkey e ho ha hr)).1 he, ho, ha, hact, hr⟩
  · rintro ⟨e, he, ho, ha, hact, hr⟩
    exact ⟨e, (mem_setGrant_of_key_ne h now actions (hkey e ho ha hr)).2 he, ho, ha, hact, hr⟩

/-- A managed grant that does not count for the member or does not bear on the resource
leaves the member's rights on the resource as they are. -/
theorem permits_setGrant_iff {s : Store} (h : s.WellFormed) (now : Nat) {org : Int}
    {subject : Subject} {scope : Scope} (actions : List String) {m : Member} {r : Resource}
    (hn : ¬ (m.org = org ∧ subject.appliesTo m = true ∧ r.ConcernedBy scope)) (right : Right) :
    (s.setGrant now org subject scope actions).2.Permits m r right ↔ s.Permits m r right := by
  have hsame : ∀ requested ∈ r.scopes, ∀ action,
      (s.setGrant now org subject scope actions).2.Grants m action requested ↔
        s.Grants m action requested := by
    intro requested hreq action
    refine grants_setGrant_iff h now actions fun hcounts => hn ⟨hcounts.1, hcounts.2.1, ?_⟩
    exact Resource.concernedBy_iff.2 ⟨requested, hreq, hcounts.2.2⟩
  unfold Permits
  refine exists_congr fun requested => and_congr_right fun hreq => ?_
  exact forall_congr' fun action => imp_congr_right fun _ => hsame requested hreq action

/-! ## Named permissions -/

/-- An accepted named permission, given or taken away in any store that a history leads
to, leaves the answers of a gate that has loaded nothing yet as they are, unless it is
in the member's organization, its subject reaches the member and its scope bears on the
resource.  On a numeric id the last means that the resource is the named one or a
dashboard in the named folder. -/
theorem reply_may_setPermission {s t : Store} (hs : s.Reachable) {now : Nat}
    {table : PermissionTable} {org : Int} {resource : String} {subject : Subject} {name : String}
    {given : Option Grant}
    (h : s.setPermission now table org resource subject name = .ok (given, t))
    {g : Gate} (hg : g.kept = none) {r : Resource} (hr : r ∈ s.resources)
    (horg : r.org = g.member.org) (hid : r.id = g.target) :
    (¬ (g.member.org = org ∧ subject.appliesTo g.member = true ∧
        r.ConcernedBy (Scope.ofResource table.kind resource)) →
      ∀ right, t.reply g (.may right) = s.reply g (.may right)) ∧
    ∀ id, resource = toString id →
      (r.ConcernedBy (Scope.ofResource table.kind resource) ↔
        (r.kind = table.kind ∧ r.id = id) ∨
          (table.kind = .folder ∧ r.place = .dashboardIn id)) := by
  constructor
  · intro hn right
    obtain ⟨actions, -, hset⟩ := setPermission_eq_ok_iff.1 h
    have hw := wellFormed_of_reachable hs
    have ht : t = (s.setGrant now org subject (Scope.ofResource table.kind resource) actions).2 := by
      rw [hset]
    have hwt : t.WellFormed := ht ▸ wellFormed_setGrant hw now org subject _ actions
    have hq := needsResource_may (hid ▸ id_ne_zero hs r hr) right
    have hfs := (fetch_eq_ok_iff hw).2 ⟨hr, horg, hid⟩
    have hft : t.fetch g.target g.member.org = .ok r := by
      refine (fetch_eq_ok_iff hwt).2 ⟨?_, horg, hid⟩
      rw [ht, resources_setGrant]
      exact hr
    -- the same resource is loaded from both stores, so only the decision could differ
    have hdecides : t.decides g.member (right.requirement r) =
        s.decides g.member (right.requirement r) := by
      rw [Bool.eq_iff_iff, decides_requirement_iff, decides_requirement_iff, ht]
      exact permits_setGrant_iff hw now actions hn right
    rw [reply_may hg hq hft, reply_may hg hq hfs, hdecides]
  · rintro id rfl
    exact Resource.concernedBy_ofId_iff

/-- Editing dashboard 4 changes nothing about dashboard 42 for the same user. -/
theorem reply_may_setPermission_prefix :
    let s := empty.after [(1, .save ⟨1, 42, "load", "Load", .dashboardIn 7⟩)]
    let g : Gate := { member := { org := 1, user := 10, login := "ann", role := .viewer }
                      target := 42 }
    ∃ given t, s.setPermission 2 .dashboards 1 "4" (.user 10 "ann" "") "Edit" = .ok (given, t) ∧
      ∀ right, t.reply g (.may right) = s.reply g (.may right) := by
  intro s g
  let set := s.setGrant 2 1 (.user 10 "ann" "") (Scope.ofResource .dashboard "4")
    [Action.read .dashboard, Action.write .dashboard, Action.delete .dashboard,
      Action.edit .dashboard]
  have hs : s.Reachable := ⟨_, rfl⟩
  have h : s.setPermission 2 .dashboards 1 "4" (.user 10 "ann" "") "Edit" = .ok (set.1, set.2) :=
    rfl
  refine ⟨set.1, set.2, h, ?_⟩
  obtain ⟨hsame, hnumber⟩ := reply_may_setPermission hs h (g := g) rfl
    (r := ⟨1, 42, "load", "Load", .dashboardIn 7⟩) (by decide +kernel) rfl rfl
  refine hsame fun hcounts => ?_
  have hthis := (hnumber 4 (by decide)).1 hcounts.2.2
  revert hthis
  decide

end Store

end DashboardAccess
