/-
# Grants to roles in any order

What a key holds after several grants to roles is what it held before and what any of them
gives it.  So neither their order nor their times matter, nor how often each of them is
made, nor whether the permissions of one of them come at once or in parts: the stores have
the same keys with the same actions, and only the ids and times of the grants differ.

* `RoleGrant.Gives` : what a grant to a role gives to a key;
* `mem_actionsUnder_grantAll` : what a key holds after several of them;
* `Store.contents`, `Agrees` : stores that are the same up to ids and times;
* `agrees_of_actionsUnder` : they are if all keys hold the same;
* `GiveAlike` : grants that give the same to every key, and when they do;
* `agrees_grantAll` : the stores that they lead to.
-/
import DashboardAccess.Proofs.Contents
import DashboardAccess.Proofs.Replies

namespace DashboardAccess

/-! ## Grants to roles -/

/-- Permissions that are granted to a role of a subject. -/
structure RoleGrant where
  org : Int
  role : String
  subject : Subject
  permissions : List Permission
deriving DecidableEq, Repr

namespace RoleGrant

/-- The change that makes the grant. -/
def change (g : RoleGrant) : Change :=
  .grantRole g.org g.role g.subject g.permissions

/-- The grant gives an action to a key. -/
def Gives (g : RoleGrant) (key : GrantKey) (action : String) : Prop :=
  key.org = g.org ∧ key.role = g.role ∧ key.subject = g.subject ∧
    ⟨action, key.scope⟩ ∈ g.permissions

end RoleGrant

/-- Two lists of grants to roles, each at its own time, give the same actions to every
key. -/
def GiveAlike (xs ys : List (Nat × RoleGrant)) : Prop :=
  ∀ key action, (∃ step ∈ xs, step.2.Gives key action) ↔ ∃ step ∈ ys, step.2.Gives key action

/-- The same grants give the same, whatever their order and times and however often each of
them is made. -/
theorem giveAlike_of_mem_iff {xs ys : List (Nat × RoleGrant)}
    (h : ∀ g, g ∈ xs.map (·.2) ↔ g ∈ ys.map (·.2)) : GiveAlike xs ys := by
  have hany : ∀ (zs : List (Nat × RoleGrant)) key action,
      (∃ step ∈ zs, step.2.Gives key action) ↔ ∃ g ∈ zs.map (·.2), g.Gives key action := by
    intro zs key action
    simp only [List.mem_map, exists_exists_and_eq_and]
  intro key action
  rw [hany, hany]
  simp only [h]

/-- Among other grants, one grant gives the same as several with parts of its permissions
that are all of them together. -/
theorem giveAlike_of_parts (first last : List (Nat × RoleGrant)) (now : Nat) (g : RoleGrant)
    {parts : List (Nat × List Permission)}
    (h : ∀ p, p ∈ g.permissions ↔ ∃ part ∈ parts, p ∈ part.2) :
    GiveAlike (first ++ (now, g) :: last)
      (first ++ parts.map (fun part => (part.1, { g with permissions := part.2 })) ++ last) := by
  have hparts : ∀ key action, g.Gives key action ↔
      ∃ part ∈ parts, RoleGrant.Gives { g with permissions := part.2 } key action := by
    intro key action
    simp only [RoleGrant.Gives, h, ← exists_and_left, and_left_comm (a := _ ∈ parts)]
  intro key action
  simp only [List.mem_append, List.mem_cons, List.mem_map, or_and_right, exists_or,
    exists_eq_left, exists_exists_and_eq_and, hparts, or_assoc]

namespace Store

/-! ## Several grants -/

/-- Make several grants to roles, each at its own time. -/
def grantAll (s : Store) (grants : List (Nat × RoleGrant)) : Store :=
  s.after (grants.map fun step => (step.1, step.2.change))

/-- After several grants to roles a key holds what it held and what any of them gives
it. -/
theorem mem_actionsUnder_grantAll {s : Store} (h : s.WellFormed)
    (grants : List (Nat × RoleGrant)) {key : GrantKey} {action : String} :
    action ∈ (s.grantAll grants).actionsUnder key ↔
      action ∈ s.actionsUnder key ∨ ∃ step ∈ grants, step.2.Gives key action := by
  induction grants generalizing s with
  | nil => simp [grantAll]
  | cons step rest ih =>
    obtain ⟨now, g⟩ := step
    have hrest := ih (Change.wellFormed_apply h now g.change)
    have hstep : action ∈ (g.change.apply now s).actionsUnder key ↔
        action ∈ s.actionsUnder key ∨ g.Gives key action :=
      mem_actionsUnder_grantRole h now g.org g.role g.subject g.permissions
    rw [grantAll, List.map_cons, after_cons]
    rw [grantAll] at hrest
    rw [hrest, List.exists_mem_cons_iff, ← or_assoc]
    exact or_congr_left hstep

/-- Grants to roles leave resources alone. -/
theorem resources_grantAll (s : Store) (grants : List (Nat × RoleGrant)) :
    (s.grantAll grants).resources = s.resources := by
  induction grants generalizing s with
  | nil => rfl
  | cons step rest ih =>
    obtain ⟨now, g⟩ := step
    exact (ih _).trans (resources_grantRole s now g.org g.role g.subject g.permissions)

/-! ## Stores up to ids and times -/

/-- The keys of all entries with their actions, in the order of the keys. -/
def contents (s : Store) : List (GrantKey × List String) :=
  s.entries.map fun e => (e.key, e.grant.actions)

/-- What stands under a key are the actions that the key holds. -/
theorem mem_contents {s : Store} (hs : s.Reachable) {key : GrantKey} {actions : List String} :
    (key, actions) ∈ s.contents ↔ s.actionsUnder key = actions ∧ actions ≠ [] := by
  have h := wellFormed_of_reachable hs
  simp only [contents, List.mem_map, Prod.mk.injEq]
  constructor
  · rintro ⟨e, he, rfl, rfl⟩
    exact ⟨actionsUnder_key h he, actions_ne_nil hs e he⟩
  · rintro ⟨rfl, hne⟩
    obtain ⟨e, he⟩ := Option.isSome_iff_exists.1 ((isSome_lookup_iff hs key).2 hne)
    obtain rfl := key_of_lookup he
    have hmem := (mem_entries_iff h).2 he
    exact ⟨e, hmem, rfl, (actionsUnder_key h hmem).symm⟩

/-- The contents are in the strictly ascending order of the keys. -/
theorem isAscending_contents {s : Store} (h : s.WellFormed) :
    Ascending.IsAscending Prod.fst s.contents :=
  List.pairwise_map.2 h.entries

/-- The stores are the same up to the ids and times of grants, and cannot be told apart by
permissions, decisions, and replies other than access lists. -/
structure Agrees (s t : Store) : Prop where
  resources : s.resources = t.resources
  contents : s.contents = t.contents
  permissionsOf : ∀ m, s.permissionsOf m = t.permissionsOf m
  decides : ∀ m r, s.decides m r = t.decides m r
  reply : ∀ g q, q ≠ .accessList → q ≠ .distinctAccessList → s.reply g q = t.reply g q

/-- Stores with the same resources in which all keys hold the same are the same up to ids
and times. -/
theorem agrees_of_actionsUnder {s t : Store} (hs : s.Reachable) (ht : t.Reachable)
    (hresources : s.resources = t.resources)
    (h : ∀ key action, action ∈ s.actionsUnder key ↔ action ∈ t.actionsUnder key) :
    s.Agrees t := by
  have hws := wellFormed_of_reachable hs
  have hwt := wellFormed_of_reachable ht
  have hunder : ∀ key, s.actionsUnder key = t.actionsUnder key := fun key =>
    Ascending.eq_of_mem_iff (isAscending_actionsUnder hs key) (isAscending_actionsUnder ht key)
      (h key)
  have hcontents : s.contents = t.contents := by
    refine Ascending.eq_of_mem_iff (isAscending_contents hws) (isAscending_contents hwt)
      fun held => ?_
    rw [mem_contents hs, mem_contents ht, hunder]
  have hpermissions : ∀ m, s.permissionsOf m = t.permissionsOf m := by
    intro m
    have hkeys : Ascending.IsAscending id (s.keysOf m) := pairwise_keysOf hws m
    rw [permissionsOf_eq hws, permissionsOf_eq hwt,
      Ascending.eq_of_mem_iff hkeys (pairwise_keysOf hwt m) fun key => ?_]
    · simp only [hunder]
    · rw [mem_keysOf hs, mem_keysOf ht, hunder]
  have hdecides : ∀ m r, s.decides m r = t.decides m r := by
    intro m r
    rw [Store.decides, Store.decides, hpermissions]
  refine ⟨hresources, hcontents, hpermissions, hdecides, fun g q hlist hdistinct => ?_⟩
  refine reply_congr rfl (resourceFor_congr hresources g) (fun r hr hneeds => ?_)
    fun _ => replyFree_congr (hdecides g.member _) q
  cases q with
  | may right => exact congrArg Reply.verdict (hdecides g.member _)
  | accessList => exact absurd rfl hlist
  | distinctAccessList => exact absurd rfl hdistinct
  | _ => cases hneeds

/-- Grants to roles commute, may be repeated, and may be made at once or in parts.  From any
store that a history leads to, lists of them that give the same to every key lead to stores
that are the same up to ids and times: lists of the same grants, in whatever order and at
whatever times and however often each is made, and lists in which one of the grants is made
in several parts. -/
theorem agrees_grantAll {s : Store} (hs : s.Reachable) :
    (∀ xs ys : List (Nat × RoleGrant), GiveAlike xs ys →
      (s.grantAll xs).Agrees (s.grantAll ys)) ∧
    (∀ xs ys : List (Nat × RoleGrant), (∀ g, g ∈ xs.map (·.2) ↔ g ∈ ys.map (·.2)) →
      (s.grantAll xs).Agrees (s.grantAll ys)) ∧
    ∀ (first last : List (Nat × RoleGrant)) (now : Nat) (g : RoleGrant)
      (parts : List (Nat × List Permission)),
      (∀ p, p ∈ g.permissions ↔ ∃ part ∈ parts, p ∈ part.2) →
        (s.grantAll (first ++ (now, g) :: last)).Agrees
          (s.grantAll (first ++
            parts.map (fun part => (part.1, { g with permissions := part.2 })) ++ last)) := by
  have h := wellFormed_of_reachable hs
  have hagrees : ∀ xs ys : List (Nat × RoleGrant), GiveAlike xs ys →
      (s.grantAll xs).Agrees (s.grantAll ys) := by
    intro xs ys halike
    refine agrees_of_actionsUnder (hs.after _) (hs.after _) ?_ fun key action => ?_
    · rw [resources_grantAll, resources_grantAll]
    · rw [mem_actionsUnder_grantAll h, mem_actionsUnder_grantAll h, halike]
  refine ⟨hagrees, fun xs ys hsame => ?_, fun first last now g parts hparts => ?_⟩
  · exact hagrees xs ys (giveAlike_of_mem_iff hsame)
  · exact hagrees _ _ (giveAlike_of_parts first last now g hparts)

/-- Readers are given two permissions and a user one more through the managed role.  In the
other order, with the first grant made in two parts and the second one made twice, the
contents are the same, although the entries are not. -/
theorem agrees_grantAll_parts :
    let ann : Subject := .user 10 "ann" ""
    let s := empty.after [(1, .setPermission .folders 1 "7" ann "View")]
    let readers : RoleGrant := ⟨1, "fixed:reader", .role .viewer,
      [⟨"folders:read", "folders:id:7"⟩, ⟨"dashboards:read", "folders:id:8"⟩]⟩
    let writes : RoleGrant := ⟨1, ann.managedRole, ann, [⟨"folders:write", "folders:id:7"⟩]⟩
    let xs : List (Nat × RoleGrant) := [(2, readers), (3, writes)]
    let ys : List (Nat × RoleGrant) :=
      [(2, writes), (3, { readers with permissions := [⟨"dashboards:read", "folders:id:8"⟩] }),
       (4, writes), (5, { readers with permissions := [⟨"folders:read", "folders:id:7"⟩] })]
    GiveAlike xs ys ∧ (s.grantAll xs).Agrees (s.grantAll ys) ∧
      (s.grantAll xs).entries ≠ (s.grantAll ys).entries := by
  intro ann s readers writes xs ys
  have hs : s.Reachable := ⟨_, rfl⟩
  have halike : GiveAlike xs ys := by
    intro key action
    simp only [xs, ys, List.exists_mem_cons_iff]
    simp only [readers, RoleGrant.Gives, List.mem_cons, List.not_mem_nil, false_and,
      exists_false]
    tauto
  exact ⟨halike, (agrees_grantAll hs).1 xs ys halike, by decide +kernel⟩

end Store

end DashboardAccess
