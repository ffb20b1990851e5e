/-
# The writes of a change

A change of the grants is a sequence of writes under different keys, or one erasure.
Each write goes on from what its key holds, so that the order of the writes matters
only for the ids that they hand out.

* `Store.actionsUnder` : the actions that a key holds;
* `Store.writeAll` : several writes one after the other;
* `actionsUnder_writeAll` : every key that is written is revised once;
* `mem_actionsUnder_grantRole` : what permissions granted to a role add to a key;
* `Change.writes` : the keys that a change writes under, in order;
* `Change.apply_cases` : what a change does to the grants.
-/
import DashboardAccess.Proofs.Entries
import Mathlib.Data.List.Nodup

namespace DashboardAccess

namespace Store

/-! ## The actions under a key -/

/-- The actions that a key holds. -/
def actionsUnder (s : Store) (key : GrantKey) : List String :=
  ((s.lookup key).map (·.grant.actions)).getD []

/-- Writing revises the actions under its key. -/
theorem actionsUnder_write {s : Store} (h : s.WellFormed) (now : Nat) (key k : GrantKey)
    (revise : List String → List String) :
    (s.write now key revise).2.actionsUnder k =
      if key = k then revise (s.actionsUnder k) else s.actionsUnder k := by
  rw [actionsUnder, lookup_write h]
  by_cases hk : key = k
  · rw [if_pos hk, if_pos hk, Option.map_some, Option.getD_some, actions_write, hk]
    rfl
  · rw [if_neg hk, if_neg hk]
    rfl

/-- A managed grant gives its key just the given actions. -/
theorem actionsUnder_setGrant {s : Store} (h : s.WellFormed) (now : Nat) (org : Int)
    (subject : Subject) (scope : Scope) (actions : List String) (k : GrantKey) :
    (s.setGrant now org subject scope actions).2.actionsUnder k =
      if managedKey org subject scope = k then Ascending.ofList actions
      else s.actionsUnder k := by
  rw [actionsUnder, lookup_setGrant h]
  by_cases hk : managedKey org subject scope = k
  · rw [if_pos hk, if_pos hk]
    rcases setGrant_fst s now org subject scope actions with ⟨rfl, hnone⟩ | ⟨-, g, hg, -, hacts⟩
    · rw [hnone]
      rfl
    · rw [hg, ← hacts]
      rfl
  · rw [if_neg hk, if_neg hk]
    rfl

/-! ## Several writes -/

/-- Write under several keys one after the other, each made from what it holds. -/
def writeAll (s : Store) (now : Nat) (keys : List GrantKey)
    (revise : GrantKey → List String → List String) : Store :=
  keys.foldl (fun s key => (s.write now key (revise key)).2) s

@[simp] theorem writeAll_nil (s : Store) (now : Nat)
    (revise : GrantKey → List String → List String) : s.writeAll now [] revise = s :=
  rfl

@[simp] theorem writeAll_cons (s : Store) (now : Nat) (key : GrantKey) (rest : List GrantKey)
    (revise : GrantKey → List String → List String) :
    s.writeAll now (key :: rest) revise =
      (s.write now key (revise key)).2.writeAll now rest revise :=
  rfl

/-- A key that is not written leads to what it led to before. -/
theorem lookup_writeAll_of_not_mem {s : Store} (h : s.WellFormed) (now : Nat)
    {keys : List GrantKey} (revise : GrantKey → List String → List String) {k : GrantKey}
    (hk : k ∉ keys) : (s.writeAll now keys revise).lookup k = s.lookup k := by
  induction keys generalizing s with
  | nil => rfl
  | cons key rest ih =>
    rw [List.mem_cons, not_or] at hk
    rw [writeAll_cons, ih (wellFormed_write h now key _) hk.2, lookup_write h,
      if_neg (Ne.symm hk.1)]

/-- Where no key is written twice, the actions under every written key are revised once
and all others stay. -/
theorem actionsUnder_writeAll {s : Store} (h : s.WellFormed) (now : Nat)
    {keys : List GrantKey} (hkeys : keys.Nodup)
    (revise : GrantKey → List String → List String) (k : GrantKey) :
    (s.writeAll now keys revise).actionsUnder k =
      if k ∈ keys then revise k (s.actionsUnder k) else s.actionsUnder k := by
  induction keys generalizing s with
  | nil => simp
  | cons key rest ih =>
    obtain ⟨hkey, hrest⟩ := List.nodup_cons.1 hkeys
    rw [writeAll_cons, ih (wellFormed_write h now key _) hrest, actionsUnder_write h]
    by_cases hk : key = k
    · subst hk
      simp [hkey]
    · simp [hk, Ne.symm hk]

/-! ## Role grants -/

/-- The keys that permissions granted to a role are written under: one for each of their
scopes, in the order of the scopes. -/
def roleKeys (org : Int) (role : String) (subject : Subject) (permissions : List Permission) :
    List GrantKey :=
  (Ascending.ofList (permissions.map (·.scope))).map fun scope => ⟨org, role, subject, scope⟩

/-- The keys of permissions granted to a role have the scopes of the permissions. -/
theorem mem_roleKeys {org : Int} {role : String} {subject : Subject}
    {permissions : List Permission} {k : GrantKey} :
    k ∈ roleKeys org role subject permissions ↔
      ∃ p ∈ permissions, k = ⟨org, role, subject, p.scope⟩ := by
  simp only [roleKeys, List.mem_map, Ascending.mem_ofList]
  constructor
  · rintro ⟨_, ⟨p, hp, rfl⟩, rfl⟩
    exact ⟨p, hp, rfl⟩
  · rintro ⟨p, hp, rfl⟩
    exact ⟨_, ⟨p, hp, rfl⟩, rfl⟩

/-- No key is written twice for permissions granted to a role. -/
theorem nodup_roleKeys (org : Int) (role : String) (subject : Subject)
    (permissions : List Permission) : (roleKeys org role subject permissions).Nodup := by
  refine List.Nodup.map (fun a b hab => congrArg GrantKey.scope hab) ?_
  exact Ascending.nodup_of_isAscending (Ascending.isAscending_ofList _)

/-- Granting permissions to a role adds to each of its keys the actions on its scope. -/
theorem grantRole_eq_writeAll (s : Store) (now : Nat) (org : Int) (role : String)
    (subject : Subject) (permissions : List Permission) :
    s.grantRole now org role subject permissions =
      s.writeAll now (roleKeys org role subject permissions) fun key actions =>
        Ascending.ofList
          (actions ++ (permissions.filter (·.scope = key.scope)).map (·.action)) := by
  rw [grantRole, writeAll, roleKeys, List.foldl_map]

/-- After permissions are granted to a role, a key holds what it held and, if it is one of
the role, the actions of the permissions on its scope. -/
theorem mem_actionsUnder_grantRole {s : Store} (h : s.WellFormed) (now : Nat) (org : Int)
    (role : String) (subject : Subject) (permissions : List Permission) {key : GrantKey}
    {action : String} :
    action ∈ (s.grantRole now org role subject permissions).actionsUnder key ↔
      action ∈ s.actionsUnder key ∨ (key.org = org ∧ key.role = role ∧
        key.subject = subject ∧ ⟨action, key.scope⟩ ∈ permissions) := by
  rw [grantRole_eq_writeAll, actionsUnder_writeAll h now (nodup_roleKeys _ _ _ _)]
  by_cases hk : key ∈ roleKeys org role subject permissions
  · rw [if_pos hk, Ascending.mem_ofList, List.mem_append]
    obtain ⟨p, -, rfl⟩ := mem_roleKeys.1 hk
    refine or_congr_right ?_
    simp only [List.mem_map, List.mem_filter, decide_eq_true_eq, true_and]
    constructor
    · rintro ⟨⟨a, scope⟩, ⟨hmem, hscope⟩, rfl⟩
      exact hscope ▸ hmem
    · intro hmem
      exact ⟨_, ⟨hmem, rfl⟩, rfl⟩
  · rw [if_neg hk]
    refine (or_iff_left fun hgiven => hk ?_).symm
    obtain ⟨rfl, rfl, rfl, hmem⟩ := hgiven
    exact mem_roleKeys.2 ⟨_, hmem, rfl⟩

/-! ## Managed grants -/

/-- The keys that a managed grant is written under: its own or, without actions, none. -/
def managedKeys (org : Int) (subject : Subject) (scope : Scope) (actions : List String) :
    List GrantKey :=
  if actions = [] then [] else [managedKey org subject scope]

/-- No key is written twice for a managed grant. -/
theorem nodup_managedKeys (org : Int) (subject : Subject) (scope : Scope)
    (actions : List String) : (managedKeys org subject scope actions).Nodup := by
  rw [managedKeys]
  split
  · exact List.nodup_nil
  · exact List.nodup_singleton _

/-- Setting a managed grant erases its key or writes under it. -/
theorem setGrant_cases (s : Store) (now : Nat) (org : Int) (subject : Subject) (scope : Scope)
    (actions : List String) :
    (managedKeys org subject scope actions = [] ∧
      ∃ key, (s.setGrant now org subject scope actions).2 =
        { s with entries := Ascending.erase Entry.key key s.entries }) ∨
    ∃ revise, (s.setGrant now org subject scope actions).2 =
      s.writeAll now (managedKeys org subject scope actions) revise := by
  by_cases ha : actions = []
  · subst ha
    exact .inl ⟨rfl, _, rfl⟩
  · rw [setGrant_of_ne_nil s now org subject scope ha, managedKeys, if_neg ha]
    exact .inr ⟨fun _ _ => Ascending.ofList actions, rfl⟩

end Store

/-! ## Changes -/

namespace Change

/-- The keys that a change writes under, in the order of the writes. -/
def writes : Change → List GrantKey
  | .save _ => []
  | .grantRole org role subject permissions => Store.roleKeys org role subject permissions
  | .setGrant org subject scope actions => Store.managedKeys org subject scope actions
  | .setPermission table org resource subject name =>
    match Store.namedActions table name with
    | .ok actions =>
      Store.managedKeys org subject (Scope.ofResource table.kind resource) actions
    | .error _ => []

/-- A change writes under no key twice. -/
theorem nodup_writes (c : Change) : c.writes.Nodup := by
  cases c with
  | save r => exact List.nodup_nil
  | grantRole org role subject permissions =>
    exact Store.nodup_roleKeys org role subject permissions
  | setGrant org subject scope actions =>
    exact Store.nodup_managedKeys org subject scope actions
  | setPermission table org resource subject name =>
    rw [writes]
    cases Store.namedActions table name with
    | error e => exact List.nodup_nil
    | ok actions => exact Store.nodup_managedKeys org subject _ actions

/-- A change leaves the grants alone, erases under one key, or writes under its keys one
after the other. -/
theorem apply_cases (now : Nat) (s : Store) (c : Change) :
    (c.writes = [] ∧ (c.apply now s).entries = s.entries ∧
      (c.apply now s).nextId = s.nextId) ∨
    (c.writes = [] ∧ ∃ key, c.apply now s =
      { s with entries := Ascending.erase Entry.key key s.entries }) ∨
    ∃ revise, c.apply now s = s.writeAll now c.writes revise := by
  cases c with
  | save r =>
    refine .inl ⟨rfl, ?_⟩
    simp only [apply, run, Store.save]
    by_cases hid : r.id = 0
    · rw [if_pos hid]
      exact ⟨rfl, rfl⟩
    · rw [if_neg hid]
      exact ⟨rfl, rfl⟩
  | grantRole org role subject permissions =>
    exact .inr (.inr ⟨_, Store.grantRole_eq_writeAll s now org role subject permissions⟩)
  | setGrant org subject scope actions =>
    exact .inr (Store.setGrant_cases s now org subject scope actions)
  | setPermission table org resource subject name =>
    simp only [apply, run, Store.setPermission, writes]
    cases Store.namedActions table name with
    | error e => exact .inl ⟨rfl, rfl, rfl⟩
    | ok actions => exact .inr (Store.setGrant_cases s now org subject _ actions)

end Change

end DashboardAccess
