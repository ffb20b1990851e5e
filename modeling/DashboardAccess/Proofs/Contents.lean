/-
# The grants as a function of the history

What a store holds under a key is what the changes of the history have given the key,
one after the other: managed grants replace it, grants to the role of the key add to
it.  A key without actions has no entry, and the permissions of a member are read off
the keys in their order.

* `Change.revise`, `Store.givenBy` : the actions that a change, and a history, give a key;
* `holds_apply` : one change;
* `holds_after` : whole histories;
* `mem_keysOf`, `permissionsOf_eq` : a member's permissions, key by key;
* `contents_after` : entries, their actions and all permissions after any history.
-/
import DashboardAccess.Proofs.ByteOrder
import DashboardAccess.Proofs.Writes
import Mathlib.Data.Finset.Lattice.Lemmas

namespace DashboardAccess

/-! ## The history of a key -/

/-- The actions of a key after a change, made from those before it. -/
def Change.revise (key : GrantKey) (held : Finset String) : Change → Finset String
  | .save _ => held
  | .grantRole org role subject permissions =>
    if key.org = org ∧ key.role = role ∧ key.subject = subject then
      held ∪ ((permissions.filter (·.scope = key.scope)).map (·.action)).toFinset
    else held
  | .setGrant org subject scope actions =>
    if key = Store.managedKey org subject scope then actions.toFinset else held
  | .setPermission table org resource subject name =>
    match Store.namedActions table name with
    | .ok actions =>
      if key = Store.managedKey org subject (Scope.ofResource table.kind resource) then
        actions.toFinset
      else held
    | .error _ => held

namespace Store

/-- The actions that a history gives a key, change by change. -/
def givenBy (history : List (Nat × Change)) (key : GrantKey) : Finset String :=
  history.foldl (fun held step => step.2.revise key held) ∅

/-- A key holds exactly a set of actions, in ascending order. -/
structure Holds (s : Store) (key : GrantKey) (actions : Finset String) : Prop where
  ascending : Ascending.IsAscending id (s.actionsUnder key)
  toFinset_eq : (s.actionsUnder key).toFinset = actions

/-! ## One change -/

/-- The ascending form of a list is the set of its elements. -/
theorem toFinset_ofList (xs : List String) : (Ascending.ofList xs).toFinset = xs.toFinset := by
  ext a
  rw [List.mem_toFinset, List.mem_toFinset, Ascending.mem_ofList]

/-- A managed grant replaces what its key holds. -/
theorem holds_setGrant {s : Store} (h : s.WellFormed) (now : Nat) (org : Int)
    (subject : Subject) (scope : Scope) (actions : List String) {key : GrantKey}
    {held : Finset String} (hs : s.Holds key held) :
    (s.setGrant now org subject scope actions).2.Holds key
      (if key = managedKey org subject scope then actions.toFinset else held) := by
  have hunder := actionsUnder_setGrant h now org subject scope actions key
  by_cases hk : key = managedKey org subject scope
  · rw [if_pos hk.symm] at hunder
    rw [if_pos hk]
    constructor
    · rw [hunder]
      exact Ascending.isAscending_ofList actions
    · rw [hunder, toFinset_ofList]
  · rw [if_neg (Ne.symm hk)] at hunder
    rw [if_neg hk]
    exact ⟨hunder ▸ hs.ascending, by rw [hunder, hs.toFinset_eq]⟩

/-- Permissions granted to a role add to what its keys hold. -/
theorem holds_grantRole {s : Store} (h : s.WellFormed) (now : Nat) (org : Int) (role : String)
    (subject : Subject) (permissions : List Permission) {key : GrantKey}
    {held : Finset String} (hs : s.Holds key held) :
    (s.grantRole now org role subject permissions).Holds key
      ((Change.grantRole org role subject permissions).revise key held) := by
  have hunder := actionsUnder_writeAll h now (nodup_roleKeys org role subject permissions)
    (fun key actions => Ascending.ofList
      (actions ++ (permissions.filter (·.scope = key.scope)).map (·.action))) key
  rw [← grantRole_eq_writeAll] at hunder
  rw [Change.revise]
  by_cases hk : key ∈ roleKeys org role subject permissions
  · rw [if_pos hk] at hunder
    obtain ⟨p, -, rfl⟩ := mem_roleKeys.1 hk
    rw [if_pos ⟨rfl, rfl, rfl⟩]
    constructor
    · rw [hunder]
      exact Ascending.isAscending_ofList _
    · rw [hunder, toFinset_ofList, List.toFinset_append, hs.toFinset_eq]
  · rw [if_neg hk] at hunder
    refine ⟨hunder ▸ hs.ascending, ?_⟩
    rw [hunder, hs.toFinset_eq]
    split
    · -- no permission is on the scope of the key, so nothing is added
      rename_i hrole
      have hnone : permissions.filter (·.scope = key.scope) = [] := by
        refine List.filter_eq_nil_iff.2 fun p hp hscope => hk (mem_roleKeys.2 ⟨p, hp, ?_⟩)
        obtain ⟨rfl, rfl, rfl⟩ := hrole
        rw [of_decide_eq_true hscope]
      rw [hnone, List.map_nil, List.toFinset_nil, Finset.union_empty]
    · rfl

/-- After a change every key holds what the change makes of what it held. -/
theorem holds_apply {s : Store} (h : s.WellFormed) (now : Nat) (c : Change) {key : GrantKey}
    {held : Finset String} (hs : s.Holds key held) :
    (c.apply now s).Holds key (c.revise key held) := by
  cases c with
  | save r =>
    have hlookup := Change.lookup_apply h now (c := .save r) (k := key) id
    exact ⟨by rw [actionsUnder, hlookup]; exact hs.ascending,
      by rw [actionsUnder, hlookup]; exact hs.toFinset_eq⟩
  | grantRole org role subject permissions =>
    exact holds_grantRole h now org role subject permissions hs
  | setGrant org subject scope actions => exact holds_setGrant h now org subject scope actions hs
  | setPermission table org resource subject name =>
    simp only [Change.apply, Change.run, setPermission, Change.revise]
    cases namedActions table name with
    | error e => exact hs
    | ok actions => exact holds_setGrant h now org subject _ actions hs

/-! ## Histories -/

/-- After a history every key holds what the history gives it. -/
theorem holds_after (history : List (Nat × Change)) (key : GrantKey) :
    (empty.after history).Holds key (givenBy history key) := by
  -- from any store, what the key holds is what the fold starts with
  have hfold : ∀ (s : Store) (held : Finset String), s.WellFormed → s.Holds key held →
      (s.after history).Holds key
        (history.foldl (fun held step => step.2.revise key held) held) := by
    induction history with
    | nil => exact fun s held _ hs => hs
    | cons step rest ih =>
      obtain ⟨now, c⟩ := step
      intro s held h hs
      exact ih _ _ (Change.wellFormed_apply h now c) (holds_apply h now c hs)
  exact hfold empty ∅ wellFormed_empty ⟨List.Pairwise.nil, rfl⟩

/-- The actions that a key holds are in ascending order. -/
theorem isAscending_actionsUnder {s : Store} (hs : s.Reachable) (key : GrantKey) :
    Ascending.IsAscending id (s.actionsUnder key) := by
  obtain ⟨history, rfl⟩ := hs
  exact (holds_after history key).ascending

/-- The actions of an entry are those under its key. -/
theorem actionsUnder_key {s : Store} (h : s.WellFormed) {e : Entry} (he : e ∈ s.entries) :
    s.actionsUnder e.key = e.grant.actions := by
  rw [actionsUnder, (mem_entries_iff h).1 he]
  rfl

/-- A stored grant lists no action twice. -/
theorem nodup_actions {s : Store} (hs : s.Reachable) {e : Entry} (he : e ∈ s.entries) :
    e.grant.actions.Nodup := by
  rw [← actionsUnder_key (wellFormed_of_reachable hs) he]
  exact Ascending.nodup_of_isAscending (isAscending_actionsUnder hs e.key)

/-- A key has an entry if and only if it holds actions. -/
theorem isSome_lookup_iff {s : Store} (hs : s.Reachable) (key : GrantKey) :
    (s.lookup key).isSome = true ↔ s.actionsUnder key ≠ [] := by
  cases hl : s.lookup key with
  | none => simp [actionsUnder, hl]
  | some e =>
    have hne := actions_ne_nil hs e (List.mem_of_find?_eq_some hl)
    simpa [actionsUnder, hl] using hne

/-! ## Permissions -/

/-- The keys of all entries that reach a member, in their order. -/
def keysOf (s : Store) (m : Member) : List GrantKey :=
  (s.entries.filter fun e => decide (e.org = m.org) && e.grant.subject.appliesTo m).map Entry.key

/-- The keys that reach a member are strictly ascending. -/
theorem pairwise_keysOf {s : Store} (h : s.WellFormed) (m : Member) :
    (s.keysOf m).Pairwise fun a b => compare a b = .lt :=
  List.pairwise_map.2 (List.Pairwise.filter _ h.entries)

/-- The keys that reach a member are those with actions in the member's organization
whose subject reaches the member. -/
theorem mem_keysOf {s : Store} (hs : s.Reachable) {m : Member} {key : GrantKey} :
    key ∈ s.keysOf m ↔
      key.org = m.org ∧ key.subject.appliesTo m = true ∧ s.actionsUnder key ≠ [] := by
  simp only [keysOf, List.mem_map, List.mem_filter, Bool.and_eq_true, decide_eq_true_eq]
  rw [← isSome_lookup_iff hs]
  constructor
  · rintro ⟨e, ⟨he, horg, hreach⟩, rfl⟩
    refine ⟨horg, hreach, ?_⟩
    rw [(mem_entries_iff (wellFormed_of_reachable hs)).1 he]
    rfl
  · rintro ⟨horg, hreach, hsome⟩
    obtain ⟨e, he⟩ := Option.isSome_iff_exists.1 hsome
    obtain rfl := key_of_lookup he
    exact ⟨e, ⟨List.mem_of_find?_eq_some he, horg, hreach⟩, rfl⟩

/-- A member's permissions are the actions under the keys that reach the member, on the
scopes of these keys. -/
theorem permissionsOf_eq {s : Store} (h : s.WellFormed) (m : Member) :
    s.permissionsOf m =
      (s.keysOf m).flatMap fun key =>
        (s.actionsUnder key).map fun action => ⟨action, key.scope⟩ := by
  rw [permissionsOf, keysOf, List.flatMap_map]
  refine List.flatMap_congr fun e he => ?_
  rw [actionsUnder_key h (List.mem_filter.1 he).1]
  rfl

/-- After any history a key has an entry if and only if the history gives it actions,
and the entry lists exactly these, strictly ascending by their bytes.  The permissions
of a member are the actions, on their scopes, of all keys to which the history gives
actions, in the member's organization and with a subject that reaches the member, in
the strictly ascending order of the keys. -/
theorem contents_after (history : List (Nat × Change)) :
    let s := empty.after history
    (∀ key, (s.lookup key).isSome = true ↔ (givenBy history key).Nonempty) ∧
    (∀ key e, s.lookup key = some e →
      e.grant.actions = s.actionsUnder key ∧
      e.grant.actions.Pairwise (fun a b => Text.bytes a < Text.bytes b) ∧
      ∀ action, action ∈ e.grant.actions ↔ action ∈ givenBy history key) ∧
    ∀ m : Member, ∃ keys : List GrantKey,
      keys.Pairwise (fun a b => compare a b = .lt) ∧
      (∀ key, key ∈ keys ↔ key.org = m.org ∧ key.subject.appliesTo m = true ∧
        (givenBy history key).Nonempty) ∧
      s.permissionsOf m = keys.flatMap fun key =>
        (s.actionsUnder key).map fun action => ⟨action, key.scope⟩ := by
  intro s
  have hs : s.Reachable := ⟨history, rfl⟩
  have hw := wellFormed_of_reachable hs
  have hempty : ∀ key, s.actionsUnder key ≠ [] ↔ (givenBy history key).Nonempty := by
    intro key
    rw [← (holds_after history key).toFinset_eq, List.toFinset_nonempty_iff]
  refine ⟨fun key => ?_, fun key e he => ?_, fun m => ⟨s.keysOf m, ?_, fun key => ?_, ?_⟩⟩
  · rw [isSome_lookup_iff hs, hempty]
  · have hheld := holds_after history key
    have hunder : s.actionsUnder key = e.grant.actions := by
      rw [actionsUnder, he]
      rfl
    rw [← hunder]
    refine ⟨rfl, hheld.ascending.imp Text.compare_eq_lt_iff_bytes.1, fun action => ?_⟩
    rw [← hheld.toFinset_eq, List.mem_toFinset]
  · exact pairwise_keysOf hw m
  · rw [mem_keysOf hs, hempty]
  · exact permissionsOf_eq hw m

end Store

end DashboardAccess
