/-
# Entries under changes

What a change does to the entries of a store, said once.  Every change stores a
resource, or writes and erases under the keys that it touches; all other keys
lead to what they led to before.

* `lookup_setGrant` : what a managed grant leaves under every key;
* `Change.Touches` : the keys that a change may write or erase under;
* `lookup_apply`, `filter_entries_apply` : every other key is left alone;
* `setGrant_induction`, `grantRole_induction`, `apply_induction`,
  `reachable_induction` : what survives storing, writing and erasing survives every
  change and holds of every store that a history leads to.
-/
import DashboardAccess.Store.History

namespace DashboardAccess

namespace Store

/-! ## Members and look-ups -/

/-- The entries of a store are what their keys lead to. -/
theorem mem_entries_iff {s : Store} (h : s.WellFormed) {e : Entry} :
    e ∈ s.entries ↔ s.lookup e.key = some e := by
  rw [lookup, Ascending.find?_eq_some_iff h.entries]
  simp

/-- What a key leads to has that key. -/
theorem key_of_lookup {s : Store} {key : GrantKey} {e : Entry} (h : s.lookup key = some e) :
    e.key = key := by
  simpa using List.find?_some h

/-- Storing a resource keeps the order. -/
theorem wellFormed_insertResource {s : Store} (h : s.WellFormed) (r : Resource) :
    WellFormed { s with resources := Ascending.insert Resource.key r s.resources } :=
  ⟨Ascending.isAscending_insert r h.resources, h.entries⟩

/-- Erasing an entry keeps the order. -/
theorem wellFormed_eraseEntry {s : Store} (h : s.WellFormed) (key : GrantKey) :
    WellFormed { s with entries := Ascending.erase Entry.key key s.entries } :=
  ⟨h.resources, Ascending.isAscending_erase key h.entries⟩

/-! ## Writing -/

/-- A written grant has the key that it is written under. -/
theorem key_write (s : Store) (now : Nat) (key : GrantKey)
    (revise : List String → List String) :
    Entry.key ⟨key.org, (s.write now key revise).1⟩ = key := by
  unfold write
  cases hl : s.lookup key with
  | none => rfl
  | some e =>
    have hk := key_of_lookup hl
    rw [← hk]
    rfl

/-- The actions of a written grant are made from those that the key held. -/
theorem actions_write (s : Store) (now : Nat) (key : GrantKey)
    (revise : List String → List String) :
    (s.write now key revise).1.actions =
      revise (((s.lookup key).map (·.grant.actions)).getD []) := by
  unfold write
  cases s.lookup key <;> rfl

/-- Writing puts the written grant among the entries. -/
theorem entries_write (s : Store) (now : Nat) (key : GrantKey)
    (revise : List String → List String) :
    (s.write now key revise).2.entries =
      Ascending.insert Entry.key ⟨key.org, (s.write now key revise).1⟩ s.entries := by
  unfold write
  cases s.lookup key <;> rfl

/-- Writing leaves resources alone. -/
@[simp] theorem resources_write (s : Store) (now : Nat) (key : GrantKey)
    (revise : List String → List String) :
    (s.write now key revise).2.resources = s.resources := by
  unfold write
  cases s.lookup key <;> rfl

/-- After a write the entries are the written one and all others with another
key. -/
theorem mem_write {s : Store} (h : s.WellFormed) (now : Nat) (key : GrantKey)
    (revise : List String → List String) {e : Entry} :
    e ∈ (s.write now key revise).2.entries ↔
      e = ⟨key.org, (s.write now key revise).1⟩ ∨ (e ∈ s.entries ∧ e.key ≠ key) := by
  rw [mem_entries_iff (wellFormed_write h now key revise), lookup_write h]
  constructor
  · intro he
    split at he
    · exact .inl (Option.some.inj he).symm
    · rename_i hne
      exact .inr ⟨(mem_entries_iff h).2 he, Ne.symm hne⟩
  · rintro (rfl | ⟨he, hne⟩)
    · rw [key_write, if_pos rfl]
    · rw [if_neg (Ne.symm hne)]
      exact (mem_entries_iff h).1 he

/-- Writing never takes the next id down. -/
theorem nextId_le_write (s : Store) (now : Nat) (key : GrantKey)
    (revise : List String → List String) : s.nextId ≤ (s.write now key revise).2.nextId := by
  unfold write
  cases s.lookup key with
  | none => exact Int.le_of_lt (Int.lt_succ s.nextId)
  | some e => exact Int.le_refl s.nextId

/-- Writing keeps all ids below the next one. -/
theorem id_lt_nextId_write {s : Store} (h : s.WellFormed)
    (hb : ∀ e ∈ s.entries, e.grant.id < s.nextId) (now : Nat) (key : GrantKey)
    (revise : List String → List String) :
    ∀ e ∈ (s.write now key revise).2.entries,
      e.grant.id < (s.write now key revise).2.nextId := by
  have hnew : (s.write now key revise).1.id < (s.write now key revise).2.nextId := by
    unfold write
    cases hl : s.lookup key with
    | none => exact Int.lt_succ s.nextId
    | some e => exact hb e (List.mem_of_find?_eq_some hl)
  intro e he
  rcases (mem_write h now key revise).1 he with rfl | ⟨he, -⟩
  · exact hnew
  · exact Int.lt_of_lt_of_le (hb e he) (nextId_le_write s now key revise)

/-! ## Managed grants -/

/-- Without actions the managed key is erased. -/
theorem setGrant_nil (s : Store) (now : Nat) (org : Int) (subject : Subject) (scope : Scope) :
    s.setGrant now org subject scope [] =
      (none, { s with
        entries := Ascending.erase Entry.key (managedKey org subject scope) s.entries }) :=
  rfl

/-- Actions are written under the managed key. -/
theorem setGrant_of_ne_nil (s : Store) (now : Nat) (org : Int) (subject : Subject)
    (scope : Scope) {actions : List String} (h : actions ≠ []) :
    s.setGrant now org subject scope actions =
      (some (s.write now (managedKey org subject scope) fun _ => Ascending.ofList actions).1,
        (s.write now (managedKey org subject scope) fun _ => Ascending.ofList actions).2) := by
  rw [setGrant, if_neg (by simpa using h)]

/-- A managed grant leaves resources alone. -/
@[simp] theorem resources_setGrant (s : Store) (now : Nat) (org : Int) (subject : Subject)
    (scope : Scope) (actions : List String) :
    (s.setGrant now org subject scope actions).2.resources = s.resources := by
  by_cases h : actions = []
  · rw [h, setGrant_nil]
  · rw [setGrant_of_ne_nil s now org subject scope h]
    exact resources_write s now _ _

/-- A managed grant is what its key leads to afterwards, and every other key leads
to what it led to before. -/
theorem lookup_setGrant {s : Store} (h : s.WellFormed) (now : Nat) (org : Int)
    (subject : Subject) (scope : Scope) (actions : List String) (k : GrantKey) :
    (s.setGrant now org subject scope actions).2.lookup k =
      if managedKey org subject scope = k then
        (s.setGrant now org subject scope actions).1.map (Entry.mk org)
      else s.lookup k := by
  by_cases ha : actions = []
  · rw [ha, setGrant_nil]
    exact Ascending.find?_erase _ k s.entries
  · rw [setGrant_of_ne_nil s now org subject scope ha]
    exact lookup_write h now _ k _

/-- There is a managed grant afterwards unless no actions are given, and its actions
are the given ones. -/
theorem setGrant_fst (s : Store) (now : Nat) (org : Int) (subject : Subject) (scope : Scope)
    (actions : List String) :
    (actions = [] ∧ (s.setGrant now org subject scope actions).1 = none) ∨
      (actions ≠ [] ∧ ∃ g, (s.setGrant now org subject scope actions).1 = some g ∧
        Entry.key ⟨org, g⟩ = managedKey org subject scope ∧
        g.actions = Ascending.ofList actions) := by
  by_cases ha : actions = []
  · rw [ha]
    exact .inl ⟨rfl, rfl⟩
  · rw [setGrant_of_ne_nil s now org subject scope ha]
    refine .inr ⟨ha, _, rfl, ?_, ?_⟩
    · exact key_write s now (managedKey org subject scope) _
    · exact actions_write s now (managedKey org subject scope) _

/-- A managed grant is written under the managed key. -/
theorem key_of_setGrant {s : Store} {now : Nat} {org : Int} {subject : Subject} {scope : Scope}
    {actions : List String} {g : Grant}
    (hg : (s.setGrant now org subject scope actions).1 = some g) :
    Entry.key ⟨org, g⟩ = managedKey org subject scope := by
  rcases setGrant_fst s now org subject scope actions with ⟨-, hnone⟩ | ⟨-, g', hg', hk, -⟩
  · rw [hnone] at hg
    cases hg
  · rw [hg', Option.some.injEq] at hg
    rw [← hg, hk]

/-- A named permission that is accepted sets the managed grant to its actions. -/
theorem setPermission_eq_ok_iff {s t : Store} {now : Nat} {table : PermissionTable} {org : Int}
    {resource : String} {subject : Subject} {name : String} {given : Option Grant} :
    s.setPermission now table org resource subject name = .ok (given, t) ↔
      ∃ actions, namedActions table name = .ok actions ∧
        s.setGrant now org subject (Scope.ofResource table.kind resource) actions =
          (given, t) := by
  unfold setPermission
  cases namedActions table name <;> simp

/-! ## Writes and erasures in sequence -/

/-- What survives writing and erasing under the managed key survives setting the
managed grant. -/
theorem setGrant_induction {P : Store → Prop} {s : Store} {now : Nat} {org : Int}
    {subject : Subject} {scope : Scope}
    (hwrite : ∀ revise, (∀ actions, revise actions ≠ []) →
      P (s.write now (managedKey org subject scope) revise).2)
    (herase : P { s with
      entries := Ascending.erase Entry.key (managedKey org subject scope) s.entries })
    (actions : List String) : P (s.setGrant now org subject scope actions).2 := by
  by_cases ha : actions = []
  · rw [ha]
    exact herase
  · rw [setGrant_of_ne_nil s now org subject scope ha]
    obtain ⟨a, hmem⟩ := List.exists_mem_of_ne_nil actions ha
    exact hwrite _ fun _ => Ascending.ofList_ne_nil hmem

/-- What survives writing under the keys of a role on the scopes of the permissions
survives granting the permissions to the role. -/
theorem grantRole_induction {P : Store → Prop} {now : Nat} {org : Int} {role : String}
    {subject : Subject} {permissions : List Permission}
    (hwrite : ∀ s, ∀ p ∈ permissions, ∀ revise, (∀ actions, revise actions ≠ []) → P s →
      P (s.write now ⟨org, role, subject, p.scope⟩ revise).2)
    {s : Store} (hs : P s) : P (s.grantRole now org role subject permissions) := by
  unfold grantRole
  have hscopes : ∀ scope ∈ Ascending.ofList (permissions.map (·.scope)),
      ∃ p ∈ permissions, p.scope = scope := by
    intro scope hmem
    exact List.mem_map.1 (Ascending.mem_ofList.1 hmem)
  -- one write for each scope, each of a grant with an action on that scope
  generalize Ascending.ofList (permissions.map (·.scope)) = scopes at hscopes ⊢
  induction scopes generalizing s with
  | nil => exact hs
  | cons scope rest ih =>
    rw [List.foldl_cons]
    obtain ⟨p, hp, rfl⟩ := hscopes scope List.mem_cons_self
    refine ih ?_ fun scope hmem => hscopes scope (List.mem_cons_of_mem _ hmem)
    refine hwrite s p hp _ (fun actions => ?_) hs
    refine Ascending.ofList_ne_nil (a := p.action) (List.mem_append_right _ ?_)
    exact List.mem_map.2 ⟨p, List.mem_filter.2 ⟨hp, by simp⟩, rfl⟩

/-- Granting permissions to a role leaves resources alone. -/
@[simp] theorem resources_grantRole (s : Store) (now : Nat) (org : Int) (role : String)
    (subject : Subject) (permissions : List Permission) :
    (s.grantRole now org role subject permissions).resources = s.resources :=
  grantRole_induction (P := fun t => t.resources = s.resources)
    (fun t _ _ revise _ ht => (resources_write t now _ revise).trans ht) rfl

end Store

/-! ## Changes -/

namespace Change

/-- The keys under which a change may write or erase. -/
def Touches : Change → GrantKey → Prop
  | .save _, _ => False
  | .grantRole org role subject permissions, key =>
    ∃ p ∈ permissions, key = ⟨org, role, subject, p.scope⟩
  | .setGrant org subject scope _, key => key = Store.managedKey org subject scope
  | .setPermission table org resource subject _, key =>
    key = Store.managedKey org subject (Scope.ofResource table.kind resource)

/-- What survives storing a resource, and writing and erasing under the keys that a
change touches, survives the change. -/
theorem apply_induction {P : Store → Prop} {c : Change}
    (hsave : ∀ s r, c = .save r → r.id ≠ 0 → P s →
      P { s with resources := Ascending.insert Resource.key r s.resources })
    (hwrite : ∀ s now key revise, c.Touches key → (∀ actions, revise actions ≠ []) → P s →
      P (s.write now key revise).2)
    (herase : ∀ s key, c.Touches key → P s →
      P { s with entries := Ascending.erase Entry.key key s.entries })
    (now : Nat) {s : Store} (hs : P s) : P (c.apply now s) := by
  -- both ways of setting a managed grant come down to one write or one erasure
  have hset : ∀ org subject scope actions, c.Touches (Store.managedKey org subject scope) →
      P (s.setGrant now org subject scope actions).2 := by
    intro org subject scope actions ht
    exact Store.setGrant_induction (fun revise hne => hwrite s now _ revise ht hne hs)
      (herase s _ ht hs) actions
  cases c with
  | save r =>
    simp only [apply, run, Store.save]
    by_cases hid : r.id = 0
    · rw [if_pos hid]
      exact hs
    · rw [if_neg hid]
      exact hsave s r rfl hid hs
  | grantRole org role subject permissions =>
    show P (s.grantRole now org role subject permissions)
    refine Store.grantRole_induction (fun t p hp revise hne ht => ?_) hs
    exact hwrite t now _ revise ⟨p, hp, rfl⟩ hne ht
  | setGrant org subject scope actions => exact hset org subject scope actions rfl
  | setPermission table org resource subject name =>
    simp only [apply, run, Store.setPermission]
    cases Store.namedActions table name with
    | error e => exact hs
    | ok actions => exact hset org subject _ actions rfl

/-- A key that a change does not touch leads to what it led to before. -/
theorem lookup_apply {s : Store} (h : s.WellFormed) (now : Nat) {c : Change} {k : GrantKey}
    (hk : ¬ c.Touches k) : (c.apply now s).lookup k = s.lookup k := by
  have hkeep : (c.apply now s).WellFormed ∧ (c.apply now s).lookup k = s.lookup k := by
    refine apply_induction (P := fun t => t.WellFormed ∧ t.lookup k = s.lookup k)
      ?_ ?_ ?_ now ⟨h, rfl⟩
    · rintro t r - - ⟨ht, hl⟩
      exact ⟨Store.wellFormed_insertResource ht r, hl⟩
    · rintro t now key revise htouch - ⟨ht, hl⟩
      refine ⟨Store.wellFormed_write ht now key revise, ?_⟩
      rw [Store.lookup_write ht, if_neg, hl]
      rintro rfl
      exact hk htouch
    · rintro t key htouch ⟨ht, hl⟩
      refine ⟨Store.wellFormed_eraseEntry ht key, ?_⟩
      rw [Store.lookup, Ascending.find?_erase, if_neg]
      · exact hl
      · rintro rfl
        exact hk htouch
  exact hkeep.2

/-- The entries whose keys a change cannot touch stay as they are, in their order. -/
theorem filter_entries_apply {c : Change} {p : GrantKey → Bool}
    (hp : ∀ key, c.Touches key → p key = false) (now : Nat) (s : Store) :
    (c.apply now s).entries.filter (fun e => p e.key) = s.entries.filter fun e => p e.key := by
  refine apply_induction
    (P := fun t => t.entries.filter (fun e => p e.key) = s.entries.filter fun e => p e.key)
    ?_ ?_ ?_ now rfl
  · exact fun t r _ _ ht => ht
  · intro t now key revise htouch _ ht
    rw [Store.entries_write, Ascending.filter_insert_of_not (fun e he => ?_), ht]
    rw [he, Store.key_write, hp key htouch]
  · intro t key htouch ht
    refine (Ascending.filter_erase_of_not (fun e he => ?_) t.entries).trans ht
    rw [he, hp key htouch]

end Change

/-! ## Reachable stores -/

namespace Store

/-- A key that no change of a history touches leads to what it led to before. -/
theorem lookup_after {s : Store} (h : s.WellFormed) {history : List (Nat × Change)}
    {k : GrantKey} (hk : ∀ step ∈ history, ¬ step.2.Touches k) :
    (s.after history).lookup k = s.lookup k := by
  induction history generalizing s with
  | nil => rfl
  | cons step rest ih =>
    obtain ⟨now, c⟩ := step
    rw [after_cons, ih (Change.wellFormed_apply h now c) fun step hstep =>
      hk step (List.mem_cons_of_mem _ hstep)]
    exact Change.lookup_apply h now (hk _ List.mem_cons_self)

/-- What the empty store has and what survives storing, writing and erasing holds of
every store that a history leads to. -/
theorem reachable_induction {P : Store → Prop} (hempty : P empty)
    (hsave : ∀ s r, s.WellFormed → r.id ≠ 0 → P s →
      P { s with resources := Ascending.insert Resource.key r s.resources })
    (hwrite : ∀ s now key revise, s.WellFormed → (∀ actions, revise actions ≠ []) → P s →
      P (s.write now key revise).2)
    (herase : ∀ s key, s.WellFormed → P s →
      P { s with entries := Ascending.erase Entry.key key s.entries })
    {s : Store} (hs : s.Reachable) : P s := by
  obtain ⟨history, rfl⟩ := hs
  -- the order is carried along, since a write is described in ordered stores only
  have hkeep : ∀ t : Store, t.WellFormed ∧ P t →
      (t.after history).WellFormed ∧ P (t.after history) := by
    induction history with
    | nil => exact fun _ ht => ht
    | cons step rest ih =>
      obtain ⟨now, c⟩ := step
      intro t ht
      refine ih _ (Change.apply_induction (P := fun t => t.WellFormed ∧ P t) ?_ ?_ ?_ now ht)
      · rintro t r - hid ⟨hw, hp⟩
        exact ⟨wellFormed_insertResource hw r, hsave t r hw hid hp⟩
      · rintro t now key revise - hrev ⟨hw, hp⟩
        exact ⟨wellFormed_write hw now key revise, hwrite t now key revise hw hrev hp⟩
      · rintro t key - ⟨hw, hp⟩
        exact ⟨wellFormed_eraseEntry hw key, herase t key hw hp⟩
  exact (hkeep empty ⟨wellFormed_empty, hempty⟩).2

/-- No resource is stored under the id of resources that are about to be made. -/
theorem id_ne_zero {s : Store} (hs : s.Reachable) : ∀ r ∈ s.resources, r.id ≠ 0 := by
  refine reachable_induction (P := fun s => ∀ r ∈ s.resources, r.id ≠ 0) ?_ ?_ ?_ ?_ hs
  · intro r hr
    cases hr
  · intro s r hw hid hs r' hr'
    rcases (Ascending.mem_insert hw.resources).1 hr' with rfl | ⟨hr', -⟩
    · exact hid
    · exact hs r' hr'
  · intro s now key revise _ _ hs
    rw [resources_write]
    exact hs
  · exact fun s key _ hs => hs

/-- Every stored grant has actions. -/
theorem actions_ne_nil {s : Store} (hs : s.Reachable) : ∀ e ∈ s.entries, e.grant.actions ≠ [] := by
  refine reachable_induction (P := fun s => ∀ e ∈ s.entries, e.grant.actions ≠ []) ?_ ?_ ?_ ?_ hs
  · intro e he
    cases he
  · exact fun s r _ _ hs => hs
  · intro s now key revise hw hrev hs e he
    rcases (mem_write hw now key revise).1 he with rfl | ⟨he, -⟩
    · rw [actions_write]
      exact hrev _
    · exact hs e he
  · intro s key _ hs e he
    exact hs e (Ascending.mem_erase.1 he).1

end Store

end DashboardAccess
