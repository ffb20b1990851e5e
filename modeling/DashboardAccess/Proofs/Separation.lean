/-
# Organizations do not interfere

Two stores, one after a whole history and one after the changes of a single
organization alone, each at its own time, hold the same of that organization.  Only
the ids of grants differ, since all organizations draw them from one sequence: there
is a strictly increasing renaming between them.

* `Mirrors` : what the two stores have in common;
* `mirrors_apply_of_ne`, `mirrors_apply` : one change, of another organization or of
  the organization itself;
* `mirrors_after` : whole histories;
* `after_ofOrg` : what every member of the organization sees.
-/
import DashboardAccess.Proofs.Entries
import DashboardAccess.Proofs.Replies
import Mathlib.Data.Int.ConditionallyCompleteOrder
import Mathlib.Order.ConditionallyCompleteLattice.Basic

namespace DashboardAccess

/-! ## Organizations of changes, other ids -/

/-- The organization that a change is made in. -/
def Change.org : Change → Int
  | .save r => r.org
  | .grantRole org _ _ _ => org
  | .setGrant org _ _ _ => org
  | .setPermission _ org _ _ _ => org

/-- A change touches keys of its organization only. -/
theorem Change.org_of_touches {c : Change} {key : GrantKey} (h : c.Touches key) :
    key.org = c.org := by
  cases c with
  | save r => cases h
  | grantRole org role subject permissions =>
    obtain ⟨p, -, rfl⟩ := h
    rfl
  | setGrant org subject scope actions =>
    obtain rfl := h
    rfl
  | setPermission table org resource subject name =>
    obtain rfl := h
    rfl

/-- A grant under another id. -/
def Grant.renumber (rename : Int → Int) (g : Grant) : Grant :=
  { g with id := rename g.id }

/-- An entry whose grant has another id. -/
def Entry.renumber (rename : Int → Int) (e : Entry) : Entry :=
  ⟨e.org, e.grant.renumber rename⟩

/-- Another id leaves the key as it is. -/
theorem Entry.key_renumber (rename : Int → Int) (e : Entry) : (e.renumber rename).key = e.key :=
  rfl

namespace Store

/-- The resources of an organization. -/
def resourcesOf (s : Store) (org : Int) : List Resource :=
  s.resources.filter fun r => r.org = org

/-- The entries of an organization. -/
def entriesOf (s : Store) (org : Int) : List Entry :=
  s.entries.filter fun e => e.org = org

/-- Two stores hold the same of an organization, where the ids of one are those of the
other under a strictly increasing renaming.  The next id of the one that holds
nothing else is beyond all its ids and has a place in the renaming. -/
structure Mirrors (org : Int) (rename : Int → Int) (full own : Store) : Prop where
  full_wellFormed : full.WellFormed
  own_wellFormed : own.WellFormed
  resources : full.resourcesOf org = own.resourcesOf org
  entries : full.entriesOf org = (own.entriesOf org).map (Entry.renumber rename)
  strictMono : StrictMono rename
  next : rename own.nextId ≤ full.nextId
  below : ∀ e ∈ own.entries, e.grant.id < own.nextId

/-! ## Parts of a store -/

section
variable {s : Store} {org : Int}

/-- Storing a resource of another organization leaves the resources of the
organization alone. -/
theorem resourcesOf_insert_of_ne {r : Resource} (hr : r.org ≠ org) :
    (Ascending.insert Resource.key r s.resources).filter (fun r => r.org = org) =
      s.resourcesOf org := by
  refine Ascending.filter_insert_of_not (fun r' hk => ?_) s.resources
  have ho : r'.org ≠ org := by
    rw [show r'.org = r.org from congrArg ResourceKey.org hk]
    exact hr
  simpa using ho

/-- The resources of an organization follow what is stored among them. -/
theorem resourcesOf_insert (h : s.WellFormed) {r : Resource} (hr : r.org = org) :
    (Ascending.insert Resource.key r s.resources).filter (fun r => r.org = org) =
      Ascending.insert Resource.key r (s.resourcesOf org) := by
  refine Ascending.filter_insert (fun r' hk => ?_) h.resources
  have ho : r'.org = org := by
    rw [show r'.org = r.org from congrArg ResourceKey.org hk]
    exact hr
  simpa using ho

/-- A key of an organization leads into the entries of the organization. -/
theorem lookup_entriesOf {key : GrantKey} (hk : key.org = org) :
    Ascending.find? Entry.key key (s.entriesOf org) = s.lookup key := by
  refine Ascending.find?_filter (fun e he => ?_) s.entries
  have ho : e.org = org := by rw [← hk, ← he]; rfl
  simpa using ho

/-- The entries of an organization follow what is written into them. -/
theorem entriesOf_insert (h : s.WellFormed) {e : Entry} (he : e.org = org) :
    (Ascending.insert Entry.key e s.entries).filter (fun e => e.org = org) =
      Ascending.insert Entry.key e (s.entriesOf org) := by
  refine Ascending.filter_insert (fun e' hk => ?_) h.entries
  have ho : e'.org = org := by rw [show e'.org = e.org from congrArg GrantKey.org hk]; exact he
  simpa using ho

end

/-! ## Changes of other organizations -/

/-- A change of another organization keeps what two stores have in common. -/
theorem mirrors_apply_of_ne {org : Int} {rename : Int → Int} {full own : Store}
    (h : Mirrors org rename full own) (now : Nat) {c : Change} (hc : c.org ≠ org) :
    Mirrors org rename (c.apply now full) own := by
  -- only the full store moves: the renaming stays, and its next id can only grow
  have hentries : (c.apply now full).entriesOf org = full.entriesOf org := by
    refine Change.filter_entries_apply (p := fun key => decide (key.org = org)) ?_ now full
    intro key htouch
    rw [Change.org_of_touches htouch]
    exact decide_eq_false hc
  have hkeep : (c.apply now full).resourcesOf org = full.resourcesOf org ∧
      full.nextId ≤ (c.apply now full).nextId := by
    refine Change.apply_induction
      (P := fun t => t.resourcesOf org = full.resourcesOf org ∧ full.nextId ≤ t.nextId)
      ?_ ?_ ?_ now ⟨rfl, Int.le_refl _⟩
    · rintro t r rfl - ⟨hresources, hnext⟩
      exact ⟨(resourcesOf_insert_of_ne hc).trans hresources, hnext⟩
    · rintro t now key revise - - ⟨hresources, hnext⟩
      refine ⟨?_, Int.le_trans hnext (nextId_le_write t now key revise)⟩
      rw [resourcesOf, resources_write]
      exact hresources
    · exact fun t key _ ht => ht
  exact { h with
    full_wellFormed := Change.wellFormed_apply h.full_wellFormed now c
    resources := hkeep.1.trans h.resources
    entries := hentries.trans h.entries
    next := Int.le_trans h.next hkeep.2 }

/-! ## Changes of the organization itself -/

/-- A key of the organization leads to the same in both stores, up to the id. -/
theorem Mirrors.lookup {org : Int} {rename : Int → Int} {full own : Store}
    (h : Mirrors org rename full own) {key : GrantKey} (hk : key.org = org) :
    full.lookup key = (own.lookup key).map (Entry.renumber rename) := by
  rw [← lookup_entriesOf hk, ← lookup_entriesOf hk, h.entries]
  exact Ascending.find?_map (Entry.key_renumber rename) key _

/-- The renaming that goes on as before below an id and counts on from another one. -/
def renameFrom (rename : Int → Int) (own full : Int) (id : Int) : Int :=
  if id < own then rename id else id - own + full

/-- A strictly increasing renaming stays so when it counts on from above. -/
theorem strictMono_renameFrom {rename : Int → Int} (h : StrictMono rename) {own full : Int}
    (hle : rename own ≤ full) : StrictMono (renameFrom rename own full) := by
  intro a b hab
  unfold renameFrom
  by_cases hb : b < own
  · rw [if_pos (by omega), if_pos hb]
    exact h hab
  · rw [if_neg hb]
    by_cases ha : a < own
    · have hlt := h ha
      rw [if_pos ha]
      omega
    · rw [if_neg ha]
      omega

/-- Writing over a grant of the organization in both stores keeps what they have in
common, under the same renaming. -/
theorem mirrors_write_of_some {org : Int} {rename : Int → Int} {full own : Store}
    (h : Mirrors org rename full own) (now : Nat) {key : GrantKey} (hk : key.org = org)
    (revise : List String → List String) {e : Entry} (hl : own.lookup key = some e) :
    Mirrors org rename (full.write now key revise).2 (own.write now key revise).2 := by
  have hfull : full.lookup key = some (e.renumber rename) := by
    rw [h.lookup hk, hl, Option.map_some]
  refine ⟨wellFormed_write h.full_wellFormed now key revise,
    wellFormed_write h.own_wellFormed now key revise, ?_, ?_, h.strictMono, ?_,
    id_lt_nextId_write h.own_wellFormed h.below now key revise⟩
  · rw [resourcesOf, resourcesOf, resources_write, resources_write]
    exact h.resources
  · rw [write, write, hl, hfull, entriesOf, entriesOf]
    dsimp only
    rw [entriesOf_insert h.full_wellFormed hk, entriesOf_insert h.own_wellFormed hk,
      Ascending.map_insert (Entry.key_renumber rename), ← h.entries]
    rfl
  · rw [write, write, hl, hfull]
    exact h.next

/-- Writing a new grant of the organization in both stores keeps what they have in
common, where the renaming goes on with the two new ids. -/
theorem mirrors_write_of_none {org : Int} {rename : Int → Int} {full own : Store}
    (h : Mirrors org rename full own) (now : Nat) {key : GrantKey} (hk : key.org = org)
    (revise : List String → List String) (hl : own.lookup key = none) :
    Mirrors org (renameFrom rename own.nextId full.nextId) (full.write now key revise).2
      (own.write now key revise).2 := by
  have hfull : full.lookup key = none := by
    rw [h.lookup hk, hl, Option.map_none]
  -- the entries so far have ids below the next one, where the renaming is the old one
  have hold : full.entriesOf org =
      (own.entriesOf org).map (Entry.renumber (renameFrom rename own.nextId full.nextId)) := by
    rw [h.entries]
    refine List.map_congr_left fun e he => ?_
    rw [Entry.renumber, Entry.renumber, Grant.renumber, Grant.renumber, renameFrom,
      if_pos (h.below e (List.mem_filter.1 he).1)]
  have hnew : renameFrom rename own.nextId full.nextId own.nextId = full.nextId := by
    rw [renameFrom, if_neg (Int.lt_irrefl _)]
    omega
  refine ⟨wellFormed_write h.full_wellFormed now key revise,
    wellFormed_write h.own_wellFormed now key revise, ?_, ?_,
    strictMono_renameFrom h.strictMono h.next, ?_,
    id_lt_nextId_write h.own_wellFormed h.below now key revise⟩
  · rw [resourcesOf, resourcesOf, resources_write, resources_write]
    exact h.resources
  · rw [write, write, hl, hfull, entriesOf, entriesOf]
    dsimp only
    rw [entriesOf_insert h.full_wellFormed hk, entriesOf_insert h.own_wellFormed hk,
      Ascending.map_insert (Entry.key_renumber _), ← hold, Entry.renumber, Grant.renumber,
      hnew]
  · rw [write, write, hl, hfull]
    dsimp only
    rw [renameFrom, if_neg (by omega)]
    omega

/-- Writing under a key of the organization in both stores keeps what they have in
common. -/
theorem mirrors_write {org : Int} {rename : Int → Int} {full own : Store}
    (h : Mirrors org rename full own) (now : Nat) {key : GrantKey} (hk : key.org = org)
    (revise : List String → List String) :
    ∃ rename', Mirrors org rename' (full.write now key revise).2 (own.write now key revise).2 := by
  cases hl : own.lookup key with
  | some e => exact ⟨rename, mirrors_write_of_some h now hk revise hl⟩
  | none => exact ⟨_, mirrors_write_of_none h now hk revise hl⟩

/-- Erasing a key of the organization in both stores keeps what they have in common. -/
theorem mirrors_erase {org : Int} {rename : Int → Int} {full own : Store}
    (h : Mirrors org rename full own) (key : GrantKey) :
    Mirrors org rename { full with entries := Ascending.erase Entry.key key full.entries }
      { own with entries := Ascending.erase Entry.key key own.entries } := by
  refine { h with
    full_wellFormed := wellFormed_eraseEntry h.full_wellFormed key
    own_wellFormed := wellFormed_eraseEntry h.own_wellFormed key
    entries := ?_
    below := fun e he => h.below e (Ascending.mem_erase.1 he).1 }
  rw [entriesOf, entriesOf, Ascending.filter_erase, Ascending.filter_erase,
    Ascending.map_erase (Entry.key_renumber rename)]
  exact congrArg (Ascending.erase Entry.key key) h.entries

/-- Setting a managed grant of the organization in both stores keeps what they have in
common. -/
theorem mirrors_setGrant {org : Int} {rename : Int → Int} {full own : Store}
    (h : Mirrors org rename full own) (now : Nat) (subject : Subject) (scope : Scope)
    (actions : List String) :
    ∃ rename', Mirrors org rename' (full.setGrant now org subject scope actions).2
      (own.setGrant now org subject scope actions).2 := by
  by_cases ha : actions = []
  · rw [ha, setGrant_nil, setGrant_nil]
    exact ⟨rename, mirrors_erase h _⟩
  · rw [setGrant_of_ne_nil full now org subject scope ha,
      setGrant_of_ne_nil own now org subject scope ha]
    exact mirrors_write h now rfl _

/-- Granting permissions to a role of the organization in both stores keeps what they
have in common. -/
theorem mirrors_grantRole {org : Int} {rename : Int → Int} {full own : Store}
    (h : Mirrors org rename full own) (now : Nat) (role : String) (subject : Subject)
    (permissions : List Permission) :
    ∃ rename', Mirrors org rename' (full.grantRole now org role subject permissions)
      (own.grantRole now org role subject permissions) := by
  unfold grantRole
  -- one write for each scope, each with a renaming of its own
  induction Ascending.ofList (permissions.map (·.scope)) generalizing rename full own with
  | nil => exact ⟨rename, h⟩
  | cons scope rest ih =>
    rw [List.foldl_cons, List.foldl_cons]
    have hk : GrantKey.org ⟨org, role, subject, scope⟩ = org := rfl
    obtain ⟨rename', h'⟩ := mirrors_write h now hk fun actions =>
      Ascending.ofList (actions ++ (permissions.filter (·.scope = scope)).map (·.action))
    exact ih h'

/-- Storing a resource of the organization in both stores keeps what they have in
common. -/
theorem mirrors_insertResource {rename : Int → Int} {full own : Store} {r : Resource}
    (h : Mirrors r.org rename full own) :
    Mirrors r.org rename
      { full with resources := Ascending.insert Resource.key r full.resources }
      { own with resources := Ascending.insert Resource.key r own.resources } := by
  refine { h with
    full_wellFormed := wellFormed_insertResource h.full_wellFormed r
    own_wellFormed := wellFormed_insertResource h.own_wellFormed r
    resources := ?_ }
  rw [resourcesOf, resourcesOf, resourcesOf_insert h.full_wellFormed rfl,
    resourcesOf_insert h.own_wellFormed rfl]
  exact congrArg (Ascending.insert Resource.key r) h.resources

/-- A change of the organization made in both stores at the same time keeps what they
have in common. -/
theorem mirrors_apply {org : Int} {rename : Int → Int} {full own : Store}
    (h : Mirrors org rename full own) (now : Nat) {c : Change} (hc : c.org = org) :
    ∃ rename', Mirrors org rename' (c.apply now full) (c.apply now own) := by
  subst hc
  cases c with
  | save r =>
    simp only [Change.apply, Change.run, save]
    by_cases hid : r.id = 0
    · rw [if_pos hid, if_pos hid]
      exact ⟨rename, h⟩
    · rw [if_neg hid, if_neg hid]
      exact ⟨rename, mirrors_insertResource h⟩
  | grantRole org role subject permissions =>
    exact mirrors_grantRole h now role subject permissions
  | setGrant org subject scope actions => exact mirrors_setGrant h now subject scope actions
  | setPermission table org resource subject name =>
    simp only [Change.apply, Change.run, setPermission]
    cases namedActions table name with
    | error e => exact ⟨rename, h⟩
    | ok actions => exact mirrors_setGrant h now subject _ actions

/-! ## Histories -/

/-- The changes of an organization in a history, at their own times. -/
def ofOrg (org : Int) (history : List (Nat × Change)) : List (Nat × Change) :=
  history.filter fun step => step.2.org = org

/-- A history leads to a store that holds of an organization what the changes of the
organization alone lead to. -/
theorem mirrors_after {org : Int} {rename : Int → Int} {full own : Store}
    (h : Mirrors org rename full own) (history : List (Nat × Change)) :
    ∃ rename', Mirrors org rename' (full.after history) (own.after (ofOrg org history)) := by
  -- a change of the organization may extend the renaming, so the rest goes on with another
  induction history generalizing rename full own with
  | nil => exact ⟨rename, h⟩
  | cons step rest ih =>
    obtain ⟨now, c⟩ := step
    by_cases hc : c.org = org
    · obtain ⟨rename', h'⟩ := mirrors_apply h now hc
      rw [ofOrg, List.filter_cons_of_pos (by simpa using hc)]
      exact ih h'
    · rw [ofOrg, List.filter_cons_of_neg (by simpa using hc)]
      exact ih (mirrors_apply_of_ne h now hc)

/-- Two stores with nothing in them have everything in common. -/
theorem mirrors_empty (org : Int) : Mirrors org id empty empty where
  full_wellFormed := wellFormed_empty
  own_wellFormed := wellFormed_empty
  resources := rfl
  entries := rfl
  strictMono := strictMono_id
  next := Int.le_refl _
  below := fun _ he => by cases he

/-! ## What is seen of an organization -/

section
variable {org : Int} {rename : Int → Int} {full own : Store}

/-- The same resources are loaded. -/
theorem Mirrors.fetch (h : Mirrors org rename full own) (id : Int) :
    full.fetch id org = own.fetch id org := by
  have hpart : ∀ s : Store, Ascending.find? Resource.key ⟨org, id⟩ s.resources =
      Ascending.find? Resource.key ⟨org, id⟩ (s.resourcesOf org) := by
    intro s
    refine (Ascending.find?_filter (fun r hr => ?_) s.resources).symm
    exact decide_eq_true (congrArg ResourceKey.org hr)
  rw [Store.fetch, Store.fetch, hpart, hpart, h.resources]

/-- A member has the same permissions in the same order. -/
theorem Mirrors.permissionsOf (h : Mirrors org rename full own) {m : Member}
    (hm : m.org = org) : full.permissionsOf m = own.permissionsOf m := by
  have hpart : ∀ s : Store, s.permissionsOf m =
      ((s.entriesOf org).filter fun e => e.grant.subject.appliesTo m).flatMap
        (·.grant.permissions) := by
    intro s
    rw [Store.permissionsOf, entriesOf, List.filter_filter, hm]
    congr 2
    funext e
    exact Bool.and_comm _ _
  rw [hpart, hpart, h.entries, List.filter_map, List.flatMap_map]
  rfl

/-- The same requirements are fulfilled. -/
theorem Mirrors.decides (h : Mirrors org rename full own) {m : Member} (hm : m.org = org)
    (r : Requirement) : full.decides m r = own.decides m r := by
  rw [Store.decides, Store.decides, h.permissionsOf hm]

/-- The same grants are listed in the same order, up to their ids. -/
theorem Mirrors.grantsOn (h : Mirrors org rename full own) (scope : Scope) :
    full.grantsOn org scope = (own.grantsOn org scope).map (Grant.renumber rename) := by
  have hpart : ∀ s : Store, s.grantsOn org scope =
      (((s.entriesOf org).filter fun e => e.grant.scope = scope).map (·.grant)).mergeSort
        fun a b => a.id ≤ b.id := by
    intro s
    rw [Store.grantsOn, entriesOf, List.filter_filter]
    congr 3
    funext e
    rw [Bool.and_comm, Bool.decide_and]
  rw [hpart, hpart, h.entries, List.filter_map, List.map_map, List.map_mergeSort
    (s := fun a b => decide (a.id ≤ b.id)), List.map_map]
  · rfl
  · intro a _ b _
    show decide (a.id ≤ b.id) = decide (rename a.id ≤ rename b.id)
    exact decide_eq_decide.2 h.strictMono.le_iff_le.symm

/-- A gate that has loaded nothing yet gives the same replies, access lists
included. -/
theorem Mirrors.reply (h : Mirrors org rename full own) {g : Gate} (hg : g.kept = none)
    (hm : g.member.org = org) (q : Question) : full.reply g q = own.reply g q := by
  have hfor : ∀ s : Store, s.resourceFor g = s.fetch g.target org := by
    intro s
    rw [resourceFor, hg, hm]
  refine reply_congr rfl ?_ (fun r hr _ => ?_) fun _ => replyFree_congr (h.decides hm _) q
  · rw [hfor, hfor, h.fetch]
  · have horg : r.org = org := org_of_fetch ((hfor full).symm.trans hr)
    cases q with
    | may right => exact congrArg Reply.verdict (h.decides hm _)
    | _ =>
      -- the lines of a list show everything of a grant but its id
      simp only [replyOn, horg, h.grantsOn, List.filter_map, List.map_map]
      rfl

end

/-- Organizations do not interfere: after any history, every member of an organization
sees what the changes of the organization alone, at the same times, would have led
to.  Listings agree up to a strictly increasing renaming of ids. -/
theorem after_ofOrg (history : List (Nat × Change)) (org : Int) :
    let full := empty.after history
    let own := empty.after (ofOrg org history)
    (∀ id, full.fetch id org = own.fetch id org) ∧
    (∀ m : Member, m.org = org →
      full.permissionsOf m = own.permissionsOf m ∧ ∀ r, full.decides m r = own.decides m r) ∧
    (∀ g : Gate, g.kept = none → g.member.org = org →
      ∀ q, full.reply g q = own.reply g q) ∧
    ∃ rename : Int → Int, StrictMono rename ∧
      ∀ scope, full.grantsOn org scope =
        (own.grantsOn org scope).map (Grant.renumber rename) := by
  obtain ⟨rename, h⟩ := mirrors_after (mirrors_empty org) history
  refine ⟨h.fetch, fun m hm => ⟨h.permissionsOf hm, h.decides hm⟩, fun g hg hm => h.reply hg hm,
    rename, h.strictMono, h.grantsOn⟩

end Store

end DashboardAccess
