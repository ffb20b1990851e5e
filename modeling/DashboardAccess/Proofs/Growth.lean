/-
# Grants to roles add, removals take away

What is granted to a role is added to what the keys of the role hold, and a managed grant
that is taken away empties a key.  So the first never denies anything that was granted, the
second never grants anything that was denied, and in a history of the first and of stored
resources whatever is granted once is granted for good.

* `Store.Within` : every key of one store holds what it holds in another one, or more;
* `within_grantRole`, `setGrant_nil_within` : the two changes;
* `Change.Adds`, `within_after` : histories that never set a managed grant;
* `decides_grows` : what this means for decisions.
-/
import DashboardAccess.Proofs.Contents
import DashboardAccess.Proofs.Monotone

namespace DashboardAccess

namespace Store

/-! ## Stores that hold more -/

/-- A member's permissions are the actions under all keys that reach the member, on the
scopes of these keys. -/
theorem mem_permissionsOf_iff_actionsUnder {s : Store} (h : s.WellFormed) {m : Member}
    {p : Permission} :
    p ∈ s.permissionsOf m ↔
      ∃ key : GrantKey, key.org = m.org ∧ key.subject.appliesTo m = true ∧
        p.action ∈ s.actionsUnder key ∧ p.scope = key.scope := by
  rw [mem_permissionsOf]
  constructor
  · rintro ⟨e, he, horg, happ, haction, hscope⟩
    rw [← actionsUnder_key h he] at haction
    exact ⟨e.key, horg, happ, haction, hscope⟩
  · rintro ⟨key, horg, happ, haction, hscope⟩
    cases hl : s.lookup key with
    | none =>
      rw [actionsUnder, hl] at haction
      cases haction
    | some e =>
      rw [actionsUnder, hl] at haction
      obtain rfl := key_of_lookup hl
      exact ⟨e, (mem_entries_iff h).2 hl, horg, happ, haction, hscope⟩

/-- Under every key the second store holds what the first one holds, or more. -/
def Within (s t : Store) : Prop :=
  ∀ key, s.actionsUnder key ⊆ t.actionsUnder key

/-- What is decided with yes stays so where more is held. -/
theorem Within.decides {s t : Store} (h : s.Within t) (hs : s.WellFormed) (ht : t.WellFormed)
    {m : Member} {r : Requirement} (hr : s.decides m r = true) : t.decides m r = true := by
  refine decides_of_subset (fun p hp => ?_) hr
  obtain ⟨key, horg, happ, haction, hscope⟩ := (mem_permissionsOf_iff_actionsUnder hs).1 hp
  exact (mem_permissionsOf_iff_actionsUnder ht).2 ⟨key, horg, happ, h key haction, hscope⟩

/-! ## Single changes -/

/-- Permissions granted to a role leave every key with what it held. -/
theorem within_grantRole {s : Store} (h : s.WellFormed) (now : Nat) (org : Int) (role : String)
    (subject : Subject) (permissions : List Permission) :
    s.Within (s.grantRole now org role subject permissions) := by
  intro key action haction
  exact (mem_actionsUnder_grantRole h now org role subject permissions).2 (.inl haction)

/-- Without the managed grant that is taken away, every key holds what it held or
nothing. -/
theorem setGrant_nil_within {s : Store} (h : s.WellFormed) (now : Nat) (org : Int)
    (subject : Subject) (scope : Scope) :
    (s.setGrant now org subject scope []).2.Within s := by
  intro key action haction
  rw [actionsUnder_setGrant h] at haction
  split at haction
  · cases haction
  · exact haction

end Store

/-! ## Histories -/

/-- The change stores a resource or grants permissions to a role. -/
def Change.Adds : Change → Prop
  | .save _ => True
  | .grantRole .. => True
  | _ => False

namespace Store

/-- A change that adds leaves every key with what it held. -/
theorem within_apply {s : Store} (h : s.WellFormed) (now : Nat) {c : Change} (hc : c.Adds) :
    s.Within (c.apply now s) := by
  cases c with
  | save r =>
    intro key action haction
    rwa [actionsUnder, Change.lookup_apply h now (c := .save r) (k := key) id]
  | grantRole org role subject permissions =>
    exact within_grantRole h now org role subject permissions
  | setGrant org subject scope actions => cases hc
  | setPermission table org resource subject name => cases hc

/-- So does every history of such changes. -/
theorem within_after {s : Store} (h : s.WellFormed) {history : List (Nat × Change)}
    (hadds : ∀ step ∈ history, step.2.Adds) : s.Within (s.after history) := by
  induction history generalizing s with
  | nil => exact fun key => List.Subset.refl _
  | cons step rest ih =>
    obtain ⟨now, c⟩ := step
    have hrest := ih (Change.wellFormed_apply h now c) fun step hstep =>
      hadds step (List.mem_cons_of_mem _ hstep)
    intro key
    exact List.Subset.trans (within_apply h now (hadds _ List.mem_cons_self) key) (hrest key)

/-- In every store that a history leads to, and for every member and requirement: what is
granted before permissions are granted to a role is granted afterwards, and what is granted
after a managed grant is taken away was granted before.  So in a history that never sets a
managed grant, whatever is granted once is granted ever after. -/
theorem decides_grows {s : Store} (hs : s.Reachable) (m : Member) (r : Requirement) :
    (∀ now org role subject permissions, s.decides m r = true →
      (s.grantRole now org role subject permissions).decides m r = true) ∧
    (∀ now org subject scope, (s.setGrant now org subject scope []).2.decides m r = true →
      s.decides m r = true) ∧
    ∀ history : List (Nat × Change), (∀ step ∈ history, step.2.Adds) →
      s.decides m r = true → (s.after history).decides m r = true := by
  have h := wellFormed_of_reachable hs
  refine ⟨?_, ?_, ?_⟩
  · intro now org role subject permissions
    exact (within_grantRole h now org role subject permissions).decides h
      (wellFormed_grantRole h now org role subject permissions)
  · intro now org subject scope
    exact (setGrant_nil_within h now org subject scope).decides
      (wellFormed_setGrant h now org subject scope []) h
  · intro history hadds
    exact (within_after h hadds).decides h (wellFormed_after h history)

/-- A role that may read dashboards is given more on the same scope and on another one, and
its members may still read.  Where a named permission is taken away, what is granted
without it was granted with it. -/
theorem decides_grows_merged :
    let s := empty.after
      [(1, .grantRole 1 "fixed:reader" (.role .viewer) [⟨"dashboards:read", "folders:id:7"⟩]),
       (2, .setPermission .folders 1 "7" (.user 10 "ann" "") "Edit")]
    let m : Member := { org := 1, user := 10, login := "ann", role := .editor }
    let reads : Requirement := .all
      [.any [.on "dashboards:read" "dashboards:id:42", .on "dashboards:read" "folders:id:7"],
       .any [.all [], .anywhere "dashboards:create"]]
    let history : List (Nat × Change) :=
      [(3, .grantRole 1 "fixed:reader" (.role .viewer)
        [⟨"dashboards:write", "folders:id:7"⟩, ⟨"dashboards:read", "folders:id:8"⟩]),
       (4, .save ⟨1, 7, "ops", "Ops", .folder⟩)]
    let t := (s.setGrant 5 1 (.user 10 "ann" "") "folders:id:7" []).2
    (∀ step ∈ history, step.2.Adds) ∧ s.decides m reads = true ∧
      (s.after history).decides m reads = true ∧
      t.decides m (.on "dashboards:write" "folders:id:7") = false ∧
      t.decides m (.on "dashboards:read" "folders:id:7") = true := by
  intro s m reads history t
  have hs : s.Reachable := ⟨_, rfl⟩
  have hadds : ∀ step ∈ history, step.2.Adds := by simp [history, Change.Adds]
  have ht : t.decides m (.on "dashboards:read" "folders:id:7") = true := by decide +kernel
  have hread : s.decides m (.on "dashboards:read" "folders:id:7") = true :=
    (decides_grows hs m _).2.1 5 1 (.user 10 "ann" "") "folders:id:7" ht
  have hreads : s.decides m reads = true := by
    simp only [reads, decides_all, decides_any, List.all_cons, List.all_nil, List.any_cons,
      hread, Bool.or_true, Bool.true_or, Bool.and_true]
  exact ⟨hadds, hreads, (decides_grows hs m reads).2.2 history hadds hreads,
    by decide +kernel, ht⟩

end Store

end DashboardAccess
