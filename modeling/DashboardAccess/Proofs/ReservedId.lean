/-
# The reserved id

Id 0 stands for resources that are about to be made and is never the id of a stored one.
What is stored under any id is what was saved last under it, in the organization that it
was saved for.  So however a session goes, a gate for id 0 finds nothing: asked whether its
member may save, it answers as if asked whether its member may make a resource, and to
questions about the resource it answers that there is none.

* `Session.lastSaved` : the resource that was saved last under a key;
* `resource?_run`, `resource?_runAll` : what is stored under a key, by what was saved;
* `Session.Unread` : gates for id 0 keep nothing;
* `unread_run`, `unread_runAll` : no command changes that;
* `Store.GrantsAnywhere`, `decides_creation_iff` : who may make a resource;
* `answers_of_reservedId` : what is read, and what a gate for id 0 answers, at any time.
-/
import DashboardAccess.Proofs.Access
import DashboardAccess.Proofs.Monotone
import DashboardAccess.Proofs.OpenGates

namespace DashboardAccess

/-! ## Saved resources -/

/-- The resource with a key in a store. -/
def Store.resource? (s : Store) (key : ResourceKey) : Option Resource :=
  Ascending.find? Resource.key key s.resources

/-- The resource that a command has saved under a key, if it was answered with success. -/
def Command.saved? (key : ResourceKey) : Command → Except Failure Answer → Option Resource
  | .change (.save r), .ok _ => if r.key = key then some r else none
  | _, _ => none

/-- What is saved under a key has that key. -/
theorem Command.key_of_saved? {key : ResourceKey} {c : Command} {answer : Except Failure Answer}
    {r : Resource} (h : c.saved? key answer = some r) : r.key = key := by
  unfold saved? at h
  split at h
  · obtain ⟨hkey, hr⟩ := Option.ite_none_right_eq_some.1 h
    rw [← Option.some.inj hr]
    exact hkey
  · cases h

/-- Only saving moves the resources. -/
theorem Change.resources_apply {c : Change} (hc : ∀ r, c ≠ .save r) (now : Nat) (s : Store) :
    (c.apply now s).resources = s.resources := by
  refine apply_induction (P := fun t => t.resources = s.resources) ?_ ?_ ?_ now rfl
  · exact fun t r hsave _ _ => absurd hsave (hc r)
  · exact fun t now key revise _ _ ht => (Store.resources_write t now key revise).trans ht
  · exact fun t key _ ht => ht

namespace Session

/-- The resource that was saved last under a key by the commands of a session. -/
def lastSaved (s : Session) (key : ResourceKey) (commands : List (Nat × Command)) :
    Option Resource :=
  (commands.zip (s.runAll commands).1).reverse.findSome? fun (step, answer) =>
    step.2.saved? key answer

/-- What was saved last is what the later commands have saved last, or else what the first
one has. -/
theorem lastSaved_cons (s : Session) (key : ResourceKey) (now : Nat) (c : Command)
    (rest : List (Nat × Command)) :
    s.lastSaved key ((now, c) :: rest) =
      ((s.run now c).session.lastSaved key rest).or (c.saved? key (s.run now c).answer) := by
  rw [lastSaved, runAll_cons, List.zip_cons_cons, List.reverse_cons, List.findSome?_append,
    List.findSome?_singleton]
  rfl

/-- What was saved last under a key has that key. -/
theorem key_of_lastSaved {s : Session} {key : ResourceKey} {commands : List (Nat × Command)}
    {r : Resource} (h : s.lastSaved key commands = some r) : r.key = key := by
  obtain ⟨⟨step, answer⟩, -, hsaved⟩ := List.exists_of_findSome?_eq_some h
  exact Command.key_of_saved? hsaved

/-- The store of a session that goes on from a reachable store is reachable. -/
theorem reachable_store_runAll {s : Session} (hs : s.store.Reachable)
    (commands : List (Nat × Command)) : (s.runAll commands).2.store.Reachable := by
  rw [store_runAll]
  exact hs.after _

/-- A command leaves under a key what it has saved there, or else what was there. -/
theorem resource?_run {s : Session} (hs : s.store.Reachable) (key : ResourceKey) (now : Nat)
    (c : Command) :
    (s.run now c).session.store.resource? key =
      (c.saved? key (s.run now c).answer).or (s.store.resource? key) := by
  have hresources := (Store.wellFormed_of_reachable hs).resources
  rw [store_run]
  cases c with
  | change c =>
    cases c with
    | save r =>
      by_cases hid : r.id = 0
      · simp [run, Change.apply, Change.run, Store.save, hid, Command.saved?]
      · simp only [run, Change.apply, Change.run, Store.save, if_neg hid, Command.saved?,
          Store.resource?, Ascending.find?_insert hresources]
        split <;> rfl
    | _ =>
      exact congrArg (Ascending.find? Resource.key key)
        (Change.resources_apply (fun _ => Change.noConfusion) now s.store)
  | _ => rfl

/-- Commands leave under a key what they have saved there last, or else what was there. -/
theorem resource?_runAll {s : Session} (hs : s.store.Reachable) (key : ResourceKey)
    (commands : List (Nat × Command)) :
    (s.runAll commands).2.store.resource? key =
      (s.lastSaved key commands).or (s.store.resource? key) := by
  induction commands generalizing s with
  | nil => rfl
  | cons step rest ih =>
    obtain ⟨now, c⟩ := step
    have hnext : (s.run now c).session.store.Reachable := reachable_store_runAll hs [(now, c)]
    rw [runAll_cons, ih hnext, resource?_run hs, lastSaved_cons, Option.or_assoc]

/-! ## Gates for id 0 -/

/-- Every gate for id 0 has yet to read a resource. -/
def Unread (s : Session) : Prop :=
  ∀ name g, s.gate? name = some g → g.target = 0 → g.kept = none

end Session

/-- Nothing is loaded with id 0. -/
theorem Store.fetch_reservedId {s : Store} (hs : s.Reachable) (org : Int) :
    s.fetch 0 org = .error (.noResource 0 org) :=
  fetch_eq_error fun r hr _ => id_ne_zero hs r hr

/-- There is nothing to read for a gate for id 0. -/
theorem Store.readFor_eq_none {s : Store} (hs : s.Reachable) {g : Gate} (hg : g.target = 0)
    (q : Question) : s.readFor g q = none := by
  rw [readFor, hg, fetch_reservedId hs]
  split <;> rfl

namespace Session

/-- Where no gate has a name there is none after a command either, unless it opens one. -/
theorem gate?_run_eq_none {s : Session} {name : String} (hg : s.gate? name = none) (now : Nat)
    {c : Command} (hc : ¬ c.Opens name) : (s.run now c).session.gate? name = none := by
  have hturn : ∀ n turn, (s.withGate n turn).session.gate? name = none := by
    intro n turn
    by_cases hn : n = name
    · rw [withGate, hn, hg]
      exact hg
    · rw [gate?_withGate_of_ne hn, hg]
  cases c with
  | change c =>
    simp only [run]
    cases c.run now s.store <;> exact hg
  | openGate n m target root levels =>
    have hn : name ≠ n := fun he => hc he.symm
    simp only [run]
    exact ((gate?_keep s n name _).trans (if_neg hn)).trans hg
  | ask n q =>
    simp only [run]
    exact hturn n _
  | check n =>
    simp only [run]
    exact hturn n _
  | _ => exact hg

/-- A command has no gate for id 0 read a resource: a new gate has read nothing yet, and
the others find nothing. -/
theorem unread_run {s : Session} (hs : s.store.Reachable) (h : s.Unread) (now : Nat)
    (c : Command) : (s.run now c).session.Unread := by
  intro name g' hg' htarget
  by_cases hc : c.Opens name
  · cases c with
    | openGate n m target root levels =>
      obtain rfl : n = name := hc
      let fresh : Gate :=
        { member := m, target, root := root.getD s.root, levels := levels.getD .standard }
      have hnew := (gate?_keep s n n fresh).trans (if_pos rfl)
      rw [← Option.some.inj (hnew.symm.trans hg')]
    | _ => exact hc.elim
  · cases hg : s.gate? name with
    | none =>
      rw [gate?_run_eq_none hg now hc] at hg'
      cases hg'
    | some g =>
      rw [gate?_run hg now hc] at hg'
      cases hg'
      have hnothing : (c.questions name).findSome? (s.store.readFor g) = none :=
        List.findSome?_eq_none_iff.2 fun q _ => Store.readFor_eq_none hs htarget q
      rw [hnothing, Option.or_none]
      exact h name g hg htarget

/-- However many commands there are, gates for id 0 keep nothing. -/
theorem unread_runAll {s : Session} (hs : s.store.Reachable) (h : s.Unread)
    (commands : List (Nat × Command)) : (s.runAll commands).2.Unread := by
  induction commands generalizing s with
  | nil => exact h
  | cons step rest ih =>
    obtain ⟨now, c⟩ := step
    exact ih (reachable_store_runAll hs [(now, c)]) (unread_run hs h now c)

end Session

/-! ## Who may make a resource -/

namespace Store

/-- Some grant in the member's organization reaches the member and lists the action, on
whatever scope. -/
def GrantsAnywhere (s : Store) (m : Member) (action : String) : Prop :=
  ∃ e ∈ s.entries, e.org = m.org ∧ e.grant.subject.appliesTo m = true ∧
    action ∈ e.grant.actions

/-- An action anywhere is decided by the grants that reach the member, whatever their
scopes. -/
theorem decides_anywhere_iff {s : Store} {m : Member} {action : String} :
    s.decides m (.anywhere action) = true ↔ s.GrantsAnywhere m action := by
  rw [decides, Requirement.anywhere, Requirement.holds_leaf,
    Requirement.leafHolds_ofPermissions_iff]
  constructor
  · rintro ⟨p, hp, rfl, -⟩
    obtain ⟨e, he, horg, happ, hact, -⟩ := mem_permissionsOf.1 hp
    exact ⟨e, he, horg, happ, hact⟩
  · rintro ⟨e, he, horg, happ, hact⟩
    exact ⟨⟨action, e.grant.scope⟩, mem_permissionsOf.2 ⟨e, he, horg, happ, hact, rfl⟩, rfl,
      by simp⟩

/-- A member may make a resource who is granted to make folders, or to make dashboards,
anywhere. -/
theorem decides_creation_iff {s : Store} {m : Member} :
    s.decides m creation = true ↔
      s.GrantsAnywhere m "folders:create" ∨ s.GrantsAnywhere m "dashboards:create" := by
  simp only [creation, decides_any, List.any_cons, List.any_nil, Bool.or_false, Bool.or_eq_true,
    decides_anywhere_iff, Action.create]

end Store

namespace Session

/-! ## Answers -/

/-- A session starts without gates. -/
theorem unread_of_start {settings : Settings} {s : Session} (h : start settings = .ok s) :
    s.Unread := by
  unfold start at h
  split at h
  · cases h
    intro name g hg
    cases hg
  · cases h

/-- At any time of a session, the resource with an id in an organization is the one that was
saved last with just that id and organization, and there is none if none was; so there never
is one with id 0.  Every gate for id 0, whenever it was opened and whatever it was asked,
grants saving as it grants creation, which is if its member is granted to make folders or to
make dashboards on any scope whatever, and does not find the resource that it is asked
about. -/
theorem answers_of_reservedId {settings : Settings} {first : Session}
    (hstart : start settings = .ok first) (commands : List (Nat × Command)) (now : Nat) :
    let s := (first.runAll commands).2
    (∀ id org, (s.run now (.fetch id org)).answer =
      match first.lastSaved ⟨org, id⟩ commands with
      | some r => .ok (.resource r)
      | none => .error (.noResource id org)) ∧
    (∀ id org r, first.lastSaved ⟨org, id⟩ commands = some r → r.id = id ∧ r.org = org) ∧
    (∀ r ∈ s.store.resources, r.id ≠ 0) ∧
    ∀ name g, s.gate? name = some g → g.target = 0 →
      (s.run now (.ask name (.may .save))).answer =
        (s.run now (.ask name .mayCreate)).answer ∧
      (∃ granted, (s.run now (.ask name .mayCreate)).answer = .ok (.reply (.verdict granted)) ∧
        (granted = true ↔ s.store.GrantsAnywhere g.member "folders:create" ∨
          s.store.GrantsAnywhere g.member "dashboards:create")) ∧
      ∀ q ∈ [.may .view, .may .edit, .may .admin, .may .delete, .accessList,
          .distinctAccessList],
        (s.run now (.ask name q)).answer = .error (.noResource 0 g.member.org) := by
  intro s
  have hempty : first.store = Store.empty := store_of_start hstart
  have hstored : first.store.Reachable := ⟨[], hempty⟩
  have hs : s.store.Reachable := reachable_store_runAll hstored commands
  have hunread : s.Unread := unread_runAll hstored (unread_of_start hstart) commands
  refine ⟨fun id org => ?_, fun id org r hr => ?_, Store.id_ne_zero hs,
    fun name g hg htarget => ?_⟩
  · have hlast : s.store.resource? ⟨org, id⟩ = first.lastSaved ⟨org, id⟩ commands := by
      rw [resource?_runAll hstored, hempty]
      exact Option.or_none
    rw [← hlast]
    show (s.store.fetch id org).map Answer.resource = _
    unfold Store.fetch Store.resource?
    cases Ascending.find? Resource.key ⟨org, id⟩ s.store.resources <;> rfl
  · have hkey := key_of_lastSaved hr
    exact ⟨congrArg ResourceKey.id hkey, congrArg ResourceKey.org hkey⟩
  · have hsave : s.store.reply g (.may .save) =
        .ok (.verdict (s.store.decides g.member creation)) :=
      Store.reply_of_needsResource_eq_false (by simp [Question.needsResource, htarget])
    have hfetch : s.store.fetch g.target g.member.org = .error (.noResource 0 g.member.org) := by
      rw [htarget]
      exact Store.fetch_reservedId hs g.member.org
    refine ⟨?_, ⟨s.store.decides g.member creation, ?_, Store.decides_creation_iff⟩,
      fun q hq => ?_⟩
    · rw [answer_ask hg, answer_ask hg, hsave, Store.reply_mayCreate]
    · rw [answer_ask hg, Store.reply_mayCreate]
      rfl
    · have hneeds : q.needsResource g.target = true := by
        simp only [List.mem_cons, List.not_mem_nil, or_false] at hq
        rcases hq with rfl | rfl | rfl | rfl | rfl | rfl <;> rfl
      rw [answer_ask hg, Store.reply_of_fetch_eq_error (hunread name g hg htarget) hneeds hfetch]
      rfl

/-- A gate for id 0, opened first and asked in between, lets a viewer save who has been
granted to make dashboards in some folder, and finds no resource, although one was to be
saved with id 0; what was saved twice with id 7 is there as it was saved the second time. -/
theorem answers_of_reservedId_creator :
    let ann : Member := { org := 1, user := 10, login := "ann", role := .viewer }
    let commands : List (Nat × Command) :=
      [(1, .openGate "ann" ann 0 none none),
       (2, .change (.save ⟨1, 0, "new", "New", .folder⟩)),
       (3, .ask "ann" (.may .view)),
       (4, .change (.save ⟨1, 7, "ops", "Ops", .folder⟩)),
       (5, .change (.save ⟨1, 7, "load", "Load", .dashboardIn 9⟩)),
       (6, .change (.save ⟨2, 7, "else", "Elsewhere", .folder⟩)),
       (7, .change (.grantRole 1 "fixed:creator" (.role .viewer)
         [⟨"dashboards:create", "folders:id:9"⟩]))]
    let s := (Session.runAll {} commands).2
    start ⟨"guardian", "mem", ""⟩ = .ok {} ∧
      (s.run 8 (.fetch 7 1)).answer = .ok (.resource ⟨1, 7, "load", "Load", .dashboardIn 9⟩) ∧
      (s.run 8 (.fetch 0 1)).answer = .error (.noResource 0 1) ∧
      (s.run 8 (.ask "ann" (.may .save))).answer = .ok (.reply (.verdict true)) ∧
      (s.run 8 (.ask "ann" (.may .view))).answer = .error (.noResource 0 1) := by
  intro ann commands s
  have hstart : start ⟨"guardian", "mem", ""⟩ = .ok {} := rfl
  obtain ⟨hfetch, -, -, hgates⟩ := answers_of_reservedId hstart commands 8
  obtain ⟨hsave, ⟨granted, hcreate, hgranted⟩, hlost⟩ :=
    hgates "ann" { member := ann, target := 0 } (by decide +kernel) rfl
  have hholds : s.store.GrantsAnywhere ann "dashboards:create" := by
    refine ⟨⟨1, 1, "fixed:creator", ["dashboards:create"], "folders:id:9", .role .viewer, 7, 7⟩,
      by decide +kernel, rfl, rfl, by decide⟩
  have hlast : lastSaved {} ⟨1, 7⟩ commands = some ⟨1, 7, "load", "Load", .dashboardIn 9⟩ := by
    decide +kernel
  have hnone : lastSaved {} ⟨1, 0⟩ commands = none := by decide +kernel
  refine ⟨hstart, ?_, ?_, ?_, hlost _ (by decide)⟩
  · rw [hfetch, hlast]
  · rw [hfetch, hnone]
  · rw [hsave, hcreate, hgranted.2 (.inr hholds)]

end Session

end DashboardAccess
