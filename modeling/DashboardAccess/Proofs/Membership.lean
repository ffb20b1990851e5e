/-
# More membership never takes access away

Grants reach a member by the organization, the number, the role and the teams.  With a
role that includes the old one and with more teams a member has all permissions that were
there before, and whatever was decided or replied with yes stays so.  Logins do not matter,
nor do the order of teams and repetitions among them: a member with the same access may
stand in for another one, and a whole session has the same answers.

* `Member.Below`, `Member.SameAccess` : what two members have in common;
* `appliesTo_mono`, `appliesTo_congr` : the subjects that reach them;
* `permissionsOf_sublist`, `permissionsOf_congr` : their permissions;
* `replyOn_mono`, `reply_mono`, `reply_congr_member` : the replies of their gates;
* `Session.standIn` : a session in which some members stand in for others;
* `run_standIn`, `runAll_standIn` : one command and several;
* `access_of_membership` : all this together.
-/
import DashboardAccess.Proofs.Monotone
import DashboardAccess.Proofs.OpenGates
import Mathlib.Data.List.Basic
import Mathlib.Data.List.Flatten

namespace DashboardAccess

/-! ## Two members -/

namespace Member

/-- The second member is the first one with a role that includes the role of the first one
and with more teams, if under another login. -/
structure Below (m n : Member) : Prop where
  org : n.org = m.org
  user : n.user = m.user
  role : n.role.includes m.role = true
  teams : m.teams ⊆ n.teams

/-- The members are the same but for the login, and for the order of the teams and
repetitions among them. -/
structure SameAccess (m n : Member) : Prop where
  org : n.org = m.org
  user : n.user = m.user
  role : n.role = m.role
  teams : ∀ id, id ∈ n.teams ↔ id ∈ m.teams

theorem SameAccess.refl (m : Member) : m.SameAccess m :=
  ⟨rfl, rfl, rfl, fun _ => Iff.rfl⟩

/-- Whom a subject reaches it also reaches with more membership. -/
theorem appliesTo_mono {m n : Member} (h : m.Below n) {subject : Subject}
    (hm : subject.appliesTo m = true) : subject.appliesTo n = true := by
  cases subject with
  | user id login email =>
    rw [Subject.appliesTo, h.user]
    exact hm
  | team id name email =>
    rw [Subject.appliesTo, List.contains_iff_mem] at hm ⊢
    exact h.teams hm
  | role r => exact Role.includes_trans h.role hm

/-- A subject reaches members with the same access alike. -/
theorem appliesTo_congr {m n : Member} (h : m.SameAccess n) (subject : Subject) :
    subject.appliesTo n = subject.appliesTo m := by
  cases subject with
  | user id login email => rw [Subject.appliesTo, Subject.appliesTo, h.user]
  | team id name email =>
    rw [Subject.appliesTo, Subject.appliesTo, Bool.eq_iff_iff, List.contains_iff_mem,
      List.contains_iff_mem]
    exact h.teams id
  | role r => rw [Subject.appliesTo, Subject.appliesTo, h.role]

end Member

/-- The gate with another member. -/
def Gate.forMember (m : Member) (g : Gate) : Gate :=
  { g with member := m }

namespace Store

variable {m n : Member}

/-! ## Permissions and decisions -/

/-- With more membership all permissions stay, in their order. -/
theorem permissionsOf_sublist (s : Store) (h : m.Below n) :
    (s.permissionsOf m).Sublist (s.permissionsOf n) := by
  refine (List.monotone_filter_right s.entries fun e he => ?_).flatMap _
  rw [Bool.and_eq_true, decide_eq_true_eq] at he ⊢
  exact ⟨he.1.trans h.org.symm, Member.appliesTo_mono h he.2⟩

/-- Members with the same access have the same permissions. -/
theorem permissionsOf_congr (s : Store) (h : m.SameAccess n) :
    s.permissionsOf n = s.permissionsOf m := by
  simp only [permissionsOf, h.org, Member.appliesTo_congr h]

/-- With more membership nothing that was decided with yes is denied. -/
theorem decides_mono (s : Store) (h : m.Below n) {r : Requirement}
    (hr : s.decides m r = true) : s.decides n r = true :=
  decides_of_subset (s.permissionsOf_sublist h).subset hr

/-- For members with the same access the same is decided. -/
theorem decides_congr (s : Store) (h : m.SameAccess n) (r : Requirement) :
    s.decides n r = s.decides m r := by
  rw [decides, decides, permissionsOf_congr s h]

/-! ## Replies -/

/-- Of a member a gate needs the organization alone to get a resource. -/
theorem resourceFor_forMember (s : Store) (g : Gate) (h : n.org = m.org) :
    s.resourceFor (g.forMember n) = s.resourceFor (g.forMember m) := by
  simp only [resourceFor, Gate.forMember, h]

/-- With more membership a yes about a resource stays one. -/
theorem replyOn_mono (s : Store) (g : Gate) (h : m.Below n) {r : Resource} {q : Question}
    (hq : s.replyOn (g.forMember m) r q = .verdict true) :
    s.replyOn (g.forMember n) r q = .verdict true := by
  cases q with
  | may right =>
    have hright : s.decides m (right.requirement r) = true := Reply.verdict.inj hq
    exact congrArg Reply.verdict (s.decides_mono h hright)
  | _ => cases hq

/-- With more membership a yes to any other question stays one. -/
theorem replyFree_mono (s : Store) (h : m.Below n) {q : Question}
    (hq : s.replyFree m q = .verdict true) : s.replyFree n q = .verdict true := by
  cases q with
  | hiddenRules => exact hq
  | reaches level => exact hq
  | mayReplace level rules => exact hq
  | _ => exact congrArg Reply.verdict (s.decides_mono h (Reply.verdict.inj hq))

/-- With more membership every yes of a gate stays one. -/
theorem reply_mono (s : Store) (g : Gate) (h : m.Below n) {q : Question}
    (hyes : s.reply (g.forMember m) q = .ok (.verdict true)) :
    s.reply (g.forMember n) q = .ok (.verdict true) := by
  cases hq : q.needsResource g.target with
  | false =>
    rw [reply_of_needsResource_eq_false (g := g.forMember m) hq] at hyes
    rw [reply_of_needsResource_eq_false (g := g.forMember n) hq]
    exact congrArg Except.ok (s.replyFree_mono h (Except.ok.inj hyes))
  | true =>
    rw [reply_of_needsResource_eq_true (g := g.forMember m) hq] at hyes
    rw [reply_of_needsResource_eq_true (g := g.forMember n) hq, resourceFor_forMember s g h.org]
    cases hr : s.resourceFor (g.forMember m) with
    | error e =>
      rw [hr] at hyes
      cases hyes
    | ok r =>
      rw [hr] at hyes
      exact congrArg Except.ok (s.replyOn_mono g h (Except.ok.inj hyes))

/-- For members with the same access a gate replies the same. -/
theorem reply_congr_member (s : Store) (g : Gate) (h : m.SameAccess n) (q : Question) :
    s.reply (g.forMember n) q = s.reply (g.forMember m) q := by
  refine reply_congr rfl (resourceFor_forMember s g h.org) (fun r _ _ => ?_)
    fun _ => replyFree_congr (s.decides_congr h _) q
  cases q with
  | may right => exact congrArg Reply.verdict (s.decides_congr h _)
  | _ => rfl

end Store

/-! ## Stand-ins -/

section
variable (f : Member → Member)

/-- The gate for who stands in for its member. -/
def Gate.standIn (g : Gate) : Gate :=
  g.forMember (f g.member)

/-- The command about who stands in for the member that it names. -/
def Command.standIn : Command → Command
  | .permissionsOf m => .permissionsOf (f m)
  | .evaluate m r => .evaluate (f m) r
  | .openGate name m target root levels => .openGate name (f m) target root levels
  | c => c

/-- The session with all its gates for who stands in for their members. -/
def Session.standIn (s : Session) : Session :=
  { s with gates := s.gates.map fun row => (row.1, row.2.standIn f) }

end

variable {f : Member → Member}

namespace Session

/-- The gate of a name is for who stands in for its member. -/
theorem gate?_standIn (s : Session) (name : String) :
    (s.standIn f).gate? name = (s.gate? name).map (Gate.standIn f) :=
  Rows.lookup_map name (Gate.standIn f) s.gates

/-- Whether a gate is kept before or after others stand in makes no difference. -/
theorem keep_standIn (s : Session) (name : String) (g : Gate) :
    (s.standIn f).keep name (g.standIn f) = (s.keep name g).standIn f :=
  congrArg (fun gates => { s with gates }) (Rows.put_map name g (Gate.standIn f) s.gates)

/-- If the turns of gates go alike, the gate of a name has the same answer as the one for
who stands in for its member, and the same session but for who stands in. -/
theorem withGate_standIn (s : Session) (name : String)
    {turn other : Gate → List Record → (Except Failure Answer × Gate) × List Record}
    (h : ∀ g, (other (g.standIn f) []).1 = ((turn g []).1.1, (turn g []).1.2.standIn f)) :
    ((s.standIn f).withGate name other).answer = (s.withGate name turn).answer ∧
      ((s.standIn f).withGate name other).session = (s.withGate name turn).session.standIn f := by
  unfold withGate
  rw [gate?_standIn]
  cases s.gate? name with
  | none => exact ⟨rfl, rfl⟩
  | some g =>
    simp only [Option.map_some, h]
    exact ⟨trivial, keep_standIn s name _⟩

end Session

section
variable (hf : ∀ m : Member, m.SameAccess (f m))
include hf

namespace Store

/-- A gate goes through a question as the one for who stands in for its member. -/
theorem run_ask_standIn (s : Store) (g : Gate) (q : Question) (journal other : List Record) :
    (((g.standIn f).ask s.backend q).run other).1 =
      (((g.ask s.backend q).run journal).1.1,
        ((g.ask s.backend q).run journal).1.2.standIn f) := by
  have hreply : s.reply (g.standIn f) q = s.reply g q :=
    s.reply_congr_member g (hf g.member) q
  have hread : s.readFor (g.standIn f) q = s.readFor g q := by
    simp only [readFor, Gate.standIn, Gate.forMember, (hf g.member).org]
  rw [run_ask_backend, run_ask_backend, hreply, hread]
  rfl

/-- So it goes through several questions. -/
theorem run_askAll_standIn (s : Store) (g : Gate) (questions : List Question)
    (journal other : List Record) :
    (((g.standIn f).askAll s.backend questions).run other).1 =
      (((g.askAll s.backend questions).run journal).1.1,
        ((g.askAll s.backend questions).run journal).1.2.standIn f) := by
  induction questions generalizing g journal other with
  | nil => rfl
  | cons q rest ih =>
    rw [Gate.run_askAll_cons, Gate.run_askAll_cons]
    simp only [run_ask_standIn hf s g q journal other]
    rw [ih _ ((g.ask s.backend q).run journal).2]

end Store

namespace Session

/-- A command about others with the same access has the same answer, and leads to the same
session but for who stands in. -/
theorem run_standIn (s : Session) (now : Nat) (c : Command) :
    ((s.standIn f).run now (c.standIn f)).answer = (s.run now c).answer ∧
      ((s.standIn f).run now (c.standIn f)).session = (s.run now c).session.standIn f := by
  cases c with
  | change c =>
    simp only [Command.standIn, run, standIn]
    cases c.run now s.store <;> exact ⟨rfl, rfl⟩
  | permissionsOf m =>
    have hm := s.store.permissionsOf_congr (hf m)
    exact ⟨congrArg (fun ps => Except.ok (Answer.permissions ps)) hm, rfl⟩
  | evaluate m r =>
    have hm := s.store.decides_congr (hf m) r
    exact ⟨congrArg (fun granted => Except.ok (Answer.reply (.verdict granted))) hm, rfl⟩
  | openGate name m target root levels =>
    refine ⟨rfl, ?_⟩
    exact keep_standIn s name
      { member := m, target, root := root.getD s.root, levels := levels.getD .standard }
  | ask name q =>
    refine withGate_standIn s name fun g => ?_
    exact congrArg (fun first => (first.1.map Answer.reply, first.2))
      (s.store.run_ask_standIn hf g q [] [])
  | check name =>
    simp only [run, Command.standIn]
    -- with its six questions in place both turns would be computed when they are compared
    generalize rightsQuestions = questions
    refine withGate_standIn s name fun g => ?_
    exact congrArg (fun first => (Except.ok (Answer.checks first.1), first.2))
      (s.store.run_askAll_standIn hf g questions [] [])
  | _ => exact ⟨rfl, rfl⟩

/-- Commands about others with the same access have the same answers, however long the
session goes on. -/
theorem runAll_standIn (s : Session) (commands : List (Nat × Command)) :
    (s.standIn f).runAll (commands.map fun step => (step.1, step.2.standIn f)) =
      ((s.runAll commands).1, (s.runAll commands).2.standIn f) := by
  induction commands generalizing s with
  | nil => rfl
  | cons step rest ih =>
    obtain ⟨now, c⟩ := step
    obtain ⟨hanswer, hsession⟩ := run_standIn hf s now c
    rw [List.map_cons, runAll_cons, runAll_cons, hanswer, hsession, ih]

end Session

end

/-! ## Access of members -/

/-- More membership never means less access, and names do not matter.  A member with a role
that includes the old one and with more teams has all permissions as before, and no decision
and no reply of yes is lost.  Members that are the same but for the login and the order and
repetitions of their teams have the same permissions, decisions and replies, and no session
can tell them apart by any of its answers. -/
theorem access_of_membership :
    (∀ m n : Member, m.Below n → ∀ s : Store,
      (s.permissionsOf m).Sublist (s.permissionsOf n) ∧
      (∀ r, s.decides m r = true → s.decides n r = true) ∧
      ∀ (g : Gate) (q : Question), s.reply (g.forMember m) q = .ok (.verdict true) →
        s.reply (g.forMember n) q = .ok (.verdict true)) ∧
    (∀ m n : Member, m.SameAccess n → ∀ s : Store,
      s.permissionsOf n = s.permissionsOf m ∧ (∀ r, s.decides n r = s.decides m r) ∧
      ∀ (g : Gate) (q : Question), s.reply (g.forMember n) q = s.reply (g.forMember m) q) ∧
    ∀ f : Member → Member, (∀ m : Member, m.SameAccess (f m)) →
      ∀ (s : Session) (commands : List (Nat × Command)),
        ((s.standIn f).runAll (commands.map fun step => (step.1, step.2.standIn f))).1 =
          (s.runAll commands).1 := by
  refine ⟨fun m n h s => ?_, fun m n h s => ?_, fun f hf s commands => ?_⟩
  · exact ⟨s.permissionsOf_sublist h, fun r => s.decides_mono h, fun g q => s.reply_mono g h⟩
  · exact ⟨s.permissionsOf_congr h, s.decides_congr h, fun g => s.reply_congr_member g h⟩
  · rw [Session.runAll_standIn hf]

/-- A viewer sees a dashboard through a team and goes on to see it as an editor in one more
team.  Under another login and with the teams named in another order the viewer is answered
the same, also in a session with an open gate. -/
theorem access_of_membership_promoted :
    let ann : Member := { org := 1, user := 10, login := "ann", role := .viewer, teams := [5, 6] }
    let anna : Member := { ann with login := "anna", teams := [6, 5, 6] }
    let boss : Member := { ann with login := "boss", role := .editor, teams := [6, 8, 5] }
    let team : Subject := .team 5 "ops" ""
    let history : List (Nat × Change) :=
      [(1, .save ⟨1, 42, "load", "Load", .dashboardIn 7⟩),
       (2, .setPermission .folders 1 "7" team "View")]
    let s := Store.empty.after history
    let g : Gate := { member := ann, target := 42 }
    let f := Function.update id ann anna
    let commands : List (Nat × Command) :=
      [(3, .openGate "ann" ann 42 none none), (4, .ask "ann" (.may .view)),
       (5, .evaluate ann (.all [.on "folders:read" "folders:id:7"]))]
    ann.Below boss ∧ s.reply g (.may .view) = .ok (.verdict true) ∧
      s.reply (g.forMember boss) (.may .view) = .ok (.verdict true) ∧
      ann.SameAccess anna ∧ s.permissionsOf anna = s.permissionsOf ann ∧
      (∀ m : Member, m.SameAccess (f m)) ∧
      ((Session.standIn f { store := s }).runAll
          (commands.map fun step => (step.1, step.2.standIn f))).1 =
        (Session.runAll { store := s } commands).1 := by
  intro ann anna boss team history s g f commands
  have hbelow : ann.Below boss := ⟨rfl, rfl, rfl, by decide⟩
  have hyes : s.reply g (.may .view) = .ok (.verdict true) := by decide +kernel
  have hsame : ann.SameAccess anna := by
    refine ⟨rfl, rfl, rfl, fun id => ?_⟩
    simp only [ann, anna, List.mem_cons, List.not_mem_nil]
    tauto
  have hf : ∀ m : Member, m.SameAccess (f m) := by
    intro m
    by_cases hm : m = ann
    · subst hm
      rw [show f ann = anna from Function.update_self ..]
      exact hsame
    · rw [show f m = m from Function.update_of_ne hm ..]
      exact .refl m
  obtain ⟨hmono, hcongr, hrun⟩ := access_of_membership
  exact ⟨hbelow, hyes, (hmono ann boss hbelow s).2.2 g (.may .view) hyes, hsame,
    (hcongr ann anna hsame s).1, hf, hrun f hf { store := s } commands⟩

end DashboardAccess
