/-
# Sessions

A store in use: commands that change it or ask it, gates that are opened under a
name and asked later, and the journal of all that.

* `Session.start` : a session with nothing stored, after its settings;
* `Session.run` : one command at a time of the clock;
* `Session.runAll` : several commands, each at its own time;
* `Session.play` : commands under a clock that goes on by a microsecond before
  each of them and can be set.
-/
import DashboardAccess.Clock
import DashboardAccess.Settings
import DashboardAccess.Store.Backend

namespace DashboardAccess

/-! ## Commands and answers -/

/-- What a session can be told to do. -/
inductive Command where
  /-- Change the store. -/
  | change (c : Change)
  /-- Read a resource. -/
  | fetch (id org : Int)
  /-- List the grants on a scope. -/
  | grantsOn (org : Int) (scope : Scope)
  /-- Find the permissions of a member. -/
  | permissionsOf (m : Member)
  /-- List the grants on a resource with the names of their actions. -/
  | namedGrants (kind : Kind) (org : Int) (resource : String)
  /-- Decide a requirement for a member. -/
  | evaluate (m : Member) (r : Requirement)
  /-- Open a gate under a name; without a root path it has that of the session. -/
  | openGate (name : String) (m : Member) (target : Int) (root : Option String)
      (levels : Option LevelMap)
  /-- Ask the gate of a name. -/
  | ask (name : String) (q : Question)
  /-- Ask the gate of a name for every right. -/
  | check (name : String)
deriving Repr

/-- What a session answers. -/
inductive Answer where
  | done
  | receipt (r : Receipt)
  | resource (r : Resource)
  | grants (gs : List Grant)
  | permissions (ps : List Permission)
  | namedGrants (gs : List (Grant × String))
  | reply (r : Reply)
  | checks (replies : List (Except Failure Reply))
  | noGate (name : String)

/-- The questions of a check: creation, then every right. -/
def rightsQuestions : List Question :=
  [.mayCreate, .may .save, .may .edit, .may .view, .may .admin, .may .delete]

/-! ## Sessions -/

/-- A store, the gates that are open, and the root path of addresses. -/
structure Session where
  store : Store := {}
  gates : List (String × Gate) := []
  root : String := ""
deriving Repr

/-- What a command leads to: an answer or a failure, the session afterwards, and
the new lines of the journal. -/
structure Outcome where
  answer : Except Failure Answer
  session : Session
  journal : List Record := []

namespace Session

/-- A session with nothing stored.  The only storage there is keeps everything in
memory. -/
def start (settings : Settings) : Except Failure Session :=
  if settings.storage = "mem" then .ok { root := settings.root }
  else .error (.unknownStorage settings.storage)

/-- The gate that was opened last under a name. -/
def gate? (s : Session) (name : String) : Option Gate :=
  s.gates.lookup name

/-- Keep a gate under a name. -/
def keep (s : Session) (name : String) (g : Gate) : Session :=
  { s with gates := Rows.put name g s.gates }

/-- Turn to the gate of a name, and keep it as it is afterwards. -/
def withGate (s : Session) (name : String)
    (turn : Gate → List Record → (Except Failure Answer × Gate) × List Record) : Outcome :=
  match s.gate? name with
  | none => ⟨.ok (.noGate name), s, []⟩
  | some g =>
    let ((answer, g), journal) := turn g []
    ⟨answer, s.keep name g, journal⟩

/-- Run a command at a time. -/
def run (now : Nat) (s : Session) : Command → Outcome
  | .change c =>
    match c.run now s.store with
    | .ok (receipt, store) =>
      ⟨.ok (.receipt receipt), { s with store }, c.records s.store receipt⟩
    | .error e => ⟨.error e, s, []⟩
  | .fetch id org => ⟨(s.store.fetch id org).map Answer.resource, s, []⟩
  | .grantsOn org scope => ⟨.ok (.grants (s.store.grantsOn org scope)), s, []⟩
  | .permissionsOf m =>
    let permissions := s.store.permissionsOf m
    ⟨.ok (.permissions permissions), s, [.found permissions.length m]⟩
  | .namedGrants kind org resource =>
    let table := PermissionTable.standard kind
    let grants := s.store.grantsOn org (Scope.ofResource table.kind resource)
    ⟨.ok (.namedGrants (grants.map fun g => (g, table.nameOf g.actions))), s, []⟩
  | .evaluate m r =>
    let (verdict, journal) := (s.store.backend.decide m r).run []
    ⟨verdict.map fun granted => .reply (.verdict granted), s, journal⟩
  | .openGate name m target root levels =>
    ⟨.ok .done,
      s.keep name
        { member := m, target, root := root.getD s.root,
          levels := levels.getD LevelMap.standard },
      []⟩
  | .ask name q =>
    s.withGate name fun g journal =>
      let ((reply, g), journal) := (g.ask s.store.backend q).run journal
      ((reply.map Answer.reply, g), journal)
  | .check name =>
    s.withGate name fun g journal =>
      let ((replies, g), journal) := (g.askAll s.store.backend rightsQuestions).run journal
      ((.ok (.checks replies), g), journal)

/-- Run several commands, each at its own time. -/
def runAll (s : Session) : List (Nat × Command) → List (Except Failure Answer) × Session
  | [] => ([], s)
  | (now, c) :: rest =>
    let outcome := s.run now c
    let (answers, s) := outcome.session.runAll rest
    (outcome.answer :: answers, s)

/-- Several commands are the first one and then the others, in the session that the first
one leads to. -/
theorem runAll_cons (s : Session) (now : Nat) (c : Command) (rest : List (Nat × Command)) :
    s.runAll ((now, c) :: rest) =
      ((s.run now c).answer :: ((s.run now c).session.runAll rest).1,
        ((s.run now c).session.runAll rest).2) :=
  rfl

end Session

/-! ## Under a clock -/

/-- A step of a session: to set the clock or to run a command. -/
inductive Step where
  | setClock (c : Clock)
  | run (c : Command)
deriving Repr

namespace Session

/-- The answers and journals of some steps.  The clock goes on by a microsecond
before every step. -/
def play (clock : Clock) (s : Session) : List Step → List (Except Failure Answer × List Record)
  | [] => []
  | .setClock c :: rest => (.ok .done, []) :: play c s rest
  | .run c :: rest =>
    let outcome := s.run clock.tick.micros c
    (outcome.answer, outcome.journal) :: play clock.tick outcome.session rest

end Session

end DashboardAccess
