/-
# Gates that stay open

A gate that was opened once and is asked again and again, while the store changes, goes
by the grants as they are now and by the resource as it was when the gate first read it.
It replies as a new gate does over the store with just that resource put back.

* `run_ask_backend` : what a question over a store does to a gate;
* `reply_eq_reply_recalling` : the reply of a gate that keeps a resource;
* `Session.firstRead` : what the gate of a name reads first in a session;
* `gate?_runAll` : what a gate keeps after any commands;
* `answers_of_openGate` : all answers of a gate, however long it stays open.
-/
import DashboardAccess.Proofs.Entries
import DashboardAccess.Proofs.Replies
import DashboardAccess.Session
import Mathlib.Control.Monad.Basic

namespace DashboardAccess

namespace Store

/-! ## Questions over a store -/

/-- The resource that a question of a gate is about, as it is stored now. -/
def readFor (s : Store) (g : Gate) (q : Question) : Option Resource :=
  if q.needsResource g.target then (s.fetch g.target g.member.org).toOption else none

/-- What is read for a question has the organization and the id that the gate is for. -/
theorem key_of_readFor {s : Store} {g : Gate} {q : Question} {r : Resource}
    (h : s.readFor g q = some r) : r.key = ⟨g.member.org, g.target⟩ := by
  unfold readFor at h
  split at h
  · cases hf : s.fetch g.target g.member.org with
    | error e =>
      rw [hf] at h
      cases h
    | ok r' =>
      rw [hf] at h
      cases h
      exact key_of_fetch hf
  · cases h

/-- What is answered about a resource does not depend on the journal so far. -/
theorem run_answerOn_fst (s : Store) (g : Gate) (r : Resource) (q : Question)
    (journal : List Record) :
    ((g.answerOn s.backend r q).run journal).1 = ((g.answerOn s.backend r q).run []).1 := by
  cases q <;> rfl

/-- A question leads to the reply of the gate whatever is in the journal, and the gate
goes on with what it keeps or else with what has been read for the question. -/
theorem run_ask_backend (s : Store) (g : Gate) (q : Question) (journal : List Record) :
    ((g.ask s.backend q).run journal).1 =
      (s.reply g q, { g with kept := g.kept.or (s.readFor g q) }) := by
  cases hq : q.needsResource g.target with
  | false =>
    have hread : s.readFor g q = none := by simp [readFor, hq]
    rw [reply, Gate.run_ask_free hq, Gate.run_ask_free hq, hread, Option.or_none]
    cases q <;> rfl
  | true =>
    cases hg : g.kept with
    | some r =>
      rw [reply, Gate.run_ask_kept hq hg, Gate.run_ask_kept hq hg, Option.some_or, ← hg]
      exact congrArg (·, g) (run_answerOn_fst s g r q journal)
    | none =>
      have hread : s.readFor g q = (s.fetch g.target g.member.org).toOption := by
        simp [readFor, hq]
      rw [hread, Option.none_or]
      cases hf : s.fetch g.target g.member.org with
      | error e =>
        have hl : ∀ journal, (s.backend.load g.target g.member.org).run journal =
            (.error e, journal) := by
          intro journal
          simp only [backend, hf]
          rfl
        rw [reply, Gate.run_ask_failed hq hg (hl journal), Gate.run_ask_failed hq hg (hl [])]
        simp only [Except.toOption, ← hg]
      | ok r =>
        have hl : ∀ journal, (s.backend.load g.target g.member.org).run journal =
            (.ok r, journal) := by
          intro journal
          simp only [backend, hf]
          rfl
        rw [reply, Gate.run_ask_load hq hg (hl journal), Gate.run_ask_load hq hg (hl [])]
        exact congrArg (·, { g with kept := some r })
          (run_answerOn_fst s { g with kept := some r } r q journal)

/-! ## Stores with a resource put back -/

/-- The store with a resource put back as it is remembered, if one is. -/
def recalling (s : Store) : Option Resource → Store
  | none => s
  | some r => { s with resources := Ascending.insert Resource.key r s.resources }

/-- What is stored now need not be put back. -/
theorem recalling_of_fetch {s : Store} (hs : s.WellFormed) {id org : Int} {r : Resource}
    (hf : s.fetch id org = .ok r) : s.recalling (some r) = s := by
  have hr : r ∈ s.resources := ((fetch_eq_ok_iff hs).1 hf).1
  rw [recalling, Ascending.insert_eq_self hs.resources hr]

/-- What has been put back is loaded. -/
theorem fetch_recalling {s : Store} (hs : s.WellFormed) (r : Resource) :
    (s.recalling (some r)).fetch r.id r.org = .ok r := by
  refine (fetch_eq_ok_iff (wellFormed_insertResource hs r)).2 ⟨?_, rfl, rfl⟩
  exact (Ascending.mem_insert hs.resources).2 (.inl rfl)

/-- A resource that is read for a question need not be put back. -/
theorem recalling_or_readFor {s : Store} (hs : s.WellFormed) (g : Gate) (q : Question)
    (kept : Option Resource) : s.recalling (kept.or (s.readFor g q)) = s.recalling kept := by
  cases kept with
  | some r => rfl
  | none =>
    rw [Option.none_or, readFor]
    split
    · cases hf : s.fetch g.target g.member.org with
      | error e => rfl
      | ok r => exact recalling_of_fetch hs hf
    · rfl

/-- A gate replies as a new gate does over the store with the resource put back that the
gate keeps. -/
theorem reply_eq_reply_recalling {s : Store} (hs : s.WellFormed) {g : Gate}
    (hkey : ∀ r, g.kept = some r → r.key = ⟨g.member.org, g.target⟩) (q : Question) :
    s.reply g q = (s.recalling g.kept).reply { g with kept := none } q := by
  cases hg : g.kept with
  | none => rw [recalling, ← hg]
  | some r =>
    have hfor : s.resourceFor g = (s.recalling (some r)).resourceFor { g with kept := none } := by
      have hk : (⟨r.org, r.id⟩ : ResourceKey) = ⟨g.member.org, g.target⟩ := hkey r hg
      obtain ⟨horg, hid⟩ := ResourceKey.mk.inj hk
      have hfetch := fetch_recalling hs r
      rw [horg, hid] at hfetch
      simp only [resourceFor, hg, hfetch]
    -- grants are the same, so are all replies about the resource and the others
    refine reply_congr rfl hfor (fun r' _ _ => ?_) fun _ => ?_
    · cases q <;> rfl
    · cases q <;> rfl

/-! ## Several questions over a store -/

/-- After several questions a gate keeps what it kept before or else what has been read
first. -/
theorem run_askAll_backend_gate (s : Store) (g : Gate) (questions : List Question)
    (journal : List Record) :
    ((g.askAll s.backend questions).run journal).1.2 =
      { g with kept := g.kept.or (questions.findSome? (s.readFor g)) } := by
  induction questions generalizing g journal with
  | nil =>
    rw [List.findSome?_nil, Option.or_none]
    rfl
  | cons q rest ih =>
    rw [Gate.run_askAll_cons, run_ask_backend, ih, Option.or_assoc, List.findSome?_cons]
    cases s.readFor g q <;> rfl

/-- Over a store that does not change, all questions are replied to alike: as by a new
gate over the store with the resource put back that the gate keeps. -/
theorem run_askAll_backend_replies {s : Store} (hs : s.WellFormed) {g : Gate}
    (hkey : ∀ r, g.kept = some r → r.key = ⟨g.member.org, g.target⟩)
    (questions : List Question) (journal : List Record) :
    ((g.askAll s.backend questions).run journal).1.1 =
      questions.map ((s.recalling g.kept).reply { g with kept := none }) := by
  induction questions generalizing g journal with
  | nil => rfl
  | cons q rest ih =>
    rw [Gate.run_askAll_cons, run_ask_backend, List.map_cons,
      reply_eq_reply_recalling hs hkey, ih, recalling_or_readFor hs]
    intro r hr
    cases hg : g.kept with
    | some r' =>
      rw [hg] at hr
      cases hr
      exact hkey r hg
    | none =>
      rw [hg, Option.none_or] at hr
      exact key_of_readFor hr

end Store

/-! ## Gates of a session -/

namespace Command

/-- The command opens a gate under the name. -/
def Opens (name : String) : Command → Prop
  | .openGate n .. => n = name
  | _ => False

/-- What a command asks the gate of a name. -/
def questions (name : String) : Command → List Question
  | .ask n q => if n = name then [q] else []
  | .check n => if n = name then rightsQuestions else []
  | _ => []

end Command

namespace Session

/-- The resource that the gate of a name reads first while a session goes on: as it is
stored when for the first time the gate is asked about it and it is there. -/
def firstRead (name : String) (g : Gate) (s : Session) : List (Nat × Command) → Option Resource
  | [] => none
  | (now, c) :: rest =>
    ((c.questions name).findSome? (s.store.readFor g)).or
      ((s.run now c).session.firstRead name g rest)

/-- What a gate keeps takes no part in what is read first. -/
theorem firstRead_keeping (name : String) (g : Gate) (kept : Option Resource) (s : Session)
    (commands : List (Nat × Command)) :
    s.firstRead name { g with kept } commands = s.firstRead name g commands := by
  induction commands generalizing s with
  | nil => rfl
  | cons step rest ih =>
    rw [firstRead, firstRead, ih]
    rfl

/-- What a gate reads first has the organization and the id that the gate is for. -/
theorem key_of_firstRead {name : String} {g : Gate} {s : Session}
    {commands : List (Nat × Command)} {r : Resource}
    (h : s.firstRead name g commands = some r) : r.key = ⟨g.member.org, g.target⟩ := by
  induction commands generalizing s with
  | nil => cases h
  | cons step rest ih =>
    rw [firstRead, Option.or_eq_some_iff] at h
    rcases h with h | ⟨-, h⟩
    · obtain ⟨q, -, hq⟩ := List.exists_of_findSome?_eq_some h
      exact Store.key_of_readFor hq
    · exact ih h

/-- Only changes move the store. -/
theorem store_run (s : Session) (now : Nat) (c : Command) :
    (s.run now c).session.store =
      match c with
      | .change c => c.apply now s.store
      | _ => s.store := by
  cases c with
  | change c =>
    rw [run]
    cases h : c.run now s.store with
    | ok made => exact (Change.apply_of_run_eq_ok h).symm
    | error e => exact (Change.apply_of_run_eq_error h).symm
  | ask name q =>
    simp only [run, withGate]
    cases s.gate? name <;> rfl
  | check name =>
    simp only [run, withGate]
    cases s.gate? name <;> rfl
  | _ => rfl

/-- A gate that is kept is the gate of its name, and leaves those of other names
alone. -/
theorem gate?_keep (s : Session) (name n : String) (g : Gate) :
    (s.keep name g).gate? n = if n = name then some g else s.gate? n :=
  Rows.lookup_put name n g s.gates

/-- The gate of a name after another one has had its turn. -/
theorem gate?_withGate_of_ne {s : Session} {name n : String} (hn : n ≠ name)
    (turn : Gate → List Record → (Except Failure Answer × Gate) × List Record) :
    (s.withGate n turn).session.gate? name = s.gate? name := by
  unfold withGate
  cases s.gate? n with
  | none => rfl
  | some g => exact (gate?_keep s n name _).trans (if_neg (Ne.symm hn))

/-- The gate of a name after its turn. -/
theorem gate?_withGate {s : Session} {name : String} {g : Gate} (hg : s.gate? name = some g)
    (turn : Gate → List Record → (Except Failure Answer × Gate) × List Record) :
    (s.withGate name turn).session.gate? name = some (turn g []).1.2 := by
  unfold withGate
  rw [hg]
  exact (gate?_keep s name name _).trans (if_pos rfl)

/-- As long as no other gate is opened under its name, a gate keeps what it kept before or
else what it reads for the command. -/
theorem gate?_run {s : Session} {name : String} {g : Gate} (hg : s.gate? name = some g)
    (now : Nat) {c : Command} (hc : ¬ c.Opens name) :
    (s.run now c).session.gate? name =
      some { g with kept := g.kept.or ((c.questions name).findSome? (s.store.readFor g)) } := by
  cases c with
  | change c =>
    simp only [run, Command.questions, List.findSome?_nil, Option.or_none]
    cases c.run now s.store <;> exact hg
  | openGate n m target root levels =>
    have hn : name ≠ n := fun he => hc he.symm
    simp only [run, Command.questions, List.findSome?_nil, Option.or_none]
    exact ((gate?_keep s n name _).trans (if_neg hn)).trans hg
  | ask n q =>
    by_cases hn : n = name
    · subst hn
      have hgate := congrArg Prod.snd (Store.run_ask_backend s.store g q [])
      simp only [run, Command.questions, if_true, List.findSome?_singleton]
      rw [gate?_withGate hg]
      exact congrArg some hgate
    · simp only [run, Command.questions, if_neg hn, List.findSome?_nil, Option.or_none]
      exact (gate?_withGate_of_ne hn _).trans hg
  | check n =>
    by_cases hn : n = name
    · subst hn
      have hgate := Store.run_askAll_backend_gate s.store g rightsQuestions []
      simp only [run, Command.questions, if_true]
      rw [gate?_withGate hg]
      generalize (g.askAll s.store.backend rightsQuestions).run [] = turn at hgate
      exact congrArg some hgate
    · simp only [run, Command.questions, if_neg hn, List.findSome?_nil, Option.or_none]
      exact (gate?_withGate_of_ne hn _).trans hg
  | _ =>
    simp only [run, Command.questions, List.findSome?_nil, Option.or_none]
    exact hg

/-- As long as no other gate is opened under its name, a gate keeps what it kept before or
else what it reads first. -/
theorem gate?_runAll {s : Session} {name : String} {g : Gate} (hg : s.gate? name = some g)
    {commands : List (Nat × Command)} (hopen : ∀ step ∈ commands, ¬ step.2.Opens name) :
    (s.runAll commands).2.gate? name =
      some { g with kept := g.kept.or (s.firstRead name g commands) } := by
  induction commands generalizing s g with
  | nil =>
    rw [firstRead, Option.or_none]
    exact hg
  | cons step rest ih =>
    obtain ⟨now, c⟩ := step
    have hstep := gate?_run hg now (hopen _ List.mem_cons_self)
    have hrest := ih hstep fun step hs => hopen step (List.mem_cons_of_mem _ hs)
    rw [runAll_cons, hrest, firstRead_keeping, Option.or_assoc, firstRead]

/-! ## Histories of a session -/

/-- The changes among some commands, each at its own time. -/
def changesOf (commands : List (Nat × Command)) : List (Nat × Change) :=
  commands.filterMap fun step =>
    match step with
    | (now, .change c) => some (now, c)
    | _ => none

/-- The store of a session goes through the changes among the commands. -/
theorem store_runAll (s : Session) (commands : List (Nat × Command)) :
    (s.runAll commands).2.store = s.store.after (changesOf commands) := by
  induction commands generalizing s with
  | nil => rfl
  | cons step rest ih =>
    obtain ⟨now, c⟩ := step
    rw [runAll_cons, ih, store_run]
    cases c <;> rfl

/-- Some commands lead to the session from one with nothing stored. -/
def Reachable (s : Session) : Prop :=
  ∃ settings first commands, start settings = .ok first ∧ s = (first.runAll commands).2

/-- A session starts with nothing stored. -/
theorem store_of_start {settings : Settings} {s : Session} (h : start settings = .ok s) :
    s.store = Store.empty := by
  unfold start at h
  split at h
  · cases h
    rfl
  · cases h

/-- Whatever commands come next, the store of a session is in order. -/
theorem wellFormed_of_reachable {s : Session} (hs : s.Reachable)
    (commands : List (Nat × Command)) : (s.runAll commands).2.store.WellFormed := by
  obtain ⟨settings, first, before, hstart, rfl⟩ := hs
  rw [store_runAll, store_runAll, store_of_start hstart]
  exact Store.wellFormed_after (Store.wellFormed_after Store.wellFormed_empty _) _

/-! ## Answers of an open gate -/

/-- The gate of a name replies over the store as it is now. -/
theorem answer_ask {s : Session} {name : String} {g : Gate} (hg : s.gate? name = some g)
    (now : Nat) (q : Question) :
    (s.run now (.ask name q)).answer = (s.store.reply g q).map Answer.reply := by
  simp only [run, withGate, hg]
  rfl

/-- A check has the replies of the gate of the name to all its questions. -/
theorem answer_check {s : Session} {name : String} {g : Gate} (hg : s.gate? name = some g)
    (now : Nat) :
    (s.run now (.check name)).answer =
      .ok (.checks ((g.askAll s.store.backend rightsQuestions).run []).1.1) := by
  simp only [run, withGate, hg]
  generalize (g.askAll s.store.backend rightsQuestions).run [] = turn
  rfl

/-- However long a gate stays open, and whatever is changed and asked meanwhile, each of
its answers is the one of a new gate over a store that has the current grants, and the
resource as the gate has read it first if it has read it. -/
theorem answers_of_openGate {s : Session} (hs : s.Reachable) (opened : Nat) (name : String)
    (m : Member) (target : Int) (root : Option String) (levels : Option LevelMap)
    {meanwhile : List (Nat × Command)} (hopen : ∀ step ∈ meanwhile, ¬ step.2.Opens name)
    (now : Nat) :
    let fresh : Gate :=
      { member := m, target, root := root.getD s.root, levels := levels.getD .standard }
    let first := (s.run opened (.openGate name m target root levels)).session
    let current := (first.runAll meanwhile).2
    let recalled := current.store.recalling (first.firstRead name fresh meanwhile)
    (∀ q, (current.run now (.ask name q)).answer =
      (recalled.reply fresh q).map Answer.reply) ∧
    (current.run now (.check name)).answer =
      .ok (.checks (rightsQuestions.map (recalled.reply fresh))) := by
  intro fresh first current recalled
  have hwf : current.store.WellFormed :=
    wellFormed_of_reachable hs ((opened, .openGate name m target root levels) :: meanwhile)
  have hfirst : first.gate? name = some fresh := (gate?_keep s name name fresh).trans (if_pos rfl)
  have hnow := gate?_runAll hfirst hopen
  have hkey : ∀ r, first.firstRead name fresh meanwhile = some r →
      r.key = ⟨fresh.member.org, fresh.target⟩ := fun r hr => key_of_firstRead hr
  constructor
  · intro q
    rw [answer_ask hnow, Store.reply_eq_reply_recalling hwf hkey]
    rfl
  · rw [answer_check hnow, Store.run_askAll_backend_replies hwf hkey]
    rfl

/-- A viewer's gate first asked about a dashboard that is not there and then about one in
folder 7 stays with that one, when its id goes to a folder: a grant on folder 7 that comes
later lets the viewer see it, while a new gate finds the folder and refuses. -/
theorem answers_of_openGate_moved :
    let ann : Member := { org := 1, user := 10, login := "ann", role := .viewer }
    let meanwhile : List (Nat × Command) :=
      [(2, .ask "ann" (.may .view)),
       (3, .change (.save ⟨1, 42, "load", "Load", .dashboardIn 7⟩)),
       (4, .ask "ann" (.may .view)),
       (5, .change (.save ⟨1, 42, "ops", "Ops", .folder⟩)),
       (6, .change (.setPermission .folders 1 "7" (.role .viewer) "View"))]
    let first := (Session.run 1 {} (.openGate "ann" ann 42 none none)).session
    let current := (first.runAll meanwhile).2
    Reachable {} ∧ (∀ step ∈ meanwhile, ¬ step.2.Opens "ann") ∧
      (current.run 7 (.ask "ann" (.may .view))).answer = .ok (.reply (.verdict true)) ∧
      current.store.reply { member := ann, target := 42 } (.may .view) =
        .ok (.verdict false) := by
  intro ann meanwhile first current
  have hs : Reachable {} := ⟨⟨"guardian", "mem", ""⟩, {}, [], rfl, rfl⟩
  have hopen : ∀ step ∈ meanwhile, ¬ step.2.Opens "ann" := by simp [meanwhile, Command.Opens]
  refine ⟨hs, hopen, ?_, ?_⟩
  · rw [(answers_of_openGate hs 1 "ann" ann 42 none none hopen 7).1 (.may .view)]
    have hreply : (current.store.recalling
        (first.firstRead "ann" { member := ann, target := 42 } meanwhile)).reply
          { member := ann, target := 42 } (.may .view) = .ok (.verdict true) := by
      decide +kernel
    exact congrArg (Except.map Answer.reply) hreply
  · decide +kernel

end Session

end DashboardAccess
