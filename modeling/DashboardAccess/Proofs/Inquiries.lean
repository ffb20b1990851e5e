/-
# Inquiries

Questions to one gate as they go on side by side, over collaborators that may answer
anything and fail at any time.  A question first comes to the gate: what is about the
resource has the gate get it, one question after the other, and everything else is answered.
A question that has got the resource goes on to its answer at any later time.

* `Collaborators`, `Exchange` : what a gate calls, and a call with what came back;
* `notes_askAll` : to note down all calls changes nothing;
* `Gate.enter`, `Gate.finish` : the two parts of a question;
* `Desk.step`, `Desk.run` : a gate with its inquiries, moved on one by one;
* `step_come_goOn` : an inquiry that goes on at once is a question to the gate;
* `run_inTurn` : inquiries that go on at once one after the other are the questions that a
  gate is asked one after the other.
-/
import DashboardAccess.Gate

namespace DashboardAccess

variable {σ : Type}

/-! ## Collaborators -/

/-- A call of a collaborator, with what came back. -/
inductive Exchange where
  /-- The resource with an id in an organization is loaded. -/
  | load (id org : Int) (found : Except Failure Resource)
  /-- The grants on a scope of an organization are listed. -/
  | list (org : Int) (scope : Scope) (found : Except Failure (List Grant))
  /-- The permissions of a member are found. -/
  | permissions (m : Member) (found : Except Failure (List Permission))
  /-- A requirement is decided for a member. -/
  | decide (m : Member) (r : Requirement) (verdict : Except Failure Bool)

/-- Who decides requirements: an evaluator of its own, or the permissions that are stored
for the member. -/
inductive Evaluator (σ : Type) where
  | own (decide : Member → Requirement → StateM σ (Except Failure Bool))
  | stored (permissions : Member → StateM σ (Except Failure (List Permission)))

/-- Those that a gate calls.  Each of them may answer or fail as it likes, depending on all
that happened before. -/
structure Collaborators (σ : Type) where
  load : Int → Int → StateM σ (Except Failure Resource)
  list : Int → Scope → StateM σ (Except Failure (List Grant))
  evaluator : Evaluator σ

namespace Collaborators

/-- Make a call and note it down with what came back. -/
def noting {α : Type} (call : StateM σ α) (note : α → Exchange) : StateM (σ × List Exchange) α :=
  fun st =>
    let outcome := call.run st.1
    (outcome.1, (outcome.2, st.2 ++ [note outcome.1]))

/-- A call is noted down after the ones before it. -/
theorem run_noting {α : Type} (call : StateM σ α) (note : α → Exchange) (st : σ)
    (calls : List Exchange) :
    (noting call note).run (st, calls) =
      ((call.run st).1, ((call.run st).2, calls ++ [note (call.run st).1])) :=
  rfl

/-- The collaborators as a backend that notes down every call. -/
def backend (c : Collaborators σ) : Backend (σ × List Exchange) where
  load id org := noting (c.load id org) (.load id org)
  list org scope := noting (c.list org scope) (.list org scope)
  decide m r :=
    match c.evaluator with
    | .own decide => noting (decide m r) (.decide m r)
    | .stored permissions => do
      let found ← noting (permissions m) (.permissions m)
      return found.map fun permissions => r.holds (GrantedScopes.ofPermissions permissions)

/-- The collaborators as a backend that notes down nothing. -/
def plain (c : Collaborators σ) : Backend σ where
  load := c.load
  list := c.list
  decide m r :=
    match c.evaluator with
    | .own decide => decide m r
    | .stored permissions => do
      let found ← permissions m
      return found.map fun permissions => r.holds (GrantedScopes.ofPermissions permissions)

/-! ### Noting down changes nothing -/

/-- The first is the second, with calls noted down after the ones before, on which nothing
depends. -/
def Notes {α : Type} (m : StateM (σ × List Exchange) α) (plain : StateM σ α) : Prop :=
  ∀ st calls, m.run (st, calls) =
    ((plain.run st).1, ((plain.run st).2, calls ++ (m.run (st, [])).2.2))

section
variable {α β : Type}

theorem notes_noting (call : StateM σ α) (note : α → Exchange) :
    Notes (noting call note) call := fun _ _ => rfl

theorem notes_pure (a : α) : Notes (pure a) (pure a : StateM σ α) :=
  fun _ calls => Prod.ext rfl (Prod.ext rfl (List.append_nil calls).symm)

theorem Notes.bind {m : StateM (σ × List Exchange) α} {f : α → StateM (σ × List Exchange) β}
    {plain : StateM σ α} {plainly : α → StateM σ β}
    (hm : Notes m plain) (hf : ∀ a, Notes (f a) (plainly a)) :
    Notes (m >>= f) (plain >>= plainly) := by
  intro st calls
  have hrun : ∀ st, (m >>= f).run st = (f (m.run st).1).run (m.run st).2 := fun _ => rfl
  have hplain : (plain >>= plainly).run st =
      (plainly (plain.run st).1).run (plain.run st).2 := rfl
  rw [hrun, hrun, hplain, hm st calls, hm st []]
  generalize plain.run st = alone
  generalize (m.run (st, [])).2.2 = noted
  obtain ⟨a, st'⟩ := alone
  simp only [hf a st' (calls ++ noted), hf a st' noted, List.nil_append,
    List.append_assoc]

end

section
variable (c : Collaborators σ) (g : Gate)

theorem notes_decide (m : Member) (r : Requirement) :
    Notes (c.backend.decide m r) (c.plain.decide m r) := by
  simp only [backend, plain]
  split
  · exact notes_noting _ _
  · exact (notes_noting _ _).bind fun _ => notes_pure _

theorem notes_verdict (r : Requirement) :
    Notes (g.verdict c.backend r) (g.verdict c.plain r) := by
  refine (c.notes_decide g.member r).bind fun verdict => ?_
  cases verdict <;> exact notes_pure _

theorem notes_listing (r : Resource) :
    Notes (g.listing c.backend r) (g.listing c.plain r) := by
  refine (notes_noting _ _).bind fun found => ?_
  cases found <;> exact notes_pure _

theorem notes_resource : Notes (g.resource c.backend) (g.resource c.plain) := by
  rw [Gate.resource, Gate.resource]
  split
  · exact notes_pure _
  · refine (notes_noting _ _).bind fun found => ?_
    cases found <;> exact notes_pure _

theorem notes_answerOn (r : Resource) (q : Question) :
    Notes (g.answerOn c.backend r q) (g.answerOn c.plain r q) := by
  cases q with
  | may right => exact c.notes_verdict g _
  | _ => exact c.notes_listing g r

theorem notes_answerFree (q : Question) :
    Notes (g.answerFree c.backend q) (g.answerFree c.plain q) := by
  cases q with
  | hiddenRules | reaches _ | mayReplace _ _ => exact notes_pure _
  | _ => exact c.notes_verdict g creation

/-- A question to a gate notes down its own calls. -/
theorem notes_ask (q : Question) : Notes (g.ask c.backend q) (g.ask c.plain q) := by
  rw [Gate.ask, Gate.ask]
  split
  · refine (c.notes_resource g).bind fun got => ?_
    obtain ⟨_ | r, g⟩ := got
    · exact notes_pure _
    · exact (c.notes_answerOn g r q).bind fun _ => notes_pure _
  · exact (c.notes_answerFree g q).bind fun _ => notes_pure _

/-- So do several questions. -/
theorem notes_askAll (questions : List Question) :
    Notes (g.askAll c.backend questions) (g.askAll c.plain questions) := by
  induction questions generalizing g with
  | nil => exact notes_pure _
  | cons q rest ih =>
    exact (c.notes_ask g q).bind fun first => (ih first.2).bind fun _ => notes_pure _

end

end Collaborators

/-! ## Questions in two parts -/

/-- How far a question has got. -/
inductive Progress where
  /-- The resource is at hand, the answer is still to come. -/
  | holding (r : Resource)
  /-- The question is answered. -/
  | answered (reply : Except Failure Reply)

namespace Gate

/-- The first part of a question: to get the resource that it is about, or to answer it if
it is about none. -/
def enter (b : Backend σ) (g : Gate) (q : Question) : StateM σ (Progress × Gate) := do
  if q.needsResource g.target then
    match ← g.resource b with
    | (.ok r, g) => return (.holding r, g)
    | (.error e, g) => return (.answered (.error e), g)
  else
    return (.answered (← g.answerFree b q), g)

/-- The second part of a question: to answer it about the resource at hand. -/
def finish (b : Backend σ) (g : Gate) (q : Question) : Progress → StateM σ (Except Failure Reply)
  | .holding r => g.answerOn b r q
  | .answered reply => return reply

/-! ### How the first part goes -/

section
variable {b : Backend σ} {g : Gate} {q : Question}

/-- A question that is not about the resource is answered. -/
theorem run_enter_free (hq : q.needsResource g.target = false) (st : σ) :
    (g.enter b q).run st =
      ((.answered ((g.answerFree b q).run st).1, g), ((g.answerFree b q).run st).2) := by
  simp only [enter, hq]
  rfl

/-- A resource that the gate keeps is at hand. -/
theorem run_enter_kept {r : Resource} (hq : q.needsResource g.target = true)
    (hr : g.kept = some r) (st : σ) : (g.enter b q).run st = ((.holding r, g), st) := by
  simp only [enter, resource, hq, hr]
  rfl

/-- A resource that is loaded is at hand and kept. -/
theorem run_enter_load {r : Resource} {st st' : σ} (hq : q.needsResource g.target = true)
    (hg : g.kept = none) (hl : (b.load g.target g.member.org).run st = (.ok r, st')) :
    (g.enter b q).run st = ((.holding r, { g with kept := some r }), st') := by
  simp only [enter, resource, hq, hg, if_true, StateT.run_bind, hl]
  rfl

/-- A load that fails is the answer. -/
theorem run_enter_failed {e : Failure} {st st' : σ} (hq : q.needsResource g.target = true)
    (hg : g.kept = none) (hl : (b.load g.target g.member.org).run st = (.error e, st')) :
    (g.enter b q).run st = ((.answered (.error e), g), st') := by
  simp only [enter, resource, hq, hg, if_true, StateT.run_bind, hl]
  rfl

end

/-- A question is its two parts. -/
theorem run_ask_eq (b : Backend σ) (g : Gate) (q : Question) (st : σ) :
    (g.ask b q).run st =
      let first := (g.enter b q).run st
      let last := (first.1.2.finish b q first.1.1).run first.2
      ((last.1, first.1.2), last.2) := by
  cases hq : q.needsResource g.target with
  | false =>
    rw [run_ask_free hq, run_enter_free hq]
    rfl
  | true =>
    cases hg : g.kept with
    | some r =>
      rw [run_ask_kept hq hg, run_enter_kept hq hg]
      rfl
    | none =>
      rcases hl : (b.load g.target g.member.org).run st with ⟨_ | _, _⟩
      · rw [run_ask_failed hq hg hl, run_enter_failed hq hg hl]
        rfl
      · rw [run_ask_load hq hg hl, run_enter_load hq hg hl]
        rfl

end Gate

/-! ## A gate with its inquiries -/

/-- A question to a gate: the calls that it has led to and how far it has got. -/
structure Inquiry where
  question : Question
  calls : List Exchange
  progress : Progress

/-- A gate, the state of its collaborators, and the inquiries in the order in which they
came. -/
structure Desk (σ : Type) where
  gate : Gate
  state : σ
  inquiries : List Inquiry := []

/-- What can happen next at a desk. -/
inductive Move where
  /-- A question comes. -/
  | come (q : Question)
  /-- The inquiry of a number goes on to its answer. -/
  | goOn (number : Nat)

namespace Desk

/-- A desk after a move.  An inquiry that is answered has nothing to go on to. -/
def step (c : Collaborators σ) (d : Desk σ) : Move → Desk σ
  | .come q =>
    let outcome := (d.gate.enter c.backend q).run (d.state, [])
    { gate := outcome.1.2
      state := outcome.2.1
      inquiries := d.inquiries ++ [⟨q, outcome.2.2, outcome.1.1⟩] }
  | .goOn number =>
    match d.inquiries[number]? with
    | none => d
    | some x =>
      let outcome := (d.gate.finish c.backend x.question x.progress).run (d.state, x.calls)
      { d with
        state := outcome.2.1
        inquiries := d.inquiries.set number ⟨x.question, outcome.2.2, .answered outcome.1⟩ }

/-- A desk after some moves. -/
def run (c : Collaborators σ) (d : Desk σ) (moves : List Move) : Desk σ :=
  moves.foldl (step c) d

/-- An inquiry that goes on at once is the question to the gate. -/
theorem step_come_goOn (c : Collaborators σ) (d : Desk σ) (q : Question) :
    let outcome := (d.gate.ask c.backend q).run (d.state, [])
    d.run c [.come q, .goOn d.inquiries.length] =
      { gate := outcome.1.2
        state := outcome.2.1
        inquiries := d.inquiries ++ [⟨q, outcome.2.2, .answered outcome.1.1⟩] } := by
  intro outcome
  have hparts : outcome = _ := Gate.run_ask_eq c.backend d.gate q (d.state, [])
  rw [hparts]
  simp only [run, List.foldl_cons, List.foldl_nil, step, List.getElem?_concat_length]
  simp

/-- The moves of inquiries that go on at once, one after the other, counted from a number. -/
def inTurn (number : Nat) : List Question → List Move
  | [] => []
  | q :: rest => .come q :: .goOn number :: inTurn (number + 1) rest

/-- Inquiries that go on at once one after the other are the questions to the gate one after
the other, in all that comes of them: answers, the gate, the state, and the calls. -/
theorem run_inTurn (c : Collaborators σ) (d : Desk σ) (questions : List Question) :
    let asked := (d.gate.askAll c.plain questions).run d.state
    let after := d.run c (inTurn d.inquiries.length questions)
    after.gate = asked.1.2 ∧ after.state = asked.2 ∧
      after.inquiries.map Inquiry.progress =
        d.inquiries.map Inquiry.progress ++ asked.1.1.map .answered ∧
      after.inquiries.flatMap Inquiry.calls = d.inquiries.flatMap Inquiry.calls ++
        ((d.gate.askAll c.backend questions).run (d.state, [])).2.2 := by
  induction questions generalizing d with
  | nil => exact ⟨rfl, rfl, (List.append_nil _).symm, (List.append_nil _).symm⟩
  | cons q rest ih =>
    intro asked after
    have hfirst := step_come_goOn c d q
    have hasked : asked = _ := Gate.run_askAll_cons c.plain d.gate q rest d.state
    have hnoted := Gate.run_askAll_cons c.backend d.gate q rest (d.state, [])
    rw [c.notes_ask d.gate q d.state []] at hfirst hnoted
    generalize (d.gate.ask c.plain q).run d.state = outcome at hfirst hasked hnoted
    generalize ((d.gate.ask c.backend q).run (d.state, [])).2.2 = calls at hfirst hnoted
    obtain ⟨⟨reply, gate⟩, state⟩ := outcome
    -- the desk at which the other questions come
    let d' : Desk σ := ⟨gate, state, d.inquiries ++ [⟨q, calls, .answered reply⟩]⟩
    have hafter : after = d'.run c (inTurn d'.inquiries.length rest) := by
      have hlen : d'.inquiries.length = d.inquiries.length + 1 := List.length_append
      rw [hlen]
      exact congrArg (run c · (inTurn (d.inquiries.length + 1) rest)) hfirst
    simp only [List.nil_append, c.notes_askAll gate rest state calls] at hnoted
    obtain ⟨hgate, hstate, hprogress, hcalls⟩ := ih d'
    rw [hafter, hasked, hnoted]
    refine ⟨hgate, hstate, hprogress.trans ?_, hcalls.trans ?_⟩
    · simp [d']
    · simp [d']

end Desk

end DashboardAccess
