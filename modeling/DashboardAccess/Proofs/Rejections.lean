/-
# Rejected commands are invisible

A command that is answered with a failure leaves the session as it is: the resources, the
grants, the id of the next one and what the gates keep.  So a run without the commands that
have failed, where the others keep their times, gives the same answers.

* `fetch_of_reply_eq_error` : over a store a gate fails only to find its resource;
* `session_of_answer_eq_error` : one command that fails;
* `accepted` : the commands of a run that do not fail;
* `runAll_accepted` : a run without those that fail, and which changes fail.
-/
import DashboardAccess.Proofs.OpenGates

namespace DashboardAccess

/-! ## Failures of single operations -/

namespace Store

/-- A name stands for no actions exactly when it is not empty and has no row. -/
theorem namedActions_eq_error_iff {table : PermissionTable} {name : String} {e : Failure} :
    namedActions table name = .error e ↔
      (name ≠ "" ∧ ∀ row ∈ table.rows, row.1 ≠ name) ∧ e = .unknownName name table.kind := by
  have hrow : table.actions? name = none ↔ ∀ row ∈ table.rows, row.1 ≠ name := by
    rw [PermissionTable.actions?, List.lookup_eq_none_iff]
    refine forall₂_congr fun row _ => ?_
    rw [bne_iff_ne, ne_comm]
  unfold namedActions
  by_cases hname : name = ""
  · simp [hname]
  · rw [if_neg hname, ← hrow]
    cases table.actions? name with
    | some actions => simp
    | none => simp [hname, eq_comm]

/-- Over a store a gate fails only if it keeps no resource and does not find the one that
it is asked about. -/
theorem fetch_of_reply_eq_error {s : Store} {g : Gate} {q : Question} {e : Failure}
    (h : s.reply g q = .error e) : g.kept = none ∧ s.readFor g q = none := by
  cases hq : q.needsResource g.target with
  | false =>
    rw [reply_of_needsResource_eq_false hq] at h
    cases q <;> cases h
  | true =>
    cases hg : g.kept with
    | some r =>
      rw [reply, Gate.run_ask_kept hq hg] at h
      cases q <;> cases h
    | none =>
      cases hf : s.fetch g.target g.member.org with
      | error e' => exact ⟨rfl, by simp [readFor, hq, hf, Except.toOption]⟩
      | ok r =>
        rw [reply_of_fetch_eq_ok hg hq hf] at h
        cases q <;> cases h

end Store

namespace Session

/-! ## Single commands -/

/-- A gate that is kept as it is leaves the session as it is. -/
theorem keep_eq_self {s : Session} {name : String} {g : Gate} (hg : s.gate? name = some g) :
    s.keep name g = s := by
  rw [keep, Rows.put_eq_self hg]

/-- A command that is answered with a failure leaves the session as it is. -/
theorem session_of_answer_eq_error {s : Session} {now : Nat} {c : Command} {e : Failure}
    (h : (s.run now c).answer = .error e) : (s.run now c).session = s := by
  cases c with
  | change c =>
    simp only [run] at h ⊢
    cases hc : c.run now s.store with
    | error e' => rfl
    | ok outcome =>
      rw [hc] at h
      cases h
  | ask name q =>
    cases hg : s.gate? name with
    | none => simp only [run, withGate, hg]
    | some g =>
      have hreply : s.store.reply g q = .error e := by
        rw [answer_ask hg] at h
        cases hr : s.store.reply g q with
        | error e' =>
          rw [hr] at h
          cases h
          rfl
        | ok reply =>
          rw [hr] at h
          cases h
      obtain ⟨hkept, hread⟩ := Store.fetch_of_reply_eq_error hreply
      -- the failed question has read nothing, so the gate that is kept is the old one
      have hgate := congrArg Prod.snd (Store.run_ask_backend s.store g q [])
      rw [hread, hkept, Option.or_none, ← hkept] at hgate
      simp only [run, withGate, hg]
      exact (congrArg (s.keep name) hgate).trans (keep_eq_self hg)
  | check name =>
    cases hg : s.gate? name with
    | none => simp only [run, withGate, hg]
    | some g =>
      rw [answer_check hg] at h
      cases h
  | openGate name m target root levels => cases h
  | _ => rfl

/-- To save fails exactly for id 0. -/
theorem answer_save_eq_error_iff {s : Session} {now : Nat} {r : Resource} :
    (∃ e, (s.run now (.change (.save r))).answer = .error e) ↔ r.id = 0 := by
  simp only [run, Change.run, Store.save]
  by_cases hid : r.id = 0
  · simp [hid]
  · simp [hid]

/-- To set a named permission fails exactly if the name is not empty and not in the
table. -/
theorem answer_setPermission_eq_error_iff {s : Session} {now : Nat} {table : PermissionTable}
    {org : Int} {resource : String} {subject : Subject} {name : String} :
    (∃ e, (s.run now (.change (.setPermission table org resource subject name))).answer =
      .error e) ↔ name ≠ "" ∧ ∀ row ∈ table.rows, row.1 ≠ name := by
  have hfails : (∃ e, Store.namedActions table name = .error e) ↔
      name ≠ "" ∧ ∀ row ∈ table.rows, row.1 ≠ name := by
    simp only [Store.namedActions_eq_error_iff, exists_and_left, exists_eq, and_true]
  rw [← hfails]
  simp only [run, Change.run, Store.setPermission]
  cases Store.namedActions table name <;> simp

/-! ## Runs without the commands that fail -/

/-- The commands of a run that are not answered with a failure. -/
def accepted (s : Session) (commands : List (Nat × Command)) : List (Nat × Command) :=
  ((commands.zip (s.runAll commands).1).filter (·.2.isOk)).map (·.1)

/-- A command is left out exactly if it fails. -/
theorem accepted_cons (s : Session) (now : Nat) (c : Command) (rest : List (Nat × Command)) :
    s.accepted ((now, c) :: rest) =
      if (s.run now c).answer.isOk then (now, c) :: (s.run now c).session.accepted rest
      else (s.run now c).session.accepted rest := by
  rw [accepted, runAll_cons, List.zip_cons_cons, List.filter_cons]
  split <;> rfl

/-- Without the commands that fail, each of the others at its own time, a run gives the same
answers and leads to the same session.  Setting a named permission fails exactly if the name
is not empty and not in the table, saving exactly for id 0. -/
theorem runAll_accepted (s : Session) (commands : List (Nat × Command)) :
    s.runAll (s.accepted commands) =
      ((s.runAll commands).1.filter (·.isOk), (s.runAll commands).2) ∧
    (∀ now table org resource subject name,
      (∃ e, (s.run now (.change (.setPermission table org resource subject name))).answer =
        .error e) ↔ name ≠ "" ∧ ∀ row ∈ table.rows, row.1 ≠ name) ∧
    ∀ now r, (∃ e, (s.run now (.change (.save r))).answer = .error e) ↔ r.id = 0 := by
  refine ⟨?_, fun _ _ _ _ _ _ => answer_setPermission_eq_error_iff,
    fun _ _ => answer_save_eq_error_iff⟩
  induction commands generalizing s with
  | nil => rfl
  | cons step rest ih =>
    obtain ⟨now, c⟩ := step
    have hrest := ih (s.run now c).session
    rw [accepted_cons, runAll_cons, List.filter_cons]
    cases ha : (s.run now c).answer with
    | error e =>
      -- the session goes on as if the command had not been there
      have hsame := session_of_answer_eq_error ha
      rw [hsame] at hrest ⊢
      exact hrest
    | ok answer =>
      have hrun := runAll_cons s now c ((s.run now c).session.accepted rest)
      rw [hrest, ha] at hrun
      exact hrun

end Session

end DashboardAccess
