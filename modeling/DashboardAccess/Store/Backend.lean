/-
# The store as a backend

Gates over a store: resources are loaded from it, its grants are listed, and
requirements are decided by its permissions and noted in the journal.

* `Store.reply` : what a gate over a store replies;
* `reply_may`, `reply_accessList`, `reply_mayCreate` : the replies, by what the
  store holds;
* `reply_of_fetch_eq_error` : the reply about a resource that is not there.
-/
import DashboardAccess.Gate
import DashboardAccess.Journal

namespace DashboardAccess

namespace Store

/-- The backend that answers from a store and notes decisions in the journal. -/
def backend (s : Store) : Backend (List Record) where
  load id org := return s.fetch id org
  list org scope := return .ok (s.grantsOn org scope)
  decide m r journal :=
    (.ok (s.decides m r),
      journal ++ [.found (s.permissionsOf m).length m, .decided (s.decides m r) m r])

/-- What a gate over the store replies. -/
def reply (s : Store) (g : Gate) (q : Question) : Except Failure Reply :=
  ((g.ask s.backend q).run []).1.1

/-! ## The replies of a gate that has loaded nothing yet -/

/-- A right is granted if the member's permissions are enough for it. -/
theorem reply_may {s : Store} {g : Gate} {right : Right} {r : Resource} (hg : g.kept = none)
    (hq : (Question.may right).needsResource g.target = true)
    (hf : s.fetch g.target g.member.org = .ok r) :
    s.reply g (.may right) = .ok (.verdict (s.decides g.member (right.requirement r))) := by
  have hl : (s.backend.load g.target g.member.org).run [] = (.ok r, []) := by
    simp only [backend, hf]
    rfl
  rw [reply, Gate.run_ask_load hq hg hl]
  rfl

/-- The access list has a line for every managed grant on the resource. -/
theorem reply_accessList {s : Store} {g : Gate} {r : Resource} (hg : g.kept = none)
    (hf : s.fetch g.target g.member.org = .ok r) :
    s.reply g .accessList =
      let table := g.tables.forKind r.kind
      .ok (.entries
        (((s.grantsOn r.org (Scope.ofResource table.kind (toString r.id))).filter
          Grant.isManaged).map (AccessEntry.ofGrant r g.root table g.levels))) := by
  have hl : (s.backend.load g.target g.member.org).run [] = (.ok r, []) := by
    simp only [backend, hf]
    rfl
  rw [reply, Gate.run_ask_load rfl hg hl]
  rfl

/-- About a resource that is not there the reply is the failure to find it. -/
theorem reply_of_fetch_eq_error {s : Store} {g : Gate} {q : Question} {e : Failure}
    (hg : g.kept = none) (hq : q.needsResource g.target = true)
    (hf : s.fetch g.target g.member.org = .error e) : s.reply g q = .error e := by
  have hl : (s.backend.load g.target g.member.org).run [] = (.error e, []) := by
    simp only [backend, hf]
    rfl
  rw [reply, Gate.run_ask_failed hq hg hl]

/-- Making a resource is granted if the member's permissions are enough for it. -/
theorem reply_mayCreate (s : Store) (g : Gate) :
    s.reply g .mayCreate = .ok (.verdict (s.decides g.member creation)) := by
  rw [reply, Gate.run_ask_free rfl]
  rfl

end Store

end DashboardAccess
