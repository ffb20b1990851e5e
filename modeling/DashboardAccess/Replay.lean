/-
# Scripted backends

A backend that answers from scripts and keeps a trace of what it was asked.  A
script is a list of answers that is never empty: each call takes the next answer,
and the last one is repeated for ever.

* `Script.advance` : the script after the next answer;
* `Replay.backend` : the backend, with requirements decided by script or by the
  permissions that the scripts give.
-/
import DashboardAccess.Gate

namespace DashboardAccess

/-! ## Scripts -/

/-- Answers to one kind of call, in order. -/
structure Script (α : Type) where
  first : Except Failure α
  rest : List (Except Failure α) := []

namespace Script

variable {α : Type}

/-- The script that always gives one answer. -/
def always (a : α) : Script α where
  first := .ok a

/-- The script after one call. -/
def advance (s : Script α) : Script α :=
  match s.rest with
  | [] => s
  | a :: rest => ⟨a, rest⟩

end Script

/-! ## Replays -/

/-- A call that a scripted backend has seen. -/
inductive Call where
  /-- The resource with an id in an organization is to be loaded. -/
  | load (id org : Int)
  /-- The grants on a scope of an organization are to be listed. -/
  | list (org : Int) (scope : Scope)
  /-- The permissions of a member are to be found. -/
  | permissions (m : Member)
  /-- A requirement is to be decided for a member. -/
  | decide (m : Member) (r : Requirement)
deriving Repr

/-- The scripts of a backend as far as they are still to come, and the calls so
far.  Without a script of decisions, requirements are decided by permissions. -/
structure Replay where
  loads : Script Resource
  grants : Script (List Grant) := Script.always []
  permissions : Script (List Permission) := Script.always []
  decisions : Option (Script Bool) := none
  trace : List Call := []

namespace Replay

/-- Note a call. -/
def note (c : Call) (r : Replay) : Replay :=
  { r with trace := r.trace ++ [c] }

/-- The next scripted load. -/
def load (id org : Int) : StateM Replay (Except Failure Resource) := fun r =>
  (r.loads.first, { r.note (.load id org) with loads := r.loads.advance })

/-- The next scripted listing. -/
def list (org : Int) (scope : Scope) : StateM Replay (Except Failure (List Grant)) := fun r =>
  (r.grants.first, { r.note (.list org scope) with grants := r.grants.advance })

/-- The next scripted decision, or the decision by the next scripted
permissions. -/
def decide (m : Member) (q : Requirement) : StateM Replay (Except Failure Bool) := fun r =>
  match r.decisions with
  | some script =>
    (script.first, { r.note (.decide m q) with decisions := some script.advance })
  | none =>
    (r.permissions.first.map fun permissions =>
        q.holds (GrantedScopes.ofPermissions permissions),
      { r.note (.permissions m) with permissions := r.permissions.advance })

/-- The backend that answers from the scripts. -/
def backend : Backend Replay where
  load := load
  list := list
  decide := decide

/-- Ask a gate several questions; the answers, the calls they led to, and what is
left of gate and scripts. -/
def ask (r : Replay) (g : Gate) (questions : List Question) :
    List (Except Failure Reply) × List Call × Gate × Replay :=
  let ((answers, g), r) := (g.askAll backend questions).run { r with trace := [] }
  (answers, r.trace, g, r)

end Replay

end DashboardAccess
