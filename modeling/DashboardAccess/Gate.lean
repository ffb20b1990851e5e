/-
# Gates

A gate answers questions about one member and one resource, by asking a backend:
it loads the resource, has requirements decided and grants listed.  Id 0 stands
for a resource that is about to be made.  A gate keeps the first resource it has
loaded and never loads again; a load that fails is not kept.

* `Right.requirement`, `creation` : what has to hold for an answer of yes;
* `Question.needsResource` : which questions are about the resource;
* `Gate.ask` : the answer, and the gate afterwards;
* `run_ask_free`, `run_ask_kept`, `run_ask_load`, `run_ask_failed` : the four ways
  that a question can go.
-/
import DashboardAccess.AccessList
import DashboardAccess.Failure
import DashboardAccess.Requirement

namespace DashboardAccess

/-! ## Backends -/

/-- What a gate asks of its surroundings: to load the resource with an id in an
organization, to list the grants on a scope of an organization, and to decide
whether a member fulfils a requirement.  Each of them may change the state of the
backend, also when it fails. -/
structure Backend (σ : Type) where
  load : Int → Int → StateM σ (Except Failure Resource)
  list : Int → Scope → StateM σ (Except Failure (List Grant))
  decide : Member → Requirement → StateM σ (Except Failure Bool)

/-! ## Requirements on a resource -/

/-- What a member may be allowed to do with a resource. -/
inductive Right where
  | save
  | edit
  | view
  | admin
  | delete
deriving DecidableEq, Repr

/-- An action on the resource itself or, for a dashboard, on its folder. -/
def Resource.needs (r : Resource) (action : Kind → String) : Requirement :=
  match r.place with
  | .folder => .on (action .folder) (Scope.ofId .folder r.id)
  | .dashboardIn folder =>
    .any [.on (action .dashboard) (Scope.ofId .dashboard r.id),
      .on (action .dashboard) (Scope.ofId .folder folder)]

/-- Seeing and changing the permissions of a kind of resource on a scope. -/
def governs (kind : Kind) (scope : Scope) : Requirement :=
  .all [.on (Action.readPermissions kind) scope, .on (Action.writePermissions kind) scope]

/-- Seeing and changing permissions on the resource itself or, for a dashboard, on
its folder. -/
def Resource.needsGovernance (r : Resource) : Requirement :=
  match r.place with
  | .folder => governs .folder (Scope.ofId .folder r.id)
  | .dashboardIn folder =>
    .any [governs .dashboard (Scope.ofId .dashboard r.id),
      governs .dashboard (Scope.ofId .folder folder)]

/-- What has to hold for a right on a resource. -/
def Right.requirement : Right → Resource → Requirement
  | .save, r => r.needs Action.write
  | .edit, r => r.needs Action.edit
  | .view, r => r.needs Action.read
  | .admin, r => r.needsGovernance
  | .delete, r => r.needs Action.delete

/-- What has to hold for making a new resource: either kind, anywhere. -/
def creation : Requirement :=
  .any [.anywhere (Action.create .folder), .anywhere (Action.create .dashboard)]

/-! ## Questions and replies -/

/-- What a gate can be asked. -/
inductive Question where
  /-- May the member make a new resource? -/
  | mayCreate
  /-- Does the member have a right on the resource? -/
  | may (right : Right)
  /-- Who is allowed what on the resource? -/
  | accessList
  /-- Who is allowed what on the resource, each once? -/
  | distinctAccessList
  /-- Which rules are hidden from the member? -/
  | hiddenRules
  /-- Does the member reach a level by stored rules? -/
  | reaches (level : Level)
  /-- May stored rules be replaced? -/
  | mayReplace (level : Level) (rules : List AccessRule)
deriving DecidableEq, Repr

/-- What a gate answers. -/
inductive Reply where
  | verdict (granted : Bool)
  | entries (entries : List AccessEntry)
  | rules (rules : List AccessRule)
deriving DecidableEq, Repr

/-- Whether a question about the resource with an id needs it to be loaded.  To
save a resource that is about to be made is to create it. -/
def Question.needsResource (target : Int) : Question → Bool
  | .may .save => decide (target ≠ 0)
  | .may _ => true
  | .accessList => true
  | .distinctAccessList => true
  | _ => false

/-! ## Gates -/

/-- The tables by which listings name permissions, one for each kind of
resource. -/
structure Tables where
  dashboards : PermissionTable := PermissionTable.dashboards
  folders : PermissionTable := PermissionTable.folders
deriving DecidableEq, Repr

/-- The table for a kind of resource. -/
def Tables.forKind (tables : Tables) : Kind → PermissionTable
  | .folder => tables.folders
  | .dashboard => tables.dashboards

/-- One member, one resource, and how listings show it. -/
structure Gate where
  member : Member
  target : Int
  root : String := ""
  levels : LevelMap := LevelMap.standard
  tables : Tables := {}
  kept : Option Resource := none
deriving DecidableEq, Repr

namespace Gate

variable {σ : Type}

/-- The resource that the gate keeps or else loads now, and the gate that keeps
it. -/
def resource (b : Backend σ) (g : Gate) : StateM σ (Except Failure Resource × Gate) := do
  match g.kept with
  | some r => return (.ok r, g)
  | none =>
    match ← b.load g.target g.member.org with
    | .ok r => return (.ok r, { g with kept := some r })
    | .error e => return (.error e, g)

/-- Have a requirement decided for the member. -/
def verdict (b : Backend σ) (g : Gate) (r : Requirement) : StateM σ (Except Failure Reply) := do
  match ← b.decide g.member r with
  | .ok granted => return .ok (.verdict granted)
  | .error e => return .error e

/-- The managed grants on the scope of a resource, line by line. -/
def listing (b : Backend σ) (g : Gate) (r : Resource) : StateM σ (Except Failure Reply) := do
  let table := g.tables.forKind r.kind
  let scope := Scope.ofResource table.kind (toString r.id)
  match ← b.list r.org scope with
  | .ok grants =>
    return .ok (.entries
      ((grants.filter Grant.isManaged).map (AccessEntry.ofGrant r g.root table g.levels)))
  | .error e => return .error (.unlisted scope e)

/-- Answer a question about the loaded resource. -/
def answerOn (b : Backend σ) (g : Gate) (r : Resource) : Question → StateM σ (Except Failure Reply)
  | .may right => g.verdict b (right.requirement r)
  | _ => g.listing b r

/-- Answer a question that is not about a loaded resource. -/
def answerFree (b : Backend σ) (g : Gate) : Question → StateM σ (Except Failure Reply)
  | .hiddenRules => return .ok (.rules [])
  | .reaches _ => return .ok (.verdict false)
  | .mayReplace _ _ => return .ok (.verdict true)
  | _ => g.verdict b creation

/-- The answer to a question, and the gate afterwards. -/
def ask (b : Backend σ) (g : Gate) (q : Question) : StateM σ (Except Failure Reply × Gate) := do
  if q.needsResource g.target then
    match ← g.resource b with
    | (.ok r, g) => return (← g.answerOn b r q, g)
    | (.error e, g) => return (.error e, g)
  else
    return (← g.answerFree b q, g)

/-! ## How a question goes -/

/-- A question that is not about the resource leaves the gate as it is. -/
theorem run_ask_free {b : Backend σ} {g : Gate} {q : Question}
    (hq : q.needsResource g.target = false) (st : σ) :
    (g.ask b q).run st =
      ((((g.answerFree b q).run st).1, g), ((g.answerFree b q).run st).2) := by
  simp only [ask, hq]
  rfl

/-- A question about a resource that the gate keeps does not load. -/
theorem run_ask_kept {b : Backend σ} {g : Gate} {q : Question} {r : Resource}
    (hq : q.needsResource g.target = true) (hr : g.kept = some r) (st : σ) :
    (g.ask b q).run st =
      ((((g.answerOn b r q).run st).1, g), ((g.answerOn b r q).run st).2) := by
  simp only [ask, resource, hq, hr]
  rfl

/-- A question about a resource that the gate does not keep loads it, and the gate
keeps what it has loaded. -/
theorem run_ask_load {b : Backend σ} {g : Gate} {q : Question} {r : Resource} {st st' : σ}
    (hq : q.needsResource g.target = true) (hg : g.kept = none)
    (hl : (b.load g.target g.member.org).run st = (.ok r, st')) :
    (g.ask b q).run st =
      let kept := { g with kept := some r }
      ((((kept.answerOn b r q).run st').1, kept), ((kept.answerOn b r q).run st').2) := by
  simp only [ask, resource, hq, hg, if_true, StateT.run_bind, hl]
  rfl

/-- A load that fails is the answer, and nothing is kept. -/
theorem run_ask_failed {b : Backend σ} {g : Gate} {q : Question} {e : Failure} {st st' : σ}
    (hq : q.needsResource g.target = true) (hg : g.kept = none)
    (hl : (b.load g.target g.member.org).run st = (.error e, st')) :
    (g.ask b q).run st = ((.error e, g), st') := by
  simp only [ask, resource, hq, hg, if_true, StateT.run_bind, hl]
  rfl

/-! ## Several questions -/

/-- The answers to several questions one after the other, and the gate
afterwards. -/
def askAll (b : Backend σ) (g : Gate) : List Question →
    StateM σ (List (Except Failure Reply) × Gate)
  | [] => return ([], g)
  | q :: rest => do
    let (answer, g) ← g.ask b q
    let (answers, g) ← askAll b g rest
    return (answer :: answers, g)

/-- Several questions are the first one and then the others, asked of the gate that the
first one leaves. -/
theorem run_askAll_cons (b : Backend σ) (g : Gate) (q : Question) (rest : List Question)
    (st : σ) :
    let first := (g.ask b q).run st
    let others := (first.1.2.askAll b rest).run first.2
    (g.askAll b (q :: rest)).run st =
      ((first.1.1 :: others.1.1, others.1.2), others.2) :=
  rfl

end Gate

end DashboardAccess
