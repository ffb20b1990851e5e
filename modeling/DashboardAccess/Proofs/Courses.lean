/-
# Courses of inquiries

What an inquiry at a gate can have come to: which calls it has led to, and how its answer
comes out of them.

* `Concludes` : the one call that a question about a resource at hand is answered by;
* `Course` : everything that an inquiry can have come to, by the resource that was found
  before it came;
* `course_enter`, `course_finish` : the two parts of a question take such a course;
* `sound_step`, `sound_run` : all inquiries at a desk have taken such courses, and the gate
  keeps the one resource that they have found.
-/
import DashboardAccess.Proofs.Inquiries
import Mathlib.Data.List.Flatten

namespace DashboardAccess

variable {σ : Type}

/-! ## Calls and their outcomes -/

namespace Exchange

/-- The resource that a load has found. -/
def loaded? : Exchange → Option Resource
  | .load _ _ (.ok r) => some r
  | _ => none

/-- The call decides a requirement for a member: an evaluator does, or the stored
permissions of the member do. -/
inductive Decides (m : Member) (r : Requirement) : Exchange → Except Failure Bool → Prop
  | own (verdict : Except Failure Bool) : Decides m r (.decide m r verdict) verdict
  | stored (found : Except Failure (List Permission)) :
    Decides m r (.permissions m found)
      (found.map fun permissions => r.holds (GrantedScopes.ofPermissions permissions))

/-- To decide is not to load. -/
theorem Decides.loaded?_eq_none {m : Member} {r : Requirement} {x : Exchange}
    {verdict : Except Failure Bool} (h : x.Decides m r verdict) : x.loaded? = none := by
  cases h <;> rfl

end Exchange

/-- What an inquiry has loaded. -/
def Inquiry.found (x : Inquiry) : List Resource :=
  x.calls.filterMap Exchange.loaded?

/-- The answer to a question for which nobody is called. -/
def Question.plainReply? : Question → Option Reply
  | .hiddenRules => some (.rules [])
  | .reaches _ => some (.verdict false)
  | .mayReplace _ _ => some (.verdict true)
  | _ => none

namespace Gate

/-- The scope on which the grants on a resource are listed. -/
def listScope (g : Gate) (r : Resource) : Scope :=
  Scope.ofResource (g.tables.forKind r.kind).kind (toString r.id)

/-- What a gate makes of the grants that are listed on a resource. -/
def lines (g : Gate) (r : Resource) : Except Failure (List Grant) → Except Failure Reply
  | .ok grants =>
    .ok (.entries ((grants.filter Grant.isManaged).map
      (AccessEntry.ofGrant r g.root (g.tables.forKind r.kind) g.levels)))
  | .error e => .error (.unlisted (g.listScope r) e)

/-- The answer to a question about a resource comes from one call: a decision on the
requirement of the right, or a listing. -/
inductive Concludes (g : Gate) (r : Resource) :
    Question → Exchange → Except Failure Reply → Prop
  | may {right : Right} {x : Exchange} {verdict : Except Failure Bool}
    (h : x.Decides g.member (right.requirement r) verdict) :
    Concludes g r (.may right) x (verdict.map .verdict)
  | lists {q : Question} (hq : q = .accessList ∨ q = .distinctAccessList)
    (found : Except Failure (List Grant)) :
    Concludes g r q (.list r.org (g.listScope r) found) (g.lines r found)

/-- No answer comes from a load. -/
theorem Concludes.loaded?_eq_none {g : Gate} {r : Resource} {q : Question} {x : Exchange}
    {reply : Except Failure Reply} (h : g.Concludes r q x reply) : x.loaded? = none := by
  cases h with
  | may h => exact h.loaded?_eq_none
  | lists hq found => rfl

/-- The calls by which a resource comes to hand: none if it has been found before, or else
a load that finds it now. -/
inductive Obtains (g : Gate) : Option Resource → List Exchange → Resource → Prop
  | kept (r : Resource) : Obtains g (some r) [] r
  | loaded (r : Resource) : Obtains g none [.load g.target g.member.org (.ok r)] r

/-- The resource at hand was found before or is found now. -/
theorem Obtains.or_eq_some {g : Gate} {before : Option Resource} {first : List Exchange}
    {r : Resource} (h : g.Obtains before first r) :
    before.or (first.filterMap Exchange.loaded?).head? = some r := by
  cases h <;> rfl

/-- All that an inquiry can have come to, by the resource that was found before it came. -/
inductive Course (g : Gate) (before : Option Resource) : Inquiry → Prop
  | plain {q : Question} (hq : q.needsResource g.target = false) {reply : Reply}
    (h : q.plainReply? = some reply) : Course g before ⟨q, [], .answered (.ok reply)⟩
  | creating {q : Question} (hq : q.needsResource g.target = false)
    (hplain : q.plainReply? = none) {x : Exchange} {verdict : Except Failure Bool}
    (h : x.Decides g.member creation verdict) :
    Course g before ⟨q, [x], .answered (verdict.map .verdict)⟩
  | failed {q : Question} (hq : q.needsResource g.target = true) (hb : before = none)
    (e : Failure) :
    Course g before ⟨q, [.load g.target g.member.org (.error e)], .answered (.error e)⟩
  | holding {q : Question} (hq : q.needsResource g.target = true) {first : List Exchange}
    {r : Resource} (hr : g.Obtains before first r) : Course g before ⟨q, first, .holding r⟩
  | concluded {q : Question} (hq : q.needsResource g.target = true) {first : List Exchange}
    {r : Resource} (hr : g.Obtains before first r) {last : Exchange}
    {reply : Except Failure Reply} (h : g.Concludes r q last reply) :
    Course g before ⟨q, first ++ [last], .answered reply⟩

/-! ## The two parts of a question -/

section
variable (c : Collaborators σ) (g : Gate)

/-- A decision on a requirement takes one call. -/
theorem run_verdict (r : Requirement) (st : σ) (calls : List Exchange) :
    ∃ x verdict, x.Decides g.member r verdict ∧
      ((g.verdict c.backend r).run (st, calls)).1 = verdict.map .verdict ∧
      ((g.verdict c.backend r).run (st, calls)).2.2 = calls ++ [x] := by
  cases he : c.evaluator with
  | own decide =>
    refine ⟨_, ((decide g.member r).run st).1, .own _, ?_⟩
    simp only [verdict, Collaborators.backend, he, StateT.run_bind]
    rw [Collaborators.run_noting]
    rcases ((decide g.member r).run st).1 with _ | _ <;> exact ⟨rfl, rfl⟩
  | stored permissions =>
    refine ⟨_, _, .stored ((permissions g.member).run st).1, ?_⟩
    simp only [verdict, Collaborators.backend, he, StateT.run_bind]
    rw [Collaborators.run_noting]
    rcases ((permissions g.member).run st).1 with _ | _ <;> exact ⟨rfl, rfl⟩

/-- A listing takes one call. -/
theorem run_listing (r : Resource) (st : σ) (calls : List Exchange) :
    ∃ found, ((g.listing c.backend r).run (st, calls)).1 = g.lines r found ∧
      ((g.listing c.backend r).run (st, calls)).2.2 =
        calls ++ [.list r.org (g.listScope r) found] := by
  refine ⟨((c.list r.org (g.listScope r)).run st).1, ?_⟩
  simp only [listing, Collaborators.backend, StateT.run_bind]
  rw [Collaborators.run_noting]
  simp only [listScope]
  rcases ((c.list r.org _).run st).1 with _ | _ <;> exact ⟨rfl, rfl⟩

/-- A question about a resource at hand takes one call. -/
theorem run_answerOn (r : Resource) {q : Question} (hq : q.needsResource g.target = true)
    (st : σ) (calls : List Exchange) :
    ∃ x reply, g.Concludes r q x reply ∧
      ((g.answerOn c.backend r q).run (st, calls)).1 = reply ∧
      ((g.answerOn c.backend r q).run (st, calls)).2.2 = calls ++ [x] := by
  obtain ⟨found, hreply, hcalls⟩ := g.run_listing c r st calls
  cases q with
  | may right =>
    obtain ⟨x, verdict, hx, hreply, hcalls⟩ := g.run_verdict c (right.requirement r) st calls
    exact ⟨x, _, .may hx, hreply, hcalls⟩
  | accessList => exact ⟨_, _, .lists (.inl rfl) found, hreply, hcalls⟩
  | distinctAccessList => exact ⟨_, _, .lists (.inr rfl) found, hreply, hcalls⟩
  | mayCreate | hiddenRules | reaches _ | mayReplace _ _ => simp [Question.needsResource] at hq

variable {g}

/-- A question for which nobody is called has its plain reply. -/
theorem answerFree_of_plainReply? {b : Backend σ} {q : Question} {reply : Reply}
    (h : q.plainReply? = some reply) : g.answerFree b q = pure (.ok reply) := by
  cases q <;> cases h <;> rfl

/-- Any other question that is about no resource is a question about creation. -/
theorem answerFree_of_plainReply?_eq_none {b : Backend σ} {q : Question}
    (h : q.plainReply? = none) : g.answerFree b q = g.verdict b creation := by
  cases q <;> first | rfl | cases h

variable (g)

/-- What a gate answers about a resource at hand does not depend on what it keeps. -/
theorem answerOn_keeping (b : Backend σ) (kept : Option Resource) (r : Resource) (q : Question) :
    ({ g with kept := kept } : Gate).answerOn b r q = g.answerOn b r q := by
  cases q <;> rfl

/-- What a gate answers without a resource does not depend on what it keeps. -/
theorem answerFree_keeping (b : Backend σ) (kept : Option Resource) (q : Question) :
    ({ g with kept := kept } : Gate).answerFree b q = g.answerFree b q := by
  cases q <;> rfl

/-- The first part of a question takes one of the courses, and the gate keeps what it loads
unless it keeps something already. -/
theorem course_enter (kept : Option Resource) (q : Question) (st : σ) :
    let outcome := (({ g with kept := kept } : Gate).enter c.backend q).run (st, [])
    let x : Inquiry := ⟨q, outcome.2.2, outcome.1.1⟩
    g.Course kept x ∧ outcome.1.2 = { g with kept := kept.or x.found.head? } := by
  intro outcome x
  cases hq : q.needsResource g.target with
  | false =>
    have hrun : outcome = _ := run_enter_free (g := { g with kept := kept }) hq (st, [])
    rw [answerFree_keeping] at hrun
    cases hplain : q.plainReply? with
    | some reply =>
      rw [answerFree_of_plainReply? hplain, StateT.run_pure] at hrun
      simp only [x, hrun]
      exact ⟨.plain hq hplain, by cases kept <;> rfl⟩
    | none =>
      obtain ⟨y, verdict, hy, hreply, hcalls⟩ := g.run_verdict c creation st []
      rw [answerFree_of_plainReply?_eq_none hplain] at hrun
      simp only [x, hrun, hreply, hcalls]
      exact ⟨.creating hq hplain hy, by simp [Inquiry.found, hy.loaded?_eq_none]⟩
  | true =>
    cases kept with
    | some r =>
      have hrun : outcome = _ := run_enter_kept (g := { g with kept := some r }) hq rfl (st, [])
      simp only [x, hrun]
      exact ⟨.holding hq (.kept r), rfl⟩
    | none =>
      -- the load is made, and it decides between a resource to keep and an answer
      rcases hl : (c.load g.target g.member.org).run st with ⟨e | r, st'⟩
      · have hload : (c.backend.load g.target g.member.org).run (st, []) =
            (.error e, (st', [.load g.target g.member.org (.error e)])) := by
          simp only [Collaborators.backend, Collaborators.run_noting, hl, List.nil_append]
        have hrun : outcome = _ := run_enter_failed (g := { g with kept := none }) hq rfl hload
        simp only [x, hrun]
        exact ⟨.failed hq rfl e, rfl⟩
      · have hload : (c.backend.load g.target g.member.org).run (st, []) =
            (.ok r, (st', [.load g.target g.member.org (.ok r)])) := by
          simp only [Collaborators.backend, Collaborators.run_noting, hl, List.nil_append]
        have hrun : outcome = _ := run_enter_load (g := { g with kept := none }) hq rfl hload
        simp only [x, hrun]
        exact ⟨.holding hq (.loaded r), rfl⟩

/-- The second part of a question ends its course and loads nothing. -/
theorem course_finish (kept : Option Resource) {before : Option Resource} {x : Inquiry}
    (hx : g.Course before x) (st : σ) :
    let outcome := (({ g with kept := kept } : Gate).finish c.backend x.question x.progress).run
      (st, x.calls)
    let x' : Inquiry := ⟨x.question, outcome.2.2, .answered outcome.1⟩
    g.Course before x' ∧ x'.found = x.found := by
  intro outcome x'
  cases hx with
  | plain hq h => exact ⟨.plain hq h, rfl⟩
  | creating hq hplain h => exact ⟨.creating hq hplain h, rfl⟩
  | failed hq hb e => exact ⟨.failed hq hb e, rfl⟩
  | concluded hq hr h => exact ⟨.concluded hq hr h, rfl⟩
  | @holding q hq first r hr =>
    obtain ⟨last, reply, h, hreply, hcalls⟩ := g.run_answerOn c r hq st first
    simp only [x', outcome, finish, answerOn_keeping, hreply, hcalls]
    refine ⟨.concluded hq hr h, ?_⟩
    simp [Inquiry.found, h.loaded?_eq_none]

end

end Gate

/-! ## What all the inquiries have come to -/

/-- What several inquiries have loaded. -/
def foundBy (inquiries : List Inquiry) : List Resource :=
  inquiries.flatMap Inquiry.found

theorem foundBy_append (inquiries others : List Inquiry) :
    foundBy (inquiries ++ others) = foundBy inquiries ++ foundBy others :=
  List.flatMap_append

theorem foundBy_concat (inquiries : List Inquiry) (x : Inquiry) :
    foundBy (inquiries ++ [x]) = foundBy inquiries ++ x.found := by
  simp [foundBy]

/-- An inquiry can be replaced by one that has loaded the same. -/
theorem foundBy_set {inquiries : List Inquiry} {i : Nat} {x x' : Inquiry}
    (hx : inquiries[i]? = some x) (h : x'.found = x.found) :
    foundBy (inquiries.set i x') = foundBy inquiries := by
  obtain ⟨hi, rfl⟩ := List.getElem?_eq_some_iff.1 hx
  have hmap : (inquiries.map Inquiry.found).set i inquiries[i].found =
      inquiries.map Inquiry.found := by
    rw [← List.map_set, List.set_getElem_self]
  rw [foundBy, foundBy, List.flatMap_def, List.flatMap_def, List.map_set, h, hmap]

/-- At most one resource is found before an inquiry and by it. -/
theorem Gate.Course.length_le_one {g : Gate} {before : List Resource} {x : Inquiry}
    (hx : g.Course before.head? x) (hbefore : before.length ≤ 1) :
    (before ++ x.found).length ≤ 1 := by
  have hobtains : ∀ {first r}, g.Obtains before.head? first r →
      (before ++ first.filterMap Exchange.loaded?).length ≤ 1 := by
    intro first r hr
    generalize hhead : before.head? = kept at hr
    cases hr with
    | kept r => simpa using hbefore
    | loaded r => simp [List.head?_eq_none_iff.1 hhead, Exchange.loaded?]
  cases hx with
  | plain hq h => simpa [Inquiry.found] using hbefore
  | creating hq hplain h => simpa [Inquiry.found, h.loaded?_eq_none] using hbefore
  | failed hq hb e => exact (List.append_nil before).symm ▸ hbefore
  | holding hq hr => exact hobtains hr
  | concluded hq hr h => simpa [Inquiry.found, h.loaded?_eq_none] using hobtains hr

/-- Every inquiry has taken one of the courses, by what the inquiries before it have
loaded. -/
def OnCourse (g : Gate) (inquiries : List Inquiry) : Prop :=
  ∀ i x, inquiries[i]? = some x → g.Course (foundBy (inquiries.take i)).head? x

section
variable {g : Gate} {inquiries : List Inquiry}

theorem OnCourse.concat (h : OnCourse g inquiries) {x : Inquiry}
    (hx : g.Course (foundBy inquiries).head? x) : OnCourse g (inquiries ++ [x]) := by
  intro i y hy
  rcases Nat.lt_trichotomy i inquiries.length with hi | rfl | hi
  · rw [List.getElem?_append_left hi] at hy
    rw [List.take_append_of_le_length (Nat.le_of_lt hi)]
    exact h i y hy
  · rw [List.getElem?_concat_length, Option.some.injEq] at hy
    rw [List.take_left, ← hy]
    exact hx
  · have hlen : (inquiries ++ [x]).length ≤ i := by
      rw [List.length_append, List.length_singleton]
      exact hi
    rw [List.getElem?_eq_none hlen] at hy
    cases hy

/-- One inquiry can take its course further if it loads nothing more. -/
theorem OnCourse.set (h : OnCourse g inquiries) {i : Nat} {x x' : Inquiry}
    (hi : inquiries[i]? = some x) (hfound : x'.found = x.found)
    (hx' : g.Course (foundBy (inquiries.take i)).head? x') :
    OnCourse g (inquiries.set i x') := by
  intro j y hy
  have hbefore : foundBy ((inquiries.set i x').take j) = foundBy (inquiries.take j) := by
    rw [List.take_set]
    rcases Nat.lt_or_ge i j with hij | hij
    · exact foundBy_set (by rw [List.getElem?_take_of_lt hij, hi]) hfound
    · rw [List.set_eq_of_length_le (by simp; omega)]
  rw [hbefore]
  by_cases hij : i = j
  · subst hij
    obtain ⟨hlt, -⟩ := List.getElem?_eq_some_iff.1 hi
    rw [List.getElem?_set_self hlt, Option.some.injEq] at hy
    exact hy ▸ hx'
  · rw [List.getElem?_set_ne hij] at hy
    exact h j y hy

end

namespace Desk

variable {g : Gate}

/-- All inquiries are on their courses, they have found at most one resource in all, and
this one the gate keeps. -/
structure Sound (g : Gate) (d : Desk σ) : Prop where
  gate : d.gate = { g with kept := (foundBy d.inquiries).head? }
  once : (foundBy d.inquiries).length ≤ 1
  course : OnCourse g d.inquiries

/-- Before any inquiry nothing is found, and the gate keeps nothing. -/
theorem sound_start (hg : g.kept = none) (st : σ) : Sound g ⟨g, st, []⟩ where
  gate := by cases g; cases hg; rfl
  once := Nat.zero_le 1
  course := by simp [OnCourse]

/-- A move leaves every inquiry on its course. -/
theorem sound_step (c : Collaborators σ) {d : Desk σ} (hd : d.Sound g) (move : Move) :
    (d.step c move).Sound g := by
  cases move with
  | come q =>
    obtain ⟨hcourse, hgate⟩ := g.course_enter c (foundBy d.inquiries).head? q d.state
    rw [← hd.gate] at hcourse hgate
    refine ⟨?_, ?_, hd.course.concat hcourse⟩
    · rw [step, foundBy_concat, List.head?_append]
      exact hgate
    · rw [step, foundBy_concat]
      exact hcourse.length_le_one hd.once
  | goOn number =>
    rw [step]
    split
    · exact hd
    · next x hx =>
      obtain ⟨hcourse, hfound⟩ := g.course_finish c (foundBy d.inquiries).head?
        (hd.course number x hx) d.state
      rw [← hd.gate] at hcourse hfound
      refine ⟨?_, ?_, hd.course.set hx hfound hcourse⟩
      · rw [foundBy_set hx hfound]
        exact hd.gate
      · rw [foundBy_set hx hfound]
        exact hd.once

/-- Every inquiry has taken one of the courses after any moves. -/
theorem sound_run (c : Collaborators σ) {d : Desk σ} (hd : d.Sound g) (moves : List Move) :
    (d.run c moves).Sound g := by
  induction moves generalizing d with
  | nil => exact hd
  | cons move rest ih => exact ih (sound_step c hd move)

end Desk

end DashboardAccess
