/-
# Failing collaborators

Loads, listings, decisions and the permissions of members may all fail, at every call.  A
gate reports such a failure and calls nobody after it, and what it answers without a failure
is what it was told.

* `failure?` : the failure of a call;
* `required?` : what has to hold for an answer of yes;
* `Honest` : an answer says what the calls for it have come to;
* `honest_of_answered` : every answer of a gate is honest, whatever fails and when.
-/
import DashboardAccess.Proofs.Courses

namespace DashboardAccess

variable {σ : Type}

/-! ## Failures of calls -/

namespace Exchange

/-- The failure of a call. -/
def failure? : Exchange → Option Failure
  | .load _ _ (.error e) => some e
  | .list _ _ (.error e) => some e
  | .permissions _ (.error e) => some e
  | .decide _ _ (.error e) => some e
  | _ => none

/-- A decision fails with the call that it comes from. -/
theorem Decides.failure?_eq_some_iff {m : Member} {r : Requirement} {x : Exchange}
    {verdict : Except Failure Bool} (h : x.Decides m r verdict) (e : Failure) :
    x.failure? = some e ↔ verdict = .error e := by
  cases h with
  | own verdict => cases verdict <;> simp [failure?]
  | stored found => cases found <;> simp [failure?, Except.map]

end Exchange

/-! ## Honest answers -/

namespace Gate

variable {g : Gate}

/-- What has to hold for a yes to a question, by the resource that the gate keeps. -/
def required? (g : Gate) (kept : Option Resource) : Question → Option Requirement
  | .mayCreate => some creation
  | .may right =>
    if (Question.may right).needsResource g.target then kept.map right.requirement
    else some creation
  | _ => none

/-- A question about no resource for which somebody is called is about creation. -/
theorem required?_of_plainReply? {kept : Option Resource} {q : Question}
    (hq : q.needsResource g.target = false) (hplain : q.plainReply? = none) :
    g.required? kept q = some creation := by
  cases q with
  | mayCreate => rfl
  | may right => simp [required?, hq]
  | accessList | distinctAccessList => cases hq
  | hiddenRules | reaches _ | mayReplace _ _ => cases hplain

/-- An answer says what the calls for it have come to.  The resource that the gate keeps is
the one that the calls are about. -/
structure Honest (g : Gate) (kept : Option Resource) (x : Inquiry)
    (reply : Except Failure Reply) : Prop where
  /-- The answer is a failure if and only if a call has failed. -/
  fails_iff : (∃ e, reply = .error e) ↔ ∃ y ∈ x.calls, ∃ e, y.failure? = some e
  /-- A call that fails is the last one. -/
  stops : ∀ front y back e, x.calls = front ++ y :: back → y.failure? = some e → back = []
  /-- A listing that fails is reported with the scope of the resource, and every other
  failure as it is. -/
  reports : ∀ y ∈ x.calls, ∀ e, y.failure? = some e →
    (∃ r found, kept = some r ∧ y = .list r.org (g.listScope r) found ∧
      reply = .error (.unlisted (g.listScope r) e)) ∨
    ((∀ org scope found, y ≠ .list org scope found) ∧ reply = .error e)
  /-- An answer about a right is the one decision on what it requires. -/
  decides : (x.question = .mayCreate ∨ ∃ right, x.question = .may right) →
    ∀ answer, reply = .ok answer →
      ∃ front y required granted, x.calls = front ++ [y] ∧
        (∀ z ∈ front, ∃ id org found, z = .load id org found) ∧
        g.required? kept x.question = some required ∧
        y.Decides g.member required (.ok granted) ∧ answer = .verdict granted

/-- An answer without calls is honest if it is no failure and decides nothing. -/
theorem Honest.of_nil {kept : Option Resource} {x : Inquiry} {answer : Reply}
    (hcalls : x.calls = []) (hq : x.question ≠ .mayCreate ∧ ∀ right, x.question ≠ .may right) :
    g.Honest kept x (.ok answer) where
  fails_iff := by simp [hcalls]
  stops := by simp [hcalls]
  reports := by simp [hcalls]
  decides := by
    rintro (h | ⟨right, h⟩)
    · exact absurd h hq.1
    · exact absurd h (hq.2 right)

/-- After loads that have found something, only the last call can fail, and it is followed by
none. -/
theorem fails_concat {front : List Exchange} {last : Exchange}
    (hfront : ∀ z ∈ front, ∃ id org r, z = .load id org (.ok r)) {y : Exchange} {e : Failure}
    (hy : y.failure? = some e) :
    (y ∈ front ++ [last] → y = last) ∧
      ∀ before after, front ++ [last] = before ++ y :: after → after = [] := by
  have hmem : y ∉ front := by
    intro h
    obtain ⟨id, org, r, rfl⟩ := hfront y h
    cases hy
  constructor
  · intro h
    rw [List.mem_append, List.mem_singleton] at h
    exact h.resolve_left hmem
  · intro before after h
    rcases List.eq_nil_or_concat after with rfl | ⟨after, z, rfl⟩
    · rfl
    · -- the call would be one of the first ones
      have hsplit : front ++ [last] = (before ++ y :: after) ++ [z] := by simpa using h
      rw [(List.append_inj' hsplit rfl).1] at hmem
      simp at hmem

/-- An answer is honest if it comes from the last call and those before have loaded
something. -/
theorem Honest.of_concat {kept : Option Resource} {x : Inquiry} {reply : Except Failure Reply}
    {front : List Exchange} {last : Exchange} (hcalls : x.calls = front ++ [last])
    (hfront : ∀ z ∈ front, ∃ id org r, z = .load id org (.ok r))
    (hfails : (∃ e, reply = .error e) ↔ ∃ e, last.failure? = some e)
    (hreports : ∀ e, last.failure? = some e →
      (∃ r found, kept = some r ∧ last = .list r.org (g.listScope r) found ∧
        reply = .error (.unlisted (g.listScope r) e)) ∨
      ((∀ org scope found, last ≠ .list org scope found) ∧ reply = .error e))
    (hdecides : (x.question = .mayCreate ∨ ∃ right, x.question = .may right) →
      ∀ answer, reply = .ok answer →
        ∃ required granted, g.required? kept x.question = some required ∧
          last.Decides g.member required (.ok granted) ∧ answer = .verdict granted) :
    g.Honest kept x reply where
  fails_iff := by
    rw [hfails, hcalls]
    constructor
    · rintro ⟨e, he⟩
      exact ⟨last, List.mem_append_right _ (List.mem_singleton_self _), e, he⟩
    · rintro ⟨y, hy, e, he⟩
      exact ⟨e, (fails_concat hfront he).1 hy ▸ he⟩
  stops := fun before y after e h he => (fails_concat hfront he).2 before after (hcalls ▸ h)
  reports := fun y hy e he => by
    obtain rfl := (fails_concat hfront he).1 (hcalls ▸ hy)
    exact hreports e he
  decides := fun hq answer h => by
    obtain ⟨required, granted, hdecides⟩ := hdecides hq answer h
    refine ⟨front, last, required, granted, hcalls, fun z hz => ?_, hdecides⟩
    obtain ⟨id, org, r, rfl⟩ := hfront z hz
    exact ⟨id, org, _, rfl⟩

/-- An answer from a decision on what the question requires is honest. -/
theorem Honest.of_decides {kept : Option Resource} {x : Inquiry} {front : List Exchange}
    {last : Exchange} {required : Requirement} {verdict : Except Failure Bool}
    (hcalls : x.calls = front ++ [last])
    (hfront : ∀ z ∈ front, ∃ id org r, z = .load id org (.ok r))
    (hrequired : g.required? kept x.question = some required)
    (hlast : last.Decides g.member required verdict) :
    g.Honest kept x (verdict.map .verdict) := by
  have hfails : ∀ e, verdict.map Reply.verdict = .error e ↔ last.failure? = some e := by
    intro e
    rw [hlast.failure?_eq_some_iff]
    cases verdict <;> simp [Except.map]
  have hnoList : ∀ org scope found, last ≠ .list org scope found := by
    rintro org scope found rfl
    cases hlast
  refine .of_concat hcalls hfront (exists_congr hfails) ?_ ?_
  · exact fun e he => .inr ⟨hnoList, (hfails e).2 he⟩
  · intro hq answer h
    cases verdict with
    | error e => cases h
    | ok granted =>
      cases h
      exact ⟨required, granted, hrequired, hlast, rfl⟩

/-- An answer from a listing is honest. -/
theorem Honest.of_lists {kept : Option Resource} {x : Inquiry} {front : List Exchange}
    {r : Resource} {found : Except Failure (List Grant)}
    (hcalls : x.calls = front ++ [.list r.org (g.listScope r) found])
    (hfront : ∀ z ∈ front, ∃ id org r, z = .load id org (.ok r)) (hkept : kept = some r)
    (hq : x.question = .accessList ∨ x.question = .distinctAccessList) :
    g.Honest kept x (g.lines r found) := by
  refine .of_concat hcalls hfront ?_ ?_ ?_
  · cases found <;> simp [lines, Exchange.failure?]
  · intro e he
    cases found with
    | ok grants => cases he
    | error e =>
      cases he
      exact .inl ⟨r, _, hkept, rfl, rfl⟩
  · rintro (h | ⟨right, h⟩) <;> simp [h] at hq

/-- The calls by which a resource comes to hand are loads that find it. -/
theorem Obtains.eq_load {before : Option Resource} {first : List Exchange} {r : Resource}
    (h : g.Obtains before first r) : ∀ z ∈ first, ∃ id org r, z = .load id org (.ok r) := by
  cases h with
  | kept r => simp
  | loaded r => simp

/-- On every course an answer is honest. -/
theorem Course.honest {before kept : Option Resource} {x : Inquiry} (hx : g.Course before x)
    (hkept : ∀ r, before.or x.found.head? = some r → kept = some r)
    {reply : Except Failure Reply} (hreply : x.progress = .answered reply) :
    g.Honest kept x reply := by
  cases hx with
  | plain hq h =>
    cases hreply
    refine .of_nil rfl ⟨?_, fun right => ?_⟩
    · rintro rfl
      cases h
    · rintro rfl
      cases h
  | creating hq hplain h =>
    cases hreply
    exact .of_decides (List.nil_append _).symm (by simp) (required?_of_plainReply? hq hplain) h
  | failed hq hb e =>
    cases hreply
    refine .of_concat (List.nil_append _).symm (by simp) (by simp [Exchange.failure?]) ?_ ?_
    · intro e' he
      cases he
      exact .inr ⟨by simp, rfl⟩
    · intro hq answer h
      cases h
  | holding hq hr => cases hreply
  | @concluded _ hq _ r hr _ _ h =>
    cases hreply
    have hr' : kept = some r := hkept r (by
      rw [Inquiry.found, List.filterMap_append]
      simpa [h.loaded?_eq_none] using hr.or_eq_some)
    cases h with
    | may h =>
      refine .of_decides rfl hr.eq_load ?_ h
      simp [required?, hq, hr']
    | lists hlist found => exact .of_lists rfl hr.eq_load hr' hlist

end Gate

namespace Desk

variable {g : Gate}

/-- What an inquiry goes by is what the gate keeps in the end. -/
theorem Sound.kept_eq {d : Desk σ} (hd : d.Sound g) {i : Nat} {x : Inquiry}
    (hx : d.inquiries[i]? = some x) {r : Resource}
    (hr : (foundBy (d.inquiries.take i)).head?.or x.found.head? = some r) :
    d.gate.kept = some r := by
  have hsplit : d.inquiries = (d.inquiries.take i ++ [x]) ++ d.inquiries.drop (i + 1) := by
    rw [← Option.toList_some, ← hx, ← List.take_add_one, List.take_append_drop]
  have hfirst : (foundBy (d.inquiries.take i ++ [x])).head? = some r := by
    rw [foundBy_concat, List.head?_append, hr]
  rw [hd.gate]
  show (foundBy d.inquiries).head? = some r
  rw [hsplit, foundBy_append, List.head?_append, hfirst, Option.some_or]

/-- Whatever fails at a gate and when, every answer is honest: it is a failure if and only
if a call for it has failed, nobody is called after that one, and without a failure a
question about a right is answered by the decision on the one requirement.  A failure is
reported as it is, but for listings, where the answer names the scope of the resource. -/
theorem honest_of_answered (c : Collaborators σ) (hg : g.kept = none) (st : σ)
    (moves : List Move) :
    let d := (⟨g, st, []⟩ : Desk σ).run c moves
    ∀ x ∈ d.inquiries, ∀ reply, x.progress = .answered reply →
      g.Honest d.gate.kept x reply ∧
      ∀ org scope e, .list org scope (.error e) ∈ x.calls →
        ∃ r failure, d.gate.kept = some r ∧ org = r.org ∧ scope = g.listScope r ∧
          ((g.tables.forKind r.kind).kind = r.kind → scope = r.scope) ∧
          reply = .error failure ∧ failure.kind = .listing ∧
          failure.text = "ListingFailure Unable to list permissions on '" ++ scope ++ "': " ++
            e.text := by
  intro d x hmem reply hreply
  have hsound : d.Sound g := sound_run c (sound_start hg st) moves
  obtain ⟨i, hx⟩ := List.getElem?_of_mem hmem
  have hhonest := (hsound.course i x hx).honest (fun r => hsound.kept_eq hx) hreply
  refine ⟨hhonest, fun org scope e hlist => ?_⟩
  rcases hhonest.reports _ hlist e rfl with ⟨r, found, hkept, hcall, hfailure⟩ | ⟨hno, -⟩
  · cases hcall
    refine ⟨r, _, hkept, rfl, rfl, fun hkind => ?_, hfailure, rfl, rfl⟩
    rw [Gate.listScope, hkind]
    rfl
  · exact absurd rfl (hno org scope _)

/-- A gate that loads folder 7 is asked whether a viewer may see it, while the stored
permissions cannot be read, and who may, while the grants cannot be listed.  The answers are
these failures, the second one with the scope of the folder. -/
theorem honest_of_answered_offline :
    let ann : Member := { org := 1, user := 10, login := "ann", role := .viewer }
    let g : Gate := { member := ann, target := 7 }
    let ops : Resource := ⟨1, 7, "ops", "Ops", .folder⟩
    let offline : Failure := .reported .storage (some "Offline.")
    let unlisted : Failure := .unlisted (g.listScope ops) offline
    let c : Collaborators Unit :=
      { load := fun _ _ _ => (.ok ops, ())
        list := fun _ _ _ => (.error offline, ())
        evaluator := .stored fun _ _ => (.error offline, ()) }
    let moves : List Move := [.come (.may .view), .goOn 0, .come .accessList, .goOn 1]
    let d := (⟨g, (), []⟩ : Desk Unit).run c moves
    let first : Inquiry :=
      ⟨.may .view, [.load 7 1 (.ok ops), .permissions ann (.error offline)],
        .answered (.error offline)⟩
    let second : Inquiry :=
      ⟨.accessList, [.list 1 (g.listScope ops) (.error offline)], .answered (.error unlisted)⟩
    g.kept = none ∧ d.inquiries = [first, second] ∧
      g.Honest d.gate.kept first (.error offline) ∧
      g.Honest d.gate.kept second (.error unlisted) ∧
      unlisted.text = "ListingFailure Unable to list permissions on 'folders:id:7': " ++
        "StorageFailure Offline." := by
  intro ann g ops offline unlisted c moves d first second
  have hinquiries : d.inquiries = [first, second] := rfl
  have hhonest := honest_of_answered c (g := g) rfl () moves
  refine ⟨rfl, hinquiries, (hhonest first ?_ _ rfl).1, (hhonest second ?_ _ rfl).1, ?_⟩
  · exact hinquiries ▸ List.mem_cons_self
  · exact hinquiries ▸ List.mem_cons_of_mem first List.mem_cons_self
  · decide +kernel

end Desk

end DashboardAccess
