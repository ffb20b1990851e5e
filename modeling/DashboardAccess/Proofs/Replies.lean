/-
# Replies of a gate

What a gate replies depends on the store only through the resource that it goes by, which
it keeps or else loads, the requirements that are decided for its member and the lines of
the access list.

* `fetch_eq_ok_iff`, `fetch_eq_error` : what is loaded;
* `resourceFor` : the resource that a gate goes by;
* `replyOn`, `replyFree` : the replies about a resource, and all others;
* `reply_of_needsResource_eq_true`, `reply_of_needsResource_eq_false` : which of them a
  gate gives;
* `reply_congr` : stores and gates that agree on all this give the same replies.
-/
import DashboardAccess.Store.Backend
import DashboardAccess.Store.History

namespace DashboardAccess

namespace Store

/-! ## Loading -/

/-- What is loaded is the stored resource with the id in the organization. -/
theorem fetch_eq_ok_iff {s : Store} (hs : s.WellFormed) {id org : Int} {r : Resource} :
    s.fetch id org = .ok r ↔ r ∈ s.resources ∧ r.org = org ∧ r.id = id := by
  have hfind : s.fetch id org = .ok r ↔
      Ascending.find? Resource.key ⟨org, id⟩ s.resources = some r := by
    unfold fetch
    cases Ascending.find? Resource.key ⟨org, id⟩ s.resources <;> simp
  rw [hfind, Ascending.find?_eq_some_iff hs.resources]
  simp [Resource.key]

/-- Where no resource with the id is stored in the organization, loading fails. -/
theorem fetch_eq_error {s : Store} {id org : Int}
    (h : ∀ r ∈ s.resources, r.org = org → r.id ≠ id) :
    s.fetch id org = .error (.noResource id org) := by
  have hnone : Ascending.find? Resource.key ⟨org, id⟩ s.resources = none := by
    refine List.find?_eq_none.2 fun r hr hk => ?_
    obtain ⟨horg, hid⟩ : r.org = org ∧ r.id = id := by simpa [Resource.key] using hk
    exact h r hr horg hid
  rw [fetch, hnone]

/-- What is loaded has the organization and the id that it is loaded for. -/
theorem key_of_fetch {s : Store} {id org : Int} {r : Resource} (h : s.fetch id org = .ok r) :
    r.key = ⟨org, id⟩ := by
  unfold fetch at h
  cases hf : Ascending.find? Resource.key ⟨org, id⟩ s.resources with
  | none =>
    rw [hf] at h
    cases h
  | some r' =>
    rw [hf] at h
    cases h
    simpa using List.find?_some hf

/-- What is loaded belongs to the organization that it is loaded for. -/
theorem org_of_fetch {s : Store} {id org : Int} {r : Resource} (h : s.fetch id org = .ok r) :
    r.org = org :=
  congrArg ResourceKey.org (key_of_fetch h)

/-! ## Replies -/

/-- Every right on a resource that is not about to be made is about the resource. -/
theorem needsResource_may {target : Int} (h : target ≠ 0) (right : Right) :
    (Question.may right).needsResource target = true := by
  cases right <;> simp [Question.needsResource, h]

/-- The resource that a gate goes by: the one that it keeps or else the stored one. -/
def resourceFor (s : Store) (g : Gate) : Except Failure Resource :=
  match g.kept with
  | some r => .ok r
  | none => s.fetch g.target g.member.org

/-- Over stores with the same resources a gate goes by the same one. -/
theorem resourceFor_congr {s t : Store} (h : s.resources = t.resources) (g : Gate) :
    s.resourceFor g = t.resourceFor g := by
  simp only [resourceFor, fetch, h]

/-- What a gate replies about a resource: whether a right on it is granted, or its access
list. -/
def replyOn (s : Store) (g : Gate) (r : Resource) : Question → Reply
  | .may right => .verdict (s.decides g.member (right.requirement r))
  | _ =>
    let table := g.tables.forKind r.kind
    .entries
      (((s.grantsOn r.org (Scope.ofResource table.kind (toString r.id))).filter
        Grant.isManaged).map (AccessEntry.ofGrant r g.root table g.levels))

/-- What is replied to a member if it is not about a resource: at most a decision on making
one. -/
def replyFree (s : Store) (m : Member) : Question → Reply
  | .hiddenRules => .rules []
  | .reaches _ => .verdict false
  | .mayReplace _ _ => .verdict true
  | _ => .verdict (s.decides m creation)

/-- Members who may make a new resource alike get the same replies to all questions that are
not about a resource. -/
theorem replyFree_congr {s t : Store} {m n : Member}
    (h : s.decides m creation = t.decides n creation) (q : Question) :
    s.replyFree m q = t.replyFree n q := by
  cases q <;> simp only [replyFree, h]

/-- The reply about a stored resource by a gate that has loaded nothing yet. -/
theorem reply_of_fetch_eq_ok {s : Store} {g : Gate} {q : Question} {r : Resource}
    (hg : g.kept = none) (hq : q.needsResource g.target = true)
    (hf : s.fetch g.target g.member.org = .ok r) : s.reply g q = .ok (s.replyOn g r q) := by
  have hl : (s.backend.load g.target g.member.org).run [] = (.ok r, []) := by
    simp only [backend, hf]
    rfl
  rw [reply, Gate.run_ask_load hq hg hl]
  cases q <;> rfl

/-- To a question about a resource every gate replies about the one that it goes by. -/
theorem reply_of_needsResource_eq_true {s : Store} {g : Gate} {q : Question}
    (hq : q.needsResource g.target = true) :
    s.reply g q = (s.resourceFor g).map fun r => s.replyOn g r q := by
  rw [resourceFor]
  cases hg : g.kept with
  | some r =>
    rw [reply, Gate.run_ask_kept hq hg]
    cases q <;> rfl
  | none =>
    cases hf : s.fetch g.target g.member.org with
    | error e => exact reply_of_fetch_eq_error hg hq hf
    | ok r => exact reply_of_fetch_eq_ok hg hq hf

/-- The reply to a question that is not about a resource. -/
theorem reply_of_needsResource_eq_false {s : Store} {g : Gate} {q : Question}
    (hq : q.needsResource g.target = false) : s.reply g q = .ok (s.replyFree g.member q) := by
  rw [reply, Gate.run_ask_free hq]
  cases q <;> rfl

/-- Two gates over two stores give the same reply if they are for the same id, go by the
same resource, reply the same about it and agree on who may make a new one. -/
theorem reply_congr {s t : Store} {g h : Gate} {q : Question} (htarget : g.target = h.target)
    (hfor : s.resourceFor g = t.resourceFor h)
    (hon : ∀ r, s.resourceFor g = .ok r → q.needsResource g.target = true →
      s.replyOn g r q = t.replyOn h r q)
    (hfree : q.needsResource g.target = false →
      s.replyFree g.member q = t.replyFree h.member q) : s.reply g q = t.reply h q := by
  cases hq : q.needsResource g.target with
  | false =>
    rw [reply_of_needsResource_eq_false hq, reply_of_needsResource_eq_false (htarget ▸ hq),
      hfree hq]
  | true =>
    rw [reply_of_needsResource_eq_true hq, reply_of_needsResource_eq_true (htarget ▸ hq),
      ← hfor]
    cases hr : s.resourceFor g with
    | error e => rfl
    | ok r => exact congrArg Except.ok (hon r hr hq)

end Store

end DashboardAccess
