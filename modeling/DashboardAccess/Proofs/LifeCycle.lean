/-
# The life of an entry

Every write under a key without an entry makes a new one and hands out the next id.
An entry keeps this id and the time of its making until its key is erased, and each
further write only moves the time of its last write.  Two logs say all of this: the
keys under which entries have been made, and the keys that have been written, with the
times, in order.

* `LastAt` : the last time that a log has of a key;
* `Store.made`, `Store.writtenBy` : the two logs of a history;
* `Store.Recorded` : ids and times of all entries are those of the logs;
* `recorded_write`, `recorded_apply`, `recorded_after` : one write, one change, whole
  histories;
* `Store.LifeCycle`, `lifeCycle_after` : what entries keep and what listings show.
-/
import DashboardAccess.Proofs.Replacement
import DashboardAccess.Proofs.Writes
import Mathlib.Algebra.Group.Int.Defs
import Mathlib.Algebra.Group.Nat.Defs
import Mathlib.Data.List.Pairwise

namespace DashboardAccess

/-! ## Logs -/

/-- In a log of keys with times, the last time of a key is after `n` others. -/
structure LastAt (log : List (Nat × GrantKey)) (key : GrantKey) (n time : Nat) : Prop where
  getElem? : log[n]? = some (time, key)
  le_of_getElem? : ∀ i t, log[i]? = some (t, key) → i ≤ n

namespace LastAt

variable {log more : List (Nat × GrantKey)} {key : GrantKey} {n time : Nat}

theorem lt_length (h : LastAt log key n time) : n < log.length :=
  (List.getElem?_eq_some_iff.1 h.getElem?).1

/-- What is added to a log is the last of its key. -/
theorem append_self (log : List (Nat × GrantKey)) (key : GrantKey) (time : Nat) :
    LastAt (log ++ [(time, key)]) key log.length time where
  getElem? := List.getElem?_concat_length
  le_of_getElem? i t hi := by
    have hlt := (List.getElem?_eq_some_iff.1 hi).1
    rw [List.length_append, List.length_singleton] at hlt
    omega

/-- What is added for other keys does not matter. -/
theorem append (h : LastAt log key n time) (hk : key ∉ more.map (·.2)) :
    LastAt (log ++ more) key n time where
  getElem? := by
    rw [List.getElem?_append_left h.lt_length]
    exact h.getElem?
  le_of_getElem? i t hi := by
    by_cases hlt : i < log.length
    · rw [List.getElem?_append_left hlt] at hi
      exact h.le_of_getElem? i t hi
    · rw [List.getElem?_append_right (Nat.le_of_not_lt hlt)] at hi
      exact absurd (List.mem_map_of_mem (List.mem_of_getElem? hi)) hk

/-- A log has one last time of a key. -/
theorem unique {n' time' : Nat} (h : LastAt log key n time) (h' : LastAt log key n' time') :
    n = n' ∧ time = time' := by
  have hn : n = n' := Nat.le_antisymm (h'.le_of_getElem? n time h.getElem?)
    (h.le_of_getElem? n' time' h'.getElem?)
  subst hn
  have hsame := h.getElem?.symm.trans h'.getElem?
  rw [Option.some.injEq, Prod.mk.injEq] at hsame
  exact ⟨rfl, hsame.1⟩

/-- After as many others there is one key only. -/
theorem key_unique {key' : GrantKey} {time' : Nat} (h : LastAt log key n time)
    (h' : LastAt log key' n time') : key = key' := by
  have hsame := h.getElem?.symm.trans h'.getElem?
  rw [Option.some.injEq, Prod.mk.injEq] at hsame
  exact hsame.2

/-- If something is added for a key, the last of the key is among what is added. -/
theorem length_le (h : LastAt (log ++ more) key n time) (hk : key ∈ more.map (·.2)) :
    log.length ≤ n := by
  obtain ⟨⟨t, k⟩, hmem, hkey⟩ := List.mem_map.1 hk
  obtain rfl : k = key := hkey
  obtain ⟨i, hi⟩ := List.mem_iff_getElem?.1 hmem
  have hlast := h.le_of_getElem? (log.length + i) t (by
    rw [List.getElem?_append_right (Nat.le_add_right _ _), Nat.add_sub_cancel_left]
    exact hi)
  omega

end LastAt

/-- Elements of a log that are given by ascending positions follow each other in it. -/
theorem map_sublist_of_getElem? {α β : Type} (position : α → Nat) {value : α → β}
    {xs : List α} {log : List β} (start : Nat)
    (hget : ∀ x ∈ xs, start ≤ position x ∧ log[position x - start]? = some (value x))
    (hasc : xs.Pairwise fun a b => position a < position b) : (xs.map value).Sublist log := by
  induction log generalizing xs start with
  | nil =>
    cases xs with
    | nil => exact List.Sublist.refl _
    | cons x rest => exact absurd (hget x List.mem_cons_self).2 (by simp)
  | cons y log ih =>
    cases xs with
    | nil => exact List.nil_sublist _
    | cons x rest =>
      obtain ⟨hx, hrest⟩ := List.pairwise_cons.1 hasc
      have hle := (hget x List.mem_cons_self).1
      -- positions beyond the first element of the log are positions in the rest of it
      have hlater : ∀ z ∈ x :: rest, start < position z →
          start + 1 ≤ position z ∧ log[position z - (start + 1)]? = some (value z) := by
        intro z hz hlt
        have hgz := (hget z hz).2
        rw [show position z - start = position z - (start + 1) + 1 by omega,
          List.getElem?_cons_succ] at hgz
        exact ⟨hlt, hgz⟩
      by_cases hstart : position x = start
      · have hval := (hget x List.mem_cons_self).2
        rw [hstart, Nat.sub_self, List.getElem?_cons_zero, Option.some.injEq] at hval
        rw [List.map_cons, hval]
        refine List.Sublist.cons_cons _ (ih (start + 1) (fun z hz => ?_) hrest)
        exact hlater z (List.mem_cons_of_mem _ hz) (hstart ▸ hx z hz)
      · refine List.Sublist.cons _ (ih (start + 1) (fun z hz => hlater z hz ?_) hasc)
        rcases List.mem_cons.1 hz with rfl | hz
        · omega
        · have := hx z hz
          omega

/-! ## The logs of a history -/

/-- The keys under which a change makes new entries, in order. -/
def Change.makes (s : Store) (c : Change) : List GrantKey :=
  c.writes.filter fun key => (s.lookup key).isNone

namespace Store

/-- The keys under which a history makes new entries, each with its time, in order. -/
def made (s : Store) : List (Nat × Change) → List (Nat × GrantKey)
  | [] => []
  | (now, c) :: rest => (c.makes s).map (now, ·) ++ (c.apply now s).made rest

/-- The keys that a history writes under, each with its time, in order. -/
def writtenBy (history : List (Nat × Change)) : List (Nat × GrantKey) :=
  history.flatMap fun step => step.2.writes.map (step.1, ·)

/-- The entries made by a history that goes on from another. -/
theorem made_append (s : Store) (first second : List (Nat × Change)) :
    s.made (first ++ second) = s.made first ++ (s.after first).made second := by
  induction first generalizing s with
  | nil => rfl
  | cons step rest ih =>
    obtain ⟨now, c⟩ := step
    rw [List.cons_append, made, made, ih, List.append_assoc, after_cons]

/-- Entries are made by writing. -/
theorem made_sublist_writtenBy (s : Store) (history : List (Nat × Change)) :
    (s.made history).Sublist (writtenBy history) := by
  induction history generalizing s with
  | nil => exact List.Sublist.refl _
  | cons step rest ih =>
    obtain ⟨now, c⟩ := step
    rw [made, writtenBy, List.flatMap_cons]
    exact (List.filter_sublist.map _).append (ih _)

/-- If time does not run backwards, neither do the times of the writes. -/
theorem pairwise_writtenBy {history : List (Nat × Change)}
    (h : history.Pairwise fun a b => a.1 ≤ b.1) :
    (writtenBy history).Pairwise fun a b => a.1 ≤ b.1 := by
  refine List.pairwise_flatMap.2 ⟨fun step _ => ?_, h.imp fun {a b} hab => ?_⟩
  · exact List.pairwise_map.2 (List.pairwise_of_forall fun _ _ => Nat.le_refl _)
  · intro x hx y hy
    obtain ⟨_, -, rfl⟩ := List.mem_map.1 hx
    obtain ⟨_, -, rfl⟩ := List.mem_map.1 hy
    exact hab

/-- The times of the writes are times of the history. -/
theorem exists_step_of_mem_writtenBy {history : List (Nat × Change)} {time : Nat}
    {key : GrantKey} (h : (time, key) ∈ writtenBy history) : ∃ step ∈ history, step.1 = time := by
  obtain ⟨step, hstep, hmem⟩ := List.mem_flatMap.1 h
  obtain ⟨_, -, heq⟩ := List.mem_map.1 hmem
  exact ⟨step, hstep, congrArg Prod.fst heq⟩

/-! ## What entries tell of the logs -/

/-- The ids and times of all entries are those of the logs of what has been made and
written so far. -/
structure Recorded (s : Store) (made written : List (Nat × GrantKey)) : Prop where
  wellFormed : s.WellFormed
  next : s.nextId = made.length + 1
  made : ∀ e ∈ s.entries, ∃ n : Nat, e.grant.id = n + 1 ∧ LastAt made e.key n e.grant.created
  written : ∀ e ∈ s.entries, ∃ n, LastAt written e.key n e.grant.updated

/-- Nothing has been made or written yet. -/
theorem recorded_empty : Recorded empty [] [] where
  wellFormed := wellFormed_empty
  next := rfl
  made _ he := by cases he
  written _ he := by cases he

/-- A write is added to the log of writes and, if its key has no entry, to the log of what
is made. -/
theorem recorded_write {s : Store} {made written : List (Nat × GrantKey)}
    (h : s.Recorded made written) (now : Nat) (key : GrantKey)
    (revise : List String → List String) :
    (s.write now key revise).2.Recorded
      (made ++ ([key].filter fun key => (s.lookup key).isNone).map (now, ·))
      (written ++ [(now, key)]) := by
  have hmem := fun e => mem_write h.wellFormed now key revise (e := e)
  have hkey := key_write s now key revise
  have hwell := wellFormed_write h.wellFormed now key revise
  have hupdated : (s.write now key revise).1.updated = now := by
    unfold write
    cases s.lookup key <;> rfl
  have hwritten : ∀ e ∈ (s.write now key revise).2.entries,
      ∃ n, LastAt (written ++ [(now, key)]) e.key n e.grant.updated := by
    intro e he
    rcases (hmem e).1 he with rfl | ⟨he, hne⟩
    · rw [hkey, hupdated]
      exact ⟨_, LastAt.append_self written key now⟩
    · obtain ⟨n, hlast⟩ := h.written e he
      exact ⟨n, hlast.append (by simpa using hne)⟩
  -- only a key without an entry is added to what is made
  cases hl : s.lookup key with
  | some old =>
    have hnone : [key].filter (fun key => (s.lookup key).isNone) = [] := by simp [hl]
    rw [hnone, List.map_nil, List.append_nil]
    have hgrant : (s.write now key revise).1 =
        { old.grant with actions := revise old.grant.actions, updated := now } := by
      rw [write, hl]
    have hnext : (s.write now key revise).2.nextId = s.nextId := by rw [write, hl]
    refine ⟨hwell, hnext ▸ h.next, fun e he => ?_, hwritten⟩
    rcases (hmem e).1 he with rfl | ⟨he, -⟩
    · obtain ⟨n, hid, hlast⟩ := h.made old (List.mem_of_find?_eq_some hl)
      rw [hkey, hgrant, ← key_of_lookup hl]
      exact ⟨n, hid, hlast⟩
    · exact h.made e he
  | none =>
    have hself : [key].filter (fun key => (s.lookup key).isNone) = [key] := by simp [hl]
    rw [hself, List.map_singleton]
    have hgrant : (s.write now key revise).1 =
        ⟨s.nextId, key.role, revise [], key.scope, key.subject, now, now⟩ := by
      rw [write, hl]
    have hnext : (s.write now key revise).2.nextId = s.nextId + 1 := by rw [write, hl]
    refine ⟨hwell, ?_, fun e he => ?_, hwritten⟩
    · rw [hnext, h.next, List.length_append, List.length_singleton, Int.natCast_add,
        Int.natCast_one]
    · rcases (hmem e).1 he with rfl | ⟨he, hne⟩
      · rw [hkey, hgrant]
        exact ⟨made.length, h.next, LastAt.append_self made key now⟩
      · obtain ⟨n, hid, hlast⟩ := h.made e he
        exact ⟨n, hid, hlast.append (by simpa using hne)⟩

/-- Writes under different keys are added to the logs one after the other. -/
theorem recorded_writeAll {s : Store} {made written : List (Nat × GrantKey)}
    (h : s.Recorded made written) (now : Nat) {keys : List GrantKey} (hkeys : keys.Nodup)
    (revise : GrantKey → List String → List String) :
    (s.writeAll now keys revise).Recorded
      (made ++ (keys.filter fun key => (s.lookup key).isNone).map (now, ·))
      (written ++ keys.map (now, ·)) := by
  induction keys generalizing s made written with
  | nil => simpa using h
  | cons key rest ih =>
    obtain ⟨hkey, hrest⟩ := List.nodup_cons.1 hkeys
    have hnext := ih (recorded_write h now key (revise key)) hrest
    -- the first write leads no other key anywhere else
    have hsame : (rest.filter fun k =>
        ((s.write now key (revise key)).2.lookup k).isNone) =
        rest.filter fun k => (s.lookup k).isNone := by
      refine List.filter_congr fun k hk => ?_
      rw [lookup_write h.wellFormed, if_neg fun heq : key = k => hkey (heq ▸ hk)]
    rw [hsame, List.append_assoc, List.append_assoc, ← List.map_append, ← List.filter_append] at hnext
    exact hnext

/-- Erasing a key leaves the logs as they are. -/
theorem recorded_erase {s : Store} {made written : List (Nat × GrantKey)}
    (h : s.Recorded made written) (key : GrantKey) :
    Recorded { s with entries := Ascending.erase Entry.key key s.entries } made written where
  wellFormed := wellFormed_eraseEntry h.wellFormed key
  next := h.next
  made e he := h.made e (Ascending.mem_erase.1 he).1
  written e he := h.written e (Ascending.mem_erase.1 he).1

/-- A change adds what it makes and writes to the logs. -/
theorem recorded_apply {s : Store} {made written : List (Nat × GrantKey)}
    (h : s.Recorded made written) (now : Nat) (c : Change) :
    (c.apply now s).Recorded (made ++ (c.makes s).map (now, ·))
      (written ++ c.writes.map (now, ·)) := by
  rcases Change.apply_cases now s c with ⟨hnone, hentries, hnext⟩ | ⟨hnone, key, ht⟩ | ⟨revise, ht⟩
  · rw [Change.makes, hnone, List.filter_nil, List.map_nil, List.append_nil, List.append_nil]
    refine ⟨Change.wellFormed_apply h.wellFormed now c, hnext ▸ h.next, ?_, ?_⟩
    · rw [hentries]
      exact h.made
    · rw [hentries]
      exact h.written
  · rw [Change.makes, hnone, List.filter_nil, List.map_nil, List.append_nil, List.append_nil, ht]
    exact recorded_erase h key
  · rw [ht]
    exact recorded_writeAll h now c.nodup_writes revise

/-- A history adds what it makes and writes to the logs. -/
theorem recorded_after {s : Store} {made written : List (Nat × GrantKey)}
    (h : s.Recorded made written) (history : List (Nat × Change)) :
    (s.after history).Recorded (made ++ s.made history) (written ++ writtenBy history) := by
  induction history generalizing s made written with
  | nil => simpa [Store.made, writtenBy] using h
  | cons step rest ih =>
    obtain ⟨now, c⟩ := step
    have hrest := ih (recorded_apply h now c)
    rw [List.append_assoc, List.append_assoc] at hrest
    exact hrest

/-- The entries that a history leads to have the ids and times of its logs. -/
theorem recorded_history (history : List (Nat × Change)) :
    (empty.after history).Recorded (empty.made history) (writtenBy history) :=
  recorded_after recorded_empty history

/-! ## Keys that lose and gain an entry -/

/-- A change gives an entry only to keys that it writes under. -/
theorem mem_writes_of_lookup {s : Store} (h : s.WellFormed) (now : Nat) {c : Change}
    {key : GrantKey} (hnone : s.lookup key = none) (hsome : (c.apply now s).lookup key ≠ none) :
    key ∈ c.writes := by
  rcases Change.apply_cases now s c with ⟨-, hentries, -⟩ | ⟨-, k, ht⟩ | ⟨revise, ht⟩
  · rw [lookup, hentries] at hsome
    exact absurd hnone hsome
  · rw [ht, lookup, Ascending.find?_erase] at hsome
    split at hsome
    · exact absurd rfl hsome
    · exact absurd hnone hsome
  · by_contra hnot
    rw [ht, lookup_writeAll_of_not_mem h now revise hnot] at hsome
    exact hsome hnone

/-- A history that gives an entry to a key without one has made it. -/
theorem mem_made_of_lookup {s : Store} (h : s.WellFormed) {history : List (Nat × Change)}
    {key : GrantKey} {e : Entry} (hnone : s.lookup key = none)
    (hsome : (s.after history).lookup key = some e) : key ∈ (s.made history).map (·.2) := by
  induction history generalizing s with
  | nil =>
    rw [after_nil, hnone] at hsome
    cases hsome
  | cons step rest ih =>
    obtain ⟨now, c⟩ := step
    rw [made, List.map_append, List.mem_append]
    cases hl : (c.apply now s).lookup key with
    | none => exact .inr (ih (Change.wellFormed_apply h now c) hl hsome)
    | some e' =>
      have hwrites := mem_writes_of_lookup h now hnone (by rw [hl]; simp)
      refine .inl (List.mem_map.2 ⟨(now, key), List.mem_map_of_mem ?_, rfl⟩)
      exact List.mem_filter.2 ⟨hwrites, by rw [hnone]; rfl⟩

/-- A key under which a history makes an entry has none at some point of it. -/
theorem exists_lookup_eq_none {s : Store} {history : List (Nat × Change)} {key : GrantKey}
    (h : key ∈ (s.made history).map (·.2)) :
    ∃ first, first <+: history ∧ (s.after first).lookup key = none := by
  induction history generalizing s with
  | nil => cases h
  | cons step rest ih =>
    obtain ⟨now, c⟩ := step
    rw [made, List.map_append, List.mem_append] at h
    rcases h with h | h
    · obtain ⟨_, hmem, rfl⟩ := List.mem_map.1 h
      obtain ⟨k, hk, rfl⟩ := List.mem_map.1 hmem
      exact ⟨[], List.nil_prefix, by simpa using (List.mem_filter.1 hk).2⟩
    · obtain ⟨first, hfirst, hnone⟩ := ih h
      exact ⟨(now, c) :: first, List.cons_prefix_cons.2 ⟨rfl, hfirst⟩, hnone⟩

/-! ## Ids, times and listings -/

section
variable {s : Store} {made written : List (Nat × GrantKey)}

/-- Entries with the same id are the same. -/
theorem Recorded.eq_of_id_eq (h : s.Recorded made written) {a b : Entry} (ha : a ∈ s.entries)
    (hb : b ∈ s.entries) (hid : a.grant.id = b.grant.id) : a = b := by
  obtain ⟨n, hn, hlast⟩ := h.made a ha
  obtain ⟨n', hn', hlast'⟩ := h.made b hb
  obtain rfl : n = n' := by omega
  exact Ascending.eq_of_key_eq h.wellFormed.entries ha hb (hlast.key_unique hlast')

/-- No two entries have the same id. -/
theorem Recorded.pairwise_id_ne (h : s.Recorded made written) :
    s.entries.Pairwise fun a b => a.grant.id ≠ b.grant.id := by
  have hnodup : s.entries.Nodup := Ascending.nodup_of_isAscending h.wellFormed.entries
  exact hnodup.imp_of_mem fun ha hb hne hid => hne (h.eq_of_id_eq ha hb hid)

/-- All ids are below the next one. -/
theorem Recorded.id_lt_nextId (h : s.Recorded made written) {e : Entry} (he : e ∈ s.entries) :
    1 ≤ e.grant.id ∧ e.grant.id < s.nextId := by
  obtain ⟨n, hid, hlast⟩ := h.made e he
  have hlt := hlast.lt_length
  rw [h.next]
  omega

/-- Listings are in the strictly ascending order of the ids. -/
theorem Recorded.pairwise_grantsOn (h : s.Recorded made written) (org : Int) (scope : Scope) :
    (s.grantsOn org scope).Pairwise fun a b => a.id < b.id := by
  have hle := s.pairwise_id_le_grantsOn org scope
  have hnodup := nodup_grantsOn h.wellFormed org scope
  refine (hle.and hnodup).imp_of_mem fun {a b} ha hb hab => ?_
  have hne : a.id ≠ b.id := by
    intro hid
    have heq := h.eq_of_id_eq (mem_grantsOn.1 ha).1 (mem_grantsOn.1 hb).1 hid
    exact hab.2 (congrArg Entry.grant heq)
  exact Int.lt_iff_le_and_ne.2 ⟨hab.1, hne⟩

/-- Listings are in the order in which their grants have been made. -/
theorem Recorded.grantsOn_sublist (h : s.Recorded made written) (org : Int) (scope : Scope) :
    ((s.grantsOn org scope).map fun g => (g.created, Entry.key ⟨org, g⟩)).Sublist made := by
  -- a grant is found in the log after as many others as its id is above 1
  refine map_sublist_of_getElem? (fun g => (g.id - 1).toNat) 0 (fun g hg => ?_) ?_
  · obtain ⟨n, hid, hlast⟩ := h.made _ (mem_grantsOn.1 hg).1
    have hn : (g.id - 1).toNat = n := by
      have : g.id = n + 1 := hid
      omega
    rw [hn]
    exact ⟨Nat.zero_le n, hlast.getElem?⟩
  · refine (h.pairwise_grantsOn org scope).imp_of_mem fun {a b} ha _ hlt => ?_
    have hpos : 1 ≤ a.id := (h.id_lt_nextId (mem_grantsOn.1 ha).1).1
    show (a.id - 1).toNat < (b.id - 1).toNat
    omega

end

/-- An entry of a key that has had one all along has its id and time of making. -/
theorem id_eq_of_isSome {first second : List (Nat × Change)} {key : GrantKey} {old e : Entry}
    (hold : (empty.after first).lookup key = some old)
    (he : (empty.after (first ++ second)).lookup key = some e)
    (hall : ∀ more, more <+: second →
      ((empty.after (first ++ more)).lookup key).isSome = true) :
    e.grant.id = old.grant.id ∧ e.grant.created = old.grant.created := by
  obtain ⟨n, hid, hlast⟩ :=
    (recorded_history first).made old (List.mem_of_find?_eq_some hold)
  obtain ⟨n', hid', hlast'⟩ :=
    (recorded_history (first ++ second)).made e (List.mem_of_find?_eq_some he)
  rw [key_of_lookup hold] at hlast
  rw [key_of_lookup he, made_append] at hlast'
  -- nothing is made under the key from then on
  have hnot : key ∉ ((empty.after first).made second).map (·.2) := by
    intro hmem
    obtain ⟨more, hmore, hnone⟩ := exists_lookup_eq_none hmem
    have hsome := hall more hmore
    rw [after_append, hnone] at hsome
    cases hsome
  obtain ⟨rfl, hcreated⟩ := (hlast.append hnot).unique hlast'
  exact ⟨hid'.trans hid.symm, hcreated.symm⟩

/-- An entry of a key that has had none at some time has an id that was not handed out
before then. -/
theorem nextId_le_id {first second : List (Nat × Change)} {key : GrantKey} {e : Entry}
    (hnone : (empty.after first).lookup key = none)
    (he : (empty.after (first ++ second)).lookup key = some e) :
    (empty.after first).nextId ≤ e.grant.id := by
  have hfirst := recorded_history first
  obtain ⟨n, hid, hlast⟩ :=
    (recorded_history (first ++ second)).made e (List.mem_of_find?_eq_some he)
  rw [key_of_lookup he, made_append] at hlast
  rw [after_append] at he
  have hle := hlast.length_le (mem_made_of_lookup hfirst.wellFormed hnone he)
  rw [hfirst.next]
  omega

/-- The next id never goes down. -/
theorem nextId_le_after (first second : List (Nat × Change)) :
    (empty.after first).nextId ≤ (empty.after (first ++ second)).nextId := by
  rw [(recorded_history first).next, (recorded_history (first ++ second)).next, made_append,
    List.length_append]
  omega

/-- If time does not run backwards, an entry is made before it is last written, and this
before now. -/
theorem created_le_updated {history : List (Nat × Change)}
    (hmono : history.Pairwise fun a b => a.1 ≤ b.1) {e : Entry}
    (he : e ∈ (empty.after history).entries) :
    e.grant.created ≤ e.grant.updated ∧
      ∃ latest ∈ history.getLast?, e.grant.updated ≤ latest.1 := by
  obtain ⟨n, -, hmade⟩ := (recorded_history history).made e he
  obtain ⟨m, hwritten⟩ := (recorded_history history).written e he
  constructor
  · -- the making was a write, so it is not after the last write
    have hmem := (made_sublist_writtenBy empty history).mem (List.mem_of_getElem? hmade.getElem?)
    obtain ⟨i, hi⟩ := List.mem_iff_getElem?.1 hmem
    have him := hwritten.le_of_getElem? i _ hi
    rcases Nat.lt_or_eq_of_le him with hlt | rfl
    · obtain ⟨hil, hi⟩ := List.getElem?_eq_some_iff.1 hi
      obtain ⟨hml, hm⟩ := List.getElem?_eq_some_iff.1 hwritten.getElem?
      have hle := List.pairwise_iff_getElem.1 (pairwise_writtenBy hmono) i m hil hml hlt
      rw [hi, hm] at hle
      exact hle
    · have hsame := hi.symm.trans hwritten.getElem?
      rw [Option.some.injEq, Prod.mk.injEq] at hsame
      exact Nat.le_of_eq hsame.1
  · obtain ⟨step, hstep, htime⟩ :=
      exists_step_of_mem_writtenBy (List.mem_of_getElem? hwritten.getElem?)
    have : Std.Refl fun a b : Nat × Change => a.1 ≤ b.1 := ⟨fun _ => Nat.le_refl _⟩
    refine ⟨history.getLast (List.ne_nil_of_mem hstep), ?_, ?_⟩
    · exact List.getLast?_eq_some_getLast _
    · rw [← htime]
      exact hmono.rel_getLast hstep

/-- In every store that a history leads to, entries and listings are as the logs of the
history say. -/
structure LifeCycle (history : List (Nat × Change)) : Prop where
  /-- An entry carries the data of its key. -/
  ofKey : ∀ key e, (empty.after history).lookup key = some e →
    e.org = key.org ∧ e.grant.role = key.role ∧ e.grant.subject = key.subject ∧
      e.grant.scope = key.scope
  /-- No two entries have the same id, whatever their organizations. -/
  ids : (empty.after history).entries.Pairwise fun a b => a.grant.id ≠ b.grant.id
  /-- All ids are below the next one. -/
  below : ∀ e ∈ (empty.after history).entries,
    1 ≤ e.grant.id ∧ e.grant.id < (empty.after history).nextId
  /-- The next id is a signed number of 64 bits. -/
  fits : (empty.after history).nextId < 2 ^ 63
  /-- The id of an entry says as which one of all it was made, and it was the last one to
  be made under its key.  It still has the time of its making. -/
  made : ∀ e ∈ (empty.after history).entries, ∃ n : Nat,
    e.grant.id = n + 1 ∧ LastAt (empty.made history) e.key n e.grant.created
  /-- An entry has the time of the last write under its key. -/
  written : ∀ e ∈ (empty.after history).entries, ∃ n,
    LastAt (writtenBy history) e.key n e.grant.updated
  /-- Id and time of making stay as long as the key has an entry. -/
  kept : ∀ first second, history = first ++ second → ∀ key old e,
    (empty.after first).lookup key = some old → (empty.after history).lookup key = some e →
    (∀ more, more <+: second → ((empty.after (first ++ more)).lookup key).isSome = true) →
    e.grant.id = old.grant.id ∧ e.grant.created = old.grant.created
  /-- An entry that is made again has an id beyond those of all entries before. -/
  renewed : ∀ first second, history = first ++ second → ∀ key e,
    (empty.after first).lookup key = none → (empty.after history).lookup key = some e →
    ∀ before, before <+: first → ∀ old ∈ (empty.after before).entries,
      old.grant.id < e.grant.id
  /-- A listing has the grants on the scope in the organization, in the order of their ids,
  in which they were made. -/
  listed : ∀ org scope,
    (∀ g, g ∈ (empty.after history).grantsOn org scope ↔
      ⟨org, g⟩ ∈ (empty.after history).entries ∧ g.scope = scope) ∧
    ((empty.after history).grantsOn org scope).Pairwise (fun a b => a.id < b.id) ∧
    (((empty.after history).grantsOn org scope).map
      fun g => (g.created, Entry.key ⟨org, g⟩)).Sublist (empty.made history)
  /-- If time does not run backwards, entries are made before they are last written, and
  this before now. -/
  dated : (history.Pairwise fun a b => a.1 ≤ b.1) → ∀ e ∈ (empty.after history).entries,
    e.grant.created ≤ e.grant.updated ∧
      ∃ latest ∈ history.getLast?, e.grant.updated ≤ latest.1

/-- Entries live by the logs of the history, as long as fewer are made than there are
positive numbers for ids. -/
theorem lifeCycle_after {history : List (Nat × Change)}
    (hfew : (empty.made history).length < 2 ^ 63 - 1) : LifeCycle history := by
  have h := recorded_history history
  refine {
    ofKey := fun key e he => ?_
    ids := h.pairwise_id_ne
    below := fun e he => h.id_lt_nextId he
    fits := ?_
    made := h.made
    written := h.written
    kept := ?_
    renewed := ?_
    listed := fun org scope =>
      ⟨fun g => mem_grantsOn, h.pairwise_grantsOn org scope, h.grantsOn_sublist org scope⟩
    dated := fun hmono e he => created_le_updated hmono he }
  · obtain rfl := key_of_lookup he
    exact ⟨rfl, rfl, rfl, rfl⟩
  · rw [h.next]
    omega
  · rintro first second rfl key old e hold he hall
    exact id_eq_of_isSome hold he hall
  · rintro first second rfl key e hnone he before ⟨rest, rfl⟩ old hold
    have hlt := ((recorded_history before).id_lt_nextId hold).2
    have hle := nextId_le_after before rest
    have hnew := nextId_le_id hnone he
    omega

/-- A grant that is taken away and given again has a new id, beyond those that another
organization was given at the same time, and keeps it when it is changed. -/
theorem lifeCycle_after_renewal :
    let ann : Subject := .user 10 "ann" ""
    let history : List (Nat × Change) :=
      [(1, .setPermission .folders 1 "7" ann "View"),
       (2, .grantRole 2 "fixed:reader" (.role .viewer)
         [⟨"folders:read", "folders:*"⟩, ⟨"dashboards:read", "dashboards:*"⟩]),
       (3, .setPermission .folders 1 "7" ann ""),
       (4, .setPermission .folders 1 "7" ann "View"),
       (5, .setPermission .folders 1 "7" ann "Edit")]
    (empty.made history).length < 2 ^ 63 - 1 ∧ LifeCycle history ∧
      ((empty.after history).entries.map fun e =>
        (e.key.scope, e.grant.id, e.grant.created, e.grant.updated)) =
        [("folders:id:7", 4, 4, 5), ("dashboards:*", 2, 2, 2), ("folders:*", 3, 2, 2)] := by
  intro ann history
  have hfew : (empty.made history).length < 2 ^ 63 - 1 := by decide +kernel
  exact ⟨hfew, lifeCycle_after hfew, by decide +kernel⟩

end Store

end DashboardAccess
