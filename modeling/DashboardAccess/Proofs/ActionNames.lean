/-
# The names of stored actions

A row of a table lists the actions of its name as they come, and a grant holds each of
them once.  The row that a grant is named by has as many actions as the grant, all of them
among those of the grant.  For rows that list no action twice this means the same set of
actions.  A row with repetitions is never found by the actions that it stands for, and may
be found by others.

* `fits_iff_perm`, `fits_iff_toFinset_eq`, `fits_iff_nodup` : which rows fit a list of
  actions;
* `rowFor?`, `rowOfSet?` : the row that actions are named by, and the first one with the
  same set of actions;
* `rowFor?_eq_rowOfSet?` : they are the same if no row lists an action twice;
* `name?_iff_first_perm` : then the name of any list is that of its first permutation;
* `FirstWith.rowFor?_eq_some_iff` : when they are the same in any table;
* `rowFor?_setPermission_iff` : the name that a named permission comes back under.
-/
import DashboardAccess.Proofs.Contents
import DashboardAccess.Proofs.Replacement
import Mathlib.Data.Finset.Card
import Mathlib.Data.List.Find
import Mathlib.Data.List.Perm.Subperm

namespace DashboardAccess

namespace PermissionTable

/-! ## Rows that fit -/

section
variable {row actions : List String}

/-- A row that lists no action twice fits just its permutations. -/
theorem fits_iff_perm (hrow : row.Nodup) : fits row actions = true ↔ row.Perm actions := by
  rw [fits_iff]
  constructor
  · rintro ⟨hlength, hsub⟩
    exact (hrow.subperm hsub).perm_of_length_le hlength.ge
  · intro hperm
    exact ⟨hperm.length_eq, hperm.subset⟩

/-- Where no action is listed twice, a row fits the actions of its set. -/
theorem fits_iff_toFinset_eq (hrow : row.Nodup) (hactions : actions.Nodup) :
    fits row actions = true ↔ row.toFinset = actions.toFinset := by
  rw [fits_iff_perm hrow, List.perm_ext_iff_of_nodup hrow hactions, Finset.ext_iff]
  simp only [List.mem_toFinset]

/-- A row with the set of some different actions fits them if it lists none of them
twice. -/
theorem fits_iff_nodup (hactions : actions.Nodup) (hset : row.toFinset = actions.toFinset) :
    fits row actions = true ↔ row.Nodup := by
  constructor
  · intro hfits
    have hcard : row.toFinset.card = row.length := by
      rw [hset, List.toFinset_card_of_nodup hactions, (fits_iff.1 hfits).1]
    exact Multiset.toFinset_card_eq_card_iff_nodup.1 hcard
  · intro hrow
    exact (fits_iff_toFinset_eq hrow hactions).2 hset

end

/-! ## The row of a list and the row of a set -/

variable {table : PermissionTable} {actions : List String}

/-- The row that a list of actions is named by. -/
def rowFor? (table : PermissionTable) (actions : List String) : Option (String × List String) :=
  table.rows.find? fun row => fits row.2 actions

/-- The first row with a set of actions. -/
def rowOfSet? (table : PermissionTable) (actions : Finset String) :
    Option (String × List String) :=
  table.rows.find? fun row => row.2.toFinset = actions

/-- Actions have the name of their row, or the empty name. -/
theorem nameOf_eq (table : PermissionTable) (actions : List String) :
    table.nameOf actions = ((table.rowFor? actions).map (·.1)).getD "" :=
  rfl

/-- If no row lists an action twice, different actions are named by the first row with their
set. -/
theorem rowFor?_eq_rowOfSet? (hrows : ∀ row ∈ table.rows, row.2.Nodup)
    (hactions : actions.Nodup) : table.rowFor? actions = table.rowOfSet? actions.toFinset := by
  refine List.find?_congr fun row hrow => ?_
  rw [Bool.eq_iff_iff, decide_eq_true_eq]
  exact fits_iff_toFinset_eq (hrows row hrow) hactions

/-- No row of a standard table lists an action twice. -/
theorem nodup_of_mem_standard (kind : Kind) :
    ∀ row ∈ (standard kind).rows, row.2.Nodup := by
  cases kind <;> decide

/-- A row is the first one with a set of actions, and others stand above it. -/
structure FirstWith (table : PermissionTable) (actions : Finset String)
    (above : List (String × List String)) (first : String × List String) : Prop where
  splits : ∃ below, table.rows = above ++ first :: below
  toFinset_eq : first.2.toFinset = actions
  toFinset_ne : ∀ row ∈ above, row.2.toFinset ≠ actions

theorem rowOfSet?_eq_some_iff {set : Finset String} {first : String × List String} :
    table.rowOfSet? set = some first ↔ ∃ above, table.FirstWith set above first := by
  simp only [rowOfSet?, List.find?_eq_some_iff_append, decide_eq_true_eq, Bool.not_eq_true',
    decide_eq_false_iff_not]
  constructor
  · rintro ⟨heq, above, below, hrows, hne⟩
    exact ⟨above, ⟨below, hrows⟩, heq, hne⟩
  · rintro ⟨above, ⟨below, hrows⟩, heq, hne⟩
    exact ⟨heq, above, below, hrows, hne⟩

/-- Different actions are named by the first row with their set if and only if it lists
none of them twice, and no row above it lists just some of them in as many words. -/
theorem FirstWith.rowFor?_eq_some_iff {above : List (String × List String)}
    {first : String × List String} (h : table.FirstWith actions.toFinset above first)
    (hactions : actions.Nodup) :
    table.rowFor? actions = some first ↔
      first.2.Nodup ∧ ∀ row ∈ above, row.2.length = first.2.length → ¬ row.2 ⊆ first.2 := by
  obtain ⟨below, hrows⟩ := h.splits
  have hmem : ∀ action, action ∈ first.2 ↔ action ∈ actions := by
    simpa only [Finset.ext_iff, List.mem_toFinset] using h.toFinset_eq
  -- above a row without repetitions, the rows that fit are those as long as it
  have habove : first.2.Nodup → ∀ row : String × List String,
      fits row.2 actions = true ↔ row.2.length = first.2.length ∧ row.2 ⊆ first.2 := by
    intro hfirst row
    have hlength := (fits_iff.1 ((fits_iff_nodup hactions h.toFinset_eq).2 hfirst)).1
    rw [fits_iff, hlength]
    exact and_congr_right fun _ => forall_congr' fun action =>
      imp_congr_right fun _ => (hmem action).symm
  constructor
  · intro hfor
    have hfits : fits first.2 actions = true := by simpa using List.find?_some hfor
    have hfirst := (fits_iff_nodup hactions h.toFinset_eq).1 hfits
    refine ⟨hfirst, fun row hrow hlength hsub => ?_⟩
    -- a row above that fits would be found before
    have hsome : (above.find? fun row => fits row.2 actions).isSome = true :=
      List.find?_isSome.2 ⟨row, hrow, (habove hfirst row).2 ⟨hlength, hsub⟩⟩
    obtain ⟨found, hfound⟩ := Option.isSome_iff_exists.1 hsome
    rw [rowFor?, hrows, List.find?_append, hfound, Option.some_or, Option.some.injEq] at hfor
    exact h.toFinset_ne first (hfor ▸ List.mem_of_find?_eq_some hfound) h.toFinset_eq
  · rintro ⟨hfirst, hnone⟩
    refine List.find?_eq_some_iff_append.2
      ⟨(fits_iff_nodup hactions h.toFinset_eq).2 hfirst, above, below, hrows, ?_⟩
    intro row hrow
    rw [Bool.not_eq_true', Bool.eq_false_iff]
    intro hfits
    obtain ⟨hlength, hsub⟩ := (habove hfirst row).1 hfits
    exact hnone row hrow hlength hsub

/-- The first row with a set of actions is the only one. -/
theorem FirstWith.unique {set : Finset String} {above above' : List (String × List String)}
    {first first' : String × List String} (h : table.FirstWith set above first)
    (h' : table.FirstWith set above' first') : first = first' :=
  Option.some.inj
    ((rowOfSet?_eq_some_iff.2 ⟨above, h⟩).symm.trans (rowOfSet?_eq_some_iff.2 ⟨above', h'⟩))

/-- There is a first row with the actions of a name. -/
theorem exists_firstWith {name : String} {row : List String}
    (hrow : table.actions? name = some row) :
    ∃ above first, table.FirstWith row.toFinset above first := by
  obtain ⟨before, after, hrows, -⟩ := List.lookup_eq_some_iff.1 hrow
  have hmem : (name, row) ∈ table.rows := by
    rw [hrows]
    exact List.mem_append_right _ List.mem_cons_self
  have hsome : (table.rowOfSet? row.toFinset).isSome = true :=
    List.find?_isSome.2 ⟨_, hmem, by simp⟩
  obtain ⟨first, hfirst⟩ := Option.isSome_iff_exists.1 hsome
  obtain ⟨above, hfirst⟩ := rowOfSet?_eq_some_iff.1 hfirst
  exact ⟨above, first, hfirst⟩

/-! ## Lists that are permutations of rows -/

/-- The order in which actions are listed does not matter, whatever the rows are. -/
theorem rowFor?_congr_perm {others : List String} (h : others.Perm actions) :
    table.rowFor? others = table.rowFor? actions := by
  refine List.find?_congr fun row _ => ?_
  rw [Bool.eq_iff_iff, fits_iff, fits_iff, h.length_eq]
  exact and_congr_right fun _ => forall₂_congr fun action _ => h.mem_iff

section
variable (hrows : ∀ row ∈ table.rows, row.2.Nodup)
include hrows

/-- If no row lists an action twice, actions are named by the first row that is a
permutation of them. -/
theorem rowFor?_eq_find?_perm :
    table.rowFor? actions = table.rows.find? fun row => decide (row.2.Perm actions) := by
  refine List.find?_congr fun row hrow => ?_
  rw [Bool.eq_iff_iff, decide_eq_true_eq]
  exact fits_iff_perm (hrows row hrow)

/-- Actions have a name if a row of that name is a permutation of them and none above it
is. -/
theorem name?_eq_some_iff_perm {name : String} :
    table.name? actions = some name ↔
      ∃ above row below, table.rows = above ++ (name, row) :: below ∧ row.Perm actions ∧
        ∀ r ∈ above, ¬ r.2.Perm actions := by
  have hname : table.name? actions = some name ↔
      ∃ row, table.rowFor? actions = some (name, row) := by
    show (table.rowFor? actions).map (·.1) = some name ↔ _
    simp
  rw [hname, rowFor?_eq_find?_perm hrows]
  simp only [List.find?_eq_some_iff_append, decide_eq_true_eq, Bool.not_eq_true',
    decide_eq_false_iff_not]
  constructor
  · rintro ⟨row, hperm, above, below, hsplit, habove⟩
    exact ⟨above, row, below, hsplit, hperm, habove⟩
  · rintro ⟨above, row, below, hsplit, hperm, habove⟩
    exact ⟨row, hperm, above, below, hsplit, habove⟩

/-- Actions have no name if no row is a permutation of them. -/
theorem name?_eq_none_iff_perm :
    table.name? actions = none ↔ ∀ row ∈ table.rows, ¬ row.2.Perm actions := by
  show (table.rowFor? actions).map (·.1) = none ↔ _
  rw [Option.map_eq_none_iff, rowFor?_eq_find?_perm hrows, List.find?_eq_none]
  simp only [decide_eq_true_eq]

/-- In a table whose rows list no action twice, the name of a list of actions is that of the
first row that is a permutation of the list; there is none if no row is.  So their order
does not matter, and a list with a repetition has no name.  A list that lacks an action of a
row, or has one more, never has its name from that row: if the two names are the same, it is
that of another row, which is a permutation of the list. -/
theorem name?_iff_first_perm (actions : List String) :
    (∀ name, table.name? actions = some name ↔
      ∃ above row below, table.rows = above ++ (name, row) :: below ∧ row.Perm actions ∧
        ∀ r ∈ above, ¬ r.2.Perm actions) ∧
    (table.name? actions = none ↔ ∀ row ∈ table.rows, ¬ row.2.Perm actions) ∧
    (∀ others, others.Perm actions → table.name? others = table.name? actions) ∧
    (¬ actions.Nodup → table.name? actions = none) ∧
    ∀ row ∈ table.rows, (∃ a ∈ row.2, a ∉ actions) ∨ (∃ a ∈ actions, a ∉ row.2) →
      table.name? actions = some row.1 →
        ∃ other ∈ table.rows, other ≠ row ∧ other.1 = row.1 ∧ other.2.Perm actions := by
  refine ⟨fun name => name?_eq_some_iff_perm hrows, name?_eq_none_iff_perm hrows,
    fun others hperm => ?_, fun hrepeats => ?_, fun row _ hdiffers hname => ?_⟩
  · exact congrArg (Option.map (·.1)) (rowFor?_congr_perm hperm)
  · refine (name?_eq_none_iff_perm hrows).2 fun row hrow hperm => hrepeats ?_
    exact hperm.nodup_iff.1 (hrows row hrow)
  · obtain ⟨above, found, below, hsplit, hperm, -⟩ := (name?_eq_some_iff_perm hrows).1 hname
    have hfound : (row.1, found) ∈ table.rows := by
      rw [hsplit]
      exact List.mem_append_right _ List.mem_cons_self
    -- the row itself has not the same actions
    have hrow : ¬ row.2.Perm actions := by
      intro hrowperm
      rcases hdiffers with ⟨a, ha, hnot⟩ | ⟨a, ha, hnot⟩
      · exact hnot (hrowperm.mem_iff.1 ha)
      · exact hnot (hrowperm.mem_iff.2 ha)
    refine ⟨(row.1, found), hfound, fun hsame => hrow ?_, rfl, hperm⟩
    rw [← hsame]
    exact hperm

end

/-- Two actions turned around are named by the upper one of two rows with both, and not by
the row of the same name that has only one of them; with one of them repeated they have no
name. -/
theorem name?_iff_first_perm_turned :
    let table : PermissionTable := ⟨.folder,
      [("Look", ["folders:read"]), ("View", ["folders:read", "dashboards:read"]),
       ("Look", ["dashboards:read", "folders:read"])]⟩
    table.name? ["dashboards:read", "folders:read"] = some "View" ∧
      table.name? ["folders:read", "dashboards:read", "folders:read"] = none := by
  intro table
  have hrows : ∀ row ∈ table.rows, row.2.Nodup := by decide
  constructor
  · refine ((name?_iff_first_perm hrows _).1 "View").2 ?_
    exact ⟨[("Look", ["folders:read"])], _, _, rfl, by decide, by decide⟩
  · exact (name?_iff_first_perm hrows _).2.2.2.1 (by decide)

end PermissionTable

/-! ## Names that come back -/

namespace Store

/-- A managed grant that is given is on its scope afterwards. -/
theorem mem_grantsOn_setGrant {s : Store} (h : s.WellFormed) {now : Nat} {org : Int}
    {subject : Subject} {scope : Scope} {actions : List String} {g : Grant}
    (hg : (s.setGrant now org subject scope actions).1 = some g) :
    g ∈ (s.setGrant now org subject scope actions).2.grantsOn org scope := by
  have hheld := (mem_heldThrough_setGrant h now org subject scope actions).2 (.inl hg)
  obtain ⟨he, hscope, -⟩ := mem_heldThrough.1 hheld
  exact mem_grantsOn.2 ⟨he, hscope⟩

/-- In every store that a history leads to, and whatever the rows of the table are, a name
with actions is accepted and leaves a grant that is listed on the resource.  The row that
this grant is named by is the first row with the actions of the name if and only if that
row lists no action twice and no row above it lists just some of its actions in as many
words; so it always is in a table whose rows list no action twice.  The first row is that of
the name itself unless one above has the same actions. -/
theorem rowFor?_setPermission_iff {s : Store} (hs : s.Reachable) (now : Nat)
    {table : PermissionTable} (org : Int) (resource : String) (subject : Subject)
    {name : String} {row : List String} (hname : name ≠ "")
    (hrow : table.actions? name = some row) (hne : row ≠ []) :
    ∃ g t, s.setPermission now table org resource subject name = .ok (some g, t) ∧
      g ∈ t.grantsOn org (Scope.ofResource table.kind resource) ∧
      ∃ above first, table.FirstWith row.toFinset above first ∧
        (table.rowFor? g.actions = some first ↔
          first.2.Nodup ∧ ∀ r ∈ above, r.2.length = first.2.length → ¬ r.2 ⊆ first.2) ∧
        (table.rowFor? g.actions = some first → table.nameOf g.actions = first.1) ∧
        ((∀ r ∈ table.rows, r.2.Nodup) → table.rowFor? g.actions = some first) ∧
        ∀ before after, table.rows = before ++ (name, row) :: after →
          (∀ r ∈ before, r.2.toFinset ≠ row.toFinset) → first = (name, row) := by
  have hact : namedActions table name = .ok row := namedActions_eq_ok_iff.2 (.inr ⟨hname, hrow⟩)
  rcases setGrant_fst s now org subject (Scope.ofResource table.kind resource) row with
    ⟨hnil, -⟩ | ⟨-, g, hg, -, hacts⟩
  · exact absurd hnil hne
  obtain ⟨above, first, hfirst⟩ := PermissionTable.exists_firstWith hrow
  have hnodup : g.actions.Nodup := by
    rw [hacts]
    exact Ascending.nodup_of_isAscending (Ascending.isAscending_ofList row)
  have hset : g.actions.toFinset = row.toFinset := by rw [hacts, toFinset_ofList]
  refine ⟨g, _, setPermission_eq_ok_iff.2 ⟨row, hact, Prod.ext hg rfl⟩,
    mem_grantsOn_setGrant (wellFormed_of_reachable hs) hg, above, first, hfirst, ?_, ?_, ?_, ?_⟩
  · exact PermissionTable.FirstWith.rowFor?_eq_some_iff (hset ▸ hfirst) hnodup
  · intro hfor
    rw [PermissionTable.nameOf_eq, hfor]
    rfl
  · intro hrows
    rw [PermissionTable.rowFor?_eq_rowOfSet? hrows hnodup, hset]
    exact PermissionTable.rowOfSet?_eq_some_iff.2 ⟨above, hfirst⟩
  · intro before after hrows hbefore
    exact hfirst.unique ⟨⟨after, hrows⟩, rfl, hbefore⟩

/-- A name comes back as the name of a row above with the same actions in another order,
although the row at the top repeats an action that is none of them. -/
theorem rowFor?_setPermission_iff_shared :
    let table : PermissionTable := ⟨.folder,
      [("Twice", ["folders:edit", "folders:edit"]),
       ("Look", ["dashboards:read", "folders:read"]),
       ("View", ["folders:read", "dashboards:read"])]⟩
    let ann : Subject := .user 10 "ann" ""
    let s := empty.after [(1, .setPermission .folders 1 "7" ann "Admin")]
    ∃ g t, s.setPermission 2 table 1 "7" ann "View" = .ok (some g, t) ∧
      g ∈ t.grantsOn 1 (Scope.ofResource .folder "7") ∧ table.nameOf g.actions = "Look" := by
  intro table ann s
  obtain ⟨g, t, hset, hlisted, above, first, hfirst, hiff, hname, -, -⟩ :=
    @rowFor?_setPermission_iff s ⟨_, rfl⟩ 2 table 1 "7" ann "View" _ (by decide) rfl (by decide)
  have hlook : table.FirstWith ["folders:read", "dashboards:read"].toFinset
      [("Twice", ["folders:edit", "folders:edit"])]
      ("Look", ["dashboards:read", "folders:read"]) :=
    ⟨⟨_, rfl⟩, by decide, by decide⟩
  obtain rfl := hfirst.unique hlook
  have hothers : ∀ r ∈ table.rows, r.2.toFinset ≠ ["folders:read", "dashboards:read"].toFinset →
      r.2.length = 2 → ¬ r.2 ⊆ ["dashboards:read", "folders:read"] := by decide
  refine ⟨g, t, hset, hlisted, hname (hiff.2 ⟨by decide, fun r hr => ?_⟩)⟩
  obtain ⟨below, hsplit⟩ := hfirst.splits
  exact hothers r (hsplit ▸ List.mem_append_left _ hr) (hfirst.toFinset_ne r hr)

/-- A row that repeats an action is not found for its own grant and is taken for that of
another row. -/
theorem repeated_action_misnames :
    let table : PermissionTable := ⟨.folder,
      [("Read", ["folders:read", "folders:read"]), ("Edit", ["folders:read", "folders:write"])]⟩
    let ann : Subject := .user 10 "ann" ""
    ∃ g t, empty.setPermission 1 table 1 "7" ann "Read" = .ok (some g, t) ∧
      g ∈ t.grantsOn 1 "folders:id:7" ∧ g.actions = ["folders:read"] ∧
      table.rowOfSet? g.actions.toFinset = some ("Read", ["folders:read", "folders:read"]) ∧
      table.nameOf g.actions = "" ∧
      ∃ h u, empty.setPermission 1 table 1 "7" ann "Edit" = .ok (some h, u) ∧
        table.rowOfSet? h.actions.toFinset = some ("Edit", ["folders:read", "folders:write"]) ∧
        table.nameOf h.actions = "Read" := by
  refine ⟨_, _, rfl, ?_, ?_, ?_, ?_, _, _, rfl, ?_, ?_⟩ <;> decide +kernel

end Store

end DashboardAccess
