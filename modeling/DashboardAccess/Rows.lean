/-
# Rows

Finite maps as lists of keys with values, in the order in which keys first came.
They are read with `List.lookup` and written with `Rows.put`.

* `lookup_cons_if` : looking a key up goes row by row;
* `lookup_put` : what writing a row changes;
* `lookup_map`, `put_map` : rows with all values mapped;
* `put_eq_self` : writing what is there changes nothing;
* `map_fst_put` : a key is there once, however often it is written.
-/

namespace DashboardAccess

namespace Rows

variable {κ α : Type} [DecidableEq κ]

/-- Write the value of a key, in its row if there is one. -/
def put (key : κ) (value : α) : List (κ × α) → List (κ × α)
  | [] => [(key, value)]
  | (k, v) :: rest => if k = key then (k, value) :: rest else (k, v) :: put key value rest

/-- Looking a key up goes row by row. -/
theorem lookup_cons_if (key k : κ) (value : α) (rest : List (κ × α)) :
    List.lookup key ((k, value) :: rest) =
      if key = k then some value else List.lookup key rest := by
  rw [List.lookup_cons]
  by_cases h : key = k
  · simp [h]
  · rw [beq_false_of_ne h, if_neg h]

/-- Writing the row of a key changes that row and no other. -/
theorem lookup_put (key k : κ) (value : α) (rows : List (κ × α)) :
    (put key value rows).lookup k = if k = key then some value else rows.lookup k := by
  induction rows with
  | nil => rw [put, lookup_cons_if]
  | cons row rest ih =>
    obtain ⟨a, v⟩ := row
    rw [put]
    split
    · rename_i h
      subst h
      rw [lookup_cons_if, lookup_cons_if]
      split <;> rfl
    · rename_i h
      rw [lookup_cons_if, lookup_cons_if, ih]
      by_cases hk : k = key
      · subst hk
        simp [Ne.symm h]
      · simp [hk]

variable {β : Type}

/-- Looking a key up among mapped values. -/
theorem lookup_map (key : κ) (f : α → β) (rows : List (κ × α)) :
    (rows.map fun row => (row.1, f row.2)).lookup key = (rows.lookup key).map f := by
  induction rows with
  | nil => rfl
  | cons row rest ih =>
    rw [List.map_cons, lookup_cons_if, lookup_cons_if, ih]
    split <;> rfl

/-- Writing a value among others and mapping them all commute. -/
theorem put_map (key : κ) (value : α) (f : α → β) (rows : List (κ × α)) :
    put key (f value) (rows.map fun row => (row.1, f row.2)) =
      (put key value rows).map fun row => (row.1, f row.2) := by
  induction rows with
  | nil => rfl
  | cons row rest ih =>
    rw [List.map_cons, put, put, ih]
    split <;> rfl

/-- Writing what is there changes nothing. -/
theorem put_eq_self {key : κ} {value : α} {rows : List (κ × α)}
    (h : rows.lookup key = some value) : put key value rows = rows := by
  induction rows with
  | nil => cases h
  | cons row rest ih =>
    obtain ⟨a, v⟩ := row
    rw [lookup_cons_if] at h
    rw [put]
    split at h
    · rename_i hk
      cases h
      rw [if_pos hk.symm]
    · rename_i hk
      rw [if_neg fun he => hk he.symm, ih h]

/-- A key that is written is added behind the others, if it is not there. -/
theorem map_fst_put (key : κ) (value : α) (rows : List (κ × α)) :
    (put key value rows).map (·.1) =
      if key ∈ rows.map (·.1) then rows.map (·.1) else rows.map (·.1) ++ [key] := by
  induction rows with
  | nil => rfl
  | cons row rest ih =>
    obtain ⟨a, v⟩ := row
    rw [put, List.map_cons]
    by_cases h : a = key
    · rw [if_pos h, if_pos (h ▸ List.mem_cons_self), List.map_cons]
    · rw [if_neg h, List.map_cons, ih]
      by_cases hmem : key ∈ rest.map (·.1)
      · rw [if_pos hmem, if_pos (List.mem_cons_of_mem a hmem)]
      · rw [if_neg hmem, if_neg fun hh => ?_, List.cons_append]
        rcases List.mem_cons.1 hh with he | hh
        · exact h he.symm
        · exact hmem hh

/-- A row that is there after writing is the written one or was there. -/
theorem eq_or_mem_of_mem_put {key : κ} {value : α} {rows : List (κ × α)} {row : κ × α}
    (h : row ∈ put key value rows) : row = (key, value) ∨ row ∈ rows := by
  induction rows with
  | nil => exact .inl (List.mem_singleton.1 h)
  | cons first rest ih =>
    obtain ⟨a, v⟩ := first
    rw [put] at h
    split at h
    · rename_i ha
      rcases List.mem_cons.1 h with rfl | h
      · exact .inl (ha ▸ rfl)
      · exact .inr (List.mem_cons_of_mem _ h)
    · rcases List.mem_cons.1 h with rfl | h
      · exact .inr List.mem_cons_self
      · exact (ih h).imp_right (List.mem_cons_of_mem _)

/-- A key that is there after writing is the written one or was there. -/
theorem eq_or_mem_of_mem_map_fst_put {key k : κ} {value : α} {rows : List (κ × α)}
    (h : k ∈ (put key value rows).map (·.1)) : k = key ∨ k ∈ rows.map (·.1) := by
  obtain ⟨row, hrow, rfl⟩ := List.mem_map.1 h
  rcases eq_or_mem_of_mem_put hrow with rfl | hrow
  · exact .inl rfl
  · exact .inr (List.mem_map_of_mem hrow)

/-- Keys that differ still do after writing. -/
theorem nodup_map_fst_put {rows : List (κ × α)} (h : (rows.map (·.1)).Nodup) (key : κ)
    (value : α) : ((put key value rows).map (·.1)).Nodup := by
  rw [map_fst_put]
  split
  · exact h
  · rename_i hkey
    refine List.nodup_append.2 ⟨h, List.pairwise_singleton _ _, fun a ha b hb => ?_⟩
    rw [List.mem_singleton.1 hb]
    exact fun he => hkey (he ▸ ha)

end Rows

end DashboardAccess
