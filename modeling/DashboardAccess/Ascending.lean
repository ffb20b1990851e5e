/-
# Lists in ascending key order

Finite maps and finite sets as plain lists.  Every element has a key, keys are
strictly ascending, and `Ascending.insert` puts an element in its place,
replacing the one with the same key.  With the element itself as the key, an
ascending list is a set in canonical form (`Ascending.ofList`).

* `mem_insert` : what an insertion adds and what gives way to it;
* `isAscending_insert` : insertion keeps the order;
* `insert_eq_self` : what is there is not put in again;
* `eq_of_mem_iff` : an ascending list is determined by its elements;
* `find?_insert`, `find?_erase` : looking up after an insertion or an erasure;
* `filter_insert`, `map_insert` : parts and relabelled maps follow insertions;
* `mem_ofList` : a list and its ascending form have the same elements.
-/

namespace DashboardAccess

namespace Ascending

variable {α κ : Type}

/-! ## The order and the operations -/

/-- Keys are strictly ascending along the list. -/
def IsAscending [Ord κ] (key : α → κ) (xs : List α) : Prop :=
  xs.Pairwise fun a b => compare (key a) (key b) = .lt

/-- Put `a` in its place; an element with the same key gives way. -/
def insert [Ord κ] (key : α → κ) (a : α) : List α → List α
  | [] => [a]
  | b :: rest =>
    match compare (key a) (key b) with
    | .lt => a :: b :: rest
    | .eq => a :: rest
    | .gt => b :: insert key a rest

/-- The element with key `k`. -/
def find? [DecidableEq κ] (key : α → κ) (k : κ) (xs : List α) : Option α :=
  xs.find? fun a => key a = k

/-- The list without the element with key `k`. -/
def erase [DecidableEq κ] (key : α → κ) (k : κ) (xs : List α) : List α :=
  xs.filter fun a => key a ≠ k

/-- The elements of a list in ascending order, each once. -/
def ofList [Ord α] (xs : List α) : List α :=
  xs.foldr (insert id) []

/-! ## Membership and order -/

section
variable [Ord κ] [Std.TransOrd κ] [Std.LawfulEqOrd κ]

omit [Std.LawfulEqOrd κ] in
/-- A key comes neither before nor after itself. -/
theorem compare_self (k : κ) : compare k k = .eq :=
  Std.ReflCmp.compare_self

/-- After an insertion into an ascending list, the elements are the new one and
all old ones with another key. -/
theorem mem_insert {key : α → κ} {a b : α} {xs : List α} (h : IsAscending key xs) :
    b ∈ insert key a xs ↔ b = a ∨ (b ∈ xs ∧ key b ≠ key a) := by
  induction xs with
  | nil => simp [insert]
  | cons c rest ih =>
    obtain ⟨hc, hrest⟩ := List.pairwise_cons.1 h
    simp only [insert]
    split
    · rename_i hlt
      have hne : ∀ d ∈ c :: rest, key d ≠ key a := by
        intro d hd he
        have had : compare (key a) (key d) = .lt := by
          rcases List.mem_cons.1 hd with rfl | hd
          · exact hlt
          · exact Std.TransCmp.lt_trans hlt (hc d hd)
        rw [he, compare_self] at had
        cases had
      constructor
      · intro hb
        rcases List.mem_cons.1 hb with rfl | hb
        · exact .inl rfl
        · exact .inr ⟨hb, hne b hb⟩
      · rintro (rfl | ⟨hb, _⟩)
        · exact List.mem_cons_self
        · exact List.mem_cons_of_mem _ hb
    · rename_i heq
      have hac : key a = key c := Std.LawfulEqCmp.eq_of_compare heq
      have hne : ∀ d ∈ rest, key d ≠ key a := by
        intro d hd he
        have hcd := hc d hd
        rw [he, hac, compare_self] at hcd
        cases hcd
      constructor
      · intro hb
        rcases List.mem_cons.1 hb with rfl | hb
        · exact .inl rfl
        · exact .inr ⟨List.mem_cons_of_mem _ hb, hne b hb⟩
      · rintro (rfl | ⟨hb, hk⟩)
        · exact List.mem_cons_self
        · rcases List.mem_cons.1 hb with rfl | hb
          · exact absurd hac.symm hk
          · exact List.mem_cons_of_mem _ hb
    · rename_i hgt
      have hca : key c ≠ key a := by
        intro he
        rw [he, compare_self] at hgt
        cases hgt
      rw [List.mem_cons, ih hrest, List.mem_cons]
      constructor
      · rintro (rfl | rfl | ⟨hb, hk⟩)
        · exact .inr ⟨.inl rfl, hca⟩
        · exact .inl rfl
        · exact .inr ⟨.inr hb, hk⟩
      · rintro (rfl | ⟨rfl | hb, hk⟩)
        · exact .inr (.inl rfl)
        · exact .inl rfl
        · exact .inr (.inr ⟨hb, hk⟩)

/-- Insertion keeps the order. -/
theorem isAscending_insert {key : α → κ} (a : α) {xs : List α} (h : IsAscending key xs) :
    IsAscending key (insert key a xs) := by
  induction xs with
  | nil => simp [insert, IsAscending]
  | cons c rest ih =>
    obtain ⟨hc, hrest⟩ := List.pairwise_cons.1 h
    simp only [insert]
    split
    · rename_i hlt
      refine List.pairwise_cons.2 ⟨?_, h⟩
      intro d hd
      rcases List.mem_cons.1 hd with rfl | hd
      · exact hlt
      · exact Std.TransCmp.lt_trans hlt (hc d hd)
    · rename_i heq
      have hac : key a = key c := Std.LawfulEqCmp.eq_of_compare heq
      refine List.pairwise_cons.2 ⟨?_, hrest⟩
      intro d hd
      rw [hac]
      exact hc d hd
    · rename_i hgt
      refine List.pairwise_cons.2 ⟨?_, ih hrest⟩
      intro d hd
      rcases (mem_insert hrest).1 hd with rfl | ⟨hd, _⟩
      · exact Std.OrientedCmp.lt_of_gt hgt
      · exact hc d hd

omit [Std.LawfulEqOrd κ] in
/-- Putting in an element that is there changes nothing. -/
theorem insert_eq_self {key : α → κ} {a : α} {xs : List α} (h : IsAscending key xs)
    (ha : a ∈ xs) : insert key a xs = xs := by
  induction xs with
  | nil => cases ha
  | cons b rest ih =>
    obtain ⟨hb, hrest⟩ := List.pairwise_cons.1 h
    rcases List.mem_cons.1 ha with rfl | ha
    · simp only [insert, compare_self]
    · have hgt : compare (key a) (key b) = .gt := Std.OrientedCmp.gt_of_lt (hb a ha)
      simp only [insert, hgt, ih hrest ha]

omit [Std.LawfulEqOrd κ] in
/-- An ascending list has at most one element of a key. -/
theorem eq_of_key_eq {key : α → κ} {xs : List α} (h : IsAscending key xs) {a b : α}
    (ha : a ∈ xs) (hb : b ∈ xs) (hk : key a = key b) : a = b := by
  induction xs with
  | nil => cases ha
  | cons c rest ih =>
    obtain ⟨hc, hrest⟩ := List.pairwise_cons.1 h
    rcases List.mem_cons.1 ha with hac | ha <;> rcases List.mem_cons.1 hb with hbc | hb
    · rw [hac, hbc]
    · have hlt := hc b hb
      rw [← hac, hk, compare_self] at hlt
      cases hlt
    · have hlt := hc a ha
      rw [← hbc, hk, compare_self] at hlt
      cases hlt
    · exact ih hrest ha hb

omit [Std.LawfulEqOrd κ] in
/-- An ascending list has no element twice. -/
theorem nodup_of_isAscending {key : α → κ} {xs : List α} (h : IsAscending key xs) : xs.Nodup := by
  refine h.imp fun {a b} hlt heq => ?_
  rw [heq, compare_self] at hlt
  cases hlt

omit [Std.LawfulEqOrd κ] in
/-- Ascending lists with the same elements are the same. -/
theorem eq_of_mem_iff {key : α → κ} {xs ys : List α} (hx : IsAscending key xs)
    (hy : IsAscending key ys) (h : ∀ a, a ∈ xs ↔ a ∈ ys) : xs = ys := by
  have hperm : xs.Perm ys :=
    (List.perm_ext_iff_of_nodup (nodup_of_isAscending hx) (nodup_of_isAscending hy)).2 h
  refine List.Perm.eq_of_pairwise (fun a b _ _ hab hba => ?_) hx hy hperm
  rw [Std.OrientedCmp.gt_of_lt hab] at hba
  cases hba

/-! ## Look-up -/

omit [Std.LawfulEqOrd κ] in
/-- Looking a key up in an ascending list finds exactly the element that has it. -/
theorem find?_eq_some_iff [DecidableEq κ] {key : α → κ} {xs : List α}
    (h : IsAscending key xs) {k : κ} {a : α} :
    find? key k xs = some a ↔ a ∈ xs ∧ key a = k := by
  constructor
  · intro hf
    exact ⟨List.mem_of_find?_eq_some hf, by simpa using List.find?_some hf⟩
  · rintro ⟨ha, rfl⟩
    cases hf : find? key (key a) xs with
    | none =>
      have := List.find?_eq_none.1 hf a ha
      simp at this
    | some b =>
      have hb := List.mem_of_find?_eq_some hf
      have hkb : key b = key a := by simpa using List.find?_some hf
      rw [eq_of_key_eq h hb ha hkb]

/-- After an insertion, its key leads to the new element and every other key to
what it led to before. -/
theorem find?_insert [DecidableEq κ] {key : α → κ} {a : α} {xs : List α}
    (h : IsAscending key xs) (k : κ) :
    find? key k (insert key a xs) = if key a = k then some a else find? key k xs := by
  apply Option.ext
  intro b
  rw [find?_eq_some_iff (isAscending_insert a h), mem_insert h]
  split
  · rename_i hk
    constructor
    · rintro ⟨rfl | ⟨_, hne⟩, hb⟩
      · rfl
      · exact absurd (hb.trans hk.symm) hne
    · intro hb
      cases hb
      exact ⟨.inl rfl, hk⟩
  · rename_i hk
    rw [find?_eq_some_iff h]
    constructor
    · rintro ⟨rfl | ⟨hb, _⟩, hkb⟩
      · exact absurd hkb hk
      · exact ⟨hb, hkb⟩
    · rintro ⟨hb, hkb⟩
      exact ⟨.inr ⟨hb, fun he => hk (he.symm.trans hkb)⟩, hkb⟩

end

/-- Erasing a key keeps exactly the elements with other keys. -/
theorem mem_erase [DecidableEq κ] {key : α → κ} {k : κ} {a : α} {xs : List α} :
    a ∈ erase key k xs ↔ a ∈ xs ∧ key a ≠ k := by
  simp [erase]

/-- Erasing a key takes what it leads to and nothing else. -/
theorem find?_erase [DecidableEq κ] {key : α → κ} (k k' : κ) (xs : List α) :
    find? key k' (erase key k xs) = if k = k' then none else find? key k' xs := by
  unfold find? erase
  rw [List.find?_filter]
  by_cases hk : k = k'
  · subst hk
    rw [if_pos rfl, List.find?_eq_none]
    intro a _
    simp
  · rw [if_neg hk]
    congr 1
    funext a
    by_cases ha : key a = k'
    · simp [ha, Ne.symm hk]
    · simp [ha]

/-- Erasing a key keeps the order. -/
theorem isAscending_erase [Ord κ] [DecidableEq κ] {key : α → κ} (k : κ) {xs : List α}
    (h : IsAscending key xs) : IsAscending key (erase key k xs) :=
  List.Pairwise.filter _ h

/-! ## Restriction and relabelling

A part of a map that is cut out by keys, and a map whose elements are given other
data under the same keys, follow every insertion and erasure. -/

/-- Looking up a key is not affected by leaving out elements with other keys. -/
theorem find?_filter [DecidableEq κ] {key : α → κ} {p : α → Bool} {k : κ}
    (hp : ∀ a, key a = k → p a = true) (xs : List α) :
    find? key k (xs.filter p) = find? key k xs := by
  unfold find?
  rw [List.find?_filter]
  congr 1
  funext a
  by_cases ha : key a = k
  · simp [ha, hp a ha]
  · simp [ha]

/-- An erasure outside of a part leaves the part alone. -/
theorem filter_erase_of_not [DecidableEq κ] {key : α → κ} {p : α → Bool} {k : κ}
    (hp : ∀ a, key a = k → p a = false) (xs : List α) :
    (erase key k xs).filter p = xs.filter p := by
  rw [erase, List.filter_filter]
  refine List.filter_congr fun a _ => ?_
  by_cases ha : key a = k
  · simp [hp a ha]
  · simp [ha]

/-- A part follows an erasure. -/
theorem filter_erase [DecidableEq κ] (key : α → κ) (p : α → Bool) (k : κ) (xs : List α) :
    (erase key k xs).filter p = erase key k (xs.filter p) := by
  rw [erase, erase, List.filter_filter, List.filter_filter]
  exact List.filter_congr fun a _ => Bool.and_comm _ _

section
variable {β : Type} {f : α → β} {keyα : α → κ} {keyβ : β → κ}

/-- Looking up finds the relabelled element. -/
theorem find?_map [DecidableEq κ] (hf : ∀ a, keyβ (f a) = keyα a) (k : κ) (xs : List α) :
    find? keyβ k (xs.map f) = (find? keyα k xs).map f := by
  unfold find?
  rw [List.find?_map]
  congr 2
  funext a
  simp [hf]

/-- Relabelled elements follow an erasure. -/
theorem map_erase [DecidableEq κ] (hf : ∀ a, keyβ (f a) = keyα a) (k : κ) (xs : List α) :
    (erase keyα k xs).map f = erase keyβ k (xs.map f) := by
  unfold erase
  rw [List.filter_map]
  congr 2
  funext a
  simp [hf]

/-- Relabelled elements follow an insertion. -/
theorem map_insert [Ord κ] (hf : ∀ a, keyβ (f a) = keyα a) (a : α) (xs : List α) :
    (insert keyα a xs).map f = insert keyβ (f a) (xs.map f) := by
  induction xs with
  | nil => rfl
  | cons b rest ih =>
    rw [List.map_cons, insert, insert, hf, hf]
    cases compare (keyα a) (keyα b) with
    | lt => rfl
    | eq => rfl
    | gt => rw [List.map_cons, ih]

end

section
variable [Ord κ] [Std.TransOrd κ] [Std.LawfulEqOrd κ] {key : α → κ} {p : α → Bool} {a : α}

omit [Std.TransOrd κ] in
/-- An insertion outside of a part leaves the part alone. -/
theorem filter_insert_of_not (hp : ∀ b, key b = key a → p b = false) (xs : List α) :
    (insert key a xs).filter p = xs.filter p := by
  have ha := hp a rfl
  induction xs with
  | nil => simp [insert, ha]
  | cons b rest ih =>
    rw [insert]
    cases hab : compare (key a) (key b) with
    | lt => simp [ha]
    | eq =>
      have hb := hp b (Std.LawfulEqCmp.eq_of_compare hab).symm
      simp [ha, hb]
    | gt =>
      show (b :: insert key a rest).filter p = (b :: rest).filter p
      rw [List.filter_cons, List.filter_cons, ih]

omit [Std.TransOrd κ] [Std.LawfulEqOrd κ] in
/-- What comes before all elements is inserted at the front. -/
theorem insert_of_lt {xs : List α} (h : ∀ b ∈ xs, compare (key a) (key b) = .lt) :
    insert key a xs = a :: xs := by
  cases xs with
  | nil => rfl
  | cons b rest => rw [insert, h b List.mem_cons_self]

/-- A part follows an insertion into it. -/
theorem filter_insert (hp : ∀ b, key b = key a → p b = true) {xs : List α}
    (h : IsAscending key xs) : (insert key a xs).filter p = insert key a (xs.filter p) := by
  have ha := hp a rfl
  induction xs with
  | nil => simp [insert, ha]
  | cons b rest ih =>
    obtain ⟨hb, hrest⟩ := List.pairwise_cons.1 h
    rw [insert]
    cases hab : compare (key a) (key b) with
    | lt =>
      have hlt : ∀ c ∈ (b :: rest).filter p, compare (key a) (key c) = .lt := by
        intro c hc
        rcases List.mem_cons.1 (List.mem_filter.1 hc).1 with rfl | hc
        · exact hab
        · exact Std.TransCmp.lt_trans hab (hb c hc)
      rw [insert_of_lt hlt]
      simp [ha]
    | eq =>
      have hpb := hp b (Std.LawfulEqCmp.eq_of_compare hab).symm
      simp [ha, hpb, insert, hab]
    | gt =>
      show (b :: insert key a rest).filter p = insert key a ((b :: rest).filter p)
      rw [List.filter_cons, List.filter_cons, ih hrest]
      by_cases hpb : p b = true
      · rw [if_pos hpb, if_pos hpb, insert, hab]
      · rw [if_neg hpb, if_neg hpb]

end

/-! ## Sets in canonical form -/

section
variable [Ord α] [Std.TransOrd α] [Std.LawfulEqOrd α]

/-- The ascending form of a list is ascending. -/
theorem isAscending_ofList (xs : List α) : IsAscending id (ofList xs) := by
  induction xs with
  | nil => exact List.Pairwise.nil
  | cons a rest ih => exact isAscending_insert a ih

/-- A list and its ascending form have the same elements. -/
theorem mem_ofList {a : α} {xs : List α} : a ∈ ofList xs ↔ a ∈ xs := by
  induction xs with
  | nil => simp [ofList]
  | cons b rest ih =>
    have h : ofList (b :: rest) = insert id b (ofList rest) := rfl
    rw [h, mem_insert (isAscending_ofList rest), ih, List.mem_cons]
    by_cases hab : a = b <;> simp [hab]

/-- The ascending form of a list with an element is not empty. -/
theorem ofList_ne_nil {a : α} {xs : List α} (ha : a ∈ xs) : ofList xs ≠ [] :=
  List.ne_nil_of_mem (mem_ofList.2 ha)

end

end Ascending

end DashboardAccess
