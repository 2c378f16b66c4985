import Mathlib.Data.List.Perm.Basic

/-!
`binary_search_by` of slices, as far as its documentation goes: the slice has to be sorted with
respect to the comparison, any one of several matches may be found, and otherwise the result is
where an item could be inserted.
-/

namespace SmppHerald.BinarySearch

variable {α : Type}

section Searching

/-- The items that compare less come first, then those that compare equal. -/
def SortedBy (f : α → Ordering) (list : List α) : Prop :=
  list.Pairwise fun a b => (f b = .lt → f a = .lt) ∧ (f a = .gt → f b = .gt)

/-- `Ok(pos) => pos, Err(pos) => pos`. -/
def position : Except Nat Nat → Nat
  | .ok pos => pos
  | .error pos => pos

/-- A search that does what is documented. Nothing is known of the position in a list that is not
sorted, except that an item can be inserted there. -/
structure Search (α : Type) where
  search : (α → Ordering) → List α → Except Nat Nat
  position_le : ∀ f list, position (search f list) ≤ list.length
  found : ∀ f list pos, SortedBy f list → search f list = .ok pos →
    ∃ item, list[pos]? = some item ∧ f item = .eq
  missing : ∀ f list pos, SortedBy f list → search f list = .error pos →
    (∀ item ∈ list.take pos, f item = .lt) ∧ ∀ item ∈ list.drop pos, f item = .gt

variable {f : α → Ordering} {list : List α}

theorem SortedBy.getElem (h : SortedBy f list) {i j : Nat} {a b : α} (hi : list[i]? = some a)
    (hj : list[j]? = some b) (hij : i < j) : (f b = .lt → f a = .lt) ∧ (f a = .gt → f b = .gt) := by
  obtain ⟨hilt, rfl⟩ := List.getElem?_eq_some_iff.mp hi
  obtain ⟨hjlt, rfl⟩ := List.getElem?_eq_some_iff.mp hj
  exact List.pairwise_iff_getElem.mp h i j hilt hjlt hij

/-- Where a search says that an item belongs: nothing that compares greater is before the position,
and nothing that compares less is behind it. -/
theorem Search.between (search : Search α) (h : SortedBy f list) :
    (∀ item ∈ list.take (position (search.search f list)), f item ≠ .gt) ∧
      ∀ item ∈ list.drop (position (search.search f list)), f item ≠ .lt := by
  cases hsearch : search.search f list with
  | error pos =>
      obtain ⟨hbefore, hbehind⟩ := search.missing f list pos h hsearch
      constructor
      · intro item hitem hgt
        cases (hbefore item hitem).symm.trans hgt
      · intro item hitem hlt
        cases (hbehind item hitem).symm.trans hlt
  | ok pos =>
      obtain ⟨found, hfound, heq⟩ := search.found f list pos h hsearch
      constructor
      · intro item hitem hgt
        obtain ⟨i, hi⟩ := List.mem_iff_getElem?.mp hitem
        simp only [position, List.getElem?_take, Option.ite_none_right_eq_some] at hi
        have hafter := (h.getElem hi.2 hfound hi.1).2 hgt
        cases heq.symm.trans hafter
      · intro item hitem hlt
        obtain ⟨i, hi⟩ := List.mem_iff_getElem?.mp hitem
        rw [position, List.getElem?_drop] at hi
        cases i with
        | zero =>
            obtain rfl := Option.some.inj (hfound.symm.trans hi)
            cases heq.symm.trans hlt
        | succ i =>
            have hbefore := (h.getElem hfound hi (by omega)).1 hlt
            cases heq.symm.trans hbefore

end Searching

section Searches

/-- The search from the front, for the first match. -/
def searchFirst (f : α → Ordering) (list : List α) : Except Nat Nat :=
  let pos := list.findIdx fun item => f item ≠ .lt
  match (list[pos]?).map f with
  | some .eq => .ok pos
  | _ => .error pos

/-- The loop of the standard library: the part of the list that is left starts at `base`, and half of
it goes in each round. -/
def narrow (f : α → Ordering) (list : List α) : Nat → Nat → Nat → Nat
  | 0, base, _ => base
  | rounds + 1, base, size =>
      if size ≤ 1 then base
      else
        let mid := base + size / 2
        let base := if (list[mid]?).map f = some .gt then base else mid
        narrow f list rounds base (size - size / 2)

def binarySearchBy (f : α → Ordering) (list : List α) : Except Nat Nat :=
  let base := narrow f list list.length 0 list.length
  match (list[base]?).map f with
  | some .eq => .ok base
  | some .lt => .error (base + 1)
  | _ => .error base

variable {f : α → Ordering} {list : List α}

theorem SortedBy.gt_of_getElem (h : SortedBy f list) {pos : Nat}
    (hpos : ∀ item, list[pos]? = some item → f item = .gt) : ∀ item ∈ list.drop pos, f item = .gt := by
  intro item hitem
  obtain ⟨i, hi⟩ := List.mem_iff_getElem?.mp hitem
  rw [List.getElem?_drop] at hi
  cases i with
  | zero => exact hpos item hi
  | succ i =>
      have hlength := (List.getElem?_eq_some_iff.mp hi).1
      have hlt : pos < list.length := by omega
      have hfirst := List.getElem?_eq_getElem hlt
      exact (h.getElem hfirst hi (by omega)).2 (hpos _ hfirst)

theorem SortedBy.lt_of_getElem (h : SortedBy f list) {pos : Nat} {last : α}
    (hpos : list[pos]? = some last) (hlt : f last = .lt) :
    ∀ item ∈ list.take (pos + 1), f item = .lt := by
  intro item hitem
  obtain ⟨i, hi⟩ := List.mem_iff_getElem?.mp hitem
  simp only [List.getElem?_take, Option.ite_none_right_eq_some] at hi
  rcases Nat.lt_succ_iff_lt_or_eq.mp hi.1 with hbefore | rfl
  · exact (h.getElem hi.2 hpos hbefore).1 hlt
  · obtain rfl := Option.some.inj (hpos.symm.trans hi.2)
    exact hlt

def firstMatch : Search α where
  search := searchFirst
  position_le f list := by
    have hle := @List.findIdx_le_length _ (fun item => f item ≠ .lt) list
    unfold searchFirst
    simp only
    split <;> exact hle
  found f list pos _ h := by
    unfold searchFirst at h
    simp only at h
    split at h
    · rename_i heq
      obtain ⟨item, hitem, hmatch⟩ := Option.map_eq_some_iff.mp heq
      obtain rfl := Except.ok.inj h
      exact ⟨item, hitem, hmatch⟩
    · cases h
  missing f list pos hsorted h := by
    unfold searchFirst at h
    simp only at h
    split at h
    · cases h
    · rename_i hne
      obtain rfl := Except.error.inj h
      constructor
      · intro item hitem
        obtain ⟨i, hi⟩ := List.mem_iff_getElem?.mp hitem
        simp only [List.getElem?_take, Option.ite_none_right_eq_some] at hi
        obtain ⟨hlength, rfl⟩ := List.getElem?_eq_some_iff.mp hi.2
        simpa using List.not_of_lt_findIdx hi.1
      · refine hsorted.gt_of_getElem fun item hitem => ?_
        obtain ⟨hlength, rfl⟩ := List.getElem?_eq_some_iff.mp hitem
        have hnot := @List.findIdx_getElem _ (fun item => f item ≠ .lt) list hlength
        rw [hitem] at hne
        cases hf : f list[list.findIdx fun item => f item ≠ .lt] with
        | gt => rfl
        | eq => exact absurd (congrArg some hf) (hne ·)
        | lt => exact absurd hf (of_decide_eq_true hnot)

theorem narrow_lt {rounds base size : Nat} (hsize : base + size ≤ list.length)
    (hbase : base < list.length) : narrow f list rounds base size < list.length := by
  induction rounds generalizing base size with
  | zero => exact hbase
  | succ rounds ih =>
      rw [narrow]
      split
      · exact hbase
      · simp only
        split
        · exact ih (by omega) hbase
        · exact ih (by omega) (by omega)

/-- What is left between the rounds: what starts behind it compares greater, and its first item does
not, unless it is the first of the list. -/
theorem narrow_spec (h : SortedBy f list) {rounds base size : Nat} (hrounds : size ≤ rounds + 1)
    (hsize : base + size ≤ list.length) (hpos : 0 < size)
    (hfirst : base = 0 ∨ (list[base]?).map f ≠ some .gt)
    (hbehind : ∀ item ∈ list.drop (base + size), f item = .gt) :
    (narrow f list rounds base size = 0 ∨
        (list[narrow f list rounds base size]?).map f ≠ some .gt) ∧
      ∀ item ∈ list.drop (narrow f list rounds base size + 1), f item = .gt := by
  induction rounds generalizing base size with
  | zero =>
      obtain rfl : size = 1 := by omega
      exact ⟨hfirst, hbehind⟩
  | succ rounds ih =>
      rw [narrow]
      split
      · rename_i hone
        obtain rfl : size = 1 := by omega
        exact ⟨hfirst, hbehind⟩
      · simp only
        split
        · rename_i hgt
          refine ih (by omega) (by omega) (by omega) hfirst ?_
          intro item hitem
          have hdrop : ∀ item ∈ list.drop (base + size / 2), f item = .gt := by
            refine h.gt_of_getElem fun mid hmid => ?_
            rw [hmid] at hgt
            exact Option.some.inj hgt
          exact hdrop item (List.drop_subset_drop_left _ (by omega) hitem)
        · rename_i hle
          refine ih (by omega) (by omega) (by omega) (.inr hle) ?_
          rwa [show base + size / 2 + (size - size / 2) = base + size by omega]

def standard : Search α where
  search := binarySearchBy
  position_le f list := by
    cases list with
    | nil => exact Nat.le_refl 0
    | cons item list =>
        have hlt := @narrow_lt _ f (item :: list) (item :: list).length 0 (item :: list).length
          (by simp) (by simp)
        unfold binarySearchBy
        simp only
        split
        · exact Nat.le_of_lt hlt
        · exact hlt
        · exact Nat.le_of_lt hlt
  found f list pos _ h := by
    unfold binarySearchBy at h
    simp only at h
    split at h
    · rename_i heq
      obtain ⟨item, hitem, hmatch⟩ := Option.map_eq_some_iff.mp heq
      obtain rfl := Except.ok.inj h
      exact ⟨item, hitem, hmatch⟩
    · cases h
    · cases h
  missing f list pos hsorted h := by
    cases list with
    | nil => simp
    | cons first list =>
        have hspec := @narrow_spec _ f (first :: list) hsorted (first :: list).length 0
          (first :: list).length (Nat.le_succ _) (by simp) (by simp) (.inl rfl) (by simp)
        have hlt := @narrow_lt _ f (first :: list) (first :: list).length 0 (first :: list).length
          (by simp) (by simp)
        unfold binarySearchBy at h
        simp only at h
        generalize narrow f (first :: list) (first :: list).length 0 (first :: list).length = base
          at h hspec hlt
        have hbase := List.getElem?_eq_getElem hlt
        split at h
        · cases h
        · rename_i hless
          obtain rfl := Except.error.inj h
          rw [hbase] at hless
          exact ⟨hsorted.lt_of_getElem hbase (Option.some.inj hless), hspec.2⟩
        · rename_i hne hnl
          obtain rfl := Except.error.inj h
          have hgt : f (first :: list)[base] = .gt := by
            rw [hbase] at hne hnl
            cases hf : f (first :: list)[base] with
            | gt => rfl
            | eq => exact absurd (congrArg some hf) hne
            | lt => exact absurd (congrArg some hf) hnl
          have hzero : base = 0 := by
            refine hspec.1.resolve_right fun hnot => hnot ?_
            rw [hbase]
            exact congrArg some hgt
          subst hzero
          refine ⟨by simp, hsorted.gt_of_getElem fun item hitem => ?_⟩
          obtain rfl := Option.some.inj (hbase.symm.trans hitem)
          exact hgt

end Searches

section Inserting

/-- An item is inserted where the search for it ends. -/
def Search.insert (search : Search α) (cmp : α → α → Ordering) (item : α) (list : List α) : List α :=
  list.insertIdx (position (search.search (fun probe => cmp probe item) list)) item

variable {cmp : α → α → Ordering} {list : List α}

theorem insert_eq (search : Search α) (item : α) :
    search.insert cmp item list =
      list.take (position (search.search (fun probe => cmp probe item) list)) ++
        item :: list.drop (position (search.search (fun probe => cmp probe item) list)) := by
  have hle := search.position_le (fun probe => cmp probe item) list
  rw [Search.insert]
  generalize position (search.search (fun probe => cmp probe item) list) = pos at hle ⊢
  induction list generalizing pos with
  | nil =>
      obtain rfl := Nat.le_zero.mp hle
      rfl
  | cons first list ih =>
      cases pos with
      | zero => rfl
      | succ pos =>
          rw [List.insertIdx_succ_cons, ih pos (Nat.le_of_succ_le_succ hle)]
          rfl

theorem perm_insert (search : Search α) (item : α) :
    (search.insert cmp item list).Perm (item :: list) := by
  rw [insert_eq]
  refine List.perm_middle.trans (List.Perm.cons item ?_)
  rw [List.take_append_drop]

section Ordered

variable {R : α → α → Prop} {item : α} (h : list.Pairwise R)
  (hle : ∀ a ∈ list, cmp a item ≠ .gt ↔ R a item) (hge : ∀ a ∈ list, cmp a item ≠ .lt ↔ R item a)

include h hle hge

theorem sortedBy_of_pairwise (htrans : ∀ a b c, R a b → R b c → R a c) :
    SortedBy (fun probe => cmp probe item) list := by
  refine h.imp_of_mem fun {a b} ha hb hab => ⟨fun hlt => ?_, fun hgt => ?_⟩
  · by_contra hnot
    exact (hge b hb).mpr (htrans item a b ((hge a ha).mp hnot) hab) hlt
  · by_contra hnot
    exact (hle a ha).mpr (htrans a b item hab ((hle b hb).mp hnot)) hgt

theorem pairwise_insert (search : Search α) (htrans : ∀ a b c, R a b → R b c → R a c) :
    (search.insert cmp item list).Pairwise R := by
  obtain ⟨htake, hdrop⟩ := search.between (sortedBy_of_pairwise h hle hge htrans)
  rw [insert_eq, List.pairwise_append, List.pairwise_cons]
  refine ⟨h.sublist (List.take_sublist ..), ⟨fun a ha => ?_, h.sublist (List.drop_sublist ..)⟩,
    fun a ha b hb => ?_⟩
  · have hmem := List.mem_of_mem_drop ha
    exact (hge a hmem).mp (hdrop a ha)
  · rcases List.mem_cons.mp hb with rfl | hb
    · have hmem := List.mem_of_mem_take ha
      exact (hle a hmem).mp (htake a ha)
    · rw [← List.take_append_drop (position (search.search (fun probe => cmp probe item) list)) list,
        List.pairwise_append] at h
      exact h.2.2 a ha b hb

end Ordered

end Inserting

end SmppHerald.BinarySearch
