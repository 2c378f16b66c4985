import Mathlib.Data.List.Nodup
import Mathlib.Logic.Function.Basic

namespace SmppHerald.KeyedList

variable {κ α : Type} [DecidableEq κ] {key : α → κ}

/-- The first item with the key. -/
def lookup (key : α → κ) (items : List α) (k : κ) : Option α := items.find? fun a => key a = k

def modifyFirst (key : α → κ) (k : κ) (f : α → α) : List α → List α
  | [] => []
  | a :: items => if key a = k then f a :: items else a :: modifyFirst key k f items

def remove (key : α → κ) (k : κ) (items : List α) : List α := items.filter fun a => key a ≠ k

@[simp] theorem lookup_nil : lookup key [] = fun _ => none := rfl

theorem lookup_cons (a : α) (items : List α) (k : κ) :
    lookup key (a :: items) k = if key a = k then some a else lookup key items k := by
  rw [lookup, List.find?_cons, lookup]
  split
  · rename_i h
    rw [if_pos (of_decide_eq_true h)]
  · rename_i h
    rw [if_neg (of_decide_eq_false h)]

theorem lookup_eq_none_iff {items : List α} {k : κ} :
    lookup key items k = none ↔ k ∉ items.map key := by
  simp [lookup]

theorem lookup_append {items : List α} {a : α} (hnew : key a ∉ items.map key) :
    lookup key (items ++ [a]) = Function.update (lookup key items) (key a) (some a) := by
  funext k
  rw [lookup, List.find?_append]
  change (lookup key items k).or (lookup key [a] k) = _
  rw [lookup_cons]
  by_cases hk : k = key a
  · subst hk
    rw [Function.update_self, lookup_eq_none_iff.mpr hnew, if_pos rfl]
    rfl
  · rw [Function.update_of_ne hk, if_neg fun h => hk h.symm]
    exact Option.or_none

theorem lookup_modifyFirst {k : κ} {f : α → α} (hf : ∀ a, key (f a) = key a) (items : List α) :
    lookup key (modifyFirst key k f items) =
      Function.update (lookup key items) k ((lookup key items k).map f) := by
  funext k'
  induction items with
  | nil => by_cases hk : k' = k <;> simp [modifyFirst, hk]
  | cons a items ih =>
      rw [modifyFirst]
      split
      · rename_i ha
        rw [lookup_cons, hf, lookup_cons, if_pos ha]
        by_cases hk : k' = k
        · subst hk
          rw [if_pos ha, Function.update_self]
          rfl
        · rw [Function.update_of_ne hk, lookup_cons]
          have hne : key a ≠ k' := fun h => hk (h.symm.trans ha)
          rw [if_neg hne, if_neg hne]
      · rename_i ha
        rw [lookup_cons, ih, lookup_cons, if_neg ha]
        by_cases hk : k' = k
        · subst hk
          rw [if_neg ha, Function.update_self, Function.update_self]
        · rw [Function.update_of_ne hk, Function.update_of_ne hk, lookup_cons]

theorem lookup_remove (k : κ) (items : List α) :
    lookup key (remove key k items) = Function.update (lookup key items) k none := by
  funext k'
  induction items with
  | nil => by_cases hk : k' = k <;> simp [remove, hk]
  | cons a items ih =>
      rw [remove, List.filter_cons]
      by_cases ha : key a = k
      · rw [if_neg (by simpa using ha)]
        refine ih.trans ?_
        by_cases hk : k' = k
        · subst hk
          rw [Function.update_self, Function.update_self]
        · rw [Function.update_of_ne hk, Function.update_of_ne hk, lookup_cons,
            if_neg fun h => hk (h.symm.trans ha)]
      · rw [if_pos (by simpa using ha), lookup_cons]
        change ite _ _ (lookup key (remove key k items) k') = _
        rw [ih]
        by_cases hk : k' = k
        · subst hk
          rw [if_neg ha, Function.update_self, Function.update_self]
        · rw [Function.update_of_ne hk, Function.update_of_ne hk, lookup_cons]

theorem keys_modifyFirst {k : κ} {f : α → α} (hf : ∀ a, key (f a) = key a) (items : List α) :
    (modifyFirst key k f items).map key = items.map key := by
  induction items with
  | nil => rfl
  | cons a items ih =>
      rw [modifyFirst]
      split
      · rw [List.map_cons, List.map_cons, hf]
      · rw [List.map_cons, List.map_cons, ih]

theorem keys_remove_sublist (k : κ) (items : List α) :
    ((remove key k items).map key).Sublist (items.map key) :=
  List.filter_sublist.map key

theorem length_remove_lt_iff {k : κ} {items : List α} :
    (remove key k items).length < items.length ↔ (lookup key items k).isSome = true := by
  rw [← Option.ne_none_iff_isSome, ne_eq, lookup_eq_none_iff, not_not]
  constructor
  · intro hlt
    by_contra hmem
    have hall : remove key k items = items := by
      refine List.filter_eq_self.mpr fun a ha => ?_
      rw [decide_eq_true_eq]
      rintro rfl
      exact hmem (List.mem_map_of_mem ha)
    rw [hall] at hlt
    exact Nat.lt_irrefl _ hlt
  · intro hmem
    obtain ⟨a, ha, rfl⟩ := List.mem_map.mp hmem
    refine Nat.lt_of_le_of_ne (List.length_filter_le _ _) fun heq => ?_
    have hall := List.length_filter_eq_length_iff.mp heq a ha
    simp at hall

theorem filterMap_lookup {ids : List κ} {items : List α} (hsub : (items.map key).Sublist ids)
    (hnodup : ids.Nodup) : ids.filterMap (lookup key items) = items := by
  induction ids generalizing items with
  | nil =>
      obtain rfl := List.map_eq_nil_iff.mp (List.sublist_nil.mp hsub)
      rfl
  | cons id ids ih =>
      obtain ⟨hid, hrest⟩ := List.nodup_cons.mp hnodup
      cases items with
      | nil => exact List.filterMap_eq_nil_iff.mpr fun _ _ => rfl
      | cons a items =>
          rw [List.map_cons] at hsub
          cases hsub with
          | cons _ hsub =>
              have hnone : lookup key (a :: items) id = none :=
                lookup_eq_none_iff.mpr fun hmem => hid (hsub.subset hmem)
              rw [List.filterMap_cons_none hnone]
              exact ih hsub hrest
          | cons_cons _ hsub =>
              have hsome : lookup key (a :: items) (key a) = some a := by
                rw [lookup_cons, if_pos rfl]
              rw [List.filterMap_cons_some hsome]
              refine congrArg _ (Eq.trans ?_ (ih hsub hrest))
              apply List.filterMap_congr
              intro id' hid'
              rw [lookup_cons, if_neg]
              rintro rfl
              exact hid hid'

end SmppHerald.KeyedList
