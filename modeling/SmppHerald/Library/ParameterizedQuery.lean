import Mathlib.Data.List.Basic
import Mathlib.Data.List.Nodup

/-!
Conditions of the form `column = $n`, with a list of bound values that the placeholders number from
one on, and how they are built from criteria some of which are not given.
-/

namespace SmppHerald.ParameterizedQuery

variable {V : Type}

/-- A column that a value may be asked for. -/
abbrev Criterion (V : Type) := String × Option V

/-- The conditions, each a column and the number of its placeholder, and the bound values. -/
structure Query (V : Type) where
  conditions : List (String × Nat)
  binds : List V

section Build

/-- The columns of the criteria that are given. -/
def queryFields (criteria : List (Criterion V)) : List String :=
  criteria.filterMap fun criterion => criterion.2.map fun _ => criterion.1

/-- Their values, in the same order. -/
def queryBinds (criteria : List (Criterion V)) : List V := criteria.filterMap Prod.snd

/-- `"{} = ${}"` with the position of the column plus one. -/
def query (criteria : List (Criterion V)) : Query V where
  conditions := (queryFields criteria).map fun field =>
    (field, (queryFields criteria).idxOf field + 1)
  binds := queryBinds criteria

theorem queryFields_cons_some (field : String) (value : V) (criteria : List (Criterion V)) :
    queryFields ((field, some value) :: criteria) = field :: queryFields criteria := rfl

theorem queryFields_cons_none (field : String) (criteria : List (Criterion V)) :
    queryFields ((field, none) :: criteria) = queryFields criteria := rfl

theorem queryBinds_cons_some (field : String) (value : V) (criteria : List (Criterion V)) :
    queryBinds ((field, some value) :: criteria) = value :: queryBinds criteria := rfl

theorem queryBinds_cons_none (field : String) (criteria : List (Criterion V)) :
    queryBinds ((field, none) :: criteria) = queryBinds criteria := rfl

theorem mem_queryFields {criteria : List (Criterion V)} {field : String}
    (h : field ∈ queryFields criteria) : field ∈ criteria.map Prod.fst := by
  obtain ⟨criterion, hcriterion, hfield⟩ := List.mem_filterMap.mp h
  obtain ⟨-, -, rfl⟩ := Option.map_eq_some_iff.mp hfield
  exact List.mem_map_of_mem hcriterion

end Build

section Select

variable [DecidableEq V]

/-- A condition on a column that a row does not have, or with a placeholder that nothing is bound
to, does not hold. -/
def holds (row : String → Option V) (binds : List V) (condition : String × Nat) : Bool :=
  match row condition.1, binds[condition.2 - 1]? with
  | some value, some bound => decide (value = bound)
  | _, _ => false

def Query.selects (q : Query V) (row : String → Option V) : Bool :=
  q.conditions.all (holds row q.binds)

/-- The criteria that are given hold. -/
def Meets (criteria : List (Criterion V)) (row : String → Option V) : Prop :=
  ∀ criterion ∈ criteria, ∀ value, criterion.2 = some value → row criterion.1 = some value

theorem all_holds_iff {criteria : List (Criterion V)} (hnodup : (criteria.map Prod.fst).Nodup)
    (front : List V) (row : String → Option V) :
    ((queryFields criteria).all fun field => holds row (front ++ queryBinds criteria)
        (field, front.length + (queryFields criteria).idxOf field + 1)) = true ↔
      Meets criteria row := by
  induction criteria generalizing front with
  | nil => simp [queryFields, Meets]
  | cons criterion criteria ih =>
      obtain ⟨field, value⟩ := criterion
      rw [List.map_cons, List.nodup_cons] at hnodup
      obtain ⟨hfield, hnodup⟩ := hnodup
      cases value with
      | none =>
          rw [queryFields_cons_none, queryBinds_cons_none, ih hnodup, Meets, Meets,
            List.forall_mem_cons]
          simp
      | some value =>
          have hothers : ∀ other ∈ queryFields criteria,
              (field :: queryFields criteria).idxOf other =
                (queryFields criteria).idxOf other + 1 := by
            intro other hother
            apply List.idxOf_cons_ne
            rintro rfl
            exact hfield (mem_queryFields hother)
          have hthis := ih hnodup (front ++ [value])
          simp only [List.length_append, List.length_singleton, List.append_assoc,
            List.singleton_append] at hthis
          rw [queryFields_cons_some, queryBinds_cons_some, List.all_cons, Bool.and_eq_true,
            Meets, List.forall_mem_cons, ← Meets, ← hthis]
          apply and_congr
          · rw [List.idxOf_cons_self]
            simp only [holds, Nat.add_zero, Nat.add_sub_cancel, List.getElem?_append_right
              (Nat.le_refl _), Nat.sub_self, List.getElem?_cons_zero, Option.some.injEq]
            cases row field with
            | none => simp
            | some found => simp
          · rw [List.all_eq_true, List.all_eq_true]
            apply forall₂_congr
            intro other hother
            rw [hothers other hother, Nat.add_assoc front.length 1, Nat.add_comm 1]

theorem selects_query_iff {criteria : List (Criterion V)}
    (hnodup : (criteria.map Prod.fst).Nodup) (row : String → Option V) :
    (query criteria).selects row = true ↔ Meets criteria row := by
  have h := all_holds_iff hnodup [] row
  simp only [List.nil_append, List.length_nil, Nat.zero_add] at h
  rw [← h, Query.selects, query, List.all_map]
  rfl

end Select

end SmppHerald.ParameterizedQuery
