import Mathlib.Data.List.Rotate
import SmppHerald.Library.Interaction

namespace SmppHerald.Failover

open SmppHerald.Interaction

section Rotation

variable {α ι : Type}

/-- The candidates from an index on, round to the one before it. -/
def goRound (candidates : List α) (start : Nat) : Option (List α) :=
  (List.range candidates.length).mapM fun i => candidates[(start + i) % candidates.length]?

theorem mapM_of_map_eq {f : ι → Option α} {indices : List ι} {values : List α}
    (h : indices.map f = values.map some) : indices.mapM f = some values := by
  induction indices generalizing values with
  | nil =>
      have hnil : values = [] := by simpa using h.symm
      rw [hnil]
      rfl
  | cons i indices ih =>
      cases values with
      | nil => simp at h
      | cons value values =>
          rw [List.map_cons, List.map_cons, List.cons.injEq] at h
          rw [List.mapM_cons, h.1, ih h.2]
          rfl

theorem goRound_eq (candidates : List α) (start : Nat) :
    goRound candidates start = some (candidates.rotate start) := by
  apply mapM_of_map_eq
  apply List.ext_getElem?
  intro i
  rw [List.getElem?_map, List.getElem?_map]
  by_cases hi : i < candidates.length
  · rw [List.getElem?_range hi, List.getElem?_rotate hi, Option.map_some, Nat.add_comm start i,
      List.getElem?_eq_getElem (Nat.mod_lt _ (Nat.zero_lt_of_lt hi)), Option.map_some]
  · rw [List.getElem?_eq_none (by simpa using hi), List.getElem?_eq_none (by simpa using hi)]
    rfl

end Rotation

section Trying

variable {Call α β R : Type} {call : α → Call} {success : R → Option β}

def tryEach (call : α → Call) (success : R → Option β) :
    List α → Prog Call (fun _ => R) (Option β)
  | [] => .ret none
  | candidate :: rest => .act (call candidate) fun reply =>
      match success reply with
      | some result => .ret (some result)
      | none => tryEach call success rest

/-- What was tried, and what came of it. -/
structure Tried (call : α → Call) (success : R → Option β) (candidates : List α)
    (log : List (Event fun _ : Call => R)) (result : Option β) : Prop where
  inOrder : log.map Sigma.fst <+: candidates.map call
  succeeds : ∀ value, result = some value ↔ ∃ front event, log = front ++ [event] ∧
    (∀ e ∈ front, success e.2 = none) ∧ success event.2 = some value
  fails : result = none ↔
    log.map Sigma.fst = candidates.map call ∧ ∀ e ∈ log, success e.2 = none

theorem Tried.nil : Tried call success [] [] none where
  inOrder := List.prefix_rfl
  succeeds value := by simp
  fails := by simp

theorem Tried.first (candidate : α) (rest : List α) {reply : R} {value : β}
    (h : success reply = some value) :
    Tried call success (candidate :: rest) [⟨call candidate, reply⟩] (some value) where
  inOrder := ⟨rest.map call, rfl⟩
  succeeds other := by
    constructor
    · intro hvalue
      exact ⟨[], _, rfl, by simp, h.trans hvalue⟩
    · rintro ⟨front, event, hlog, -, hother⟩
      have hlast := congrArg List.getLast? hlog
      rw [List.getLast?_concat, List.getLast?_singleton] at hlast
      rw [← Option.some.inj hlast] at hother
      exact h.symm.trans hother
  fails := by simp [h]

theorem Tried.cons {candidates : List α} {log : List (Event fun _ : Call => R)} {result : Option β}
    (h : Tried call success candidates log result) (candidate : α) {reply : R}
    (hreply : success reply = none) :
    Tried call success (candidate :: candidates) (⟨call candidate, reply⟩ :: log) result where
  inOrder := by
    rw [List.map_cons, List.map_cons]
    exact (List.prefix_cons_inj _).mpr h.inOrder
  succeeds value := by
    rw [h.succeeds value]
    constructor
    · rintro ⟨front, event, rfl, hfront, hevent⟩
      exact ⟨⟨call candidate, reply⟩ :: front, event, rfl,
        List.forall_mem_cons.mpr ⟨hreply, hfront⟩, hevent⟩
    · rintro ⟨front, event, hlog, hfront, hevent⟩
      cases front with
      | nil =>
          obtain ⟨rfl, -⟩ := List.cons.inj hlog
          rw [hreply] at hevent
          cases hevent
      | cons e front =>
          obtain ⟨rfl, rfl⟩ := List.cons.inj hlog
          exact ⟨front, event, rfl, (List.forall_mem_cons.mp hfront).2, hevent⟩
  fails := by
    rw [h.fails]
    simp [hreply]

/-- Every run of the attempts ends, and tries what it should. -/
theorem tried_of_run {candidates : List α} {log : List (Event fun _ : Call => R)}
    {result : Option (Option β)} (h : Run (tryEach call success candidates) log result) :
    ∃ value, result = some value ∧ Tried call success candidates log value := by
  induction candidates generalizing log with
  | nil =>
      obtain ⟨rfl, rfl⟩ := (run_ret_iff _ _ _).mp h
      exact ⟨none, rfl, .nil⟩
  | cons candidate rest ih =>
      rw [tryEach, run_act_iff] at h
      obtain ⟨reply, others, rfl, hrest⟩ := h
      cases hreply : success reply with
      | some value =>
          simp only [hreply, run_ret_iff] at hrest
          obtain ⟨rfl, rfl⟩ := hrest
          exact ⟨some value, rfl, .first candidate rest hreply⟩
      | none =>
          simp only [hreply] at hrest
          obtain ⟨value, rfl, htried⟩ := ih hrest
          exact ⟨value, rfl, htried.cons candidate hreply⟩

theorem tried_of_run_bind {γ : Type} {candidates : List α} {log : List (Event fun _ : Call => R)}
    {result : Option γ} {rest : Option β → Prog Call (fun _ => R) γ} {f : Option β → γ}
    (hrest : ∀ value, rest value = .ret (f value))
    (h : Run (tryEach call success candidates >>= rest) log result) :
    ∃ value, result = some (f value) ∧ Tried call success candidates log value := by
  rcases (run_bind_iff _ _ _ _).mp h with ⟨hpanic, -⟩ | ⟨value, first, second, rfl, hfirst, hsecond⟩
  · obtain ⟨value, hvalue, -⟩ := tried_of_run hpanic
    cases hvalue
  · obtain ⟨value', hvalue, htried⟩ := tried_of_run hfirst
    obtain rfl := Option.some.inj hvalue
    rw [hrest, run_ret_iff] at hsecond
    obtain ⟨rfl, rfl⟩ := hsecond
    rw [List.append_nil]
    exact ⟨value, rfl, htried⟩

end Trying

end SmppHerald.Failover
