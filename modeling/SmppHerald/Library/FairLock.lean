import Mathlib.Data.List.TakeWhile

namespace SmppHerald.FairLock

/-- The task that has the mutex and those that wait for it. -/
structure Mutex (τ : Type) where
  holder : Option τ
  queue : List τ

namespace Mutex

variable {τ : Type} [DecidableEq τ] {m m' : Mutex τ} {t u : τ}

def free : Mutex τ := ⟨none, []⟩

def ask (m : Mutex τ) (t : τ) : Option (Mutex τ) :=
  if t ∈ m.queue then none else some { m with queue := m.queue ++ [t] }

/-- The mutex is given to the task if it is free and no other has asked before. -/
def grant (m : Mutex τ) (t : τ) : Option (Mutex τ) :=
  match m.holder, m.queue with
  | none, u :: rest => if u = t then some ⟨some t, rest⟩ else none
  | _, _ => none

def release (m : Mutex τ) (t : τ) : Option (Mutex τ) :=
  if m.holder = some t then some { m with holder := none } else none

/-- The task is gone: it does not wait any more, and what it had is free. -/
def leave (m : Mutex τ) (t : τ) : Mutex τ :=
  ⟨m.holder.filter fun u => u ≠ t, m.queue.filter fun u => u ≠ t⟩

theorem ask_eq_some_iff :
    m.ask t = some m' ↔ t ∉ m.queue ∧ m' = { m with queue := m.queue ++ [t] } := by
  simp [ask, eq_comm]

theorem grant_eq_some_iff :
    m.grant t = some m' ↔ m.holder = none ∧ ∃ rest, m.queue = t :: rest ∧ m' = ⟨some t, rest⟩ := by
  obtain ⟨holder, queue⟩ := m
  unfold grant
  cases holder with
  | some u => simp
  | none =>
      cases queue with
      | nil => simp
      | cons u rest =>
          simp only [Option.ite_none_right_eq_some, Option.some.injEq, List.cons.injEq, true_and]
          constructor
          · rintro ⟨rfl, rfl⟩
            exact ⟨rest, ⟨rfl, rfl⟩, rfl⟩
          · rintro ⟨_, ⟨rfl, rfl⟩, rfl⟩
            exact ⟨rfl, rfl⟩

theorem release_eq_some_iff :
    m.release t = some m' ↔ m.holder = some t ∧ m' = { m with holder := none } := by
  simp [release, eq_comm]

theorem holder_leave : (m.leave t).holder = some u ↔ m.holder = some u ∧ u ≠ t := by
  simp [leave, Option.filter_eq_some_iff]

theorem mem_queue_leave : u ∈ (m.leave t).queue ↔ u ∈ m.queue ∧ u ≠ t := by
  simp [leave]

/-- The tasks that have the mutex before the task gets it. -/
def ahead (m : Mutex τ) (t : τ) : List τ :=
  m.holder.toList ++ m.queue.takeWhile fun u => u ≠ t

theorem ahead_ask (ht : t ∈ m.queue) (h : m.ask u = some m') : m'.ahead t = m.ahead t := by
  obtain ⟨-, rfl⟩ := ask_eq_some_iff.mp h
  have hall : (m.queue.takeWhile fun u => decide (u ≠ t)).length ≠ m.queue.length := by
    intro hlength
    have hprefix := (List.takeWhile_prefix (fun u => decide (u ≠ t))).eq_of_length hlength
    rw [List.takeWhile_eq_self_iff] at hprefix
    simpa using hprefix t ht
  rw [ahead, ahead, List.takeWhile_append, if_neg hall]

theorem ahead_ask_self (h : m.ask t = some m') : m'.ahead t = m.holder.toList ++ m.queue := by
  obtain ⟨hnotMem, rfl⟩ := ask_eq_some_iff.mp h
  have hall : ∀ u ∈ m.queue, decide (u ≠ t) = true := by
    intro u hu
    rw [decide_eq_true_iff]
    rintro rfl
    exact hnotMem hu
  rw [ahead, List.takeWhile_append_of_pos hall]
  simp

theorem ahead_grant (ht : t ≠ u) (h : m.grant u = some m') : m'.ahead t = m.ahead t := by
  obtain ⟨hholder, rest, hqueue, rfl⟩ := grant_eq_some_iff.mp h
  simp [ahead, hholder, hqueue, ht.symm]

theorem mem_ahead_of_release (h : m.release u = some m') {v : τ} (hv : v ∈ m'.ahead t) :
    v ∈ m.ahead t := by
  obtain ⟨-, rfl⟩ := release_eq_some_iff.mp h
  exact List.mem_append_right _ hv

theorem takeWhile_filter_sublist {α : Type} {p q : α → Bool} (h : ∀ u, q u = false → p u = true)
    (queue : List α) : ((queue.filter p).takeWhile q).Sublist (queue.takeWhile q) := by
  induction queue with
  | nil => exact .refl _
  | cons u queue ih =>
      cases hp : p u with
      | true =>
          rw [List.filter_cons_of_pos hp, List.takeWhile_cons, List.takeWhile_cons]
          cases q u with
          | true => exact ih.cons_cons u
          | false => exact .refl _
      | false =>
          have hq : q u = true := by
            by_contra hstop
            rw [Bool.not_eq_true] at hstop
            rw [h u hstop] at hp
            cases hp
          rw [List.filter_cons_of_neg (by simp [hp]), List.takeWhile_cons_of_pos hq]
          exact ih.cons u

theorem mem_ahead_of_leave (ht : t ≠ u) {v : τ} (hv : v ∈ (m.leave u).ahead t) :
    v ∈ m.ahead t ∧ v ≠ u := by
  rcases List.mem_append.mp hv with hholder | hqueue
  · obtain ⟨hhas, hne⟩ := holder_leave.mp (Option.mem_toList.mp hholder)
    exact ⟨List.mem_append_left _ (Option.mem_toList.mpr hhas), hne⟩
  · have hstays : ∀ v, decide (v ≠ t) = false → decide (v ≠ u) = true := by
      intro v hv
      rw [decide_eq_false_iff_not, not_not] at hv
      rw [hv]
      exact decide_eq_true ht
    have hbefore := (takeWhile_filter_sublist hstays m.queue).subset hqueue
    have hmem : v ∈ (m.leave u).queue := (List.takeWhile_sublist _).subset hqueue
    exact ⟨List.mem_append_right _ hbefore, (mem_queue_leave.mp hmem).2⟩

end Mutex

end SmppHerald.FairLock
