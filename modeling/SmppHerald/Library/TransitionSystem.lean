import Mathlib.Data.List.Induction

namespace SmppHerald.TransitionSystem

/-- `step` has no result where the event cannot happen. -/
structure System (State Event : Type) where
  initial : State
  step : State → Event → Option State

namespace System

variable {State Event : Type} (system : System State Event)

/-- The states that runs come to whose events are all allowed. -/
inductive Reaches (allowed : State → Event → Prop) : State → Prop
  | initial : Reaches allowed system.initial
  | step {s s' : State} {e : Event} :
      Reaches allowed s → allowed s e → system.step s e = some s' → Reaches allowed s'

/-- The states that any run comes to. -/
abbrev Reachable : State → Prop := system.Reaches fun _ _ => True

/-- The state after a list of events. -/
def run (events : List Event) : Option State := events.foldlM system.step system.initial

/-- The state after a list of events that are all allowed. -/
def runAllowed (allowed : State → Event → Bool) (events : List Event) : Option State :=
  events.foldlM (fun s e => if allowed s e = true then system.step s e else none) system.initial

variable {system}

theorem Reaches.invariant {allowed : State → Event → Prop} {Inv : State → Prop}
    (hinitial : Inv system.initial)
    (hstep : ∀ s e s', Inv s → allowed s e → system.step s e = some s' → Inv s')
    {s : State} (h : system.Reaches allowed s) : Inv s := by
  induction h with
  | initial => exact hinitial
  | step _ hallowed hnext ih => exact hstep _ _ _ ih hallowed hnext

theorem Reaches.mono {allowed allowed' : State → Event → Prop}
    (hallowed : ∀ s e, allowed s e → allowed' s e) {s : State}
    (h : system.Reaches allowed s) : system.Reaches allowed' s :=
  h.invariant .initial fun _ _ _ ih hguard hnext => ih.step (hallowed _ _ hguard) hnext

theorem Reaches.foldlM {allowed : State → Event → Prop} {next : State → Event → Option State}
    (hnext : ∀ s e s', next s e = some s' → allowed s e ∧ system.step s e = some s')
    (events : List Event) {s s' : State} (h : system.Reaches allowed s)
    (hrun : events.foldlM next s = some s') : system.Reaches allowed s' := by
  induction events generalizing s with
  | nil =>
      obtain rfl : s = s' := by simpa using hrun
      exact h
  | cons e events ih =>
      rw [List.foldlM_cons] at hrun
      cases hmid : next s e with
      | none => simp [hmid] at hrun
      | some mid =>
          obtain ⟨hguard, hstep⟩ := hnext s e mid hmid
          exact ih (h.step hguard hstep) (by simpa [hmid] using hrun)

theorem run_concat (events : List Event) (e : Event) :
    system.run (events ++ [e]) = (system.run events).bind fun s => system.step s e := by
  rw [run, List.foldlM_append]
  apply congrArg
  funext s
  rw [List.foldlM_cons]
  cases system.step s e <;> rfl

theorem reachable_of_run {events : List Event} {s : State} (h : system.run events = some s) :
    system.Reachable s :=
  Reaches.foldlM (fun _ _ _ hnext => ⟨trivial, hnext⟩) events .initial h

theorem reaches_of_run {allowed : State → Event → Prop} {events : List Event} {s : State}
    (hallowed : ∀ e ∈ events, ∀ s, allowed s e) (h : system.run events = some s) :
    system.Reaches allowed s := by
  induction events using List.reverseRecOn generalizing s with
  | nil =>
      obtain rfl : system.initial = s := by simpa [run] using h
      exact .initial
  | append_singleton events e ih =>
      rw [run_concat, Option.bind_eq_some_iff] at h
      obtain ⟨mid, hmid, hstep⟩ := h
      refine (ih ?_ hmid).step (hallowed e (by simp) mid) hstep
      exact fun e' he' => hallowed e' (List.mem_append_left _ he')

theorem reaches_of_runAllowed {allowed : State → Event → Bool} {events : List Event} {s : State}
    (h : system.runAllowed allowed events = some s) :
    system.Reaches (fun s e => allowed s e = true) s := by
  refine Reaches.foldlM ?_ events .initial h
  intro s e s' hnext
  split at hnext
  · rename_i hguard
    exact ⟨hguard, hnext⟩
  · simp at hnext

end System

end SmppHerald.TransitionSystem
