import SmppHerald.Json
import SmppHerald.Library.Callbacks
import SmppHerald.Library.TransitionSystem

namespace SmppHerald.ResponseManagers

open SmppHerald.Callbacks
open SmppHerald.Json
open SmppHerald.TransitionSystem

/-- The two managers differ in how a wait looks at its timer. `tokio::time::timeout` of the client
looks for the response first, and `select!` of the server begins with either. Only the server takes
the callback out of the map when the timer has elapsed. -/
inductive Manager
  | responseManager
  | transactionResponseManager
deriving DecidableEq, Repr

/-- The hash map of senders with the waits on their receivers; which timers have elapsed; and which
waits have found no response since they last looked at their timer. -/
structure ManagerState where
  table : Table UInt32 Value
  elapsed : Nat → Bool
  missed : Nat → Bool

/-- Either manager, before anything was registered. -/
def ManagerState.new : ManagerState := ⟨.empty, fun _ => false, fun _ => false⟩

/-- What happens to a manager: a wait is registered, a response is received, a wait looks for its
response or at its timer, a timer elapses, and a wait whose timer has elapsed takes its callback out
and returns. -/
inductive ManagerEvent
  | register (sequenceNumber : UInt32)
  | responseReceived (sequenceNumber : UInt32) (response : Value)
  | pollReceiver (wait : Nat)
  | pollTimer (wait : Nat)
  | elapse (wait : Nat)
  | removed (wait : Nat)

def registers : ManagerEvent → Bool
  | .register _ => true
  | _ => false

namespace ManagerState

def waitIs (s : ManagerState) (wait : Nat) (status : Status) : Bool :=
  (s.table.waits wait).any fun w => w.status = status

def pollReceiver (s : ManagerState) (wait : Nat) : ManagerState :=
  { s with table := s.table.take wait, missed := Function.update s.missed wait true }

def pollTimer (manager : Manager) (s : ManagerState) (wait : Nat) : ManagerState :=
  if s.elapsed wait = true then
    match manager with
    | .responseManager => { s with table := s.table.expire wait .expired }
    | .transactionResponseManager => { s with table := s.table.expire wait .expiring }
  else { s with missed := Function.update s.missed wait false }

def step (manager : Manager) (s : ManagerState) : ManagerEvent → Option ManagerState
  | .register sequenceNumber => some { s with table := s.table.register sequenceNumber }
  | .responseReceived sequenceNumber response =>
      some { s with table := s.table.deliver sequenceNumber response }
  | .pollReceiver wait => if s.waitIs wait .waiting = true then some (s.pollReceiver wait) else none
  | .pollTimer wait =>
      if s.waitIs wait .waiting = true ∧
          (manager = .responseManager → s.missed wait = true) then some (s.pollTimer manager wait)
      else none
  | .elapse wait => some { s with elapsed := Function.update s.elapsed wait true }
  | .removed wait => do
      let w ← s.table.waits wait
      if w.status = .expiring then some { s with table := s.table.forget wait w } else none

/-- A wait is registered only if no wait with its number has yet to return. -/
def distinct (s : ManagerState) : ManagerEvent → Bool
  | .register sequenceNumber => (List.range s.table.size).all fun wait =>
      (s.table.waits wait).all fun w => decide (¬ (w.Open ∧ w.key = sequenceNumber))
  | _ => true

/-- A wait whose timer has elapsed does not look at it while it has a response to take. -/
def patient (s : ManagerState) : ManagerEvent → Bool
  | .pollTimer wait => !s.elapsed wait || (s.table.waits wait).all fun w => w.sent.isNone
  | _ => true

end ManagerState

def managerSystem (manager : Manager) : System ManagerState ManagerEvent where
  initial := .new
  step := ManagerState.step manager

section Runs

variable {manager : Manager} {s s' : ManagerState} {e : ManagerEvent}

theorem fresh_of_distinct (h : Sound s.table) {sequenceNumber : UInt32}
    (hdistinct : s.distinct (.register sequenceNumber) = true) : Fresh s.table sequenceNumber := by
  intro i w hw hopen hkey
  simp only [ManagerState.distinct, List.all_eq_true, List.mem_range] at hdistinct
  have hwait := hdistinct i (h.keyed.bounded i w hw)
  rw [hw] at hwait
  simp [hopen, hkey] at hwait

/-- What an event does to the hash map and the waits. -/
inductive TableMove (s : ManagerState) : ManagerEvent → Table UInt32 Value → Prop
  | register (sequenceNumber : UInt32) :
      TableMove s (.register sequenceNumber) (s.table.register sequenceNumber)
  | responseReceived (sequenceNumber : UInt32) (response : Value) :
      TableMove s (.responseReceived sequenceNumber response)
        (s.table.deliver sequenceNumber response)
  | take (wait : Nat) : TableMove s (.pollReceiver wait) (s.table.take wait)
  | expire {wait : Nat} {status : Status} : s.elapsed wait = true →
      GivesUp status →
      TableMove s (.pollTimer wait) (s.table.expire wait status)
  | forget {wait : Nat} {w : Wait UInt32 Value} : s.table.waits wait = some w →
      w.status = .expiring → TableMove s (.removed wait) (s.table.forget wait w)
  | none {e : ManagerEvent} : registers e = false → TableMove s e s.table

theorem tableMove_of_step (hstep : s.step manager e = some s') : TableMove s e s'.table := by
  cases e with
  | register sequenceNumber =>
      obtain rfl := Option.some.inj hstep
      exact .register sequenceNumber
  | responseReceived sequenceNumber response =>
      obtain rfl := Option.some.inj hstep
      exact .responseReceived sequenceNumber response
  | pollReceiver wait =>
      simp only [ManagerState.step, Option.ite_none_right_eq_some] at hstep
      obtain ⟨-, hs'⟩ := hstep
      obtain rfl := Option.some.inj hs'
      exact .take wait
  | pollTimer wait =>
      simp only [ManagerState.step, Option.ite_none_right_eq_some] at hstep
      obtain ⟨-, hs'⟩ := hstep
      obtain rfl := Option.some.inj hs'
      unfold ManagerState.pollTimer
      split
      · rename_i helapsed
        cases manager with
        | responseManager => exact .expire helapsed (.inr rfl)
        | transactionResponseManager => exact .expire helapsed (.inl rfl)
      · exact .none rfl
  | elapse wait =>
      obtain rfl := Option.some.inj hstep
      exact .none rfl
  | removed wait =>
      simp only [ManagerState.step, Option.bind_eq_bind, Option.bind_eq_some_iff,
        Option.ite_none_right_eq_some] at hstep
      obtain ⟨w, hw, hexpiring, hs'⟩ := hstep
      obtain rfl := Option.some.inj hs'
      exact .forget hw hexpiring

theorem TableMove.keyed {table : Table UInt32 Value} (h : TableMove s e table)
    (hkeyed : Keyed s.table) : Keyed table := by
  cases h with
  | register sequenceNumber => exact hkeyed.register sequenceNumber
  | responseReceived sequenceNumber response => exact hkeyed.deliver sequenceNumber response
  | take wait => exact hkeyed.take wait
  | expire _ hstatus => exact hkeyed.expire _ hstatus
  | forget _ _ => exact hkeyed.forget _ _
  | none _ => exact hkeyed

theorem TableMove.sound {table : Table UInt32 Value} (h : TableMove s e table)
    (hsound : Sound s.table) (hdistinct : s.distinct e = true) : Sound table := by
  cases h with
  | register sequenceNumber => exact hsound.register (fresh_of_distinct hsound hdistinct)
  | responseReceived sequenceNumber response => exact hsound.deliver sequenceNumber response
  | take wait => exact hsound.take wait
  | expire _ hstatus => exact hsound.expire _ hstatus
  | forget hw hexpiring => exact hsound.forget hw hexpiring
  | none _ => exact hsound

theorem TableMove.patient {table : Table UInt32 Value} (h : TableMove s e table)
    (hsound : Sound s.table) (hbefore : Patient s.table) (hpatient : s.patient e = true) :
    Patient table := by
  cases h with
  | register sequenceNumber => exact hbefore.register sequenceNumber
  | responseReceived sequenceNumber response => exact hbefore.deliver hsound sequenceNumber response
  | take wait => exact hbefore.take wait
  | @expire wait status helapsed _ =>
      refine hbefore.expire status fun w hw _ => ?_
      simpa [ManagerState.patient, helapsed, hw] using hpatient
  | forget _ _ => exact hbefore.forget _ _
  | none _ => exact hbefore

theorem TableMove.present {table : Table UInt32 Value} (h : TableMove s e table)
    (hpresent : Present s.table) : Present table := by
  cases h with
  | register sequenceNumber => exact hpresent.register sequenceNumber
  | responseReceived sequenceNumber response => exact hpresent.deliver sequenceNumber response
  | take wait => exact hpresent.take wait
  | expire _ hstatus => exact hpresent.expire _ hstatus
  | forget _ _ => exact hpresent.forget _ _
  | none _ => exact hpresent

theorem TableMove.sent {table : Table UInt32 Value} (h : TableMove s e table)
    (hresponse : ∀ sequenceNumber response, e ≠ .responseReceived sequenceNumber response)
    (hkeyed : Keyed s.table) {i : Nat} {w w' : Wait UInt32 Value} (hw : s.table.waits i = some w)
    (hw' : table.waits i = some w') : w'.sent = w.sent := by
  have hmodified : ∀ {f : Wait UInt32 Value → Wait UInt32 Value} {j}, (∀ w, (f w).sent = w.sent) →
      (s.table.modify j f).waits i = some w' → w'.sent = w.sent := by
    intro f j hf hw'
    obtain ⟨w₀, hw₀, rfl⟩ := waits_modify_eq_some_iff.mp hw'
    obtain rfl := Option.some.inj (hw.symm.trans hw₀)
    rw [apply_ite Wait.sent, hf, ite_self]
  have hremoved : ∀ {k w'}, (s.table.remove k Wait.orphan).waits i = some w' → w'.sent = w.sent := by
    intro k w' hw'
    obtain ⟨w₀, hw₀, rfl⟩ := waits_remove_eq_some_iff.mp hw'
    obtain rfl := Option.some.inj (hw.symm.trans hw₀)
    rw [apply_ite Wait.sent, Wait.orphan, ite_self]
  cases h with
  | register sequenceNumber =>
      rcases waits_add_eq_some_iff.mp hw' with ⟨hi, -⟩ | ⟨-, hw'⟩
      · rw [size_remove] at hi
        exact absurd hi (Nat.ne_of_lt (hkeyed.bounded i w hw))
      · exact hremoved hw'
  | responseReceived sequenceNumber response => exact absurd rfl (hresponse _ _)
  | take wait => exact hmodified (fun w => (keeps_take w).sent) hw'
  | expire _ hstatus => exact hmodified (fun w => (keeps_expire w _ hstatus).sent) hw'
  | forget _ _ =>
      obtain ⟨w₀, hw₀, rfl⟩ := waits_modify_eq_some_iff.mp hw'
      rw [apply_ite Wait.sent, (keeps_returned w₀).sent, ite_self, hremoved hw₀]
  | none _ => rw [Option.some.inj (hw'.symm.trans hw)]

theorem TableMove.evolves {table : Table UInt32 Value} (h : TableMove s e table)
    (hkeyed : Keyed s.table) {i : Nat} {w : Wait UInt32 Value} (hw : s.table.waits i = some w) :
    ∃ w', table.waits i = some w' ∧ Evolves w w' := by
  cases h with
  | register sequenceNumber => exact evolves_register hkeyed sequenceNumber hw
  | responseReceived _ _ => exact evolves_remove (evolves_accept _) hw
  | take wait => exact evolves_modify evolves_take hw
  | expire _ _ => exact evolves_modify (evolves_expire _ _) hw
  | forget _ _ => exact evolves_forget hw
  | none _ => exact ⟨w, hw, evolves_self w⟩

theorem TableMove.deliveries {table : Table UInt32 Value} (h : TableMove s e table)
    (hresponse : ∀ sequenceNumber response, e ≠ .responseReceived sequenceNumber response) :
    table.deliveries = s.table.deliveries := by
  cases h with
  | register sequenceNumber => exact deliveries_remove sequenceNumber
  | responseReceived sequenceNumber response => exact absurd rfl (hresponse _ _)
  | take wait => rfl
  | expire _ _ => rfl
  | forget _ _ => exact deliveries_remove _
  | none _ => rfl

theorem TableMove.pending {table : Table UInt32 Value} (h : TableMove s e table) {i : Nat}
    (hi : i < s.table.size) (hpending : table.pending i = true) : s.table.pending i = true := by
  cases h with
  | register sequenceNumber => exact pending_of_register hi hpending
  | responseReceived sequenceNumber response => exact pending_of_deliver hpending
  | take wait => exact pending_of_modify (fun _ => pending_of_take) hpending
  | expire _ hstatus => exact pending_of_modify (fun _ => pending_of_expire hstatus) hpending
  | forget _ _ =>
      exact pending_of_remove (fun _ => pending_of_orphan)
        (pending_of_modify (fun _ => pending_of_returned) hpending)
  | none _ => exact hpending

theorem TableMove.size_le {table : Table UInt32 Value} (h : TableMove s e table) :
    s.table.size ≤ table.size := by
  cases h with
  | register sequenceNumber => simp [size_register]
  | responseReceived sequenceNumber response => exact Nat.le_of_eq (size_remove sequenceNumber).symm
  | take wait => exact Nat.le_refl _
  | expire _ _ => exact Nat.le_refl _
  | forget _ _ => exact Nat.le_of_eq (size_remove _).symm
  | none _ => exact Nat.le_refl _

theorem keyed_of_reachable (h : (managerSystem manager).Reachable s) : Keyed s.table := by
  refine @System.Reaches.invariant _ _ _ _ (fun s => Keyed s.table) keyed_empty ?_ _ h
  intro s e s' hkeyed _ hstep
  exact (tableMove_of_step hstep).keyed hkeyed

theorem sound_of_reaches (h : (managerSystem manager).Reaches (fun s e => s.distinct e = true) s) :
    Sound s.table :=
  h.invariant sound_empty fun _ _ _ hsound hdistinct hstep =>
    (tableMove_of_step hstep).sound hsound hdistinct

theorem patient_of_reaches (h : (managerSystem manager).Reaches
    (fun s e => s.distinct e = true ∧ s.patient e = true) s) : Patient s.table := by
  have hinitial : Sound (managerSystem manager).initial.table ∧
      Patient (managerSystem manager).initial.table := ⟨sound_empty, patient_empty⟩
  have hboth : Sound s.table ∧ Patient s.table := by
    refine @System.Reaches.invariant _ _ _ _ (fun s => Sound s.table ∧ Patient s.table) hinitial
      ?_ _ h
    rintro s e s' ⟨hsound, hbefore⟩ ⟨hdistinct, hpatient⟩ hstep
    have hmove := tableMove_of_step hstep
    exact ⟨hmove.sound hsound hdistinct, hmove.patient hsound hbefore hpatient⟩
  exact hboth.2

end Runs

section Allocation

/-- `SequenceNumberAllocator`: the counter wraps around. -/
structure SequenceNumberAllocator where
  current : UInt32

def SequenceNumberAllocator.new : SequenceNumberAllocator := ⟨0⟩

def SequenceNumberAllocator.next (allocator : SequenceNumberAllocator) :
    UInt32 × SequenceNumberAllocator :=
  (allocator.current, ⟨allocator.current + 1⟩)

/-- A manager whose numbers come from the allocator. `numbers` has what the allocator gave out, and
`origins` says for every wait which of these its number is. -/
structure AllocatingState where
  manager : ManagerState
  allocator : SequenceNumberAllocator
  numbers : List UInt32
  origins : List Nat

/-- The allocator gives out a number, a wait is registered with a number that was given out and not
used yet, or something else happens to the manager. -/
inductive AllocatingEvent
  | next
  | register (allocation : Nat)
  | other (e : ManagerEvent)

namespace AllocatingState

def step (manager : Manager) (s : AllocatingState) : AllocatingEvent → Option AllocatingState
  | .next =>
      let (number, allocator) := s.allocator.next
      some { s with allocator := allocator, numbers := s.numbers ++ [number] }
  | .register allocation => do
      let number ← s.numbers[allocation]?
      let s' ← s.manager.step manager (.register number)
      if allocation ∈ s.origins then none
      else some { s with manager := s', origins := s.origins ++ [allocation] }
  | .other e => do
      let s' ← s.manager.step manager e
      if registers e = true then none else some { s with manager := s' }

/-- Fewer than 2^32 numbers have been given out since the number of a wait that has not returned,
and since the number of a wait that is registered. -/
def recent (s : AllocatingState) : AllocatingEvent → Bool
  | .register allocation => decide (s.numbers.length ≤ allocation + 2 ^ 32) &&
      (List.range s.origins.length).all fun wait =>
        (s.manager.table.waits wait).all fun w =>
          !decide w.Open || decide (s.numbers.length ≤ s.origins.getD wait 0 + 2 ^ 32)
  | _ => true

end AllocatingState

def allocatingSystem (manager : Manager) : System AllocatingState AllocatingEvent where
  initial := ⟨.new, .new, [], []⟩
  step := AllocatingState.step manager

/-- The numbers are given out in order, and every wait has its own. -/
structure Allocated (s : AllocatingState) : Prop where
  current : s.allocator.current = UInt32.ofNat s.numbers.length
  numbers : ∀ (a : Nat) (number : UInt32), s.numbers[a]? = some number → number = UInt32.ofNat a
  nodup : s.origins.Nodup
  size : s.manager.table.size = s.origins.length
  keys : ∀ i w, s.manager.table.waits i = some w →
    ∃ a, s.origins[i]? = some a ∧ s.numbers[a]? = some w.key

theorem ofNat_ne_ofNat {a b : Nat} (hne : a ≠ b) (ha : a < b + 2 ^ 32) (hb : b < a + 2 ^ 32) :
    UInt32.ofNat a ≠ UInt32.ofNat b := by
  intro h
  have hmod := congrArg UInt32.toNat h
  simp only [UInt32.toNat_ofNat'] at hmod
  omega

theorem TableMove.waits {s : ManagerState} {e : ManagerEvent} {table : Table UInt32 Value}
    (h : TableMove s e table) (hother : registers e = false) :
    table.size = s.table.size ∧ ∀ i w, table.waits i = some w →
      ∃ w', s.table.waits i = some w' ∧ w'.key = w.key := by
  cases h with
  | register => simp [registers] at hother
  | responseReceived sequenceNumber response =>
      exact ⟨size_remove _, fun i w => key_remove fun w => accept_key _ w⟩
  | take wait => exact ⟨rfl, fun i w => key_modify fun w => (keeps_take w).key⟩
  | expire _ hstatus => exact ⟨rfl, fun i w => key_modify fun w => (keeps_expire w _ hstatus).key⟩
  | forget _ _ =>
      refine ⟨size_remove _, fun i w hw => ?_⟩
      obtain ⟨w', hw', hkey⟩ := key_modify (fun w => (keeps_returned w).key) hw
      obtain ⟨w'', hw'', hkey'⟩ := @key_remove _ _ _ _ Wait.orphan _ _ _ (fun _ => rfl) hw'
      exact ⟨w'', hw'', hkey'.trans hkey⟩
  | none _ => exact ⟨rfl, fun i w hw => ⟨w, hw, rfl⟩⟩

theorem Allocated.distinct {s : AllocatingState} (h : Allocated s) {allocation : Nat}
    {number : UInt32} (hnumber : s.numbers[allocation]? = some number)
    (hunused : allocation ∉ s.origins) (hrecent : s.recent (.register allocation) = true) :
    s.manager.distinct (.register number) = true := by
  simp only [AllocatingState.recent, Bool.and_eq_true, decide_eq_true_eq, List.all_eq_true,
    List.mem_range] at hrecent
  obtain ⟨hown, hothers⟩ := hrecent
  simp only [ManagerState.distinct, List.all_eq_true, List.mem_range]
  intro i hi
  rw [h.size] at hi
  have hwait := hothers i hi
  cases hw : s.manager.table.waits i with
  | none => rfl
  | some w =>
      obtain ⟨origin, horigin, hkey⟩ := h.keys i w hw
      rw [hw] at hwait
      simp only [Option.all_some, Bool.or_eq_true, Bool.not_eq_true', decide_eq_false_iff_not,
        decide_eq_true_eq, List.getD_eq_getElem?_getD, horigin, Option.getD_some] at hwait
      simp only [Option.all_some, decide_eq_true_eq]
      rintro ⟨hopen, rfl⟩
      have hlength : s.numbers.length ≤ origin + 2 ^ 32 := hwait.resolve_left (not_not_intro hopen)
      have horiginLt := (List.getElem?_eq_some_iff.mp hkey).1
      have hallocationLt := (List.getElem?_eq_some_iff.mp hnumber).1
      have hne : allocation ≠ origin := by
        rintro rfl
        exact hunused (List.mem_of_getElem? horigin)
      refine ofNat_ne_ofNat hne (by omega) (by omega) ?_
      rw [← h.numbers _ _ hnumber, ← h.numbers _ _ hkey]

theorem Allocated.step {manager : Manager} {s s' : AllocatingState} {e : AllocatingEvent}
    (h : Allocated s) (hstep : s.step manager e = some s') : Allocated s' := by
  cases e with
  | next =>
      obtain rfl := Option.some.inj hstep
      refine ⟨?_, ?_, h.nodup, h.size, ?_⟩
      · change s.allocator.current + 1 = UInt32.ofNat (s.numbers ++ [_]).length
        rw [h.current, List.length_append, List.length_singleton, UInt32.ofNat_add]
        rfl
      · intro a number hnumber
        change (s.numbers ++ [s.allocator.current])[a]? = some number at hnumber
        rw [List.getElem?_append] at hnumber
        split_ifs at hnumber with hlt
        · exact h.numbers a number hnumber
        · obtain ⟨ha, hlast⟩ := List.getElem?_eq_some_iff.mp hnumber
          rw [List.getElem_singleton] at hlast
          rw [List.length_singleton] at ha
          rw [← hlast, h.current, show a = s.numbers.length by omega]
      · intro i w hw
        obtain ⟨a, horigin, hkey⟩ := h.keys i w hw
        refine ⟨a, horigin, ?_⟩
        change (s.numbers ++ [_])[a]? = _
        rw [List.getElem?_append_left (List.getElem?_eq_some_iff.mp hkey).1]
        exact hkey
  | register allocation =>
      simp only [AllocatingState.step, Option.bind_eq_bind, Option.bind_eq_some_iff,
        Option.ite_none_left_eq_some] at hstep
      obtain ⟨number, hnumber, s₁, hs₁, hunused, hs'⟩ := hstep
      obtain rfl := Option.some.inj hs'
      obtain rfl := Option.some.inj hs₁
      refine ⟨h.current, h.numbers, ?_, ?_, ?_⟩
      · refine List.nodup_append.mpr ⟨h.nodup, by simp, ?_⟩
        rintro a ha b hb rfl
        rw [List.mem_singleton] at hb
        exact hunused (hb ▸ ha)
      · change (s.manager.table.register number).size = (s.origins ++ [_]).length
        rw [size_register, h.size, List.length_append, List.length_singleton]
      · intro i w hw
        rcases key_register hw with ⟨rfl, rfl⟩ | ⟨w', hw', hkey⟩
        · refine ⟨allocation, ?_, hnumber⟩
          rw [h.size, List.getElem?_append_right (Nat.le_refl _), Nat.sub_self]
          rfl
        · obtain ⟨a, horigin, hkey'⟩ := h.keys i w' hw'
          refine ⟨a, ?_, hkey ▸ hkey'⟩
          rw [List.getElem?_append_left (List.getElem?_eq_some_iff.mp horigin).1]
          exact horigin
  | other e =>
      simp only [AllocatingState.step, Option.bind_eq_bind, Option.bind_eq_some_iff,
        Option.ite_none_left_eq_some, Bool.not_eq_true] at hstep
      obtain ⟨s₁, hs₁, hother, hs'⟩ := hstep
      obtain rfl := Option.some.inj hs'
      obtain ⟨hsize, hkeys⟩ := (tableMove_of_step hs₁).waits hother
      refine ⟨h.current, h.numbers, h.nodup, hsize.trans h.size, ?_⟩
      intro i w hw
      obtain ⟨w', hw', hkey⟩ := hkeys i w hw
      obtain ⟨a, horigin, hnumber⟩ := h.keys i w' hw'
      exact ⟨a, horigin, hkey ▸ hnumber⟩

theorem distinct_of_not_registers {s : ManagerState} {e : ManagerEvent}
    (h : registers e = false) : s.distinct e = true := by
  cases e with
  | register => simp [registers] at h
  | _ => rfl

/-- While fewer than 2^32 numbers are given out during each wait, no two waits have the same. -/
theorem distinct_of_recent {manager : Manager} {s : AllocatingState}
    (h : (allocatingSystem manager).Reaches (fun s e => s.recent e = true) s) :
    (managerSystem manager).Reaches (fun s e => s.distinct e = true) s.manager ∧ Allocated s := by
  induction h with
  | initial => exact ⟨.initial, rfl, by simp [allocatingSystem], by simp [allocatingSystem], rfl,
      by simp [allocatingSystem, ManagerState.new, Table.empty]⟩
  | @step s s' e _ hrecent hstep ih =>
      obtain ⟨hreaches, hallocated⟩ := ih
      refine ⟨?_, hallocated.step hstep⟩
      cases e with
      | next =>
          obtain rfl := Option.some.inj hstep
          exact hreaches
      | register allocation =>
          simp only [allocatingSystem, AllocatingState.step, Option.bind_eq_bind,
            Option.bind_eq_some_iff, Option.ite_none_left_eq_some] at hstep
          obtain ⟨number, hnumber, s₁, hs₁, hunused, hs'⟩ := hstep
          obtain rfl := Option.some.inj hs'
          exact hreaches.step (hallocated.distinct hnumber hunused hrecent) hs₁
      | other e =>
          simp only [allocatingSystem, AllocatingState.step, Option.bind_eq_bind,
            Option.bind_eq_some_iff, Option.ite_none_left_eq_some, Bool.not_eq_true] at hstep
          obtain ⟨s₁, hs₁, hother, hs'⟩ := hstep
          obtain rfl := Option.some.inj hs'
          exact hreaches.step (distinct_of_not_registers hother) hs₁

end Allocation

section Matching

/-- A wait completes only with what was received for its number after its registration, and no two
with the same. While waits that are pending have different numbers, and no wait looks at its timer
when it has a response to take, the first response for its number completes it; and their numbers
are different as long as fewer than 2^32 are given out during a wait. -/
theorem responses_matched (manager : Manager) :
    (∀ s, (managerSystem manager).Reachable s → Answered s.table) ∧
      (∀ s, (managerSystem manager).Reaches
        (fun s e => s.distinct e = true ∧ s.patient e = true) s → Prompt s.table) ∧
      ∀ s, (allocatingSystem manager).Reaches (fun s e => s.recent e = true) s →
        (managerSystem manager).Reaches (fun s e => s.distinct e = true) s.manager := by
  refine ⟨fun s h => (keyed_of_reachable h).answered, fun s h => ?_,
    fun s h => (distinct_of_recent h).1⟩
  exact (sound_of_reaches (h.mono fun _ _ hboth => hboth.1)).prompt (patient_of_reaches h)

/-- What is left of a wait that can be compared: its status, and the numbers of what it was sent
and of the first response for it. -/
def observed (s : ManagerState) : Option (Status × Option Nat × Option Nat) :=
  (s.table.waits 0).map fun w =>
    (w.status, w.sent.map Delivery.index, (w.first s.table.deliveries).map Delivery.index)

/-- A wait for the response 7 is registered, and the response comes. -/
def respondedEvents : List ManagerEvent := [.register 7, .responseReceived 7 .null]

theorem responses_matched_completed :
    ∃ s, ((managerSystem .transactionResponseManager).runAllowed
        (fun s e => s.distinct e && s.patient e) (respondedEvents ++ [.pollReceiver 0])).map
          observed = some (some (.completed, some 0, some 0)) ∧
      observed s = some (.completed, some 0, some 0) ∧ Answered s.table ∧ Prompt s.table := by
  have hrun : ((managerSystem .transactionResponseManager).runAllowed
      (fun s e => s.distinct e && s.patient e) (respondedEvents ++ [.pollReceiver 0])).map
        observed = some (some (.completed, some 0, some 0)) := by decide +kernel
  obtain ⟨s, hs, hobserved⟩ := Option.map_eq_some_iff.mp hrun
  have hreaches : (managerSystem .transactionResponseManager).Reaches
      (fun s e => s.distinct e = true ∧ s.patient e = true) s :=
    (System.reaches_of_runAllowed hs).mono fun _ _ hguard => by simpa using hguard
  obtain ⟨hanswered, hprompt, -⟩ := responses_matched .transactionResponseManager
  exact ⟨s, hrun, hobserved, hanswered s (hreaches.mono fun _ _ _ => trivial),
    hprompt s hreaches⟩

/-- The response is there, but the wait looks at its timer first, which has elapsed meanwhile. -/
theorem not_prompt_select :
    ∃ s, (managerSystem .transactionResponseManager).Reaches (fun s e => s.distinct e = true) s ∧
      observed s = some (.expiring, some 0, some 0) ∧ ¬ Prompt s.table := by
  have hrun : ((managerSystem .transactionResponseManager).runAllowed ManagerState.distinct
      (respondedEvents ++ [.elapse 0, .pollTimer 0])).map observed =
        some (some (.expiring, some 0, some 0)) := by decide +kernel
  obtain ⟨s, hs, hobserved⟩ := Option.map_eq_some_iff.mp hrun
  refine ⟨s, System.reaches_of_runAllowed hs, hobserved, ?_⟩
  intro hprompt
  obtain ⟨w, hw, hwait⟩ := Option.map_eq_some_iff.mp hobserved
  simp only [Prod.mk.injEq] at hwait
  obtain ⟨hexpiring, -, hfirst⟩ := hwait
  obtain ⟨d, hfirst, -⟩ := Option.map_eq_some_iff.mp hfirst
  obtain ⟨-, w', hw', hcompleted, -⟩ := hprompt 0 w d hw hfirst
  obtain ⟨w'', hw'', rfl⟩ := waits_modify_eq_some_iff.mp hw'
  obtain rfl := Option.some.inj (hw.symm.trans hw'')
  simp [Wait.take, hexpiring] at hcompleted

end Matching

end SmppHerald.ResponseManagers
