import Mathlib.Data.List.Induction
import SmppHerald.InMemoryStorage
import SmppHerald.Library.Ledger
import SmppHerald.Library.TransitionSystem

/-!
The in-memory store together with its delivery loop. Requests come in between any two steps of the
loop, also while it waits for the handler and for the lock of the store.
-/

namespace SmppHerald.InMemoryDelivery

open SmppHerald.InMemoryStorage
open SmppHerald.Io
open SmppHerald.Json
open SmppHerald.Ledger
open SmppHerald.MultiMaps
open SmppHerald.Time
open SmppHerald.TransitionSystem

section Model

/-- Where the loop of `set_schedule_delivery_message_handler` is: in `select!`, before the next
message, in the handler, or on its way to remove a message. -/
inductive LoopPhase
  | waiting
  | delivering (values : List Delivery)
  | handling (value : Delivery) (values : List Delivery)
  | removing (value : Delivery) (values : List Delivery)
  | panicked

/-- The messages that the handler has got and not settled, or is still to get. -/
def LoopPhase.pending : LoopPhase → List Nat
  | .delivering values => values.map fun value => value.stored.serial
  | .handling value values => value.stored.serial :: values.map fun value => value.stored.serial
  | .removing _ values => values.map fun value => value.stored.serial
  | _ => []

/-- The store, the loop, and what became of the messages: those for which the handler returned
`Ok`, those for which it returned `Err`, and those that were cancelled or had expired. -/
structure DeliveryState where
  storage : InMemoryMessageStorage
  nextSerial : Nat
  phase : LoopPhase
  delivered : List Nat
  failed : List Nat
  withdrawn : List Nat

inductive DeliveryEvent
  | save (clock : SaveClock) (messageId : String) (message : Value)
  | cancel (cancelSm : Value)
  | replace (scheduleNow validityNow : Instant) (replaceSm : Value)
  | cleanTick (clock : Nat → Instant)
  -- the order in which the map is iterated
  | deliveryTick (clock : SweepClock) (order : List Nat)
  | next
  | handled (outcome : Outcome Unit)
  | remove

/-- Replace the store by one that has lost messages for a good reason. -/
def DeliveryState.withdraw (s : DeliveryState) (storage : InMemoryMessageStorage) :
    DeliveryState :=
  { s with
    storage := storage
    withdrawn := s.withdrawn ++ lost s.storage.serials storage.serials }

variable (calendar : Calendar) (defaultValidityPeriod : UInt32)

def DeliveryState.step (s : DeliveryState) (event : DeliveryEvent) : Option DeliveryState :=
  match event, s.phase with
  | .save clock messageId message, _ =>
      match save calendar defaultValidityPeriod clock s.storage messageId message s.nextSerial with
      | .ok storage => some { s with storage := storage, nextSerial := s.nextSerial + 1 }
      | _ => some s
  | .cancel cancelSm, _ => some (s.withdraw (cancelMessage s.storage cancelSm).1)
  | .replace scheduleNow validityNow replaceSm, _ =>
      match replaceMessage calendar scheduleNow validityNow s.storage replaceSm with
      | .ok (storage, _) => some { s with storage := storage }
      | _ => some s
  | .cleanTick clock, .waiting => some (s.withdraw (cleanExpiredMessages s.storage clock))
  | .deliveryTick clock order, .waiting =>
      let (storage, values) := getDeliveryMessages s.storage clock
      if order.isPerm (List.range values.length) = true then
        some { s.withdraw storage with
          phase := .delivering (order.filterMap fun i => values[i]?) }
      else none
  | .next, .delivering [] => some { s with phase := .waiting }
  | .next, .delivering (value :: values) => some { s with phase := .handling value values }
  | .handled (.ok ()), .handling value values =>
      some { s with
        phase := .delivering values, delivered := value.stored.serial :: s.delivered }
  | .handled (.err _), .handling value values =>
      some { s with phase := .removing value values, failed := value.stored.serial :: s.failed }
  | .handled .panicked, .handling _ _ => some { s with phase := .panicked }
  | .remove, .removing value values =>
      match removeMessageById s.storage value.messageId value.index with
      | some storage => some { s with storage := storage, phase := .delivering values }
      | none => some { s with phase := .panicked }
  | _, _ => none

/-- The steps, one by one. -/
inductive DeliveryMoves (s : DeliveryState) : DeliveryEvent → DeliveryState → Prop
  | saved {clock messageId message storage} :
      save calendar defaultValidityPeriod clock s.storage messageId message s.nextSerial =
        .ok storage →
      DeliveryMoves s (.save clock messageId message)
        { s with storage := storage, nextSerial := s.nextSerial + 1 }
  | notSaved {clock messageId message} : DeliveryMoves s (.save clock messageId message) s
  | cancelled {cancelSm} :
      DeliveryMoves s (.cancel cancelSm) (s.withdraw (cancelMessage s.storage cancelSm).1)
  | replaced {scheduleNow validityNow replaceSm storage found} :
      replaceMessage calendar scheduleNow validityNow s.storage replaceSm = .ok (storage, found) →
      DeliveryMoves s (.replace scheduleNow validityNow replaceSm) { s with storage := storage }
  | notReplaced {scheduleNow validityNow replaceSm} :
      DeliveryMoves s (.replace scheduleNow validityNow replaceSm) s
  | cleaned {clock} : s.phase = .waiting →
      DeliveryMoves s (.cleanTick clock) (s.withdraw (cleanExpiredMessages s.storage clock))
  | selected {clock order} : s.phase = .waiting →
      order.Perm (List.range (getDeliveryMessages s.storage clock).2.length) →
      DeliveryMoves s (.deliveryTick clock order)
        { s.withdraw (getDeliveryMessages s.storage clock).1 with
          phase := .delivering
            (order.filterMap fun i => (getDeliveryMessages s.storage clock).2[i]?) }
  | ended : s.phase = .delivering [] → DeliveryMoves s .next { s with phase := .waiting }
  | taken {value values} : s.phase = .delivering (value :: values) →
      DeliveryMoves s .next { s with phase := .handling value values }
  | succeeded {value values} : s.phase = .handling value values →
      DeliveryMoves s (.handled (.ok ()))
        { s with phase := .delivering values, delivered := value.stored.serial :: s.delivered }
  | failed {e value values} : s.phase = .handling value values →
      DeliveryMoves s (.handled (.err e))
        { s with phase := .removing value values, failed := value.stored.serial :: s.failed }
  | panicked {value values} : s.phase = .handling value values →
      DeliveryMoves s (.handled .panicked) { s with phase := .panicked }
  | removed {value values storage} : s.phase = .removing value values →
      removeMessageById s.storage value.messageId value.index = some storage →
      DeliveryMoves s .remove { s with storage := storage, phase := .delivering values }
  | notRemoved {value values} : s.phase = .removing value values →
      DeliveryMoves s .remove { s with phase := .panicked }

variable {calendar} {defaultValidityPeriod} in
theorem deliveryMoves_of_step {s s' : DeliveryState} {event : DeliveryEvent}
    (hstep : s.step calendar defaultValidityPeriod event = some s') :
    DeliveryMoves calendar defaultValidityPeriod s event s' := by
  unfold DeliveryState.step at hstep
  split at hstep
  · split at hstep
    · rename_i hsave
      obtain rfl := Option.some.inj hstep
      exact .saved hsave
    · obtain rfl := Option.some.inj hstep
      exact .notSaved
  · obtain rfl := Option.some.inj hstep
    exact .cancelled
  · split at hstep
    · rename_i hreplace
      obtain rfl := Option.some.inj hstep
      exact .replaced hreplace
    · obtain rfl := Option.some.inj hstep
      exact .notReplaced
  · rename_i hphase
    obtain rfl := Option.some.inj hstep
    exact .cleaned hphase
  · rename_i hphase
    simp only at hstep
    split at hstep
    · rename_i horder
      obtain rfl := Option.some.inj hstep
      exact .selected hphase (List.isPerm_iff.mp horder)
    · cases hstep
  · rename_i hphase
    obtain rfl := Option.some.inj hstep
    exact .ended hphase
  · rename_i hphase
    obtain rfl := Option.some.inj hstep
    exact .taken hphase
  · rename_i hphase
    obtain rfl := Option.some.inj hstep
    exact .succeeded hphase
  · rename_i hphase
    obtain rfl := Option.some.inj hstep
    exact .failed hphase
  · rename_i hphase
    obtain rfl := Option.some.inj hstep
    exact .panicked hphase
  · rename_i hphase
    split at hstep
    · rename_i hremove
      obtain rfl := Option.some.inj hstep
      exact .removed hphase hremove
    · obtain rfl := Option.some.inj hstep
      exact .notRemoved hphase
  · cases hstep

def deliverySystem : System DeliveryState DeliveryEvent where
  initial := ⟨.new, 0, .waiting, [], [], []⟩
  step := DeliveryState.step calendar defaultValidityPeriod

/-- A message for which the handler returned `Ok` is gone and is not handed over again. -/
def DeliveredOnce (s : DeliveryState) : Prop :=
  ∀ serial ∈ s.delivered, serial ∉ s.storage.serials ∧ serial ∉ s.phase.pending

/-- A message for which the handler returned `Err` is stored until it is delivered, cancelled or
expired. -/
def KeptUntilWithdrawn (s : DeliveryState) : Prop :=
  Accounted s.failed s.storage.serials (s.delivered ++ s.withdrawn)

/-- The handler returns `Ok` only for a message that is stored no longer, and the place that is
cleared after an `Err` holds no message that the handler has refused or is still to get. -/
def harmless (s : DeliveryState) (event : DeliveryEvent) : Bool :=
  match event, s.phase with
  | .handled (.ok ()), .handling value _ => value.stored.serial ∉ s.storage.serials
  | .remove, .removing value _ =>
      (placed s.storage value.messageId value.index).all fun serial =>
        serial ∉ s.failed ∧ serial ∉ s.phase.pending
  | _, _ => true

end Model

section Invariant

structure Inv (s : DeliveryState) : Prop where
  storedOnce : s.storage.serials.Nodup
  pendingOnce : s.phase.pending.Nodup
  storedBelow : ∀ serial ∈ s.storage.serials, serial < s.nextSerial
  pendingBelow : ∀ serial ∈ s.phase.pending, serial < s.nextSerial
  deliveredBelow : ∀ serial ∈ s.delivered, serial < s.nextSerial
  deliveredOnce : DeliveredOnce s
  pendingKept : Accounted s.phase.pending s.storage.serials (s.delivered ++ s.withdrawn)
  kept : KeptUntilWithdrawn s

theorem mem_withdrawn (s : DeliveryState) (storage : InMemoryMessageStorage) (serial : Nat)
    (h : serial ∈ s.delivered ++ s.withdrawn ∨ serial ∈ lost s.storage.serials storage.serials) :
    serial ∈ (s.withdraw storage).delivered ++ (s.withdraw storage).withdrawn := by
  simp only [DeliveryState.withdraw, List.mem_append] at h ⊢
  tauto

theorem Inv.withdraw {s : DeliveryState} (h : Inv s) {storage : InMemoryMessageStorage}
    (hsub : storage.serials.Sublist s.storage.serials) : Inv (s.withdraw storage) where
  storedOnce := hsub.nodup h.storedOnce
  pendingOnce := h.pendingOnce
  storedBelow := fun serial hserial => h.storedBelow serial (hsub.subset hserial)
  pendingBelow := h.pendingBelow
  deliveredBelow := h.deliveredBelow
  deliveredOnce := fun serial hserial =>
    ⟨fun hstored => (h.deliveredOnce serial hserial).1 (hsub.subset hstored),
      (h.deliveredOnce serial hserial).2⟩
  pendingKept := h.pendingKept.lose storage.serials (mem_withdrawn s storage)
  kept := h.kept.lose storage.serials (mem_withdrawn s storage)

theorem Inv.save {s : DeliveryState} (h : Inv s) {storage : InMemoryMessageStorage}
    (hperm : storage.serials.Perm (s.nextSerial :: s.storage.serials)) :
    Inv { s with storage := storage, nextSerial := s.nextSerial + 1 } := by
  have hmem : ∀ serial, serial ∈ storage.serials ↔
      serial = s.nextSerial ∨ serial ∈ s.storage.serials := by
    intro serial
    rw [hperm.mem_iff, List.mem_cons]
  have hfresh : s.nextSerial ∉ s.storage.serials :=
    fun hmem => absurd (h.storedBelow _ hmem) (Nat.lt_irrefl _)
  constructor
  · exact hperm.nodup_iff.mpr (List.nodup_cons.mpr ⟨hfresh, h.storedOnce⟩)
  · exact h.pendingOnce
  · intro serial hserial
    rcases (hmem serial).mp hserial with rfl | hbefore
    · exact Nat.lt_succ_self _
    · exact Nat.lt_succ_of_lt (h.storedBelow serial hbefore)
  · exact fun serial hserial => Nat.lt_succ_of_lt (h.pendingBelow serial hserial)
  · exact fun serial hserial => Nat.lt_succ_of_lt (h.deliveredBelow serial hserial)
  · intro serial hserial
    refine ⟨?_, (h.deliveredOnce serial hserial).2⟩
    intro hstored
    rcases (hmem serial).mp hstored with rfl | hbefore
    · exact absurd (h.deliveredBelow _ hserial) (Nat.lt_irrefl _)
    · exact (h.deliveredOnce serial hserial).1 hbefore
  · exact h.pendingKept.step (fun serial hserial => .inl hserial)
      (fun serial hserial => .inl ((hmem serial).mpr (.inr hserial)))
      fun serial hserial => hserial
  · exact h.kept.step (fun serial hserial => .inl hserial)
      (fun serial hserial => .inl ((hmem serial).mpr (.inr hserial)))
      fun serial hserial => hserial

theorem Inv.replace {s : DeliveryState} (h : Inv s) {storage : InMemoryMessageStorage}
    (hserials : storage.serials = s.storage.serials) : Inv { s with storage := storage } := by
  obtain ⟨hstored, hpending, hbelow, hpendingBelow, hdeliveredBelow, honce, hpendingKept, hkept⟩ := h
  rw [← hserials] at hstored hbelow hpendingKept
  unfold DeliveredOnce KeptUntilWithdrawn at *
  rw [← hserials] at honce hkept
  exact ⟨hstored, hpending, hbelow, hpendingBelow, hdeliveredBelow, honce, hpendingKept, hkept⟩

theorem Inv.proceed {s : DeliveryState} (h : Inv s) {phase : LoopPhase}
    (hpending : phase.pending.Sublist s.phase.pending) : Inv { s with phase := phase } where
  storedOnce := h.storedOnce
  pendingOnce := hpending.nodup h.pendingOnce
  storedBelow := h.storedBelow
  pendingBelow := fun serial hserial => h.pendingBelow serial (hpending.subset hserial)
  deliveredBelow := h.deliveredBelow
  deliveredOnce := fun serial hserial =>
    ⟨(h.deliveredOnce serial hserial).1,
      fun hmem => (h.deliveredOnce serial hserial).2 (hpending.subset hmem)⟩
  pendingKept := fun serial hserial => h.pendingKept serial (hpending.subset hserial)
  kept := h.kept

theorem perm_filterMap_getElem? {α : Type} {order : List Nat} {values : List α}
    (h : order.Perm (List.range values.length)) :
    (order.filterMap fun i => values[i]?).Perm values := by
  have hrange : (List.range values.length).filterMap (fun i => values[i]?) = values := by
    clear h
    induction values using List.reverseRecOn with
    | nil => rfl
    | append_singleton values value ih =>
        have hfront : (List.range values.length).filterMap (fun i => (values ++ [value])[i]?) =
            (List.range values.length).filterMap fun i => values[i]? := by
          refine List.filterMap_congr fun i hi => ?_
          rw [List.getElem?_append_left (List.mem_range.mp hi)]
        rw [List.length_append, List.length_singleton, List.range_succ, List.filterMap_append,
          hfront, ih]
        simp
  have hperm := h.filterMap fun i => values[i]?
  rwa [hrange] at hperm

theorem Inv.deliveryTick {s : DeliveryState} (h : Inv s) (clock : SweepClock) {order : List Nat}
    (horder : order.Perm (List.range (deliveries clock s.storage.messages).length)) :
    Inv { s.withdraw (getDeliveryMessages s.storage clock).1 with
      phase := .delivering (order.filterMap fun i => (deliveries clock s.storage.messages)[i]?) } := by
  have hperm : ((order.filterMap fun i => (deliveries clock s.storage.messages)[i]?).map
      fun value => value.stored.serial).Perm
        ((deliveries clock s.storage.messages).map fun value => value.stored.serial) :=
    (perm_filterMap_getElem? horder).map _
  have hsub : ((deliveries clock s.storage.messages).map fun value => value.stored.serial).Sublist
      s.storage.serials := by
    have hstored := (deliveries_sublist clock s.storage.messages).map StoredMessage.serial
    rwa [List.map_map] at hstored
  have hmem : ∀ serial, serial ∈ (LoopPhase.delivering (order.filterMap fun i =>
      (deliveries clock s.storage.messages)[i]?)).pending → serial ∈ s.storage.serials :=
    fun serial hserial => hsub.subset (hperm.subset hserial)
  have hwithdraw := h.withdraw (serials_getDeliveryMessages s.storage clock)
  exact {
    storedOnce := hwithdraw.storedOnce
    pendingOnce := hperm.nodup_iff.mpr (hsub.nodup h.storedOnce)
    storedBelow := hwithdraw.storedBelow
    pendingBelow := fun serial hserial => h.storedBelow serial (hmem serial hserial)
    deliveredBelow := h.deliveredBelow
    deliveredOnce := fun serial hserial =>
      ⟨(hwithdraw.deliveredOnce serial hserial).1,
        fun hpending => (h.deliveredOnce serial hserial).1 (hmem serial hpending)⟩
    pendingKept := by
      intro serial hserial
      rcases mem_or_mem_lost (getDeliveryMessages s.storage clock).1.serials (hmem serial hserial)
        with hstored | hlost
      · exact .inl hstored
      · exact .inr (mem_withdrawn s _ serial (.inr hlost))
    kept := hwithdraw.kept }

/-- The handler returns `Ok` for a message that is stored no longer. -/
theorem Inv.delivered {s : DeliveryState} (h : Inv s) {value : Delivery} {values : List Delivery}
    (hphase : s.phase = .handling value values)
    (hgone : value.stored.serial ∉ s.storage.serials) :
    Inv { s with
      phase := .delivering values, delivered := value.stored.serial :: s.delivered } := by
  have honce := h.pendingOnce
  have hbelow := h.pendingBelow
  have hkept := h.pendingKept
  rw [hphase] at honce hbelow hkept
  obtain ⟨hfresh, honce⟩ := List.nodup_cons.mp honce
  constructor
  · exact h.storedOnce
  · exact honce
  · exact h.storedBelow
  · exact fun serial hserial => hbelow serial (List.mem_cons_of_mem _ hserial)
  · exact List.forall_mem_cons.mpr ⟨hbelow _ List.mem_cons_self, h.deliveredBelow⟩
  · intro serial hserial
    rcases List.mem_cons.mp hserial with rfl | hserial
    · exact ⟨hgone, hfresh⟩
    · obtain ⟨hstored, hpending⟩ := h.deliveredOnce serial hserial
      rw [hphase] at hpending
      exact ⟨hstored, fun hmem => hpending (List.mem_cons_of_mem _ hmem)⟩
  · refine hkept.step (fun serial hserial => .inl (List.mem_cons_of_mem _ hserial))
      (fun serial hserial => .inl hserial) ?_
    exact fun serial hserial => List.mem_cons_of_mem _ hserial
  · refine h.kept.step (fun serial hserial => .inl hserial) (fun serial hserial => .inl hserial) ?_
    exact fun serial hserial => List.mem_cons_of_mem _ hserial

/-- The handler returns `Err` for a message that is stored, or was withdrawn in the meantime. -/
theorem Inv.failed {s : DeliveryState} (h : Inv s) {value : Delivery} {values : List Delivery}
    (hphase : s.phase = .handling value values) :
    Inv { s with
      phase := .removing value values, failed := value.stored.serial :: s.failed } := by
  have hsub : (LoopPhase.removing value values).pending.Sublist s.phase.pending := by
    rw [hphase]
    exact List.sublist_cons_self _ _
  have hvalue : value.stored.serial ∈ s.phase.pending := by
    rw [hphase]
    exact List.mem_cons_self
  refine { h.proceed hsub with kept := ?_ }
  refine h.kept.step ?_ (fun serial hserial => .inl hserial) fun serial hserial => hserial
  intro serial hserial
  rcases List.mem_cons.mp hserial with rfl | hserial
  · exact .inr (h.pendingKept _ hvalue)
  · exact .inl hserial

theorem Inv.remove {s : DeliveryState} (h : Inv s) {value : Delivery} {values : List Delivery}
    (hphase : s.phase = .removing value values) {storage : InMemoryMessageStorage}
    (hremove : removeMessageById s.storage value.messageId value.index = some storage)
    (hplace : ∀ serial, placed s.storage value.messageId value.index = some serial →
      serial ∉ s.failed ∧ serial ∉ s.phase.pending) :
    Inv { s with storage := storage, phase := .delivering values } := by
  obtain ⟨hsub, hlost⟩ := serials_removeMessageById hremove
  have hpending : s.phase.pending = (LoopPhase.delivering values).pending := by
    rw [hphase]
    rfl
  have honce := h.pendingOnce
  have hbelow := h.pendingBelow
  have hdelivered := h.deliveredOnce
  have hkept := h.pendingKept
  unfold DeliveredOnce at hdelivered
  rw [hpending] at honce hbelow hdelivered hkept hplace
  constructor
  · exact hsub.nodup h.storedOnce
  · exact honce
  · exact fun serial hserial => h.storedBelow serial (hsub.subset hserial)
  · exact hbelow
  · exact h.deliveredBelow
  · exact fun serial hserial => ⟨fun hstored => (hdelivered serial hserial).1 (hsub.subset hstored),
      (hdelivered serial hserial).2⟩
  · intro serial hserial
    rcases hkept serial hserial with hstored | hentry
    · rcases hlost serial hstored with hstored | hplaced
      · exact .inl hstored
      · exact absurd hserial (hplace serial hplaced).2
    · exact .inr hentry
  · intro serial hserial
    rcases h.kept serial hserial with hstored | hentry
    · rcases hlost serial hstored with hstored | hplaced
      · exact .inl hstored
      · exact absurd hserial (hplace serial hplaced).1
    · exact .inr hentry

theorem Inv.step {calendar : Calendar} {defaultValidityPeriod : UInt32} {s s' : DeliveryState}
    {event : DeliveryEvent} (h : Inv s) (hharmless : harmless s event = true)
    (hstep : s.step calendar defaultValidityPeriod event = some s') : Inv s' := by
  cases deliveryMoves_of_step hstep with
  | saved hsave => exact h.save (serials_save hsave)
  | notSaved => exact h
  | cancelled => exact h.withdraw (serials_removeWhere _ _)
  | replaced hreplace => exact h.replace (serials_replaceMessage hreplace)
  | notReplaced => exact h
  | cleaned _ => exact h.withdraw (serials_removeWhere _ _)
  | selected _ horder => exact h.deliveryTick _ horder
  | ended _ => exact h.proceed (List.nil_sublist _)
  | taken hphase =>
      refine h.proceed ?_
      rw [hphase]
      exact List.Sublist.refl _
  | succeeded hphase =>
      refine h.delivered hphase ?_
      simpa [harmless, hphase] using hharmless
  | failed hphase => exact h.failed hphase
  | panicked _ => exact h.proceed (List.nil_sublist _)
  | removed hphase hremove =>
      refine h.remove hphase hremove ?_
      intro serial hplaced
      simpa [harmless, hphase, hplaced] using hharmless
  | notRemoved _ => exact h.proceed (List.nil_sublist _)

theorem inv_initial (calendar : Calendar) (defaultValidityPeriod : UInt32) :
    Inv (deliverySystem calendar defaultValidityPeriod).initial := by
  constructor <;> simp [deliverySystem, InMemoryMessageStorage.new, InMemoryMessageStorage.serials,
    items, LoopPhase.pending, DeliveredOnce, KeptUntilWithdrawn, Accounted]

/-- In every run whose steps are all harmless, a message for which the handler returned `Ok` is gone
for good, and one for which it returned `Err` stays until it is delivered, cancelled or expired. -/
theorem delivery_settles {calendar : Calendar} {defaultValidityPeriod : UInt32}
    {s : DeliveryState} (h : (deliverySystem calendar defaultValidityPeriod).Reaches
      (fun s event => harmless s event = true) s) : DeliveredOnce s ∧ KeptUntilWithdrawn s := by
  have hinv : Inv s := h.invariant (inv_initial calendar defaultValidityPeriod)
    fun _ _ _ hinv hharmless hstep => hinv.step hharmless hstep
  exact ⟨hinv.deliveredOnce, hinv.kept⟩

end Invariant

section Example

/-- A message to the address 49 is saved under the id `m` and handed to the handler. -/
def handOver : List DeliveryEvent :=
  [.save ⟨0, 0, 0⟩ "m" (.object [("destination_addr", .string "49")]), .deliveryTick (.still 0) [0],
    .next]

/-- The outcomes, and the messages that are stored and those that are still to be handed over. -/
def observed (s : DeliveryState) : (List Nat × List Nat × List Nat) × List Nat × List Nat :=
  ((s.delivered, s.failed, s.withdrawn), s.storage.serials, s.phase.pending)

/-- The message is cancelled while the handler delivers it. -/
theorem delivery_settles_cancelled :
    ∃ s, ((deliverySystem relativeCalendar 60).runAllowed harmless (handOver ++
        [.cancel (.object [("message_id", .string "m")]), .handled (.ok ()), .next])).map observed =
        some (observed s) ∧
      observed s = (([0], [], [0]), [], []) ∧ DeliveredOnce s ∧ KeptUntilWithdrawn s := by
  have hrun : ((deliverySystem relativeCalendar 60).runAllowed harmless (handOver ++
      [.cancel (.object [("message_id", .string "m")]), .handled (.ok ()), .next])).map observed =
      some (([0], [], [0]), [], []) := by decide +kernel
  obtain ⟨s, hs, hobserved⟩ := Option.map_eq_some_iff.mp hrun
  exact ⟨s, hobserved ▸ hrun, hobserved, delivery_settles (System.reaches_of_runAllowed hs)⟩

/-- After `Ok` the message is stored and handed over again; after `Err` it is removed. -/
theorem not_delivery_settles :
    (∃ s, (deliverySystem relativeCalendar 60).Reachable s ∧ ¬ DeliveredOnce s) ∧
      ∃ s, (deliverySystem relativeCalendar 60).Reachable s ∧ ¬ KeptUntilWithdrawn s := by
  have hagain : ((deliverySystem relativeCalendar 60).run
      (handOver ++ [.handled (.ok ()), .next, .deliveryTick (.still 2) [0]])).map observed =
      some (([0], [], []), [0], [0]) := by decide +kernel
  have hremoved : ((deliverySystem relativeCalendar 60).run
      (handOver ++ [.handled (.err (otherError "no client")), .remove])).map observed =
      some (([], [0], []), [], []) := by decide +kernel
  constructor
  · obtain ⟨s, hs, hobserved⟩ := Option.map_eq_some_iff.mp hagain
    simp only [observed, Prod.mk.injEq] at hobserved
    obtain ⟨⟨hdelivered, -, -⟩, hstored, -⟩ := hobserved
    refine ⟨s, System.reachable_of_run hs, fun honce => ?_⟩
    have hgone := (honce 0 (by simp [hdelivered])).1
    simp [hstored] at hgone
  · obtain ⟨s, hs, hobserved⟩ := Option.map_eq_some_iff.mp hremoved
    simp only [observed, Prod.mk.injEq] at hobserved
    obtain ⟨⟨hdelivered, hfailed, hwithdrawn⟩, hstored, -⟩ := hobserved
    refine ⟨s, System.reachable_of_run hs, fun hkept => ?_⟩
    have hlost := hkept 0 (by simp [hfailed])
    simp [hdelivered, hwithdrawn, hstored] at hlost

end Example

end SmppHerald.InMemoryDelivery
