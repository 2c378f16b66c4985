import SmppHerald.InMemoryDelivery
import SmppHerald.Library.Revocation
import SmppHerald.RabbitMqStorage
import SmppHerald.SqlDelivery
import SmppHerald.SqlStatements

namespace SmppHerald.CancelledDelivery

open SmppHerald.ClientManager
open SmppHerald.Io
open SmppHerald.Json
open SmppHerald.MultiMaps
open SmppHerald.Revocation
open SmppHerald.ServerConnection
open SmppHerald.ServerMessage
open SmppHerald.Time
open SmppHerald.TransitionSystem

theorem filtered_gone {α ι : Type} {id : α → ι} {items : List α} (honce : (items.map id).Nodup)
    (p : α → Bool) :
    ∀ i ∈ (items.filter p).map id, i ∉ (items.filter fun item => !p item).map id := by
  intro i hi hrest
  obtain ⟨item, hitem, rfl⟩ := List.mem_map.mp hi
  obtain ⟨other, hother, hsame⟩ := List.mem_map.mp hrest
  obtain ⟨hitem, hfiltered⟩ := List.mem_filter.mp hitem
  obtain ⟨hother, hkept⟩ := List.mem_filter.mp hother
  obtain rfl := List.inj_on_of_nodup_map honce hother hitem hsame
  simp [hfiltered] at hkept

section Memory

open SmppHerald.InMemoryDelivery
open SmppHerald.InMemoryStorage

/-- The messages that the loop is still to hand over. -/
def upcoming : LoopPhase → List Nat
  | .delivering values => values.map fun value => value.stored.serial
  | .handling _ values => values.map fun value => value.stored.serial
  | .removing _ values => values.map fun value => value.stored.serial
  | _ => []

/-- The messages that a cancel_sm matches. -/
def matching (storage : InMemoryMessageStorage) (cancelSm : Value) : List Nat :=
  ((entries storage.messages).filter fun entry => isCancelled cancelSm entry.1 entry.2).map
    fun entry => entry.2.serial

def memoryHandOver (calendar : Calendar) (defaultValidityPeriod : UInt32) :
    HandOver DeliveryState DeliveryEvent Nat where
  system := deliverySystem calendar defaultValidityPeriod
  revokes s event :=
    match event with
    | .cancel cancelSm =>
        if (cancelMessage s.storage cancelSm).2 = true then matching s.storage cancelSm else []
    | _ => []
  hands s event :=
    match event, s.phase with
    | .next, .delivering (value :: _) => [value.stored.serial]
    | _, _ => []

/-- A cancel_sm matches no message that the loop is still to hand over. -/
def memoryAllowed (s : DeliveryState) (event : DeliveryEvent) : Bool :=
  match event with
  | .cancel cancelSm => (matching s.storage cancelSm).all fun serial => serial ∉ upcoming s.phase
  | _ => true

theorem serials_eq (storage : InMemoryMessageStorage) :
    storage.serials = (entries storage.messages).map fun entry => entry.2.serial := by
  rw [InMemoryMessageStorage.serials, ← map_snd_entries, List.map_map]
  rfl

theorem matching_subset (storage : InMemoryMessageStorage) (cancelSm : Value) :
    ∀ serial ∈ matching storage cancelSm, serial ∈ storage.serials := by
  rw [serials_eq]
  exact fun serial hserial => (List.filter_sublist.map _).subset hserial

theorem matching_gone {storage : InMemoryMessageStorage} (honce : storage.serials.Nodup)
    (cancelSm : Value) :
    ∀ serial ∈ matching storage cancelSm, serial ∉ (cancelMessage storage cancelSm).1.serials := by
  have hentries := entries_filterLists
    (fun messageId stored => !isCancelled cancelSm messageId stored) storage.messages
  rw [serials_eq, cancelMessage, removeWhere, hentries]
  rw [serials_eq] at honce
  exact filtered_gone honce fun entry => isCancelled cancelSm entry.1 entry.2

variable {calendar : Calendar} {defaultValidityPeriod : UInt32} {s s' : DeliveryState}
  {event : DeliveryEvent}

/-- Only `save` stores a message, and the loop has what was stored. -/
theorem memory_step (h : s.step calendar defaultValidityPeriod event = some s') :
    (s'.storage.serials.Sublist s.storage.serials ∧ s'.nextSerial = s.nextSerial ∨
      s'.storage.serials.Perm (s.nextSerial :: s.storage.serials) ∧
        s'.nextSerial = s.nextSerial + 1) ∧
      ∀ serial ∈ upcoming s'.phase, serial ∈ upcoming s.phase ∨ serial ∈ s.storage.serials := by
  have hsame : s.storage.serials.Sublist s.storage.serials ∧ s.nextSerial = s.nextSerial :=
    ⟨List.Sublist.refl _, rfl⟩
  cases deliveryMoves_of_step h with
  | saved hsave => exact ⟨.inr ⟨serials_save hsave, rfl⟩, fun serial hserial => .inl hserial⟩
  | notSaved => exact ⟨.inl hsame, fun serial hserial => .inl hserial⟩
  | cancelled => exact ⟨.inl ⟨serials_removeWhere _ _, rfl⟩, fun serial hserial => .inl hserial⟩
  | replaced hreplace =>
      have hserials := serials_replaceMessage hreplace
      exact ⟨.inl ⟨hserials ▸ List.Sublist.refl _, rfl⟩, fun serial hserial => .inl hserial⟩
  | notReplaced => exact ⟨.inl hsame, fun serial hserial => .inl hserial⟩
  | cleaned _ => exact ⟨.inl ⟨serials_removeWhere _ _, rfl⟩, fun serial hserial => .inl hserial⟩
  | @selected clock order _ horder =>
      refine ⟨.inl ⟨serials_getDeliveryMessages _ _, rfl⟩, fun serial hserial => .inr ?_⟩
      have hstored := (deliveries_sublist clock s.storage.messages).map StoredMessage.serial
      rw [List.map_map] at hstored
      obtain ⟨value, hvalue, rfl⟩ := List.mem_map.mp hserial
      exact hstored.subset (List.mem_map_of_mem
        ((perm_filterMap_getElem? horder).subset hvalue))
  | ended _ => exact ⟨.inl hsame, by simp [upcoming]⟩
  | taken hphase =>
      refine ⟨.inl hsame, fun serial hserial => .inl ?_⟩
      rw [hphase]
      exact List.mem_cons_of_mem _ hserial
  | succeeded hphase =>
      refine ⟨.inl hsame, fun serial hserial => .inl ?_⟩
      rw [hphase]
      exact hserial
  | failed hphase =>
      refine ⟨.inl hsame, fun serial hserial => .inl ?_⟩
      rw [hphase]
      exact hserial
  | panicked _ => exact ⟨.inl hsame, by simp [upcoming]⟩
  | removed hphase hremove =>
      refine ⟨.inl ⟨(serials_removeMessageById hremove).1, rfl⟩, fun serial hserial => .inl ?_⟩
      rw [hphase]
      exact hserial
  | notRemoved _ => exact ⟨.inl hsame, by simp [upcoming]⟩

theorem loop_memory (calendar : Calendar) (defaultValidityPeriod : UInt32) :
    (memoryHandOver calendar defaultValidityPeriod).Loop
      (fun s event => memoryAllowed s event = true) (fun s => s.storage.serials)
      (fun s => upcoming s.phase) DeliveryState.nextSerial where
  initial := rfl
  store h := (memory_step h).1
  take h := (memory_step h).2
  hands := by
    intro s event s' h serial hserial
    simp only [memoryHandOver] at hserial
    split at hserial
    · rename_i value values hphase
      obtain rfl := List.mem_singleton.mp hserial
      rw [hphase]
      exact List.mem_cons_self
    · cases hserial
  revokes := by
    intro s event s' honce hallowed h serial hserial
    simp only [memoryHandOver] at hserial
    split at hserial
    · rename_i cancelSm
      split at hserial
      · obtain rfl := Option.some.inj h
        have hnot : serial ∉ upcoming s.phase := by
          simpa [memoryAllowed] using List.all_eq_true.mp hallowed serial hserial
        exact ⟨matching_subset _ _ serial hserial,
          matching_gone honce cancelSm serial hserial, hnot⟩
      · cases hserial
    · cases hserial

end Memory

section Sql

open SmppHerald.SqlDelivery
open SmppHerald.SqlStorage

variable {engine : RegexEngine} {Connection : Type} {server : ServerContext}

/-- The rows that the loop is still to hand over. -/
def upcomingRows : LoopPhase → List Nat
  | .delivering values => values.map Prod.fst
  | .handling _ _ values => values.map Prod.fst
  | .deleting _ values => values.map Prod.fst
  | _ => []

/-- The rows that a cancel_sm matches. -/
def matchingRows (rows : List Row) (cancelSm : Value) : List Nat :=
  rowIds (rows.filter (isCancelled cancelSm))

def sqlHandOver (server : ServerContext) (engine : RegexEngine) (Connection : Type) :
    HandOver (SqlState engine Connection) (SqlEvent Connection) Nat where
  system := sqlSystem server engine Connection
  revokes s event :=
    match event with
    | .cancel cancelSm =>
        if (SqlStatements.cancelMessage s.rows cancelSm).2 = .ok true then
          matchingRows s.rows cancelSm
        else []
    | _ => []
  hands s event :=
    match event, s.phase with
    | .next, .delivering (value :: _) => [value.1]
    | _, _ => []

/-- A cancel_sm matches no row that the loop is still to hand over. -/
def sqlAllowed (s : SqlState engine Connection) (event : SqlEvent Connection) : Bool :=
  match event with
  | .cancel cancelSm => (matchingRows s.rows cancelSm).all fun id => id ∉ upcomingRows s.phase
  | _ => true

theorem upcomingRows_eq (phase : LoopPhase) :
    upcomingRows phase = phase.upcoming.map Prod.fst := by
  cases phase <;> rfl

theorem sql_store {s s' : SqlState engine Connection} {event : SqlEvent Connection}
    (h : s.step server event = some s') :
    (rowIds s'.rows).Sublist (rowIds s.rows) ∧ s'.nextId = s.nextId ∨
      (rowIds s'.rows).Perm (s.nextId :: rowIds s.rows) ∧ s'.nextId = s.nextId + 1 := by
  have hsame : (rowIds s.rows).Sublist (rowIds s.rows) ∧ s.nextId = s.nextId :=
    ⟨List.Sublist.refl _, rfl⟩
  have hfilter : ∀ p : Row → Bool, (rowIds (s.rows.filter p)).Sublist (rowIds s.rows) :=
    fun p => List.filter_sublist.map _
  cases sqlMoves_of_step h with
  | superseded _ => exact .inl ⟨hfilter _, rfl⟩
  | inserted hrow =>
      refine .inr ⟨?_, rfl⟩
      rw [rowIds, List.map_append, List.map_singleton, (newRow_ok hrow).1]
      exact List.perm_append_singleton _ _
  | cancelled => exact .inl ⟨hfilter _, rfl⟩
  | updated _ =>
      refine .inl ⟨?_, rfl⟩
      rw [rowIds_update]
  | cleaned _ => exact .inl ⟨hfilter _, rfl⟩
  | @deleted succeeded id _ _ =>
      refine .inl ⟨?_, rfl⟩
      cases succeeded with
      | true => exact hfilter _
      | false => exact List.Sublist.refl _
  | _ => exact .inl hsame

theorem sql_take {s s' : SqlState engine Connection} {event : SqlEvent Connection}
    (h : s.step server event = some s') :
    ∀ id ∈ upcomingRows s'.phase, id ∈ upcomingRows s.phase ∨ id ∈ rowIds s.rows := by
  intro id hid
  rw [upcomingRows_eq] at hid ⊢
  obtain ⟨value, hvalue, rfl⟩ := List.mem_map.mp hid
  rcases mem_upcoming_step h hvalue with hbefore | ⟨now, order, -, hselected⟩
  · exact .inl (List.mem_map_of_mem hbefore)
  · obtain ⟨row, hrow, rfl⟩ := List.mem_map.mp hselected
    exact .inr (List.mem_map_of_mem (List.mem_of_mem_filter hrow))

theorem matchingRows_gone {rows : List Row} (honce : (rowIds rows).Nodup) (cancelSm : Value) :
    ∀ id ∈ matchingRows rows cancelSm,
      id ∉ rowIds (rows.filter fun row => !isCancelled cancelSm row) :=
  filtered_gone honce (isCancelled cancelSm)

theorem loop_sql (server : ServerContext) (engine : RegexEngine) (Connection : Type) :
    (sqlHandOver server engine Connection).Loop (fun s event => sqlAllowed s event = true)
      (fun s => rowIds s.rows) (fun s => upcomingRows s.phase) SqlState.nextId where
  initial := rfl
  store h := sql_store h
  take h := sql_take h
  hands := by
    intro s event s' h id hid
    simp only [sqlHandOver] at hid
    split at hid
    · rename_i value values hphase
      obtain rfl := List.mem_singleton.mp hid
      rw [hphase]
      exact List.mem_cons_self
    · cases hid
  revokes := by
    intro s event s' honce hallowed h id hid
    simp only [sqlHandOver] at hid
    split at hid
    · rename_i cancelSm
      split at hid
      · obtain rfl := Option.some.inj h
        have hnot : id ∉ upcomingRows s.phase := by
          simpa [sqlAllowed] using List.all_eq_true.mp hallowed id hid
        exact ⟨(List.filter_sublist.map _).subset hid, matchingRows_gone honce cancelSm id hid, hnot⟩
      · cases hid
    · cases hid

end Sql

section Broker

open SmppHerald.InMemoryStorage (cancelMatches)
open SmppHerald.RabbitMqStorage

/-- Whether a cancel_sm matches a message of the broker. -/
def matchesMessage (cancelSm : Value) (message : QueuedMessage) : Bool :=
  cancelSm.strField "message_id" == message.envelope.messageId &&
    cancelMatches cancelSm message.envelope.payload

/-- The messages that a cancel_sm matches, if the call returns `Ok(true)`. -/
def cancelledMessages (s : BrokerState) (cancelSm : Value) : List QueuedMessage :=
  if (cancelMessage s.storage cancelSm).2 = .ok true then s.stored.filter (matchesMessage cancelSm)
  else []

variable (parseRfc3339 : String → Option Instant)

def brokerHandOver (calendar : Calendar) (defaultValidityPeriod : UInt32) (start : Instant) :
    HandOver BrokerState BrokerEvent Nat where
  system := brokerSystem calendar defaultValidityPeriod parseRfc3339 start
  revokes s event :=
    match event with
    | .cancel _ cancelSm => (cancelledMessages s cancelSm).map QueuedMessage.serial
    | _ => []
  hands s event :=
    match event, s.phase, s.buffered with
    | .take scheduleNow validityNow _, .waiting, message :: _ =>
        if message.envelope.isFuture parseRfc3339 scheduleNow = false ∧
            message.envelope.isExpired parseRfc3339 validityNow = false then [message.serial]
        else []
    | _, _, _ => []

/-- From `now` on there is a time to deliver the message: it is not expired then, nor before it is
due. -/
def isDeliverable (now : Instant) (envelope : Envelope) : Bool :=
  (envelope.validityPeriod.bind parseRfc3339).all fun expiry =>
    decide (now ≤ expiry) &&
      (envelope.scheduleDeliveryTime.bind parseRfc3339).all fun time => decide (time ≤ expiry)

/-- The clock is not set back, and no message that is cancelled is deliverable any more. -/
def brokerAllowed (s : BrokerState) (event : BrokerEvent) : Bool :=
  match event with
  | .cancel now cancelSm =>
      decide (s.clock ≤ now) && (cancelledMessages s cancelSm).all fun message =>
        !isDeliverable parseRfc3339 now message.envelope
  | .take scheduleNow validityNow _ =>
      decide (s.clock ≤ scheduleNow) && decide (scheduleNow ≤ validityNow)
  | _ => true

/-- The broker has a deliverable message with the serial. -/
def BrokerLive (s : BrokerState) (serial : Nat) : Prop :=
  ∃ message ∈ s.stored, message.serial = serial ∧
    isDeliverable parseRfc3339 s.clock message.envelope = true

/-- The messages of the broker have different serials, and all of them have been given. -/
def BrokerInv (s : BrokerState) : Prop :=
  HandOver.Numbered (s.stored.map QueuedMessage.serial) s.nextSerial

variable {parseRfc3339}

theorem isDeliverable_mono {now later : Instant} (h : now ≤ later) {envelope : Envelope}
    (hdeliverable : isDeliverable parseRfc3339 later envelope = true) :
    isDeliverable parseRfc3339 now envelope = true := by
  unfold isDeliverable at hdeliverable ⊢
  rw [Option.all_eq_true] at hdeliverable ⊢
  intro expiry hexpiry
  have hboth := hdeliverable expiry hexpiry
  rw [Bool.and_eq_true, decide_eq_true_eq] at hboth ⊢
  exact ⟨Int.le_trans h hboth.1, hboth.2⟩

theorem isDeliverable_of_handed {scheduleNow validityNow : Instant} (h : scheduleNow ≤ validityNow)
    {envelope : Envelope} (hready : envelope.isFuture parseRfc3339 scheduleNow = false)
    (hvalid : envelope.isExpired parseRfc3339 validityNow = false) :
    isDeliverable parseRfc3339 validityNow envelope = true := by
  unfold isDeliverable
  rw [Option.all_eq_true]
  intro expiry hexpiry
  rw [Envelope.isExpired, hexpiry, Option.any_some, decide_eq_false_iff_not, Int.not_lt] at hvalid
  rw [Bool.and_eq_true, decide_eq_true_eq, Option.all_eq_true]
  refine ⟨hvalid, fun time htime => ?_⟩
  rw [Envelope.isFuture, htime, Option.any_some, decide_eq_false_iff_not, Int.not_lt] at hready
  rw [decide_eq_true_eq]
  exact Int.le_trans hready (Int.le_trans h hvalid)

theorem requeue_perm (place : Nat) (message : QueuedMessage) (queue : List QueuedMessage) :
    (requeue place message queue).Perm (message :: queue) := by
  have hperm : (queue.take place ++ message :: queue.drop place).Perm
      (message :: (queue.take place ++ queue.drop place)) := List.perm_middle
  rwa [List.take_append_drop] at hperm

variable {calendar : Calendar} {defaultValidityPeriod : UInt32} {s s' : BrokerState}
  {event : BrokerEvent}

/-- Only `save` brings a message to the broker, and time goes on. -/
theorem broker_step (h : s.step calendar defaultValidityPeriod parseRfc3339 event = some s') :
    ((∃ gone, s.stored.Perm (gone ++ s'.stored)) ∧ s'.nextSerial = s.nextSerial ∨
      (∃ message : QueuedMessage, message.serial = s.nextSerial ∧
        s'.stored.Perm (message :: s.stored)) ∧ s'.nextSerial = s.nextSerial + 1) ∧
      s.clock ≤ s'.clock := by
  have hsame : (∃ gone, s.stored.Perm (gone ++ s.stored)) ∧ s.nextSerial = s.nextSerial :=
    ⟨⟨[], List.Perm.refl _⟩, rfl⟩
  cases brokerMoves_of_step h with
  | @published _ _ _ _ envelope _ _ =>
      refine ⟨.inr ⟨⟨⟨s.nextSerial, envelope⟩, rfl, ?_⟩, rfl⟩, Int.le_refl _⟩
      simp only [BrokerState.stored, List.append_assoc]
      exact List.perm_middle
  | refused _ => exact ⟨.inl hsame, Int.le_refl _⟩
  | indexes _ hclock => exact ⟨.inl hsame, hclock⟩
  | replaced => exact ⟨.inl hsame, Int.le_refl _⟩
  | @delivered message queue hqueue =>
      refine ⟨.inl ⟨⟨[], ?_⟩, rfl⟩, Int.le_refl _⟩
      simp only [BrokerState.stored, hqueue, List.nil_append, List.cons_append]
      rw [← List.append_assoc, List.append_assoc _ [message]]
      exact List.perm_middle.symm
  | @sentBack _ _ place message buffered hphase hbuffered _ =>
      refine ⟨.inl ⟨⟨[], ?_⟩, rfl⟩, Int.le_max_left _ _⟩
      simp only [BrokerState.stored, hphase, hbuffered, List.nil_append, List.append_nil]
      exact List.perm_middle.trans ((requeue_perm place message s.queue).append_right buffered).symm
  | @expired _ _ _ message buffered hphase hbuffered _ _ =>
      refine ⟨.inl ⟨⟨[message], ?_⟩, rfl⟩, Int.le_max_left _ _⟩
      simp only [BrokerState.stored, hphase, hbuffered, List.append_nil]
      exact List.perm_middle
  | taken hphase hbuffered _ _ =>
      refine ⟨.inl ⟨⟨[], ?_⟩, rfl⟩, Int.le_max_left _ _⟩
      simp only [BrokerState.stored, hphase, hbuffered, List.nil_append, List.append_nil]
      exact List.perm_middle.trans (List.perm_append_singleton _ _).symm
  | woken hphase =>
      refine ⟨.inl ⟨⟨[], ?_⟩, rfl⟩, Int.le_refl _⟩
      simp only [BrokerState.stored, hphase]
      exact List.Perm.refl _
  | @succeeded _ _ message hphase =>
      refine ⟨.inl ⟨⟨[message], ?_⟩, rfl⟩, Int.le_refl _⟩
      simp only [BrokerState.stored, hphase, List.append_nil]
      exact List.perm_append_singleton _ _
  | @failed _ place message hphase =>
      refine ⟨.inl ⟨⟨[], ?_⟩, rfl⟩, Int.le_refl _⟩
      simp only [BrokerState.stored, hphase, List.nil_append, List.append_nil]
      exact (List.perm_append_singleton _ _).trans
        ((requeue_perm place message s.queue).append_right s.buffered).symm
  | @panicked _ message hphase =>
      refine ⟨.inl ⟨⟨[message], ?_⟩, rfl⟩, Int.le_refl _⟩
      simp only [BrokerState.stored, hphase, List.append_nil]
      exact List.perm_append_singleton _ _
  | cleaned hphase =>
      refine ⟨.inl ⟨⟨[], ?_⟩, rfl⟩, Int.le_refl _⟩
      simp only [BrokerState.stored, hphase]
      exact List.Perm.refl _

theorem BrokerInv.step (hinv : BrokerInv s)
    (h : s.step calendar defaultValidityPeriod parseRfc3339 event = some s') : BrokerInv s' := by
  unfold BrokerInv at hinv ⊢
  rcases (broker_step h).1 with ⟨⟨gone, hperm⟩, hnext⟩ | ⟨⟨message, hserial, hperm⟩, hnext⟩
  · have hserials := hperm.map QueuedMessage.serial
    rw [List.map_append] at hserials
    rw [hnext]
    exact (hinv.perm hserials).sublist (List.sublist_append_right _ _)
  · have hserials := hperm.map QueuedMessage.serial
    rw [List.map_cons, hserial] at hserials
    rw [hnext]
    exact hinv.perm_cons hserials

theorem BrokerLive.before
    (h : s.step calendar defaultValidityPeriod parseRfc3339 event = some s') {serial : Nat}
    (hknown : serial < s.nextSerial) (hlive : BrokerLive parseRfc3339 s' serial) :
    BrokerLive parseRfc3339 s serial := by
  obtain ⟨message, hmessage, rfl, hdeliverable⟩ := hlive
  obtain ⟨hstored, hclock⟩ := broker_step h
  refine ⟨message, ?_, rfl, isDeliverable_mono hclock hdeliverable⟩
  rcases hstored with ⟨⟨gone, hperm⟩, -⟩ | ⟨⟨new, hserial, hperm⟩, -⟩
  · exact hperm.symm.subset (List.mem_append_right _ hmessage)
  · rcases List.mem_cons.mp (hperm.subset hmessage) with rfl | hbefore
    · exact absurd hknown (hserial ▸ Nat.lt_irrefl _)
    · exact hbefore

theorem tracks_broker (calendar : Calendar) (defaultValidityPeriod : UInt32) (start : Instant) :
    (brokerHandOver parseRfc3339 calendar defaultValidityPeriod start).Tracks
      (fun s event => brokerAllowed parseRfc3339 s event = true) BrokerInv
      (fun s serial => serial < s.nextSerial) (BrokerLive parseRfc3339) where
  initial := by
    constructor <;> simp [brokerHandOver, brokerSystem, BrokerState.stored]
  inv hinv _ h := hinv.step h
  hands := by
    intro s event s' _ hallowed h serial hserial
    simp only [brokerHandOver] at hserial
    split at hserial
    · rename_i scheduleNow validityNow place message buffered hphase hbuffered
      split at hserial
      · rename_i hready
        obtain rfl := List.mem_singleton.mp hserial
        simp only [brokerAllowed, Bool.and_eq_true, decide_eq_true_eq] at hallowed
        refine ⟨message, ?_, rfl, ?_⟩
        · rw [BrokerState.stored, hbuffered]
          simp
        · exact isDeliverable_mono (Int.le_trans hallowed.1 hallowed.2)
            (isDeliverable_of_handed hallowed.2 hready.1 hready.2)
      · cases hserial
    · cases hserial
  known := by
    intro s event s' _ _ h serial hserial
    rcases (broker_step h).1 with ⟨-, hnext⟩ | ⟨-, hnext⟩ <;> omega
  live := fun _ _ h _ hknown hlive => hlive.before h hknown
  revokes := by
    intro s event s' hinv hallowed h serial hserial
    simp only [brokerHandOver] at hserial
    split at hserial
    · rename_i now cancelSm
      obtain ⟨message, hmessage, rfl⟩ := List.mem_map.mp hserial
      simp only [brokerAllowed, Bool.and_eq_true, decide_eq_true_eq, List.all_eq_true] at hallowed
      obtain ⟨hnow, hexpired⟩ := hallowed
      have hstored : message ∈ s.stored := by
        unfold cancelledMessages at hmessage
        split at hmessage
        · exact List.mem_of_mem_filter hmessage
        · cases hmessage
      refine ⟨hinv.below _ (List.mem_map_of_mem hstored), ?_⟩
      rintro ⟨other, hother, hsame, hdeliverable⟩
      obtain rfl := Option.some.inj h
      obtain rfl := List.inj_on_of_nodup_map hinv.once hother hstored hsame
      have hnot := hexpired other hmessage
      rw [isDeliverable_mono (Int.le_max_right s.clock now) hdeliverable] at hnot
      cases hnot
    · cases hserial

end Broker

section Cancelled

open SmppHerald.InMemoryStorage (SaveClock)
open SmppHerald.ServerRun (literalEngine)
open SmppHerald.SqlDelivery (storedMessage)

/-- In each store no message is handed over that was cancelled before, as long as a cancel_sm
matches nothing that the loop has taken already or, with RabbitMQ, nothing that the broker may still
deliver in time. -/
theorem cancelled_not_handed_over (calendar : Calendar) (defaultValidityPeriod : UInt32)
    (server : ServerContext) (engine : RegexEngine) (Connection : Type)
    (parseRfc3339 : String → Option Instant) (start : Instant) :
    (memoryHandOver calendar defaultValidityPeriod).Respected
        (fun s event => memoryAllowed s event = true) ∧
      (sqlHandOver server engine Connection).Respected
        (fun s event => sqlAllowed s event = true) ∧
      (brokerHandOver parseRfc3339 calendar defaultValidityPeriod start).Respected
        fun s event => brokerAllowed parseRfc3339 s event = true :=
  ⟨(loop_memory calendar defaultValidityPeriod).tracks.respected,
    (loop_sql server engine Connection).tracks.respected,
    (tracks_broker calendar defaultValidityPeriod start).respected⟩

/-- A cancel_sm for the message with the id `m`. -/
def cancelSm : Value := .object [("message_id", .string "m")]

/-- The message is saved, and all of the call is done. -/
def published : List RabbitMqStorage.BrokerEvent :=
  [.publish ⟨0, 0, 0⟩ 0 "m" storedMessage, .indexMessage, .indexUser]

/-- A message is cancelled before the loop takes it or, in the broker, after it has expired. -/
theorem cancelled_not_handed_over_early :
    (memoryHandOver epochCalendar 5).SafeAfter
        (fun s event => memoryAllowed s event = true) [0] ∧
      (sqlHandOver Relay.plainServer literalEngine Nat).SafeAfter
        (fun s event => sqlAllowed s event = true) [0] ∧
      (brokerHandOver parseEpoch epochCalendar 5 0).SafeAfter
        (fun s event => brokerAllowed parseEpoch s event = true) [0] := by
  have hmemory : ((memoryHandOver epochCalendar 5).recording.runAllowed
      (fun recorded event => memoryAllowed recorded.1 event)
      [.save ⟨0, 0, 0⟩ "m" storedMessage, .cancel cancelSm, .deliveryTick (.still 0) []]).map
        Prod.snd = some [0] := by decide +kernel
  have hsql : ((sqlHandOver Relay.plainServer literalEngine Nat).recording.runAllowed
      (fun recorded event => sqlAllowed recorded.1 event)
      [.insert ⟨0, 0, 0⟩ 0 "m" storedMessage, .cancel cancelSm, .deliveryTick 0 []]).map Prod.snd =
      some [0] := by decide +kernel
  have hbroker : ((brokerHandOver parseEpoch epochCalendar 5 0).recording.runAllowed
      (fun recorded event => brokerAllowed parseEpoch recorded.1 event)
      (published ++ [.cancel (seconds 6) cancelSm, .deliver])).map Prod.snd = some [0] := by
    decide +kernel
  obtain ⟨memory, sql, broker⟩ := cancelled_not_handed_over epochCalendar 5 Relay.plainServer
    literalEngine Nat parseEpoch 0
  exact ⟨memory.safeAfter hmemory, sql.safeAfter hsql, broker.safeAfter hbroker⟩

/-- In each store a message that was cancelled is handed over. -/
theorem handed_over_cancelled :
    (¬ (memoryHandOver epochCalendar 5).Respected fun _ _ => True) ∧
      (¬ (sqlHandOver Relay.plainServer literalEngine Nat).Respected fun _ _ => True) ∧
      ¬ (brokerHandOver parseEpoch epochCalendar 5 0).Respected fun _ _ => True := by
  have hmemory : (memoryHandOver epochCalendar 5).handedAfter
      [.save ⟨0, 0, 0⟩ "m" storedMessage, .deliveryTick (.still 0) [0], .cancel cancelSm] .next =
      some ([0], [0]) := by decide +kernel
  have hsql : (sqlHandOver Relay.plainServer literalEngine Nat).handedAfter
      [.insert ⟨0, 0, 0⟩ 0 "m" storedMessage, .deliveryTick 0 [0], .cancel cancelSm] .next =
      some ([0], [0]) := by decide +kernel
  have hbroker : (brokerHandOver parseEpoch epochCalendar 5 0).handedAfter
      (published ++ [.cancel 0 cancelSm, .deliver]) (.take 0 0 0) = some ([0], [0]) := by
    decide +kernel
  have hmem : 0 ∈ [0] := List.mem_singleton_self 0
  exact ⟨HandOver.not_respected hmemory hmem hmem, HandOver.not_respected hsql hmem hmem,
    HandOver.not_respected hbroker hmem hmem⟩

end Cancelled

end SmppHerald.CancelledDelivery
