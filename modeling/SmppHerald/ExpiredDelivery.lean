import SmppHerald.InMemoryDelivery
import SmppHerald.InMemoryRun
import SmppHerald.Library.Selecting
import SmppHerald.RedisDelivery
import SmppHerald.SqlDelivery

namespace SmppHerald.ExpiredDelivery

open SmppHerald.ClientManager
open SmppHerald.Io
open SmppHerald.Json
open SmppHerald.Selecting
open SmppHerald.ServerConnection
open SmppHerald.Sweeps
open SmppHerald.Time
open SmppHerald.TransitionSystem

/-- When `get_delivery_messages` was called and until when a message that it selected is valid. -/
structure Selected where
  now : Instant
  validityPeriod : Option Instant
deriving DecidableEq

def unexpired (selected : Selected) : Bool :=
  selected.validityPeriod.all fun time => decide (selected.now ≤ time)

theorem unexpired_of_later {now : Instant} {elapsed : Nat} {validityPeriod : Option Instant}
    (h : (validityPeriod.any fun time => decide (time < now + elapsed)) = false) :
    unexpired ⟨now, validityPeriod⟩ = true := by
  cases validityPeriod with
  | none => rfl
  | some time =>
      have hlater : now + elapsed ≤ time := by simpa using h
      have hnow : now ≤ now + elapsed := Int.le_add_of_nonneg_right (Int.natCast_nonneg elapsed)
      simpa [unexpired] using Int.le_trans hnow hlater

section Memory

open SmppHerald.InMemoryDelivery (LoopPhase)
open SmppHerald.InMemoryLoops
open SmppHerald.InMemoryRun
open SmppHerald.InMemoryStorage hiding cleanExpiredMessages getDeliveryMessages
open SmppHerald.MultiMaps

/-- The store, and where its delivery loop is. -/
structure MemoryState where
  storage : InMemoryMessageStorage
  phase : LoopPhase

inductive MemoryEvent
  | request (op : StorageOp)
  | cleanTick (clock : EntryClock)
  -- how long after the call the clock is read, and the order in which the map is iterated
  | deliveryTick (now : Instant) (scheduleElapsed validityElapsed : String → Nat → Nat)
      (order : List Nat)
  | next
  | handled (outcome : Outcome Unit)
  | remove

/-- The operations that do not belong to the loop. -/
def isRequest : StorageOp → Bool
  | .save _ _ _ _ | .cancel _ | .replace _ _ _ => true
  | _ => false

/-- What the clock shows after a call at `now`. -/
def clockFrom (now : Instant) (elapsed : String → Nat → Nat) : EntryClock :=
  fun messageId index => now + elapsed messageId index

variable (calendar : Calendar) (defaultValidityPeriod : UInt32)

def MemoryState.step (s : MemoryState) (event : MemoryEvent) : Option MemoryState :=
  match event, s.phase with
  | .request op, _ =>
      if isRequest op = true then
        ((storageSystem calendar defaultValidityPeriod).step s.storage op).map fun storage =>
          { s with storage := storage }
      else none
  | .cleanTick clock, .waiting =>
      match cleanExpiredMessages s.storage clock with
      | .ok storage => some { s with storage := storage }
      | .error _ => some { s with phase := .panicked }
  | .deliveryTick now scheduleElapsed validityElapsed order, .waiting =>
      match getDeliveryMessages s.storage (clockFrom now scheduleElapsed)
          (clockFrom now validityElapsed) with
      | .ok (storage, values) =>
          if order.isPerm (List.range values.length) = true then
            some ⟨storage, .delivering (order.filterMap fun i => values[i]?)⟩
          else none
      | .error _ => some { s with phase := .panicked }
  | .next, .delivering [] => some { s with phase := .waiting }
  | .next, .delivering (value :: values) => some { s with phase := .handling value values }
  | .handled (.ok ()), .handling _ values => some { s with phase := .delivering values }
  | .handled (.err _), .handling value values => some { s with phase := .removing value values }
  | .handled .panicked, .handling _ _ => some { s with phase := .panicked }
  | .remove, .removing value values =>
      match removeMessageById s.storage value.messageId value.index with
      | some storage => some ⟨storage, .delivering values⟩
      | none => some { s with phase := .panicked }
  | _, _ => none

/-- The messages that the loop is still to hand over. -/
def memoryUpcoming : LoopPhase → List Delivery
  | .delivering values => values
  | .handling _ values => values
  | .removing _ values => values
  | _ => []

def memoryLoop : SelectingLoop MemoryState MemoryEvent Selected Delivery where
  system := ⟨⟨.new, .waiting⟩, MemoryState.step calendar defaultValidityPeriod⟩
  selects s event :=
    match event with
    | .deliveryTick now scheduleElapsed validityElapsed _ =>
        match getDeliveryMessages s.storage (clockFrom now scheduleElapsed)
            (clockFrom now validityElapsed) with
        | .ok (_, values) => values.map fun value => (⟨now, value.stored.validityPeriod⟩, value)
        | .error _ => []
    | _ => []
  hands s event :=
    match event, s.phase with
    | .next, .delivering (value :: _) => [value]
    | _, _ => []

variable {calendar : Calendar} {defaultValidityPeriod : UInt32}

theorem not_isExpired_of_mem_stops {scheduleClock validityClock : EntryClock}
    {messages : MultiMap String StoredMessage} {value : Delivery}
    (h : value ∈ stops (fromLast (deliveryVerdict scheduleClock validityClock)) messages) :
    value.stored.isExpired (validityClock value.messageId value.index) = false := by
  obtain ⟨entry, -, hentry⟩ := List.mem_filterMap.mp h
  obtain ⟨⟨index, stored⟩, hstopped, rfl⟩ := Option.map_eq_some_iff.mp hentry
  obtain ⟨-, hverdict⟩ := stoppedAt_eq_some hstopped
  unfold fromLast within deliveryVerdict at hverdict
  split_ifs at hverdict with hindex hfuture hexpired
  simpa using hexpired

theorem memory_selects {s : MemoryState} (hproper : Proper s.storage.messages)
    (event : MemoryEvent) :
    ∀ selection ∈ (memoryLoop calendar defaultValidityPeriod).selects s event,
      unexpired selection.1 = true := by
  intro selection hselection
  simp only [memoryLoop] at hselection
  split at hselection
  · rw [getDeliveryMessages_eq hproper] at hselection
    obtain ⟨value, hvalue, rfl⟩ := List.mem_map.mp hselection
    exact unexpired_of_later (not_isExpired_of_mem_stops hvalue)
  · cases hselection

theorem memory_step {s s' : MemoryState} {event : MemoryEvent}
    (hproper : Proper s.storage.messages)
    (h : s.step calendar defaultValidityPeriod event = some s') :
    Proper s'.storage.messages ∧ ∀ value ∈ memoryUpcoming s'.phase,
      value ∈ memoryUpcoming s.phase ∨
        value ∈ ((memoryLoop calendar defaultValidityPeriod).selects s event).map Prod.snd := by
  unfold MemoryState.step at h
  split at h
  · split at h
    · obtain ⟨storage, hstorage, rfl⟩ := Option.map_eq_some_iff.mp h
      obtain rfl := step_eq_some hproper hstorage
      exact ⟨proper_after hproper _, fun value hvalue => .inl hvalue⟩
    · cases h
  · rename_i clock hphase
    rw [cleanExpiredMessages_eq hproper] at h
    obtain rfl := Option.some.inj h
    exact ⟨proper_sweepAll hproper _, fun value hvalue => .inl hvalue⟩
  · rename_i now scheduleElapsed validityElapsed order hphase
    rw [getDeliveryMessages_eq hproper] at h
    simp only at h
    split at h
    · obtain rfl := Option.some.inj h
      refine ⟨proper_sweepAll hproper _, fun value hvalue => .inr ?_⟩
      simp only [memoryLoop, getDeliveryMessages_eq hproper, List.map_map]
      exact List.mem_map.mpr ⟨value, SqlDelivery.mem_of_mem_filterMap_getElem? hvalue, rfl⟩
    · cases h
  · obtain rfl := Option.some.inj h
    exact ⟨hproper, by simp [memoryUpcoming]⟩
  · rename_i hphase
    obtain rfl := Option.some.inj h
    refine ⟨hproper, fun value hvalue => .inl ?_⟩
    rw [hphase]
    exact List.mem_cons_of_mem _ hvalue
  · rename_i hphase
    obtain rfl := Option.some.inj h
    refine ⟨hproper, fun value hvalue => .inl ?_⟩
    rw [hphase]
    exact hvalue
  · rename_i hphase
    obtain rfl := Option.some.inj h
    refine ⟨hproper, fun value hvalue => .inl ?_⟩
    rw [hphase]
    exact hvalue
  · obtain rfl := Option.some.inj h
    exact ⟨hproper, by simp [memoryUpcoming]⟩
  · rename_i value values hphase
    split at h
    · rename_i storage hremove
      obtain rfl := Option.some.inj h
      refine ⟨proper_removeMessageById hproper hremove, fun value hvalue => .inl ?_⟩
      rw [hphase]
      exact hvalue
    · obtain rfl := Option.some.inj h
      exact ⟨hproper, by simp [memoryUpcoming]⟩
  · cases h

theorem tracks_memory (calendar : Calendar) (defaultValidityPeriod : UInt32) :
    (memoryLoop calendar defaultValidityPeriod).Tracks (fun _ _ => True) unexpired
      (fun s => Proper s.storage.messages) fun s => memoryUpcoming s.phase where
  initial := ⟨proper_nil, rfl⟩
  inv hproper _ hstep := (memory_step hproper hstep).1
  selects hproper _ _ := memory_selects hproper _
  advances hproper hstep := (memory_step hproper hstep).2
  hands := by
    intro s event value hvalue
    simp only [memoryLoop] at hvalue
    split at hvalue
    · rename_i hphase
      obtain rfl := List.mem_singleton.mp hvalue
      rw [hphase]
      exact List.mem_cons_self
    · cases hvalue

end Memory

section Sql

open SmppHerald.SqlDelivery
open SmppHerald.SqlStorage

variable {engine : RegexEngine} {Connection : Type}

/-- What a call of `get_delivery_messages` that selects a row makes of it. -/
def selectRow (parseRfc3339 : String → Option Instant) (now : Instant) (row : Row) :
    Selected × Nat × Value :=
  (⟨now, row.validityPeriod.bind parseRfc3339⟩, row.id, row.message)

def sqlLoop (server : ServerContext) (engine : RegexEngine) (Connection : Type)
    (parseRfc3339 : String → Option Instant) :
    SelectingLoop (SqlState engine Connection) (SqlEvent Connection) Selected (Nat × Value) where
  system := sqlSystem server engine Connection
  selects s event :=
    match event with
    | .deliveryTick now _ =>
        (s.rows.filter (Row.isDue server.calendar now)).map (selectRow parseRfc3339 now)
    | _ => []
  hands s event :=
    match event, s.phase with
    | .next, .delivering (value :: _) => [value]
    | _, _ => []

/-- When messages are selected, no row that is due has expired. -/
def sqlAllowed (server : ServerContext) (parseRfc3339 : String → Option Instant)
    (s : SqlState engine Connection) (event : SqlEvent Connection) : Bool :=
  match event with
  | .deliveryTick now _ =>
      s.rows.all fun row =>
        !row.isDue server.calendar now || unexpired (selectRow parseRfc3339 now row).1
  | _ => true

variable {server : ServerContext} {parseRfc3339 : String → Option Instant}

/-- The condition is that of a call whose rows have all not expired. -/
theorem sql_selects_iff {s : SqlState engine Connection} {event : SqlEvent Connection} :
    (∀ selection ∈ (sqlLoop server engine Connection parseRfc3339).selects s event,
      unexpired selection.1 = true) ↔ sqlAllowed server parseRfc3339 s event = true := by
  cases event with
  | deliveryTick now order =>
      simp only [sqlLoop, sqlAllowed, List.forall_mem_map, List.mem_filter, List.all_eq_true,
        Bool.or_eq_true, Bool.not_eq_true']
      refine forall_congr' fun row => ?_
      cases hdue : row.isDue server.calendar now <;> simp
  | _ => simp [sqlLoop, sqlAllowed]

theorem tracks_sql (server : ServerContext) (engine : RegexEngine) (Connection : Type)
    (parseRfc3339 : String → Option Instant) :
    (sqlLoop server engine Connection parseRfc3339).Tracks
      (fun s event => sqlAllowed server parseRfc3339 s event = true) unexpired (fun _ => True)
      fun s => s.phase.upcoming where
  initial := ⟨trivial, rfl⟩
  inv _ _ _ := trivial
  selects _ hallowed _ := sql_selects_iff.mpr hallowed
  advances := by
    intro s event s' _ hstep value hvalue
    rcases mem_upcoming_step hstep hvalue with hbefore | ⟨now, order, rfl, hselected⟩
    · exact .inl hbefore
    · obtain ⟨row, hrow, rfl⟩ := List.mem_map.mp hselected
      exact .inr (List.mem_map_of_mem (List.mem_map_of_mem hrow))
  hands := by
    intro s event value hvalue
    simp only [sqlLoop] at hvalue
    split at hvalue
    · rename_i hphase
      obtain rfl := List.mem_singleton.mp hvalue
      rw [hphase]
      exact List.mem_cons_self
    · cases hvalue

end Sql

section Redis

open SmppHerald.RedisDelivery
open SmppHerald.RedisStorage

variable (calendar : Calendar) (defaultValidityPeriod : UInt32)
  (parseRfc3339 : String → Option Instant)

/-- The messages that the loop has collected and is still to hand over. -/
def redisUpcoming : LoopPhase → List (Nat × Value)
  | .collecting _ _ messages => messages
  | .delivering values => values
  | .handling _ values => values
  | .deleting _ values => values
  | _ => []

/-- What a round of a call at `now` makes of the hash that it has found. -/
def selectEntry (now : Instant) (entryId : Nat) (hash : EntryHash) : Selected × Nat × Value :=
  (⟨now, parseRfc3339 hash.validityPeriod⟩, entryId, hash.message)

def redisLoop : SelectingLoop RedisState RedisEvent Selected (Nat × Value) where
  system := redisSystem calendar defaultValidityPeriod parseRfc3339
  selects s event :=
    match event, s.phase with
    | .collect elapsed, .collecting now (entryId :: _) _ =>
        ((collectOne parseRfc3339 (now + elapsed) s.storage entryId).2.map
          (selectEntry parseRfc3339 now entryId)).toList
    | _, _ => []
  hands s event :=
    match event, s.phase with
    | .next, .delivering (value :: _) => [value]
    | _, _ => []

variable {calendar : Calendar} {defaultValidityPeriod : UInt32}
  {parseRfc3339 : String → Option Instant}

theorem collectOne_eq_some {clock : Instant} {storage : RedisMessageStorage} {entryId : Nat}
    {hash : EntryHash} (h : (collectOne parseRfc3339 clock storage entryId).2 = some hash) :
    ((parseRfc3339 hash.validityPeriod).any fun time => decide (time < clock)) = false := by
  unfold collectOne at h
  split at h
  · cases h
  · split at h
    · cases h
    · rename_i hvalid
      obtain rfl := Option.some.inj h
      exact Bool.eq_false_iff.mpr hvalid

theorem redis_selects (s : RedisState) (event : RedisEvent) :
    ∀ selection ∈ (redisLoop calendar defaultValidityPeriod parseRfc3339).selects s event,
      unexpired selection.1 = true := by
  intro selection hselection
  simp only [redisLoop] at hselection
  split at hselection
  · obtain ⟨hash, hhash, rfl⟩ := Option.map_eq_some_iff.mp (Option.mem_toList.mp hselection)
    exact unexpired_of_later (collectOne_eq_some hhash)
  · cases hselection

theorem redis_step {s s' : RedisState} {event : RedisEvent}
    (h : s.step calendar defaultValidityPeriod parseRfc3339 event = some s') :
    ∀ value ∈ redisUpcoming s'.phase, value ∈ redisUpcoming s.phase ∨ value ∈
      ((redisLoop calendar defaultValidityPeriod parseRfc3339).selects s event).map Prod.snd := by
  intro value hvalue
  cases redisMoves_of_step h with
  | saved _ => exact .inl hvalue
  | notSaved => exact .inl hvalue
  | cancelled => exact .inl hvalue
  | replaced => exact .inl hvalue
  | collected =>
      rcases List.mem_append.mp hvalue with hbefore | hnow
      · exact .inl hbefore
      · right
        simp only [redisLoop]
        obtain ⟨hash, hhash, rfl⟩ := Option.map_eq_some_iff.mp (Option.mem_toList.mp hnow)
        rw [hhash]
        exact List.mem_singleton_self _
  | delivering => exact .inl hvalue
  | taken => exact .inl (List.mem_cons_of_mem _ hvalue)
  | succeeded => exact .inl hvalue
  | failed => exact .inl hvalue
  | deleted => exact .inl hvalue
  | _ => cases hvalue

theorem tracks_redis (calendar : Calendar) (defaultValidityPeriod : UInt32)
    (parseRfc3339 : String → Option Instant) :
    (redisLoop calendar defaultValidityPeriod parseRfc3339).Tracks (fun _ _ => True) unexpired
      (fun _ => True) fun s => redisUpcoming s.phase where
  initial := ⟨trivial, rfl⟩
  inv _ _ _ := trivial
  selects _ _ _ := redis_selects _ _
  advances _ hstep := redis_step hstep
  hands := by
    intro s event value hvalue
    simp only [redisLoop] at hvalue
    split at hvalue
    · rename_i hphase
      obtain rfl := List.mem_singleton.mp hvalue
      rw [hphase]
      exact List.mem_cons_self
    · cases hvalue

end Redis

section Expired

open SmppHerald.ServerRun (literalEngine)
open SmppHerald.SqlDelivery (SqlEvent storedMessage)
open SmppHerald.Utf8

/-- The memory store and the Redis store hand over only what had not expired when it was selected,
and so does the SQL store where no row that is due has expired when it selects. -/
theorem expired_not_handed_over (calendar : Calendar) (defaultValidityPeriod : UInt32)
    (server : ServerContext) (engine : RegexEngine) (Connection : Type)
    (parseRfc3339 : String → Option Instant) :
    (memoryLoop calendar defaultValidityPeriod).HandsOnly (fun _ _ => True) unexpired ∧
      (redisLoop calendar defaultValidityPeriod parseRfc3339).HandsOnly (fun _ _ => True)
        unexpired ∧
      (sqlLoop server engine Connection parseRfc3339).HandsOnly
        (fun s event => sqlAllowed server parseRfc3339 s event = true) unexpired :=
  ⟨(tracks_memory calendar defaultValidityPeriod).handsOnly,
    (tracks_redis calendar defaultValidityPeriod parseRfc3339).handsOnly,
    (tracks_sql server engine Connection parseRfc3339).handsOnly⟩

def epochServer : ServerContext := { Relay.plainServer with calendar := epochCalendar }

/-- A message that is valid for one second. -/
def briefMessage : Value :=
  storedMessage.insertKey "validity_period" (.string "000000000001000R")

/-- The message is stored when the clock shows 0 and selected at `now`. -/
def sqlSelection (now : Instant) : List (SqlEvent Nat) :=
  [.insert ⟨0, 0, 0⟩ 0 "m" briefMessage, .deliveryTick now [0]]

/-- The message is selected at the last moment. -/
theorem expired_not_handed_over_last :
    (memoryLoop epochCalendar 60).HandsWellAfter (fun _ _ => true) unexpired
        [.request (.save ⟨0, 0, 0⟩ "m" briefMessage 0),
          .deliveryTick (seconds 1) (fun _ _ => 0) (fun _ _ => 0) [0]] .next
        [⟨seconds 1, some (seconds 1)⟩] ∧
      (redisLoop epochCalendar 60 parseEpoch).HandsWellAfter (fun _ _ => true) unexpired
        [.save ⟨0, 0, 0⟩ 0 "m" briefMessage, .deliveryTick (seconds 1), .collect 0, .next] .next
        [⟨seconds 1, some (seconds 1)⟩] ∧
      (sqlLoop epochServer literalEngine Nat parseEpoch).HandsWellAfter
        (sqlAllowed epochServer parseEpoch) unexpired (sqlSelection (seconds 1)) .next
        [⟨seconds 1, some (seconds 1)⟩] := by
  obtain ⟨memory, redis, sql⟩ := expired_not_handed_over epochCalendar 60 epochServer literalEngine
    Nat parseEpoch
  exact ⟨memory.always.handsWellAfter (by decide +kernel),
    redis.always.handsWellAfter (by decide +kernel), sql.handsWellAfter (by decide +kernel)⟩

/-- The SQL store hands the message over when it has expired for a second. -/
theorem handed_over_expired :
    ¬ (sqlLoop epochServer literalEngine Nat parseEpoch).HandsOnly (fun _ _ => True) unexpired := by
  have hrun : (sqlLoop epochServer literalEngine Nat parseEpoch).recordsAfter (fun _ _ => true)
      (sqlSelection (seconds 2)) .next = some [⟨seconds 2, some (seconds 1)⟩] := by
    decide +kernel
  exact SelectingLoop.not_handsOnly hrun (by decide +kernel)

end Expired

end SmppHerald.ExpiredDelivery
