import SmppHerald.SqlStorage

/-!
`RedisMessageStorage`: the keys below its prefix, and its operations. Every command is assumed to
succeed.
-/

namespace SmppHerald.RedisStorage

open SmppHerald.InMemoryStorage (SaveClock replaceField)
open SmppHerald.Io
open SmppHerald.Json
open SmppHerald.Time

/-- The hash at `entry_key`; `message` is the value that its JSON text was made from. -/
structure EntryHash where
  destAddress : String
  messageId : String
  message : Value
  scheduleDeliveryTime : String
  validityPeriod : String

/-- What is kept at `entry_key`, `msgid_key`, `user_key`, `counter_key`, `schedule_key` and
`expiry_key`. An entry id is the text of the counter when the entry was made. A set that is left
without members is a key that is gone. -/
structure RedisMessageStorage where
  entry : Nat → Option EntryHash
  msgid : String → List Nat
  user : String → List String
  counter : Nat
  schedule : List (Nat × Int)
  expiry : List (Nat × Int)

section Keys

variable {κ α : Type} [DecidableEq κ]

/-- Change what is kept at one key. -/
def setAt (key : κ) (value : α) (keys : κ → α) : κ → α :=
  fun other => if other = key then value else keys other

@[simp] theorem setAt_self (key : κ) (value : α) (keys : κ → α) :
    setAt key value keys key = value := if_pos rfl

theorem setAt_of_ne {key other : κ} (h : other ≠ key) (value : α) (keys : κ → α) :
    setAt key value keys other = keys other := if_neg h

end Keys

section Sets

variable {α : Type} [DecidableEq α]

/-- `SADD` -/
def sadd (member : α) (members : List α) : List α :=
  if member ∈ members then members else members ++ [member]

/-- `SREM` -/
def srem (member : α) (members : List α) : List α := members.filter fun other => other ≠ member

/-- `ZADD` -/
def zadd (member : α) (score : Int) (members : List (α × Int)) : List (α × Int) :=
  members.filter (fun other => other.1 ≠ member) ++ [(member, score)]

/-- `ZREM` -/
def zrem (member : α) (members : List (α × Int)) : List (α × Int) :=
  members.filter fun other => other.1 ≠ member

theorem mem_sadd {member other : α} {members : List α} :
    other ∈ sadd member members ↔ other = member ∨ other ∈ members := by
  unfold sadd
  split
  · rename_i hmem
    constructor
    · exact .inr
    · rintro (rfl | h)
      · exact hmem
      · exact h
  · rw [List.mem_append, List.mem_singleton, or_comm]

theorem mem_srem {member other : α} {members : List α} :
    other ∈ srem member members ↔ other ≠ member ∧ other ∈ members := by
  simp [srem, and_comm]

theorem nodup_sadd {member : α} {members : List α} (h : members.Nodup) :
    (sadd member members).Nodup := by
  unfold sadd
  split
  · exact h
  · rename_i hmem
    refine List.nodup_append.mpr ⟨h, by simp, ?_⟩
    rintro other hother _ hlast rfl
    exact hmem (List.mem_singleton.mp hlast ▸ hother)

theorem mem_zadd {member other : α} {score : Int} {members : List (α × Int)} :
    other ∈ (zadd member score members).map Prod.fst ↔
      other = member ∨ other ∈ members.map Prod.fst := by
  by_cases h : other = member
  · simp [zadd, h]
  · simp [zadd, h]

theorem mem_zrem {member other : α} {members : List (α × Int)} :
    other ∈ (zrem member members).map Prod.fst ↔
      other ≠ member ∧ other ∈ members.map Prod.fst := by
  simp only [zrem, List.mem_map, List.mem_filter, decide_eq_true_eq]
  constructor
  · rintro ⟨entry, ⟨hentry, hne⟩, rfl⟩
    exact ⟨hne, entry, hentry, rfl⟩
  · rintro ⟨hne, entry, hentry, rfl⟩
    exact ⟨entry, ⟨hentry, hne⟩, rfl⟩

end Sets

section Scores

/-- The order of a sorted set: by score and then by member, which is the decimal text of an id. -/
def scoreLe (a b : Nat × Int) : Bool :=
  a.2 < b.2 ∨ a.2 = b.2 ∧ toString a.1 ≤ toString b.1

/-- `ZRANGEBYSCORE` from minus infinity. -/
def zrangebyscore (max : Int) (members : List (Nat × Int)) : List Nat :=
  ((members.filter fun member => member.2 ≤ max).mergeSort scoreLe).map Prod.fst

end Scores

/-- `timestamp_millis` -/
def timestampMillis (time : Instant) : Int := time / 1000000

section Operations

/-- The times of a message to be saved, unless it is refused. The RabbitMQ store takes and refuses
the same. `now` is when the delivery time is compared with the clock. -/
def savedTimes (calendar : Calendar) (defaultValidityPeriod : UInt32) (clock : SaveClock)
    (now : Instant) (message : Value) : Outcome (Option Instant × Option Instant) :=
  if message.strField "destination_addr" = "" then
    .err (invalidInput "Missing destination_addr in the message")
  else do
    let scheduleDeliveryTime ←
      (getScheduleDeliveryTime calendar clock.schedule message).optional
    if scheduleDeliveryTime.any (fun time => decide (time < now)) = true then
      .err (invalidInput "schedule_delivery_time is in the past")
    else do
      let validityPeriod ←
        (getValidityPeriod calendar clock.validity defaultValidityPeriod message).optional
      if scheduleDeliveryTime.isNone ∧ validityPeriod.isNone then
        .err (invalidInput "Message has neither schedule_delivery_time nor validity_period")
      else .ok (scheduleDeliveryTime, validityPeriod)

def save (calendar : Calendar) (defaultValidityPeriod : UInt32) (clock : SaveClock) (now : Instant)
    (storage : RedisMessageStorage) (messageId : String) (message : Value) :
    Outcome RedisMessageStorage := do
  let times ← savedTimes calendar defaultValidityPeriod clock now message
  let destAddress := message.strField "destination_addr"
  let entryId := storage.counter + 1
  .ok {
    entry := setAt entryId (some {
      destAddress
      messageId
      message
      scheduleDeliveryTime := (times.1.map calendar.toRfc3339).getD ""
      validityPeriod := (times.2.map calendar.toRfc3339).getD "" }) storage.entry
    msgid := setAt messageId (sadd entryId (storage.msgid messageId)) storage.msgid
    user := setAt destAddress (sadd messageId (storage.user destAddress)) storage.user
    counter := entryId
    schedule := zadd entryId ((times.1.map timestampMillis).getD 0) storage.schedule
    expiry := match times.2 with
      | some time => zadd entryId (timestampMillis time) storage.expiry
      | none => storage.expiry }

/-- Whether the entry was there. The message id goes from the set of its address with the last of
its entries. -/
def deleteEntry (storage : RedisMessageStorage) (entryId : Nat) : RedisMessageStorage × Bool :=
  match storage.entry entryId with
  | none => (storage, false)
  | some hash =>
      let remaining := srem entryId (storage.msgid hash.messageId)
      ({ entry := setAt entryId none storage.entry
         msgid := setAt hash.messageId remaining storage.msgid
         user :=
           if remaining = [] then
             setAt hash.destAddress (srem hash.messageId (storage.user hash.destAddress))
               storage.user
           else storage.user
         counter := storage.counter
         schedule := zrem entryId storage.schedule
         expiry := zrem entryId storage.expiry }, true)

/-- Delete one entry after another: whether any of them was there. -/
def deleteEntries (storage : RedisMessageStorage) : List Nat → RedisMessageStorage × Bool
  | [] => (storage, false)
  | entryId :: entryIds =>
      let (storage, deleted) := deleteEntry storage entryId
      let (storage, deletedAny) := deleteEntries storage entryIds
      (storage, deleted || deletedAny)

def cancelMessage (storage : RedisMessageStorage) (cancelSm : Value) :
    RedisMessageStorage × Outcome Bool :=
  let messageId := cancelSm.strField "message_id"
  if messageId = "" then
    (storage, .err (invalidInput "Missing message_id in the cancel_sm command"))
  else
    let (storage, deletedAny) := deleteEntries storage (storage.msgid messageId)
    (storage, .ok deletedAny)

/-- The field of a replace_sm, if it is there. -/
def copyField (replaceSm : Value) (field target : String) (message : Value) : Value :=
  match replaceSm.get field with
  | some value => message.insertKey target value
  | none => message

/-- The copy of a message that `replace_message` changes. -/
def patchedCopy (replaceSm existingMessage : Value) : Value :=
  let message :=
    if (replaceSm.get "short_message").isSome then
      copyField replaceSm "short_message" "short_message" existingMessage
    else copyField replaceSm "message_payload" "short_message" existingMessage
  let message := copyField replaceSm "schedule_delivery_time" "schedule_delivery_time" message
  let message := copyField replaceSm "validity_period" "validity_period" message
  copyField replaceSm "registered_delivery" "registered_delivery" message

/-- The loop over the entries: the copies are dropped, and `replaced_any` stays as it is. -/
def replaceEntries (storage : RedisMessageStorage) (replaceSm : Value) (replacedAny : Bool) :
    List Nat → RedisMessageStorage × Bool
  | [] => (storage, replacedAny)
  | entryId :: entryIds =>
      match storage.entry entryId with
      | none => replaceEntries storage replaceSm replacedAny entryIds
      | some hash =>
          let _existingMessage := patchedCopy replaceSm hash.message
          replaceEntries storage replaceSm replacedAny entryIds

def replaceMessage (storage : RedisMessageStorage) (replaceSm : Value) :
    RedisMessageStorage × Outcome Bool :=
  let messageId := replaceSm.strField "message_id"
  if messageId = "" then
    (storage, .err (invalidInput "Missing message_id in the replace_sm command"))
  else
    let (storage, replacedAny) :=
      replaceEntries storage replaceSm false (storage.msgid messageId)
    (storage, .ok replacedAny)

end Operations

section Delivery

/-- The entries that are due: an expired one is deleted, and the others are to be delivered.
`clock` is when the time of an entry is compared, and `parseRfc3339` reads it. -/
def collectDue (parseRfc3339 : String → Option Instant) (clock : Nat → Instant) :
    RedisMessageStorage → List Nat → RedisMessageStorage × List (Nat × Value)
  | storage, [] => (storage, [])
  | storage, entryId :: entryIds =>
      match storage.entry entryId with
      | none => collectDue parseRfc3339 clock storage entryIds
      | some hash =>
          if (parseRfc3339 hash.validityPeriod).any (fun time => decide (time < clock entryId)) =
              true then
            collectDue parseRfc3339 clock (deleteEntry storage entryId).1 entryIds
          else
            let (storage, messages) := collectDue parseRfc3339 clock storage entryIds
            (storage, (entryId, hash.message) :: messages)

def getDeliveryMessages (parseRfc3339 : String → Option Instant) (now : Instant)
    (clock : Nat → Instant) (storage : RedisMessageStorage) :
    RedisMessageStorage × List (Nat × Value) :=
  collectDue parseRfc3339 clock storage (zrangebyscore (timestampMillis now) storage.schedule)

end Delivery

end SmppHerald.RedisStorage
