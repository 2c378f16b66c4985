import SmppHerald.Library.TransitionSystem
import SmppHerald.RedisStorage

/-!
`RedisMessageStorage` together with its delivery loop. Requests come in between any two steps of the
loop, also while it goes through the entries that are due.
-/

namespace SmppHerald.RedisDelivery

open SmppHerald.InMemoryStorage (SaveClock)
open SmppHerald.Io
open SmppHerald.Json
open SmppHerald.RedisStorage
open SmppHerald.Time
open SmppHerald.TransitionSystem

section Model

/-- Where the loop is: in `select!`, in `clean_expired_messages`, in the `get_delivery_messages`
that was called at `now`, before the next message, in the handler, or on its way to delete an
entry. -/
inductive LoopPhase
  | waiting
  | cleaning (expiredIds : List Nat)
  | collecting (now : Instant) (entryIds : List Nat) (messages : List (Nat × Value))
  | delivering (values : List (Nat × Value))
  | handling (value : Nat × Value) (values : List (Nat × Value))
  | deleting (entryId : Nat) (values : List (Nat × Value))
  | panicked

structure RedisState where
  storage : RedisMessageStorage
  phase : LoopPhase

inductive RedisEvent
  | save (clock : SaveClock) (now : Instant) (messageId : String) (message : Value)
  | cancel (cancelSm : Value)
  | replace (replaceSm : Value)
  | cleanTick (now : Instant)
  | deliveryTick (now : Instant)
  -- the next entry, for which the clock is read so long after the call
  | collect (elapsed : Nat)
  | next
  | handled (outcome : Outcome Unit)
  | delete

variable (calendar : Calendar) (defaultValidityPeriod : UInt32)
  (parseRfc3339 : String → Option Instant)

/-- One round of the loop over the entries that are due: the hash of a message to deliver. -/
def collectOne (clock : Instant) (storage : RedisMessageStorage) (entryId : Nat) :
    RedisMessageStorage × Option EntryHash :=
  match storage.entry entryId with
  | none => (storage, none)
  | some hash =>
      if (parseRfc3339 hash.validityPeriod).any (fun time => decide (time < clock)) = true then
        ((deleteEntry storage entryId).1, none)
      else (storage, some hash)

/-- The message that a round has found. -/
def found (entryId : Nat) (hash : Option EntryHash) : List (Nat × Value) :=
  (hash.map fun hash => (entryId, hash.message)).toList

def RedisState.step (s : RedisState) (event : RedisEvent) : Option RedisState :=
  match event, s.phase with
  | .save clock now messageId message, _ =>
      match save calendar defaultValidityPeriod clock now s.storage messageId message with
      | .ok storage => some { s with storage := storage }
      | _ => some s
  | .cancel cancelSm, _ => some { s with storage := (cancelMessage s.storage cancelSm).1 }
  | .replace replaceSm, _ => some { s with storage := (replaceMessage s.storage replaceSm).1 }
  | .cleanTick now, .waiting =>
      some { s with phase := .cleaning (zrangebyscore (timestampMillis now) s.storage.expiry) }
  | .next, .cleaning [] => some { s with phase := .waiting }
  | .next, .cleaning (entryId :: expiredIds) =>
      some ⟨(deleteEntry s.storage entryId).1, .cleaning expiredIds⟩
  | .deliveryTick now, .waiting =>
      some { s with
        phase := .collecting now (zrangebyscore (timestampMillis now) s.storage.schedule) [] }
  | .collect elapsed, .collecting now (entryId :: entryIds) messages =>
      let round := collectOne parseRfc3339 (now + elapsed) s.storage entryId
      some ⟨round.1, .collecting now entryIds (messages ++ found entryId round.2)⟩
  | .next, .collecting _ [] messages => some { s with phase := .delivering messages }
  | .next, .delivering [] => some { s with phase := .waiting }
  | .next, .delivering (value :: values) => some { s with phase := .handling value values }
  | .handled (.ok ()), .handling value values => some { s with phase := .deleting value.1 values }
  | .handled (.err _), .handling _ values => some { s with phase := .delivering values }
  | .handled .panicked, .handling _ _ => some { s with phase := .panicked }
  | .delete, .deleting entryId values =>
      some ⟨(deleteEntry s.storage entryId).1, .delivering values⟩
  | _, _ => none

/-- The steps, one by one. -/
inductive RedisMoves : RedisState → RedisEvent → RedisState → Prop
  | saved {clock now messageId message storage storage' phase} :
      save calendar defaultValidityPeriod clock now storage messageId message = .ok storage' →
      RedisMoves ⟨storage, phase⟩ (.save clock now messageId message) ⟨storage', phase⟩
  | notSaved {clock now messageId message s} : RedisMoves s (.save clock now messageId message) s
  | cancelled {cancelSm storage phase} : RedisMoves ⟨storage, phase⟩ (.cancel cancelSm)
      ⟨(cancelMessage storage cancelSm).1, phase⟩
  | replaced {replaceSm storage phase} : RedisMoves ⟨storage, phase⟩ (.replace replaceSm)
      ⟨(replaceMessage storage replaceSm).1, phase⟩
  | cleaning {now storage} : RedisMoves ⟨storage, .waiting⟩ (.cleanTick now)
      ⟨storage, .cleaning (zrangebyscore (timestampMillis now) storage.expiry)⟩
  | cleaned {storage} : RedisMoves ⟨storage, .cleaning []⟩ .next ⟨storage, .waiting⟩
  | expired {storage entryId expiredIds} : RedisMoves ⟨storage, .cleaning (entryId :: expiredIds)⟩
      .next ⟨(deleteEntry storage entryId).1, .cleaning expiredIds⟩
  | collecting {now storage} : RedisMoves ⟨storage, .waiting⟩ (.deliveryTick now)
      ⟨storage, .collecting now (zrangebyscore (timestampMillis now) storage.schedule) []⟩
  | collected {elapsed now storage entryId entryIds messages} :
      RedisMoves ⟨storage, .collecting now (entryId :: entryIds) messages⟩ (.collect elapsed)
        ⟨(collectOne parseRfc3339 (now + elapsed) storage entryId).1,
          .collecting now entryIds (messages ++
            found entryId (collectOne parseRfc3339 (now + elapsed) storage entryId).2)⟩
  | delivering {now storage messages} : RedisMoves ⟨storage, .collecting now [] messages⟩ .next
      ⟨storage, .delivering messages⟩
  | ended {storage} : RedisMoves ⟨storage, .delivering []⟩ .next ⟨storage, .waiting⟩
  | taken {storage value values} : RedisMoves ⟨storage, .delivering (value :: values)⟩ .next
      ⟨storage, .handling value values⟩
  | succeeded {storage value values} : RedisMoves ⟨storage, .handling value values⟩
      (.handled (.ok ())) ⟨storage, .deleting value.1 values⟩
  | failed {e storage value values} : RedisMoves ⟨storage, .handling value values⟩
      (.handled (.err e)) ⟨storage, .delivering values⟩
  | panicked {storage value values} : RedisMoves ⟨storage, .handling value values⟩
      (.handled .panicked) ⟨storage, .panicked⟩
  | deleted {storage entryId values} : RedisMoves ⟨storage, .deleting entryId values⟩ .delete
      ⟨(deleteEntry storage entryId).1, .delivering values⟩

variable {calendar} {defaultValidityPeriod} {parseRfc3339} in
theorem redisMoves_of_step {s s' : RedisState} {event : RedisEvent}
    (h : s.step calendar defaultValidityPeriod parseRfc3339 event = some s') :
    RedisMoves calendar defaultValidityPeriod parseRfc3339 s event s' := by
  obtain ⟨storage, phase⟩ := s
  simp only [RedisState.step] at h
  split at h
  · split at h
    · rename_i hsave
      obtain rfl := Option.some.inj h
      exact .saved hsave
    · obtain rfl := Option.some.inj h
      exact .notSaved
  · obtain rfl := Option.some.inj h
    exact .cancelled
  · obtain rfl := Option.some.inj h
    exact .replaced
  · obtain rfl := Option.some.inj h
    exact .cleaning
  · obtain rfl := Option.some.inj h
    exact .cleaned
  · obtain rfl := Option.some.inj h
    exact .expired
  · obtain rfl := Option.some.inj h
    exact .collecting
  · obtain rfl := Option.some.inj h
    exact .collected
  · obtain rfl := Option.some.inj h
    exact .delivering
  · obtain rfl := Option.some.inj h
    exact .ended
  · obtain rfl := Option.some.inj h
    exact .taken
  · obtain rfl := Option.some.inj h
    exact .succeeded
  · obtain rfl := Option.some.inj h
    exact .failed
  · obtain rfl := Option.some.inj h
    exact .panicked
  · obtain rfl := Option.some.inj h
    exact .deleted
  · cases h

def redisSystem : System RedisState RedisEvent where
  initial := ⟨⟨fun _ => none, fun _ => [], fun _ => [], 0, [], []⟩, .waiting⟩
  step := RedisState.step calendar defaultValidityPeriod parseRfc3339

end Model

section Collecting

variable {calendar : Calendar} {defaultValidityPeriod : UInt32}
  {parseRfc3339 : String → Option Instant}

theorem collectDue_cons (clock : Nat → Instant) (storage : RedisMessageStorage) (entryId : Nat)
    (entryIds : List Nat) :
    collectDue parseRfc3339 clock storage (entryId :: entryIds) =
      let round := collectOne parseRfc3339 (clock entryId) storage entryId
      let rest := collectDue parseRfc3339 clock round.1 entryIds
      (rest.1, found entryId round.2 ++ rest.2) := by
  rw [collectDue, collectOne]
  cases storage.entry entryId with
  | none => rfl
  | some hash =>
      simp only
      split <;> rfl

theorem run_collect (elapsed : Nat → Nat) (now : Instant) (storage : RedisMessageStorage)
    (entryIds : List Nat) (messages : List (Nat × Value)) :
    (entryIds.map fun entryId => RedisEvent.collect (elapsed entryId)).foldlM
        (RedisState.step calendar defaultValidityPeriod parseRfc3339)
        ⟨storage, .collecting now entryIds messages⟩ =
      let collected := collectDue parseRfc3339 (fun entryId => now + elapsed entryId) storage
        entryIds
      some ⟨collected.1, .collecting now [] (messages ++ collected.2)⟩ := by
  induction entryIds generalizing storage messages with
  | nil => simp [collectDue]
  | cons entryId entryIds ih =>
      rw [List.map_cons, List.foldlM_cons, collectDue_cons]
      simp only [RedisState.step, Option.bind_eq_bind, Option.bind_some, ih, List.append_assoc]

/-- Where no request comes in between, the steps of the loop make `get_delivery_messages`. -/
theorem run_getDeliveryMessages (elapsed : Nat → Nat) (now : Instant)
    (storage : RedisMessageStorage) :
    (RedisEvent.deliveryTick now ::
        ((zrangebyscore (timestampMillis now) storage.schedule).map fun entryId =>
          RedisEvent.collect (elapsed entryId)) ++ [RedisEvent.next]).foldlM
        (RedisState.step calendar defaultValidityPeriod parseRfc3339) ⟨storage, .waiting⟩ =
      let delivery := getDeliveryMessages parseRfc3339 now (fun entryId => now + elapsed entryId)
        storage
      some ⟨delivery.1, .delivering delivery.2⟩ := by
  rw [List.cons_append, List.foldlM_cons]
  simp only [RedisState.step, Option.bind_eq_bind, Option.bind_some, List.foldlM_append,
    run_collect, List.foldlM_cons, List.foldlM_nil, List.nil_append]
  rfl

end Collecting

end SmppHerald.RedisDelivery
