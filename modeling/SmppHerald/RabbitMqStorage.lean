import SmppHerald.Library.TransitionSystem
import SmppHerald.RedisStorage

/-!
`RabbitMqMessageStorage` with its consumer and the queue of the broker. The broker keeps a message
until it is acknowledged; one that is sent back may come to any place of the queue.
-/

namespace SmppHerald.RabbitMqStorage

open SmppHerald.InMemoryStorage (SaveClock cancelMatches removeUserMessageId)
open SmppHerald.Io
open SmppHerald.Json
open SmppHerald.MultiMaps
open SmppHerald.RedisStorage (savedTimes)
open SmppHerald.Time
open SmppHerald.TransitionSystem

/-- What is published; `payload` is the value that its JSON text was made from. -/
structure Envelope where
  messageId : String
  destAddress : String
  scheduleDeliveryTime : Option String
  validityPeriod : Option String
  payload : Value

/-- The local indexes. -/
structure RabbitMqMessageStorage where
  messageIndex : MultiMap String (String × UInt64)
  userIndex : MultiMap String String

section Operations

/-- The envelope that `save` publishes. -/
def newEnvelope (calendar : Calendar) (defaultValidityPeriod : UInt32) (clock : SaveClock)
    (now : Instant) (messageId : String) (message : Value) : Outcome Envelope := do
  let times ← savedTimes calendar defaultValidityPeriod clock now message
  .ok {
    messageId
    destAddress := message.strField "destination_addr"
    scheduleDeliveryTime := times.1.map calendar.toRfc3339
    validityPeriod := times.2.map calendar.toRfc3339
    payload := message }

/-- The delivery tag is not known when a message is saved. -/
def indexMessage (storage : RabbitMqMessageStorage) (messageId destAddress : String) :
    RabbitMqMessageStorage :=
  { storage with messageIndex := push messageId (destAddress, 0) storage.messageIndex }

def indexUser (storage : RabbitMqMessageStorage) (messageId destAddress : String) :
    RabbitMqMessageStorage :=
  { storage with userIndex := push destAddress messageId storage.userIndex }

/-- The indexes without a message that was acknowledged. -/
def cleanIndexes (storage : RabbitMqMessageStorage) (envelope : Envelope) :
    RabbitMqMessageStorage where
  messageIndex := updateAt envelope.messageId (fun _ => []) storage.messageIndex
  userIndex := removeUserMessageId storage.userIndex envelope.destAddress envelope.messageId

def cancelMessage (storage : RabbitMqMessageStorage) (cancelSm : Value) :
    RabbitMqMessageStorage × Outcome Bool :=
  let messageId := cancelSm.strField "message_id"
  if messageId = "" then
    (storage, .err (invalidInput "Missing message_id in the cancel_sm command"))
  else
    match find messageId storage.messageIndex with
    | some entries =>
        ({ messageIndex := updateAt messageId (fun _ => []) storage.messageIndex
           userIndex := entries.foldl (fun userIndex entry =>
             removeUserMessageId userIndex entry.1 messageId) storage.userIndex }, .ok true)
    | none => (storage, .ok false)

-- a message in the broker cannot be changed, the replacement is only logged
def replaceMessage (storage : RabbitMqMessageStorage) (replaceSmCommand : Value) :
    RabbitMqMessageStorage × Outcome Bool :=
  let messageId := replaceSmCommand.strField "message_id"
  if messageId = "" then
    (storage, .err (invalidInput "Missing message_id in the replace_sm command"))
  else
    match find messageId storage.messageIndex with
    | some _ => (storage, .ok true)
    | none => (storage, .ok false)

@[simp] theorem replaceMessage_fst (storage : RabbitMqMessageStorage) (replaceSmCommand : Value) :
    (replaceMessage storage replaceSmCommand).1 = storage := by
  unfold replaceMessage
  dsimp only
  split
  · rfl
  · split <;> rfl

end Operations

section Consumer

/-- A message in the broker. `serial` tells apart what was published. -/
structure QueuedMessage where
  serial : Nat
  envelope : Envelope

/-- How far the call of `save` is that holds the lock of the channel. -/
inductive SavePhase
  | idle
  | published (messageId destAddress : String)
  | indexed (messageId destAddress : String)

/-- Where the consumer is: before the next message, asleep after it has sent one back, in the
handler, or on its way to clean up the indexes. -/
inductive ConsumerPhase
  | waiting
  | sleeping
  | handling (message : QueuedMessage)
  | cleaning (envelope : Envelope)
  | panicked

/-- `buffered` is what the broker has delivered and the consumer has not taken yet, and `clock` the
latest time of which something is known. -/
structure BrokerState where
  storage : RabbitMqMessageStorage
  nextSerial : Nat
  saving : SavePhase
  queue : List QueuedMessage
  buffered : List QueuedMessage
  phase : ConsumerPhase
  clock : Instant

/-- The messages that the broker still has. -/
def BrokerState.stored (s : BrokerState) : List QueuedMessage :=
  s.queue ++ s.buffered ++
    match s.phase with
    | .handling message => [message]
    | _ => []

inductive BrokerEvent
  | publish (clock : SaveClock) (now : Instant) (messageId : String) (message : Value)
  | indexMessage
  | indexUser
  -- `now` is not read by the call
  | cancel (now : Instant) (cancelSm : Value)
  | replace (replaceSmCommand : Value)
  | deliver
  -- when the two times are compared, and the place of a message that is sent back
  | take (scheduleNow validityNow : Instant) (place : Nat)
  | wake
  | handled (outcome : Outcome Unit) (place : Nat)
  | clean

def requeue (place : Nat) (message : QueuedMessage) (queue : List QueuedMessage) :
    List QueuedMessage :=
  queue.take place ++ message :: queue.drop place

variable (calendar : Calendar) (defaultValidityPeriod : UInt32)
  (parseRfc3339 : String → Option Instant)

def Envelope.isFuture (now : Instant) (envelope : Envelope) : Bool :=
  (envelope.scheduleDeliveryTime.bind parseRfc3339).any fun time => decide (now < time)

def Envelope.isExpired (now : Instant) (envelope : Envelope) : Bool :=
  (envelope.validityPeriod.bind parseRfc3339).any fun time => decide (time < now)

def BrokerState.step (s : BrokerState) (event : BrokerEvent) : Option BrokerState :=
  match event, s.phase with
  | .publish clock now messageId message, _ =>
      match s.saving, newEnvelope calendar defaultValidityPeriod clock now messageId message with
      | .idle, .ok envelope =>
          some { s with
            queue := s.queue ++ [⟨s.nextSerial, envelope⟩]
            nextSerial := s.nextSerial + 1
            saving := .published messageId envelope.destAddress }
      | .idle, _ => some s
      | _, _ => none
  | .indexMessage, _ =>
      match s.saving with
      | .published messageId destAddress =>
          some { s with
            storage := indexMessage s.storage messageId destAddress
            saving := .indexed messageId destAddress }
      | _ => none
  | .indexUser, _ =>
      match s.saving with
      | .indexed messageId destAddress =>
          some { s with
            storage := indexUser s.storage messageId destAddress, saving := .idle }
      | _ => none
  | .cancel now cancelSm, _ =>
      some { s with
        storage := (cancelMessage s.storage cancelSm).1, clock := max s.clock now }
  | .replace replaceSmCommand, _ =>
      some { s with storage := (replaceMessage s.storage replaceSmCommand).1 }
  | .deliver, _ =>
      match s.queue with
      | message :: queue => some { s with queue := queue, buffered := s.buffered ++ [message] }
      | [] => none
  | .take scheduleNow validityNow place, .waiting =>
      match s.buffered with
      | message :: buffered =>
          if message.envelope.isFuture parseRfc3339 scheduleNow = true then
            some { s with
              queue := requeue place message s.queue
              buffered := buffered
              phase := .sleeping
              clock := max s.clock scheduleNow }
          else if message.envelope.isExpired parseRfc3339 validityNow = true then
            some { s with
              buffered := buffered
              phase := .cleaning message.envelope
              clock := max s.clock validityNow }
          else
            some { s with
              buffered := buffered
              phase := .handling message
              clock := max s.clock validityNow }
      | [] => none
  | .wake, .sleeping => some { s with phase := .waiting }
  | .handled (.ok ()) _, .handling message =>
      some { s with phase := .cleaning message.envelope }
  | .handled (.err _) place, .handling message =>
      some { s with queue := requeue place message s.queue, phase := .waiting }
  | .handled .panicked _, .handling _ => some { s with phase := .panicked }
  | .clean, .cleaning envelope =>
      some { s with storage := cleanIndexes s.storage envelope, phase := .waiting }
  | _, _ => none

/-- The events that the consumer and the broker do not see. -/
def BrokerEvent.isIndexing : BrokerEvent → Bool
  | .indexMessage => true
  | .indexUser => true
  | .cancel _ _ => true
  | _ => false

/-- The steps, one by one. -/
inductive BrokerMoves (s : BrokerState) : BrokerEvent → BrokerState → Prop
  | published {saveClock now messageId message envelope} : s.saving = .idle →
      newEnvelope calendar defaultValidityPeriod saveClock now messageId message = .ok envelope →
      BrokerMoves s (.publish saveClock now messageId message)
        { s with
          queue := s.queue ++ [⟨s.nextSerial, envelope⟩]
          nextSerial := s.nextSerial + 1
          saving := .published messageId envelope.destAddress }
  | refused {saveClock now messageId message} :
      (∀ envelope, newEnvelope calendar defaultValidityPeriod saveClock now messageId message ≠
        .ok envelope) → BrokerMoves s (.publish saveClock now messageId message) s
  | indexes {event storage saving clock} : event.isIndexing = true → s.clock ≤ clock →
      BrokerMoves s event { s with storage := storage, saving := saving, clock := clock }
  | replaced {replaceSmCommand} : BrokerMoves s (.replace replaceSmCommand) s
  | delivered {message queue} : s.queue = message :: queue →
      BrokerMoves s .deliver { s with queue := queue, buffered := s.buffered ++ [message] }
  | sentBack {scheduleNow validityNow place message buffered} : s.phase = .waiting →
      s.buffered = message :: buffered →
      message.envelope.isFuture parseRfc3339 scheduleNow = true →
      BrokerMoves s (.take scheduleNow validityNow place)
        { s with
          queue := requeue place message s.queue
          buffered := buffered
          phase := .sleeping
          clock := max s.clock scheduleNow }
  | expired {scheduleNow validityNow place message buffered} : s.phase = .waiting →
      s.buffered = message :: buffered →
      message.envelope.isFuture parseRfc3339 scheduleNow = false →
      message.envelope.isExpired parseRfc3339 validityNow = true →
      BrokerMoves s (.take scheduleNow validityNow place)
        { s with
          buffered := buffered
          phase := .cleaning message.envelope
          clock := max s.clock validityNow }
  | taken {scheduleNow validityNow place message buffered} : s.phase = .waiting →
      s.buffered = message :: buffered →
      message.envelope.isFuture parseRfc3339 scheduleNow = false →
      message.envelope.isExpired parseRfc3339 validityNow = false →
      BrokerMoves s (.take scheduleNow validityNow place)
        { s with
          buffered := buffered
          phase := .handling message
          clock := max s.clock validityNow }
  | woken : s.phase = .sleeping → BrokerMoves s .wake { s with phase := .waiting }
  | succeeded {value place message} : s.phase = .handling message →
      BrokerMoves s (.handled (.ok value) place) { s with phase := .cleaning message.envelope }
  | failed {e place message} : s.phase = .handling message →
      BrokerMoves s (.handled (.err e) place)
        { s with queue := requeue place message s.queue, phase := .waiting }
  | panicked {place message} : s.phase = .handling message →
      BrokerMoves s (.handled .panicked place) { s with phase := .panicked }
  | cleaned {envelope} : s.phase = .cleaning envelope →
      BrokerMoves s .clean
        { s with storage := cleanIndexes s.storage envelope, phase := .waiting }

variable {calendar} {defaultValidityPeriod} {parseRfc3339} in
theorem brokerMoves_of_step {s s' : BrokerState} {event : BrokerEvent}
    (h : s.step calendar defaultValidityPeriod parseRfc3339 event = some s') :
    BrokerMoves calendar defaultValidityPeriod parseRfc3339 s event s' := by
  unfold BrokerState.step at h
  split at h
  · split at h
    · rename_i hsaving hmade
      obtain rfl := Option.some.inj h
      exact .published hsaving hmade
    · rename_i hnot
      obtain rfl := Option.some.inj h
      exact .refused hnot
    · cases h
  · split at h
    · obtain rfl := Option.some.inj h
      exact .indexes rfl (Int.le_refl _)
    · cases h
  · split at h
    · obtain rfl := Option.some.inj h
      exact .indexes rfl (Int.le_refl _)
    · cases h
  · obtain rfl := Option.some.inj h
    exact .indexes rfl (Int.le_max_left _ _)
  · rw [replaceMessage_fst] at h
    obtain rfl := Option.some.inj h
    exact .replaced
  · split at h
    · rename_i hqueue
      obtain rfl := Option.some.inj h
      exact .delivered hqueue
    · cases h
  · rename_i hphase
    split at h
    · rename_i hbuffered
      split at h
      · rename_i hfuture
        obtain rfl := Option.some.inj h
        exact .sentBack hphase hbuffered hfuture
      · rename_i hready
        split at h
        · rename_i hexpired
          obtain rfl := Option.some.inj h
          exact .expired hphase hbuffered (Bool.eq_false_iff.mpr hready) hexpired
        · rename_i hvalid
          obtain rfl := Option.some.inj h
          exact .taken hphase hbuffered (Bool.eq_false_iff.mpr hready) (Bool.eq_false_iff.mpr hvalid)
    · cases h
  · rename_i hphase
    obtain rfl := Option.some.inj h
    exact .woken hphase
  · rename_i hphase
    obtain rfl := Option.some.inj h
    exact .succeeded hphase
  · rename_i hphase
    obtain rfl := Option.some.inj h
    exact .failed hphase
  · rename_i hphase
    obtain rfl := Option.some.inj h
    exact .panicked hphase
  · rename_i hphase
    obtain rfl := Option.some.inj h
    exact .cleaned hphase
  · cases h

/-- An empty queue, when the server starts. -/
def brokerSystem (start : Instant) : System BrokerState BrokerEvent where
  initial := ⟨⟨[], []⟩, 0, .idle, [], [], .waiting, start⟩
  step := BrokerState.step calendar defaultValidityPeriod parseRfc3339

end Consumer

end SmppHerald.RabbitMqStorage
