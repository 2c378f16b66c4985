import SmppHerald.CancelledDelivery
import SmppHerald.Library.Ledger

namespace SmppHerald.BrokerAccounting

open SmppHerald.CancelledDelivery (requeue_perm)
open SmppHerald.InMemoryStorage (SaveClock)
open SmppHerald.Io
open SmppHerald.Json
open SmppHerald.Ledger
open SmppHerald.RabbitMqStorage
open SmppHerald.Revocation
open SmppHerald.Time
open SmppHerald.TransitionSystem

section Record

/-- How a message left the broker, with the times that it was compared with. -/
inductive Fate
  | delivered (scheduleNow validityNow : Instant)
  | expired (validityNow : Instant)
  -- the handler panicked, and the message is never acknowledged
  | abandoned

/-- A state with its history; `taken` are the times that the message in the handler was compared
with. -/
structure BrokerRecord where
  state : BrokerState
  taken : Instant × Instant
  published : List QueuedMessage
  settled : List (QueuedMessage × Fate)

variable (calendar : Calendar) (defaultValidityPeriod : UInt32)
  (parseRfc3339 : String → Option Instant)

def publishedBy (s : BrokerState) : BrokerEvent → List QueuedMessage
  | .publish clock now messageId message =>
      match s.saving, newEnvelope calendar defaultValidityPeriod clock now messageId message with
      | .idle, .ok envelope => [⟨s.nextSerial, envelope⟩]
      | _, _ => []
  | _ => []

def takenBy (taken : Instant × Instant) : BrokerEvent → Instant × Instant
  | .take scheduleNow validityNow _ => (scheduleNow, validityNow)
  | _ => taken

def settledBy (s : BrokerState) (taken : Instant × Instant) (event : BrokerEvent) :
    List (QueuedMessage × Fate) :=
  match event, s.phase, s.buffered with
  | .take scheduleNow validityNow _, .waiting, message :: _ =>
      if message.envelope.isFuture parseRfc3339 scheduleNow = false ∧
          message.envelope.isExpired parseRfc3339 validityNow = true then
        [(message, .expired validityNow)]
      else []
  | .handled (.ok ()) _, .handling message, _ => [(message, .delivered taken.1 taken.2)]
  | .handled .panicked _, .handling message, _ => [(message, .abandoned)]
  | _, _, _ => []

def BrokerRecord.step (r : BrokerRecord) (event : BrokerEvent) : Option BrokerRecord := do
  let state ← r.state.step calendar defaultValidityPeriod parseRfc3339 event
  return {
    state
    taken := takenBy r.taken event
    published := r.published ++ publishedBy calendar defaultValidityPeriod r.state event
    settled := r.settled ++ settledBy parseRfc3339 r.state r.taken event }

def recordedBroker (start : Instant) : System BrokerRecord BrokerEvent where
  initial :=
    ⟨(brokerSystem calendar defaultValidityPeriod parseRfc3339 start).initial, (start, start), [], []⟩
  step := BrokerRecord.step calendar defaultValidityPeriod parseRfc3339

/-- A message is delivered when it is due and has not expired. -/
def Suits (envelope : Envelope) : Fate → Prop
  | .delivered scheduleNow validityNow =>
      envelope.isFuture parseRfc3339 scheduleNow = false ∧
        envelope.isExpired parseRfc3339 validityNow = false
  | .expired validityNow => envelope.isExpired parseRfc3339 validityNow = true
  | .abandoned => True

end Record

section Steps

variable {calendar : Calendar} {defaultValidityPeriod : UInt32}
  {parseRfc3339 : String → Option Instant} {s s' : BrokerState} {event : BrokerEvent}

theorem publishedBy_refused {saveClock : SaveClock} {now : Instant} {messageId : String}
    {message : Value} (h : ∀ envelope, newEnvelope calendar defaultValidityPeriod saveClock now
      messageId message ≠ .ok envelope) : publishedBy calendar defaultValidityPeriod s
        (.publish saveClock now messageId message) = [] := by
  unfold publishedBy
  simp only
  split
  · rename_i envelope _ hmade
    exact absurd hmade (h envelope)
  · rfl

/-- What `save` publishes is new in the broker, and what leaves the broker has a fate. -/
theorem stored_step (taken : Instant × Instant)
    (h : s.step calendar defaultValidityPeriod parseRfc3339 event = some s') :
    (publishedBy calendar defaultValidityPeriod s event ++ s.stored).Perm
      ((settledBy parseRfc3339 s taken event).map Prod.fst ++ s'.stored) ∧
      s'.nextSerial = s.nextSerial +
        (publishedBy calendar defaultValidityPeriod s event).length := by
  cases brokerMoves_of_step h with
  | published hsaving hmade =>
      simp only [publishedBy, settledBy, hsaving, hmade]
      refine ⟨?_, rfl⟩
      simp only [BrokerState.stored, List.map_nil, List.nil_append, List.append_assoc,
        List.singleton_append]
      exact List.perm_middle.symm
  | refused hnot =>
      rw [publishedBy_refused hnot]
      exact ⟨.refl _, rfl⟩
  | indexes hindexing _ =>
      cases event with
      | indexMessage => exact ⟨.refl _, rfl⟩
      | indexUser => exact ⟨.refl _, rfl⟩
      | cancel now cancelSm => exact ⟨.refl _, rfl⟩
      | _ => cases hindexing
  | replaced => exact ⟨.refl _, rfl⟩
  | @delivered message queue hqueue =>
      refine ⟨?_, rfl⟩
      simp only [publishedBy, settledBy, BrokerState.stored, hqueue, List.map_nil, List.nil_append,
        List.cons_append]
      rw [← List.append_assoc queue, List.append_assoc _ [message]]
      exact List.perm_middle.symm
  | @sentBack _ _ place message buffered hphase hbuffered hfuture =>
      refine ⟨?_, rfl⟩
      simp only [publishedBy, settledBy, BrokerState.stored, hphase, hbuffered, hfuture,
        List.nil_append, List.append_nil, Bool.true_eq_false, false_and, ↓reduceIte, List.map_nil]
      exact List.perm_middle.trans ((requeue_perm place message s.queue).append_right buffered).symm
  | expired hphase hbuffered hready hexpired =>
      refine ⟨?_, rfl⟩
      simp only [publishedBy, settledBy, BrokerState.stored, hphase, hbuffered, hready, hexpired,
        List.nil_append, List.append_nil, and_self, ↓reduceIte, List.map_cons, List.map_nil,
        List.singleton_append]
      exact List.perm_middle
  | taken hphase hbuffered _ hvalid =>
      refine ⟨?_, rfl⟩
      simp only [publishedBy, settledBy, BrokerState.stored, hphase, hbuffered, hvalid,
        List.nil_append, List.append_nil, and_false, ↓reduceIte, List.map_nil, Bool.false_eq_true]
      exact List.perm_middle.trans (List.perm_append_singleton _ _).symm
  | woken hphase =>
      refine ⟨?_, rfl⟩
      simp only [publishedBy, settledBy, BrokerState.stored, hphase]
      exact .refl _
  | succeeded hphase =>
      refine ⟨?_, rfl⟩
      simp only [publishedBy, settledBy, BrokerState.stored, hphase, List.nil_append,
        List.append_nil, List.map_cons, List.map_nil, List.singleton_append]
      exact List.perm_append_singleton _ _
  | @failed _ place message hphase =>
      refine ⟨?_, rfl⟩
      simp only [publishedBy, settledBy, BrokerState.stored, hphase, List.nil_append,
        List.append_nil, List.map_nil]
      exact (List.perm_append_singleton _ _).trans
        ((requeue_perm place message s.queue).append_right s.buffered).symm
  | panicked hphase =>
      refine ⟨?_, rfl⟩
      simp only [publishedBy, settledBy, BrokerState.stored, hphase, List.nil_append,
        List.append_nil, List.map_cons, List.map_nil, List.singleton_append]
      exact List.perm_append_singleton _ _
  | cleaned hphase =>
      refine ⟨?_, rfl⟩
      simp only [publishedBy, settledBy, BrokerState.stored, hphase]
      exact .refl _

theorem publishedBy_cases (s : BrokerState) (event : BrokerEvent) :
    publishedBy calendar defaultValidityPeriod s event = [] ∨
      ∃ envelope, publishedBy calendar defaultValidityPeriod s event = [⟨s.nextSerial, envelope⟩] := by
  unfold publishedBy
  split
  · split
    · exact .inr ⟨_, rfl⟩
    · exact .inl rfl
  · exact .inl rfl

/-- The message in the handler was taken when it was due and had not expired. -/
def TakenInTime (parseRfc3339 : String → Option Instant) (phase : ConsumerPhase)
    (taken : Instant × Instant) : Prop :=
  ∀ message, phase = .handling message →
    Suits parseRfc3339 message.envelope (.delivered taken.1 taken.2)

theorem takenInTime_step {taken : Instant × Instant} (htaken : TakenInTime parseRfc3339 s.phase taken)
    (h : s.step calendar defaultValidityPeriod parseRfc3339 event = some s') :
    TakenInTime parseRfc3339 s'.phase (takenBy taken event) := by
  cases brokerMoves_of_step h with
  | published _ _ => exact htaken
  | refused _ => exact htaken
  | indexes hindexing _ =>
      cases event with
      | take scheduleNow validityNow place => cases hindexing
      | _ => exact htaken
  | replaced => exact htaken
  | delivered _ => exact htaken
  | taken _ _ hready hvalid =>
      rintro _ ⟨⟩
      exact ⟨hready, hvalid⟩
  | _ =>
      intro _ hphase
      cases hphase

theorem suits_settledBy {taken : Instant × Instant} (htaken : TakenInTime parseRfc3339 s.phase taken) :
    ∀ entry ∈ settledBy parseRfc3339 s taken event, Suits parseRfc3339 entry.1.envelope entry.2 := by
  intro entry hentry
  unfold settledBy at hentry
  split at hentry
  · split at hentry
    · rename_i hexpired
      obtain rfl := List.mem_singleton.mp hentry
      exact hexpired.2
    · cases hentry
  · rename_i hphase
    obtain rfl := List.mem_singleton.mp hentry
    exact htaken _ hphase
  · obtain rfl := List.mem_singleton.mp hentry
    trivial
  · cases hentry

/-- What is true of every state with its history. -/
structure RecordInv (parseRfc3339 : String → Option Instant) (r : BrokerRecord) : Prop where
  balanced : Balanced r.published r.state.stored (r.settled.map Prod.fst)
  numbered : HandOver.Numbered (r.published.map QueuedMessage.serial) r.state.nextSerial
  taken : TakenInTime parseRfc3339 r.state.phase r.taken
  suits : ∀ entry ∈ r.settled, Suits parseRfc3339 entry.1.envelope entry.2

theorem RecordInv.step {r r' : BrokerRecord} (hinv : RecordInv parseRfc3339 r)
    (h : r.step calendar defaultValidityPeriod parseRfc3339 event = some r') :
    RecordInv parseRfc3339 r' := by
  obtain ⟨state, hstate, hr'⟩ := Option.bind_eq_some_iff.mp h
  obtain rfl := Option.some.inj hr'
  obtain ⟨hstored, hserial⟩ := stored_step r.taken hstate
  constructor
  · rw [List.map_append]
    exact hinv.balanced.move hstored
  · rw [List.map_append, hserial]
    rcases publishedBy_cases r.state event with hnone | ⟨envelope, hsome⟩
    · rw [hnone]
      simpa using hinv.numbered
    · rw [hsome]
      exact hinv.numbered.perm_cons (List.perm_append_singleton _ _)
  · exact takenInTime_step hinv.taken hstate
  · rw [List.forall_mem_append]
    exact ⟨hinv.suits, suits_settledBy hinv.taken⟩

/-- In every run each message that was published is in the broker or was settled, once: it was
handed over when it was due and before it expired, it expired, or its handler panicked. -/
theorem broker_accounts (start : Instant) {r : BrokerRecord}
    (h : (recordedBroker calendar defaultValidityPeriod parseRfc3339 start).Reachable r) :
    r.published.Perm (r.state.stored ++ r.settled.map Prod.fst) ∧
      (r.published.map QueuedMessage.serial).Nodup ∧
      ∀ entry ∈ r.settled, Suits parseRfc3339 entry.1.envelope entry.2 := by
  have hinv : RecordInv parseRfc3339 r := by
    refine h.invariant ?_ fun _ _ _ ih _ hstep => ih.step hstep
    refine ⟨.refl _, ⟨List.nodup_nil, by simp [recordedBroker]⟩, ?_, by simp [recordedBroker]⟩
    intro message hphase
    cases hphase
  exact ⟨hinv.balanced, hinv.numbered.once, hinv.suits⟩

/-- A message is cancelled, sent back by the handler and handed over again; a second one expires. -/
def cancelledAndRetried : List BrokerEvent :=
  CancelledDelivery.published ++
    [.cancel 0 CancelledDelivery.cancelSm, .deliver, .take 0 0 0, .handled (.err (otherError "")) 0,
      .deliver, .take 1 1 0, .handled (.ok ()) 0, .clean] ++
    CancelledDelivery.published ++ [.deliver, .take (seconds 6) (seconds 6) 0]

theorem broker_accounts_retried :
    ∃ r, (recordedBroker epochCalendar 5 parseEpoch 0).run cancelledAndRetried = some r ∧
      r.settled.map (fun entry => entry.1.serial) = [0, 1] ∧
      r.published.Perm (r.state.stored ++ r.settled.map Prod.fst) ∧
      (r.published.map QueuedMessage.serial).Nodup ∧
      ∀ entry ∈ r.settled, Suits parseEpoch entry.1.envelope entry.2 := by
  have hrun : ((recordedBroker epochCalendar 5 parseEpoch 0).run
      cancelledAndRetried).map (fun r => r.settled.map fun entry => entry.1.serial) =
      some [0, 1] := by decide +kernel
  obtain ⟨r, hr, hsettled⟩ := Option.map_eq_some_iff.mp hrun
  exact ⟨r, hr, hsettled, broker_accounts 0 (System.reachable_of_run hr)⟩

end Steps

end SmppHerald.BrokerAccounting
