import SmppHerald.HandlerResponses

namespace SmppHerald.AcknowledgedSubmissions

open SmppHerald.Accounting (Log)
open SmppHerald.Buffer
open SmppHerald.ByteParser
open SmppHerald.CommandIds
open SmppHerald.ConnectionRun (agreeing)
open SmppHerald.DecodedMessage
open SmppHerald.Encodability
open SmppHerald.FieldCodecs
open SmppHerald.HandlerCalls
open SmppHerald.HandlerResponses
open SmppHerald.Interaction
open SmppHerald.Io
open SmppHerald.Json
open SmppHerald.Message
open SmppHerald.PduFormat
open SmppHerald.Relay
open SmppHerald.ResponseEncoding
open SmppHerald.Responses
open SmppHerald.ServerConnection
open SmppHerald.ServerMessage

section Promises

/-- The calls that hand a message to someone. -/
def passesOn : ServerCall → Bool
  | .handleRequest _ => true
  | .save _ _ => true
  | .spawnForward _ => true
  | .sendMessage _ _ => true
  | _ => false

variable (server : ServerContext) (messageId : String) (prepared : Value)

/-- The call passes on the message as it was prepared, or the deliver_sm made of it. -/
inductive Carries : ServerCall → Prop
  | handleRequest : Carries (.handleRequest prepared)
  | save : Carries (.save messageId prepared)
  | spawnForward (n : UInt32) : Carries (.spawnForward (asDeliverSm n prepared))
  | sendMessage {n : UInt32} {destAddr : String} {octets : Bytes} :
      (prepared.get "destination_addr").bind Value.asStr = some destAddr →
      fromJson server.namedTlvFields (asDeliverSm n prepared) = .ok octets →
      Carries (.sendMessage destAddr octets)

def IsOwn : Prop := server.isMyRequestAddress (prepared.strField "destination_addr") = true

/-- The statuses of a message that is not stored because of its times. -/
def RefusesTimes (status : UInt32) : Prop :=
  status = CommandStatus.esmeRInvSched.asU32 ∨ status = CommandStatus.esmeRInvExpiry.asU32

theorem RefusesTimes.ne_ok {status : UInt32} (h : RefusesTimes status) :
    status ≠ CommandStatus.esmeRok.asU32 := by
  rcases h with rfl | rfl
  · decide
  · decide

/-- A message to be stored is answered with one of these statuses. -/
structure Refused (log : Log) : Prop where
  other : ¬ IsOwn server prepared
  mode : getMessageMode server.config prepared = .storeAndForward
  answer : ∃ octets ∈ written log, RefusesTimes (statusOf octets)

/-- The message is passed on once, unless the run panics or refuses it. -/
structure Settled (log : Log) (result : Option (Except IoError Unit)) : Prop where
  atMostOnce : (log.filter fun event => passesOn event.1).length ≤ 1
  passedOn : result ≠ none →
    (∃ event ∈ log, passesOn event.1 = true) ∨ Refused server prepared log

/-- What the message handler, the store, the task that forwards it or the destination has said. -/
inductive Promised (log : Log) : Prop
  | handled {value : Value} : IsOwn server prepared →
      ⟨.handleRequest prepared, .ok value⟩ ∈ log → ReplyEncodable value → Promised log
  | stored : ¬ IsOwn server prepared →
      getMessageMode server.config prepared = .storeAndForward →
      ⟨.save messageId prepared, .ok ()⟩ ∈ log → Promised log
  | spawned {n : UInt32} : ¬ IsOwn server prepared →
      getMessageMode server.config prepared = .datagram →
      ⟨.spawnForward (asDeliverSm n prepared), ()⟩ ∈ log → Promised log
  | delivered {n : UInt32} {destAddr : String} {octets : Bytes} {sent : Except IoError Unit}
      {response : Value} : ¬ IsOwn server prepared →
      getMessageMode server.config prepared = .transaction →
      fromJson server.namedTlvFields (asDeliverSm n prepared) = .ok octets →
      ⟨.sendMessage destAddr octets, sent⟩ ∈ log → ⟨.waitResponse n, some response⟩ ∈ log →
      transactionStatus (some response) = CommandStatus.esmeRok.asU32 → Promised log

end Promises

section Modes

variable {server : ServerContext} {commandId sequenceNumber : UInt32} {messageId : String}
  {prepared : Value}

/-- The calls that the answer depends on. -/
def decides : ServerCall → Bool
  | .handleRequest _ => true
  | .save _ _ => true
  | .spawnForward _ => true
  | .sendMessage _ _ => true
  | .waitResponse _ => true
  | _ => false

/-- What is done with a message in a mode, and what is answered then. -/
inductive Course (server : ServerContext) (commandId sequenceNumber : UInt32) (messageId : String)
    (prepared : Value) : MessageMode → Log → Value → Prop
  | refused {status : UInt32} {text : String} : RefusesTimes status →
      Truncatable 65 text → Course _ _ _ _ _ .storeAndForward []
        (messageIdResponse commandId sequenceNumber status text)
  | stored : Course _ _ _ _ _ .storeAndForward [⟨.save messageId prepared, .ok ()⟩]
      (messageIdResponse commandId sequenceNumber CommandStatus.esmeRok.asU32 messageId)
  | notStored (e : IoError) : Course _ _ _ _ _ .storeAndForward
      [⟨.save messageId prepared, .err e⟩] (messageIdResponse commandId sequenceNumber
        CommandStatus.esmeRUnknownErr.asU32 "fail-to-store")
  | spawned (n : UInt32) : Course _ _ _ _ _ .datagram
      [⟨.spawnForward (asDeliverSm n prepared), ()⟩]
      (messageIdResponse commandId sequenceNumber CommandStatus.esmeRok.asU32 messageId)
  | forwarded {n : UInt32} {destAddr : String} {octets : Bytes} (sent : Except IoError Unit)
      (response : Option Value) :
      (prepared.get "destination_addr").bind Value.asStr = some destAddr →
      fromJson server.namedTlvFields (asDeliverSm n prepared) = .ok octets →
      Course _ _ _ _ _ .transaction
        [⟨.sendMessage destAddr octets, sent⟩, ⟨.waitResponse n, response⟩]
        (messageIdResponse commandId sequenceNumber (transactionStatus response) messageId)

/-- A program that ends with the response of a course. -/
def TakesCourse (server : ServerContext) (commandId sequenceNumber : UInt32) (messageId : String)
    (prepared : Value) (mode : MessageMode) (events : Log) (p : Action (Except Value Value)) :
    Prop :=
  Conforms (recording decides) (fun events' result => ∀ response, result = some response →
    ∃ course, events' = events ++ course ∧ Course server commandId sequenceNumber messageId prepared
      mode course (submitResponse commandId sequenceNumber messageId (some response))) events p

theorem takesCourse_datagram (events : Log) :
    TakesCourse server commandId sequenceNumber messageId prepared .datagram events
      (sendMessageInDatagramMode commandId sequenceNumber messageId prepared) := by
  refine ⟨trivial, fun n => ⟨trivial, fun reply => ?_⟩⟩
  rintro response ⟨⟩
  exact ⟨_, rfl, .spawned n⟩

theorem conforms_forward {destAddr : String} {message : Value} {events : Log}
    {post : Log → Option Unit → Prop}
    (hdest : (message.get "destination_addr").bind Value.asStr = some destAddr)
    (hsent : ∀ octets sent, fromJson server.namedTlvFields message = .ok octets →
      post (events ++ [⟨.sendMessage destAddr octets, sent⟩]) (some ()))
    (hpanic : post events none) :
    Conforms (recording decides) post events (forwardMessageToClient server message) := by
  unfold forwardMessageToClient
  rw [hdest]
  cases hencode : fromJson server.namedTlvFields message with
  | ok octets => exact ⟨trivial, fun sent => hsent octets sent hencode⟩
  | err e => exact hpanic
  | panicked => exact hpanic

theorem takesCourse_transaction {destAddr : String}
    (hdest : (prepared.get "destination_addr").bind Value.asStr = some destAddr) (events : Log) :
    TakesCourse server commandId sequenceNumber messageId prepared .transaction events
      (sendMessageInTransactionMode server commandId sequenceNumber messageId prepared) := by
  have hdestDeliver : ∀ n, ((asDeliverSm n prepared).get "destination_addr").bind Value.asStr =
      some destAddr := by
    intro n
    rw [get_asDeliverSm_of_ne (by decide) (by decide), hdest]
  unfold TakesCourse sendMessageInTransactionMode
  refine (conforms_perform_bind _ _).mpr ⟨trivial, fun n => conforms_bind.mpr ?_⟩
  apply conforms_forward (hdestDeliver n)
  · intro octets sent hencode
    refine (conforms_perform_bind _ _).mpr ⟨trivial, fun reply => ?_⟩
    have hcourse := @Course.forwarded server commandId sequenceNumber messageId prepared n
      destAddr octets sent reply hdest hencode
    cases reply with
    | none =>
        rintro response ⟨⟩
        exact ⟨_, List.append_assoc _ _ _, hcourse⟩
    | some value =>
        simp only
        split
        · rintro response ⟨⟩
          exact ⟨_, List.append_assoc _ _ _, hcourse⟩
        · rintro response ⟨⟩
          exact ⟨_, List.append_assoc _ _ _, hcourse⟩
  · intro response hnone
    cases hnone

theorem conforms_timeOrNone {time : Outcome Time.Instant} {events : Log}
    {post : Log → Option (Option Time.Instant) → Prop} (hread : ∀ time, post events (some time))
    (hpanic : post events none) : Conforms (recording decides) post events (timeOrNone time) := by
  cases time with
  | ok time => exact hread _
  | err e => exact hread _
  | panicked => exact hpanic

theorem takesCourse_storeAndForward (events : Log) :
    TakesCourse server commandId sequenceNumber messageId prepared .storeAndForward events
      (storeAndForwardMessage server commandId sequenceNumber messageId prepared) := by
  have hrefused : ∀ (status : UInt32) (text : String), RefusesTimes status →
      Truncatable 65 text → ∀ response, (some (.error (messageIdResponse commandId sequenceNumber
        status text)) : Option (Except Value Value)) = some response → ∃ course,
          events = events ++ course ∧ Course server commandId sequenceNumber messageId prepared
            .storeAndForward course
            (submitResponse commandId sequenceNumber messageId (some response)) := by
    rintro status text hstatus htext response ⟨⟩
    exact ⟨[], (List.append_nil _).symm, .refused hstatus htext⟩
  have hnone : ∀ response, (none : Option (Except Value Value)) = some response → ∃ course,
      events = events ++ course ∧ Course server commandId sequenceNumber messageId prepared
        .storeAndForward course
        (submitResponse commandId sequenceNumber messageId (some response)) := by
    intro response hnone
    cases hnone
  unfold TakesCourse storeAndForwardMessage
  refine (conforms_perform_bind _ _).mpr ⟨trivial, fun _ => conforms_bind.mpr ?_⟩
  refine conforms_timeOrNone (fun scheduleDeliveryTime => ?_) hnone
  refine (conforms_perform_bind _ _).mpr ⟨trivial, fun _ => ?_⟩
  split
  · exact hrefused _ _ (.inl rfl) (.inl (by decide))
  · refine (conforms_perform_bind _ _).mpr ⟨trivial, fun _ => conforms_bind.mpr ?_⟩
    refine conforms_timeOrNone (fun validityPeriod => ?_) hnone
    refine (conforms_perform_bind _ _).mpr ⟨trivial, fun _ => ?_⟩
    split
    · exact hrefused _ _ (.inr rfl) (.inl (by decide))
    · split
      · exact hrefused _ _ (.inl rfl) (.inl (by decide))
      · refine (conforms_perform_bind _ _).mpr ⟨trivial, fun reply => ?_⟩
        cases reply with
        | ok value =>
            rintro response ⟨⟩
            exact ⟨_, rfl, .stored⟩
        | err e =>
            rintro response ⟨⟩
            exact ⟨_, rfl, .notStored e⟩
        | panicked =>
            intro response hpanic
            cases hpanic

/-- A message for someone else takes the course of its mode. -/
theorem course_of_run {destAddr : String}
    (hdest : (prepared.get "destination_addr").bind Value.asStr = some destAddr)
    {mode : MessageMode} (hmode : mode ≠ .default) {log : Log}
    {response : Option (Except Value Value)}
    (hrun : Run (submitInMode server mode commandId sequenceNumber messageId prepared) log
      (some response)) :
    Course server commandId sequenceNumber messageId prepared mode
      (log.filter fun event => decides event.1)
      (submitResponse commandId sequenceNumber messageId response) := by
  have hcourse : ∀ {p : Action (Except Value Value)},
      TakesCourse server commandId sequenceNumber messageId prepared mode [] p →
      Run (p >>= fun response => pure (some response)) log (some response) →
      Course server commandId sequenceNumber messageId prepared mode
        (log.filter fun event => decides event.1)
        (submitResponse commandId sequenceNumber messageId response) := by
    intro p hp hrun
    rcases (run_bind_iff _ _ _ _).mp hrun with ⟨-, hnone⟩ | ⟨result, first, last, rfl, hfirst, hlast⟩
    · cases hnone
    · obtain ⟨rfl, hsome⟩ := (run_pure_iff _ _ _).mp hlast
      obtain rfl := Option.some.inj hsome
      obtain ⟨course, hlog, hcourse⟩ := hp.run_recording hfirst result rfl
      rw [List.nil_append, List.nil_append] at hlog
      rw [List.append_nil, hlog]
      exact hcourse
  cases mode with
  | datagram => exact hcourse (takesCourse_datagram []) hrun
  | transaction => exact hcourse (takesCourse_transaction hdest []) hrun
  | storeAndForward => exact hcourse (takesCourse_storeAndForward []) hrun
  | default => exact absurd rfl hmode

theorem Course.response {mode : MessageMode} {course : Log} {response : Value}
    (h : Course server commandId sequenceNumber messageId prepared mode course response)
    (hmessageId : Truncatable 65 messageId) : ∃ status text, Truncatable 65 text ∧
      response = messageIdResponse commandId sequenceNumber status text := by
  cases h with
  | refused _ htext => exact ⟨_, _, htext, rfl⟩
  | stored => exact ⟨_, _, hmessageId, rfl⟩
  | notStored e => exact ⟨_, _, .inl (by decide), rfl⟩
  | spawned n => exact ⟨_, _, hmessageId, rfl⟩
  | forwarded sent response => exact ⟨_, _, hmessageId, rfl⟩

theorem statusOf_messageIdResponse
    (hresponse : messageCommandFields (0x80000000 ||| commandId) = some [("message_id", none)])
    {status : UInt32} {text : String} {octets : Bytes}
    (hencode : fromJson server.namedTlvFields
      (messageIdResponse commandId sequenceNumber status text) = .ok octets) :
    statusOf octets = status :=
  statusOf_response hresponse (by simp [KeepsHeader]) hencode

theorem Course.status_iff
    (hresponse : messageCommandFields (0x80000000 ||| commandId) = some [("message_id", none)])
    (hother : ¬ IsOwn server prepared) {log course : Log} {response : Value} {octets : Bytes}
    (h : Course server commandId sequenceNumber messageId prepared
      (getMessageMode server.config prepared) course response)
    (hmem : ∀ event, decides event.1 = true → (event ∈ log ↔ event ∈ course))
    (hencode : fromJson server.namedTlvFields response = .ok octets) :
    statusOf octets = CommandStatus.esmeRok.asU32 ↔ Promised server messageId prepared log := by
  generalize hmode : getMessageMode server.config prepared = mode at h
  cases h with
  | refused hstatus htext =>
      rw [statusOf_messageIdResponse hresponse hencode]
      refine iff_of_false hstatus.ne_ok fun hpromised => ?_
      cases hpromised with
      | handled hown _ _ => exact hother hown
      | stored _ _ hstored => cases (hmem _ rfl).mp hstored
      | spawned _ hspawned _ => cases hspawned.symm.trans hmode
      | delivered _ hdelivered _ _ _ _ => cases hdelivered.symm.trans hmode
  | stored =>
      rw [statusOf_messageIdResponse hresponse hencode]
      refine iff_of_true rfl (.stored hother hmode ?_)
      exact (hmem _ rfl).mpr (List.mem_singleton_self _)
  | notStored e =>
      rw [statusOf_messageIdResponse hresponse hencode]
      refine iff_of_false (by decide) fun hpromised => ?_
      cases hpromised with
      | handled hown _ _ => exact hother hown
      | stored _ _ hstored => simpa using (hmem _ rfl).mp hstored
      | spawned _ hspawned _ => cases hspawned.symm.trans hmode
      | delivered _ hdelivered _ _ _ _ => cases hdelivered.symm.trans hmode
  | spawned n =>
      rw [statusOf_messageIdResponse hresponse hencode]
      have hspawned := (hmem ⟨.spawnForward (asDeliverSm n prepared), ()⟩ rfl).mpr
        (List.mem_singleton_self _)
      exact iff_of_true rfl (.spawned hother hmode hspawned)
  | @forwarded n destAddr deliverSm sent response hdest hdeliverSm =>
      rw [statusOf_messageIdResponse hresponse hencode]
      have hsent := (hmem ⟨.sendMessage destAddr deliverSm, sent⟩ rfl).mpr List.mem_cons_self
      have hwaited := (hmem ⟨.waitResponse n, response⟩ rfl).mpr
        (List.mem_cons_of_mem _ List.mem_cons_self)
      constructor
      · intro hstatus
        cases response with
        | none => exact absurd hstatus (by decide)
        | some response => exact .delivered hother hmode hdeliverSm hsent hwaited hstatus
      · intro hpromised
        cases hpromised with
        | handled hown _ _ => exact absurd hown hother
        | stored _ hstored _ => cases hstored.symm.trans hmode
        | spawned _ hspawned _ => cases hspawned.symm.trans hmode
        | delivered _ _ _ _ hanswer hstatus =>
            obtain ⟨rfl, rfl⟩ : _ = n ∧ some _ = response := by
              simpa using (hmem _ rfl).mp hanswer
            exact hstatus

theorem Course.answer
    (hresponse : messageCommandFields (0x80000000 ||| commandId) = some [("message_id", none)])
    {mode : MessageMode} {course : Log} {response : Value} {octets : Bytes}
    (h : Course server commandId sequenceNumber messageId prepared mode course response)
    (hencode : fromJson server.namedTlvFields response = .ok octets)
    (hstatus : statusOf octets = CommandStatus.esmeRok.asU32) :
    response =
      messageIdResponse commandId sequenceNumber CommandStatus.esmeRok.asU32 messageId := by
  cases h with
  | refused hrefused _ =>
      rw [statusOf_messageIdResponse hresponse hencode] at hstatus
      exact absurd hstatus hrefused.ne_ok
  | stored => rfl
  | notStored e =>
      rw [statusOf_messageIdResponse hresponse hencode] at hstatus
      exact absurd hstatus (by decide)
  | spawned n => rfl
  | forwarded sent response =>
      rw [statusOf_messageIdResponse hresponse hencode] at hstatus
      rw [hstatus]

end Modes

section Own

variable {server : ServerContext} {commandId sequenceNumber : UInt32} {message : Value}

/-- The answer is made of what the message handler has returned. -/
structure OwnAnswer (server : ServerContext) (commandId sequenceNumber : UInt32)
    (reply : Except IoError Value) (octets : Bytes) : Prop where
  status_iff : statusOf octets = CommandStatus.esmeRok.asU32 ↔
    ∃ value, reply = .ok value ∧ ReplyEncodable value
  encodes : ∀ value, reply = .ok value → ReplyEncodable value →
    fromJson server.namedTlvFields (handlerResponse commandId sequenceNumber value) = .ok octets

theorem OwnAnswer.of_refused {reply : Except IoError Value} {octets : Bytes}
    (hstatus : statusOf octets ≠ CommandStatus.esmeRok.asU32)
    (hrefused : ∀ value, reply = .ok value → ¬ ReplyEncodable value) :
    OwnAnswer server commandId sequenceNumber reply octets where
  status_iff := by
    refine iff_of_false hstatus ?_
    rintro ⟨value, hok, hencodable⟩
    exact hrefused value hok hencodable
  encodes value hok hencodable := absurd hencodable (hrefused value hok)

theorem run_processLocal_own
    (hresponse : messageCommandFields (0x80000000 ||| commandId) = some [("message_id", none)])
    {log : Log} {processed : Except IoError Bytes}
    (hrun : Run (processLocalDataSubmitMessage server commandId sequenceNumber message) log
      (some processed)) :
    ∃ reply rest octets, log = ⟨.handleRequest message, reply⟩ :: rest ∧
      (∀ event ∈ rest, event.1 = .generateId) ∧ processed = .ok octets ∧
      OwnAnswer server commandId sequenceNumber reply octets := by
  unfold processLocalDataSubmitMessage localResponse at hrun
  rcases (run_bind_iff _ _ _ _).mp hrun with ⟨-, hnone⟩ | ⟨response, first, rest, rfl, hlocal, hrest⟩
  · cases hnone
  obtain ⟨reply, afterReply, rfl, hreply⟩ := (run_perform_bind_iff _ _ _ _).mp hlocal
  cases reply with
  | error e =>
      obtain ⟨messageId, last, rfl, hlast⟩ := (run_perform_bind_iff _ _ _ _).mp hreply
      obtain ⟨rfl, hsome⟩ := (run_pure_iff _ _ _).mp hlast
      obtain rfl := Option.some.inj hsome
      obtain ⟨octets, hencode⟩ := (@encodes_messageId_iff commandId sequenceNumber
        CommandStatus.esmeRUnknownErr.asU32 server.namedTlvFields hresponse messageId.text).mpr
          (truncatable_messageId messageId)
      have hstatus := statusOf_messageIdResponse hresponse hencode
      rw [messageIdResponse] at hencode
      rw [hencode] at hrest
      obtain ⟨rfl, hprocessed⟩ := (run_pure_iff _ _ _).mp hrest
      refine ⟨_, _, octets, rfl, by simp, Option.some.inj hprocessed, .of_refused ?_ (by simp)⟩
      rw [hstatus]
      decide
  | ok value =>
      obtain ⟨rfl, hsome⟩ := (run_pure_iff _ _ _).mp hreply
      obtain rfl := Option.some.inj hsome
      have hencodes := @encodes_reply_iff commandId sequenceNumber CommandStatus.esmeRok.asU32
        server.namedTlvFields hresponse value
      split at hrest
      · rename_i octets hencode
        obtain ⟨rfl, hprocessed⟩ := (run_pure_iff _ _ _).mp hrest
        refine ⟨_, _, octets, rfl, by simp, Option.some.inj hprocessed, ?_, ?_⟩
        · rw [statusOf_response hresponse (keepsHeader_replyFields value) hencode]
          exact iff_of_true rfl ⟨value, rfl, hencodes.mp ⟨octets, hencode⟩⟩
        · rintro _ ⟨⟩ -
          exact hencode
      · obtain ⟨-, hnone⟩ := (run_panic_iff _ _).mp hrest
        cases hnone
      · rename_i e hrefused
        obtain ⟨messageId, last, rfl, hfallback⟩ := (run_perform_bind_iff _ _ _ _).mp hrest
        rcases (run_bind_iff _ _ _ _).mp hfallback with
          ⟨-, hnone⟩ | ⟨octets, _, _, rfl, hencoded, hlast⟩
        · cases hnone
        obtain ⟨encoded, hencode, rfl, hsome⟩ := run_encodeOrEmpty_refused hresponse hencoded
        obtain rfl := Option.some.inj hsome
        obtain ⟨rfl, hprocessed⟩ := (run_pure_iff _ _ _).mp hlast
        refine ⟨_, _, octets, rfl, by simp, Option.some.inj hprocessed, .of_refused ?_ ?_⟩
        · rw [statusOf_response hresponse (keepsHeader_refused messageId) hencode]
          decide
        · rintro _ ⟨⟩ hencodable
          obtain ⟨octets, hencode⟩ := hencodes.mpr hencodable
          cases hencode.symm.trans hrefused

end Own

section Once

variable {server : ServerContext} {commandId sequenceNumber : UInt32} {messageId : String}
  {prepared : Value} {α β : Type}

/-- A program that passes on one message at the most. -/
def PassesOnce (p : Action α) : Prop :=
  Conforms (recording passesOn) (fun events _ => events.length ≤ 1) [] p

/-- A program that passes nothing on. -/
def Keeps (p : Action α) : Prop := Calls (fun c => passesOn c = false) p

theorem Keeps.recording {p : Action α} (h : Keeps p) (events : Log) :
    Conforms (recording passesOn) (fun events' _ => events' = events) events p := by
  apply Calls.conforms
  refine Calls.mono (fun c hc => ⟨trivial, fun reply => ?_⟩) h
  rw [recording_next, hc]
  rfl

theorem passesOnce_perform (c : ServerCall) : PassesOnce (perform c) := by
  refine ⟨trivial, fun reply => ?_⟩
  rw [recording_next]
  split
  · exact Nat.le_refl 1
  · exact Nat.zero_le 1

theorem PassesOnce.bind {p : Action α} {f : α → Action β} (hp : PassesOnce p)
    (hf : ∀ value, Keeps (f value)) : PassesOnce (p >>= f) := by
  refine conforms_bind.mpr (Conforms.mono ?_ hp)
  intro events value hevents
  cases value with
  | none => exact hevents
  | some value =>
      refine Conforms.mono ?_ ((hf value).recording events)
      rintro _ _ rfl
      exact hevents

theorem PassesOnce.after {p : Action α} {f : α → Action β} (hp : Keeps p)
    (hf : ∀ value, PassesOnce (f value)) : PassesOnce (p >>= f) := by
  refine conforms_bind.mpr (Conforms.mono ?_ (hp.recording []))
  rintro _ value rfl
  cases value with
  | none => exact Nat.zero_le 1
  | some value => exact hf value

theorem keeps_perform {c : ServerCall} (h : passesOn c = false) : Keeps (perform c) :=
  calls_perform.mpr h

theorem passesOnce_forward (message : Value) :
    PassesOnce (forwardMessageToClient server message) := by
  unfold forwardMessageToClient
  split
  · split
    · exact (passesOnce_perform _).bind fun _ => trivial
    · exact Nat.zero_le 1
  · exact Nat.zero_le 1

theorem passesOnce_transaction : PassesOnce (sendMessageInTransactionMode server commandId
    sequenceNumber messageId prepared) := by
  refine .after (keeps_perform rfl) fun n => (passesOnce_forward _).bind fun _ => ?_
  refine Calls.bind (keeps_perform rfl) fun reply => ?_
  rcases reply with - | response
  · trivial
  · simp only
    split <;> trivial

theorem passesOnce_storeAndForward : PassesOnce (storeAndForwardMessage server commandId
    sequenceNumber messageId prepared) := by
  have hclock : Keeps (perform .now) := keeps_perform rfl
  unfold storeAndForwardMessage
  refine .after hclock fun _ => .after (calls_timeOrNone _) fun _ => .after hclock fun _ => ?_
  split
  · exact Nat.zero_le 1
  · refine .after hclock fun _ => .after (calls_timeOrNone _) fun _ => .after hclock fun _ => ?_
    split
    · exact Nat.zero_le 1
    · split
      · exact Nat.zero_le 1
      · refine (passesOnce_perform _).bind fun reply => ?_
        cases reply <;> trivial

theorem passesOnce_submitInMode (mode : MessageMode) : PassesOnce (submitInMode server mode
    commandId sequenceNumber messageId prepared) := by
  cases mode with
  | datagram =>
      have hspawn : PassesOnce (sendMessageInDatagramMode commandId sequenceNumber messageId
          prepared) := .after (keeps_perform rfl) fun n => (passesOnce_perform _).bind fun _ => trivial
      exact hspawn.bind fun _ => trivial
  | transaction => exact passesOnce_transaction.bind fun _ => trivial
  | storeAndForward => exact passesOnce_storeAndForward.bind fun _ => trivial
  | default => exact Nat.zero_le 1

theorem passesOnce_processLocal : PassesOnce (processLocalDataSubmitMessage server commandId
    sequenceNumber prepared) := by
  have hlocal : PassesOnce (localResponse commandId sequenceNumber prepared) := by
    refine (passesOnce_perform _).bind fun reply => ?_
    rcases reply with e | value
    · exact Calls.bind (keeps_perform rfl) fun _ => trivial
    · trivial
  refine hlocal.bind fun response => ?_
  split
  · trivial
  · trivial
  · exact Calls.bind (keeps_perform rfl) fun _ => (calls_encodeOrEmpty _).bind fun _ => trivial

theorem passesOnce_handleDataSubmitSm {message : Value} :
    PassesOnce (handleDataSubmitSm server commandId sequenceNumber message) := by
  have hsend : ∀ octets text, Keeps (send octets text) := calls_send fun _ => rfl
  refine .after (keeps_perform rfl) fun messageId => ?_
  split
  · exact Nat.zero_le 1
  · exact Nat.zero_le 1
  · refine .after (keeps_perform rfl) fun n => ?_
    simp only
    split
    · refine passesOnce_processLocal.bind fun response => ?_
      rcases response with e | octets
      · trivial
      · exact hsend _ _
    · refine (passesOnce_submitInMode _).bind fun response => ?_
      exact (calls_encodeOrEmpty _).bind fun data => hsend _ _

end Once

section Runs

variable {server : ServerContext} {commandId sequenceNumber : UInt32} {message : Value}

theorem run_own
    (hresponse : messageCommandFields (0x80000000 ||| commandId) = some [("message_id", none)])
    {prepared : Value} {log : Log} {result : Option (Except IoError Unit)}
    (hrun : Run (processLocalDataSubmitMessage server commandId sequenceNumber prepared >>= fun
      | .ok response => send response "Failed to send response: "
      | .error e => return .error e) log result) :
    (result = none ∧ written log = []) ∨ ∃ reply rest octets sent,
      log = ⟨.handleRequest prepared, reply⟩ :: rest ++ [⟨.write octets, sent⟩] ∧
        written log = [octets] ∧ (∀ event ∈ rest, event.1 = .generateId) ∧
        OwnAnswer server commandId sequenceNumber reply octets := by
  have hsilent : Calls (fun call => writtenOctets call = none)
      (processLocalDataSubmitMessage server commandId sequenceNumber prepared) :=
    calls_processLocalDataSubmitMessage permitsDelivery_silent.toPermitsHandover commandId
      sequenceNumber prepared
  rcases (run_bind_iff _ _ _ _).mp hrun with
    ⟨hpanic, rfl⟩ | ⟨processed, first, last, rfl, hlocal, hsend⟩
  · exact .inl ⟨rfl, List.filterMap_eq_nil_iff.mpr (hsilent.run hpanic)⟩
  right
  have hnone := List.filterMap_eq_nil_iff.mpr (hsilent.run hlocal)
  obtain ⟨reply, rest, octets, rfl, hrest, rfl, hanswer⟩ := run_processLocal_own hresponse hlocal
  obtain ⟨sent, _, rfl, hlast⟩ := (run_perform_bind_iff _ _ _ _).mp hsend
  obtain ⟨rfl, -⟩ := (run_pure_iff _ _ _).mp hlast
  refine ⟨reply, rest, octets, sent, rfl, ?_, hrest, hanswer⟩
  rw [written, List.filterMap_append, hnone]
  rfl

theorem run_other
    (hresponse : messageCommandFields (0x80000000 ||| commandId) = some [("message_id", none)])
    {prepared : Value} {destAddr : String}
    (hdest : (prepared.get "destination_addr").bind Value.asStr = some destAddr)
    {messageId : String} (hmessageId : Truncatable 65 messageId) {log : Log}
    {result : Option (Except IoError Unit)}
    (hrun : Run (do
      let response ← submitInMode server (getMessageMode server.config prepared) commandId
        sequenceNumber messageId prepared
      let data ← encodeOrEmpty server (submitResponse commandId sequenceNumber messageId response)
      send data "Failed to send response: ") log result) :
    (result = none ∧ written log = []) ∨ ∃ first response octets sent,
      log = first ++ [⟨.write octets, sent⟩] ∧ written log = [octets] ∧
        Course server commandId sequenceNumber messageId prepared
          (getMessageMode server.config prepared) (first.filter fun event => decides event.1)
          response ∧
        fromJson server.namedTlvFields response = .ok octets := by
  have hsilent : Calls (fun call => writtenOctets call = none) (submitInMode server
      (getMessageMode server.config prepared) commandId sequenceNumber messageId prepared) :=
    calls_submitInMode permitsDelivery_silent.permitsModes _ _ _ _ _
  rcases (run_bind_iff _ _ _ _).mp hrun with
    ⟨hpanic, rfl⟩ | ⟨response, first, rest, rfl, hmode, hrest⟩
  · exact .inl ⟨rfl, List.filterMap_eq_nil_iff.mpr (hsilent.run hpanic)⟩
  right
  have hcourse := course_of_run hdest (getMessageMode_ne_default _ _) hmode
  obtain ⟨status, text, htext, heq⟩ := hcourse.response hmessageId
  obtain ⟨octets, hencode⟩ := (@encodes_messageId_iff commandId sequenceNumber status
    server.namedTlvFields hresponse text).mpr htext
  rw [← heq] at hencode
  rw [encodeOrEmpty, hencode] at hrest
  obtain ⟨sent, _, rfl, hlast⟩ := (run_perform_bind_iff _ _ _ _).mp hrest
  obtain ⟨rfl, -⟩ := (run_pure_iff _ _ _).mp hlast
  refine ⟨first, _, octets, sent, rfl, ?_, hcourse, hencode⟩
  rw [written, List.filterMap_append, List.filterMap_eq_nil_iff.mpr (hsilent.run hmode)]
  rfl

theorem Course.passesOn {messageId : String} {prepared response : Value} {mode : MessageMode}
    {course : Log}
    (h : Course server commandId sequenceNumber messageId prepared mode course response) :
    (∃ event ∈ course, passesOn event.1 = true) ∨
      (mode = .storeAndForward ∧ ∃ status text, RefusesTimes status ∧
        response = messageIdResponse commandId sequenceNumber status text) := by
  cases h with
  | refused hrefuses _ => exact .inr ⟨rfl, _, _, hrefuses, rfl⟩
  | stored => exact .inl ⟨_, List.mem_cons_self, rfl⟩
  | notStored e => exact .inl ⟨_, List.mem_cons_self, rfl⟩
  | spawned n => exact .inl ⟨_, List.mem_cons_self, rfl⟩
  | forwarded sent response _ _ => exact .inl ⟨_, List.mem_cons_self, rfl⟩

/-- A message that could be prepared is passed on once, unless the run panics or refuses it. -/
theorem settled_handleDataSubmitSm
    (hresponse : messageCommandFields (0x80000000 ||| commandId) = some [("message_id", none)])
    {replaced : Value}
    (hreplaced : replaceSmDefaultMsgIdWithPredefinedMessage server.config message = .ok replaced)
    {destAddr : String} (hdest : ∀ n, (((setServiceType server.config replaced).insertKey
      "sequence_number" n).get "destination_addr").bind Value.asStr = some destAddr)
    {log : Log} {result : Option (Except IoError Unit)}
    (hrun : Run (handleDataSubmitSm server commandId sequenceNumber message) log result) :
    ∃ n, Settled server ((setServiceType server.config replaced).insertKey "sequence_number" n) log
      result := by
  have honce := passesOnce_handleDataSubmitSm.run_recording hrun
  rw [List.nil_append] at honce
  obtain ⟨messageId, afterId, rfl, hprepare⟩ := (run_perform_bind_iff _ _ _ _).mp hrun
  rw [hreplaced] at hprepare
  obtain ⟨n, rest, rfl, hhandle⟩ := (run_perform_bind_iff _ _ _ _).mp hprepare
  refine ⟨.ofNat n.toNat, honce, fun hended => ?_⟩
  simp only at hhandle
  split at hhandle
  · rcases run_own hresponse hhandle with ⟨hnone, -⟩ | ⟨reply, _, _, _, rfl, -, -, -⟩
    · exact absurd hnone hended
    · exact .inl ⟨⟨.handleRequest _, reply⟩, .tail _ (.tail _ (.head _)), rfl⟩
  · rename_i hother
    rcases run_other hresponse (hdest _) (truncatable_messageId messageId) hhandle with
      ⟨hnone, -⟩ | ⟨first, response, octets, sent, rfl, -, hcourse, hencode⟩
    · exact absurd hnone hended
    · rcases hcourse.passesOn with ⟨event, hevent, hpasses⟩ | ⟨hmode, status, text, hrefuses, rfl⟩
      · refine .inl ⟨event, ?_, hpasses⟩
        have hfirst : event ∈ first := List.mem_of_mem_filter hevent
        simp [hfirst]
      · refine .inr ⟨hother, hmode, octets, ?_, ?_⟩
        · rw [written, List.mem_filterMap]
          exact ⟨⟨.write octets, sent⟩, by simp, rfl⟩
        · rw [statusOf_messageIdResponse hresponse hencode]
          exact hrefuses

/-- A submit_sm that is stored. -/
def storedPdu : SMPPMessage := rawSubmitSm [0x41, 0] [0x34, 0x39, 0] []

end Runs

end SmppHerald.AcknowledgedSubmissions
