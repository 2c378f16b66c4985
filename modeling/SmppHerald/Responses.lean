import SmppHerald.ConnectionRun
import SmppHerald.HandlerCalls
import SmppHerald.Library.Environment
import SmppHerald.Relay
import SmppHerald.ResponseEncoding

namespace SmppHerald.Responses

open SmppHerald.Buffer
open SmppHerald.ByteParser
open SmppHerald.CommandIds
open SmppHerald.DecodedMessage
open SmppHerald.Encodability
open SmppHerald.Environments
open SmppHerald.FieldCodecs
open SmppHerald.HandlerCalls
open SmppHerald.Interaction
open SmppHerald.Io
open SmppHerald.Json
open SmppHerald.Message
open SmppHerald.PduFormat
open SmppHerald.Relay
open SmppHerald.ResponseEncoding
open SmppHerald.ServerConnection
open SmppHerald.ServerMessage
open SmppHerald.Time

def writtenOctets : ServerCall → Option Bytes
  | .write octets => some octets
  | _ => none

section Conditions

variable (server : ServerContext) (env : Environment Reply)

/-- Whatever the environment replies, exactly one PDU is written, the response to the request. -/
def Answered (request : SMPPMessage) (message : Value) : Prop :=
  Once env writtenOctets (RespondsTo request) (handleMessage server message)

/-- The four readings of the clock while a message is checked before it is stored. -/
structure ClockReadings where
  first : Instant
  second : Instant
  third : Instant
  fourth : Instant
  allowed : env.Allows .now first ∧ env.Allows .now second ∧ env.Allows .now third ∧
    env.Allows .now fourth

variable {env} in
def scheduleTime (readings : ClockReadings env) (message : Value) : Outcome Instant :=
  getScheduleDeliveryTime server.calendar readings.first message

variable {env} in
def expiryTime (readings : ClockReadings env) (message : Value) : Outcome Instant :=
  getValidityPeriod server.calendar readings.third server.config.getDefaultValidityPeriod message

/-- The time is read and has passed. -/
def Late (time : Outcome Instant) (now : Instant) : Prop :=
  ∃ instant, time = .ok instant ∧ instant < now

/-- Both times are read, the schedule after the expiry. -/
def ScheduledAfter (schedule expiry : Outcome Instant) : Prop :=
  ∃ time instant, schedule = .ok time ∧ expiry = .ok instant ∧ instant < time

variable {env} in
/-- Neither time has passed, and the schedule is not after the expiry. -/
def Timely (readings : ClockReadings env) (message : Value) : Prop :=
  ¬ Late (scheduleTime server readings message) readings.second ∧
    ¬ Late (expiryTime server readings message) readings.fourth ∧
    ¬ ScheduledAfter (scheduleTime server readings message) (expiryTime server readings message)

/-- Neither reading the times of the message nor storing it panics. -/
structure Storable (messageId : String) (message : Value) : Prop where
  schedule : ∀ readings : ClockReadings env, scheduleTime server readings message ≠ .panicked
  expiry : ∀ readings : ClockReadings env,
    ¬ Late (scheduleTime server readings message) readings.second →
      expiryTime server readings message ≠ .panicked
  saved : ∀ readings : ClockReadings env, Timely server readings message →
    ¬ env.Allows (.save messageId message) .panicked

/-- The message may come at a wrong time, or the store may refuse it. -/
def Refusable (messageId : String) (message : Value) : Prop :=
  (∃ readings : ClockReadings env, ¬ Timely server readings message) ∨
    ∃ e, env.Allows (.save messageId message) (.err e)

/-- The message can be encoded as deliver_sm. -/
def Forwardable (message : Value) : Prop :=
  (message.get "short_message").isSome = true ∧ TextsTruncatable message ∧ NoNullTlv message

/-- Submitting the message does not panic. -/
def Submittable (messageMode : MessageMode) (messageId : String) (message : Value) : Prop :=
  if server.isMyRequestAddress (message.strField "destination_addr") = true then
    ∀ value, env.Allows (.handleRequest message) (.ok value) →
      ReplyCut server.namedTlvFields value
  else
    match messageMode with
    | .datagram => True
    | .transaction => Forwardable message
    | .storeAndForward | .default => Storable server env messageId message

/-- The status with which a transaction ends. -/
def transactionStatus : Option Value → UInt32
  | some response => (((response.get "command_status").bind Value.asU64).getD
      CommandStatus.esmeRUnknownErr.asU32.toUInt64).toUInt32
  | none => CommandStatus.esmeRSubmitFail.asU32

/-- Submitting the message may end with an error. -/
def Fallible (messageMode : MessageMode) (messageId : String) (message : Value) : Prop :=
  server.isMyRequestAddress (message.strField "destination_addr") = false ∧
    match messageMode with
    | .datagram => False
    | .transaction => ∃ n reply, env.Allows .nextSequenceNumber n ∧
        env.Allows (.waitResponse n) reply ∧
        transactionStatus reply ≠ CommandStatus.esmeRok.asU32
    | .storeAndForward | .default => Refusable server env messageId message

/-- The copy of a submit_multi for one address. -/
def copyFor (decodedMessage : Value) (addr : Address) (n : UInt32) : Value :=
  (createSubmitSmFromSubmitMulti decodedMessage addr).insertKey "sequence_number" (.ofNat n.toNat)

def SubmitAnswerable (message : Value) : Prop :=
  ∀ (messageId : MessageId) (n : UInt32) (prepared : Value), env.Allows .generateId messageId →
    env.Allows .nextSequenceNumber n → prepareDataSubmitSm server.config n message = .ok prepared →
    Submittable server env (getMessageMode server.config prepared) messageId.text prepared

/-- No copy panics, at most 255 addresses can fail, and each of those fits its field. -/
structure CopiesAnswerable (messageMode : MessageMode) (messageId : String)
    (decodedMessage : Value) (addresses : List Address) : Prop where
  submittable : ∀ addr ∈ addresses, ∀ n, env.Allows .nextSequenceNumber n →
    Submittable server env messageMode messageId (copyFor decodedMessage addr n)
  few : ∀ failed : List Address, failed.Sublist addresses →
    (∀ addr ∈ failed, ∃ n, env.Allows .nextSequenceNumber n ∧
      Fallible server env messageMode messageId (copyFor decodedMessage addr n)) →
    failed.length ≤ 255
  cut : ∀ addr ∈ addresses, (∃ n, env.Allows .nextSequenceNumber n ∧
    Fallible server env messageMode messageId (copyFor decodedMessage addr n)) →
    Truncatable 21 addr.address

def MultiAnswerable (message : Value) : Prop :=
  ∀ (messageId : MessageId) (replaced : Value), env.Allows .generateId messageId →
    replaceSmDefaultMsgIdWithPredefinedMessage server.config message = .ok replaced →
    CopiesAnswerable server env (getMessageMode server.config message) messageId.text
      (setServiceType server.config replaced)
      (extractDestionationAddresses (setServiceType server.config replaced)
        server.distributionList)

/-- The requests that are answered. -/
def Answerable (message : Value) : CommandId → Prop
  | .bindTransmitter | .bindReceiver | .bindTransceiver =>
      Truncatable 16 (message.strField "system_id")
  | .querySm => Truncatable 65 (message.strField "message_id")
  | .cancelSm => ¬ env.Allows (.cancelMessage message) .panicked
  | .replaceSm => ¬ env.Allows (.replaceMessage message) .panicked
  | .submitSm | .dataSm => SubmitAnswerable server env message
  | .submitMulti => MultiAnswerable server env message
  | .unbind | .enquireLink | .cancelBroadcastSm => True
  | _ => False

end Conditions

section Silence

theorem permitsDelivery_silent : PermitsDelivery fun c => writtenOctets c = none :=
  ⟨⟨rfl, rfl, fun _ => rfl, fun _ _ => rfl, fun _ => rfl, rfl⟩, fun _ _ => rfl, fun _ => rfl⟩

theorem silent_encodeOrEmpty (server : ServerContext) (response : Value) :
    Silent writtenOctets (encodeOrEmpty server response) :=
  calls_encodeOrEmpty response

theorem silent_perform {c : ServerCall} (h : writtenOctets c = none) :
    Silent writtenOctets (perform c) :=
  calls_perform.mpr h

end Silence

section Sending

variable {server : ServerContext} {env : Environment Reply} {α : Type}

/-- The response is encoded, with the header of a response to the request. -/
def Encodes (server : ServerContext) (request : SMPPMessage) (response : Value) : Prop :=
  ∃ octets, fromJson server.namedTlvFields response = .ok octets ∧ RespondsTo request octets

/-- What is sent for a response, unless encoding it panics. -/
def sentOctets (server : ServerContext) (response : Value) : Option Bytes :=
  match fromJson server.namedTlvFields response with
  | .ok pdu => some pdu
  | .err _ => some []
  | .panicked => none

theorem sentOctets_of_ok {response : Value} {octets : Bytes}
    (h : fromJson server.namedTlvFields response = .ok octets) :
    sentOctets server response = some octets := by
  rw [sentOctets, h]

@[simp] theorem always_encodeOrEmpty {response : Value} {post : Option Bytes → Prop} :
    Always env (encodeOrEmpty server response) post ↔ post (sentOctets server response) := by
  unfold encodeOrEmpty sentOctets
  cases fromJson server.namedTlvFields response <;> simp

theorem once_send {good : Bytes → Prop} {octets : Bytes} {text : String} :
    Once env writtenOctets good (send octets text) ↔ good octets := by
  unfold send
  rw [once_bind_silent fun _ => by simp]
  exact once_perform rfl

/-- An empty PDU is no response. -/
theorem once_encodeOrEmpty_bind {request : SMPPMessage} {response : Value}
    {next : Bytes → Action α} (hnext : ∀ octets,
      Once env writtenOctets (RespondsTo request) (next octets) ↔ RespondsTo request octets) :
    Once env writtenOctets (RespondsTo request) (encodeOrEmpty server response >>= next) ↔
      Encodes server request response := by
  rw [once_bind_of_silent (silent_encodeOrEmpty server response), always_encodeOrEmpty]
  cases hencode : fromJson server.namedTlvFields response with
  | ok octets => simp [sentOctets, hencode, hnext, Encodes]
  | err e => simp [sentOctets, hencode, hnext, Encodes, not_respondsTo_nil]
  | panicked => simp [sentOctets, hencode, Encodes]

theorem once_respond {request : SMPPMessage} {commandId sequenceNumber : UInt32}
    {status : CommandStatus} {fields : Map} {text : String} :
    Once env writtenOctets (RespondsTo request)
        (respond server commandId sequenceNumber status fields text) ↔
      Encodes server request
        (createJsonResponse commandId sequenceNumber status.asU32 fields) :=
  once_encodeOrEmpty_bind fun _ => once_send

theorem encodes_iff {request : SMPPMessage} {status : UInt32} {fields : Map}
    {responseFields : List CommandField}
    (hresponse : messageCommandFields (0x80000000 ||| commandIdOf request) = some responseFields)
    (h : KeepsHeader status fields) :
    Encodes server request (createJsonResponse (commandIdOf request) (sequenceNumberOf request)
        status fields) ↔
      ∃ octets, fromJson server.namedTlvFields (createJsonResponse (commandIdOf request)
        (sequenceNumberOf request) status fields) = .ok octets := by
  constructor
  · rintro ⟨octets, hencode, -⟩
    exact ⟨octets, hencode⟩
  · rintro ⟨octets, hencode⟩
    exact ⟨octets, hencode, respondsTo_of_fromJson hresponse h hencode⟩

end Sending

section Modes

variable {server : ServerContext} {env : Environment Reply} {commandId sequenceNumber : UInt32}

/-- A judgement of the result of one submission: it looks at nothing but whether the result is an
error, and does not prefer errors. -/
structure Judges (good : Except Value Value → Prop) (commandId sequenceNumber : UInt32)
    (accepted refused : Prop) : Prop where
  ok : ∀ status text, Truncatable 65 text →
    (good (.ok (messageIdResponse commandId sequenceNumber status text)) ↔ accepted)
  error : ∀ status text, Truncatable 65 text →
    (good (.error (messageIdResponse commandId sequenceNumber status text)) ↔ refused)
  weaken : refused → accepted

variable {good : Except Value Value → Prop} {accepted refused : Prop} {messageId : String}

theorem always_sendMessageInDatagramMode_iff
    (h : Judges good commandId sequenceNumber accepted refused)
    (hmessageId : Truncatable 65 messageId) (message : Value) :
    Always env (sendMessageInDatagramMode commandId sequenceNumber messageId message)
        (fun result => result.elim False good) ↔ accepted := by
  simp [sendMessageInDatagramMode, perform, h.ok _ _ hmessageId]

theorem always_forwardMessageToClient {message : Value} {destAddr : String}
    (hdest : (message.get "destination_addr").bind Value.asStr = some destAddr)
    {post : Option Unit → Prop} :
    Always env (forwardMessageToClient server message) post ↔
      ((∃ octets, fromJson server.namedTlvFields message = .ok octets) → post (some ())) ∧
        ((¬ ∃ octets, fromJson server.namedTlvFields message = .ok octets) → post none) := by
  simp only [forwardMessageToClient, hdest]
  cases hencode : fromJson server.namedTlvFields message with
  | ok octets =>
      simp only [perform, always_bind, always_perform, Option.elim_some, always_pure,
        Environment.forall_allowed_iff]
      simp
  | err e => simp
  | panicked => simp

/-- The result of a transaction, by the reply it waited for. -/
def transactionResult (commandId sequenceNumber : UInt32) (messageId : String)
    (reply : Option Value) : Except Value Value :=
  let response := messageIdResponse commandId sequenceNumber (transactionStatus reply) messageId
  if transactionStatus reply = CommandStatus.esmeRok.asU32 then .ok response else .error response

theorem always_sendMessageInTransactionMode {message : Value} {destAddr : String}
    (hdest : (message.get "destination_addr").bind Value.asStr = some destAddr)
    {post : Option (Except Value Value) → Prop} :
    Always env (sendMessageInTransactionMode server commandId sequenceNumber messageId message)
        post ↔
      ∀ n, env.Allows .nextSequenceNumber n →
        ((∃ octets, fromJson server.namedTlvFields (asDeliverSm n message) = .ok octets) →
          ∀ reply, env.Allows (.waitResponse n) reply →
            post (some (transactionResult commandId sequenceNumber messageId reply))) ∧
        ((¬ ∃ octets, fromJson server.namedTlvFields (asDeliverSm n message) = .ok octets) →
          post none) := by
  have hdestDeliver : ∀ n, ((asDeliverSm n message).get "destination_addr").bind Value.asStr =
      some destAddr := by
    intro n
    rw [get_asDeliverSm_of_ne (by decide) (by decide), hdest]
  unfold sendMessageInTransactionMode
  simp only [perform, always_bind, always_perform, Option.elim_some,
    always_forwardMessageToClient (hdestDeliver _), Option.elim_none]
  refine forall₂_congr fun n _ => and_congr_left fun _ => ?_
  refine forall_congr' fun _ => forall₂_congr fun reply _ => ?_
  cases reply with
  | none => simp [transactionResult, transactionStatus, CommandStatus.asU32]
  | some response =>
      simp only [transactionResult, transactionStatus]
      split <;> simp_all

theorem always_sendMessageInTransactionMode_iff
    (h : Judges good commandId sequenceNumber accepted refused)
    (hmessageId : Truncatable 65 messageId) {message : Value} {destAddr : String}
    (hdest : (message.get "destination_addr").bind Value.asStr = some destAddr)
    (hforwardable : ∀ n, (∃ octets, fromJson server.namedTlvFields (asDeliverSm n message) =
      .ok octets) ↔ Forwardable message) :
    Always env (sendMessageInTransactionMode server commandId sequenceNumber messageId message)
        (fun result => result.elim False good) ↔
      Forwardable message ∧ accepted ∧
        ((∃ n reply, env.Allows .nextSequenceNumber n ∧ env.Allows (.waitResponse n) reply ∧
          transactionStatus reply ≠ CommandStatus.esmeRok.asU32) → refused) := by
  have hgood : ∀ reply, good (transactionResult commandId sequenceNumber messageId reply) ↔
      if transactionStatus reply = CommandStatus.esmeRok.asU32 then accepted else refused := by
    intro reply
    unfold transactionResult
    split
    · exact h.ok _ _ hmessageId
    · exact h.error _ _ hmessageId
  rw [always_sendMessageInTransactionMode hdest]
  simp only [hforwardable, Option.elim_some, Option.elim_none, hgood]
  constructor
  · intro hall
    obtain ⟨n, hn⟩ := env.total .nextSequenceNumber
    have hforward : Forwardable message := by
      by_contra hnot
      exact (hall n hn).2 hnot
    refine ⟨hforward, ?_, ?_⟩
    · obtain ⟨reply, hreply⟩ := env.total (.waitResponse n)
      have hend := (hall n hn).1 hforward reply hreply
      split at hend
      · exact hend
      · exact h.weaken hend
    · rintro ⟨n, reply, hn, hreply, hstatus⟩
      have hend := (hall n hn).1 hforward reply hreply
      rwa [if_neg hstatus] at hend
  · rintro ⟨hforward, haccepted, hrefused⟩ n hn
    refine ⟨fun _ reply hreply => ?_, fun hnot => hnot hforward⟩
    split
    · exact haccepted
    · rename_i hstatus
      exact hrefused ⟨n, reply, hn, hreply, hstatus⟩

theorem always_timeOrNone {time : Outcome Instant} {post : Option (Option Instant) → Prop} :
    Always env (timeOrNone time) post ↔
      post (match time with
        | .ok instant => some (some instant)
        | .err _ => some none
        | .panicked => none) := by
  cases time <;> simp [timeOrNone]

def readOption : Outcome Instant → Option Instant
  | .ok instant => some instant
  | .err _ => none
  | .panicked => none

theorem late_iff {time : Outcome Instant} {now : Instant} :
    (readOption time).any (fun instant => decide (instant < now)) = true ↔ Late time now := by
  cases time <;> simp [readOption, Late]

theorem scheduledAfter_iff {schedule expiry : Outcome Instant} :
    (readOption schedule).any (fun time => (readOption expiry).any fun instant =>
      decide (instant < time)) = true ↔ ScheduledAfter schedule expiry := by
  cases schedule <;> cases expiry <;> simp [readOption, ScheduledAfter]

theorem always_readTime {read : Instant → Outcome Instant} {bad : Except Value Value}
    {next : Option Instant → Action (Except Value Value)} :
    Always env
        (do
          let now : Instant ← perform .now
          let time ← timeOrNone (read now)
          let now : Instant ← perform .now
          if time.any (fun time => decide (time < now)) = true then return bad else next time)
        (fun result => result.elim False good) ↔
      ∀ first, env.Allows .now first → ∀ second, env.Allows .now second →
        read first ≠ .panicked ∧ (Late (read first) second → good bad) ∧
          (¬ Late (read first) second →
            Always env (next (readOption (read first))) fun result => result.elim False good) := by
  simp only [perform, always_bind, always_perform, Option.elim_some, always_timeOrNone,
    Option.elim_none]
  refine forall₂_congr fun first _ => ?_
  cases read first with
  | panicked => simp
  | ok instant =>
      refine forall₂_congr fun second _ => ?_
      rw [← @late_iff (.ok instant) second]
      simp only [readOption]
      split <;> simp_all
  | err e =>
      refine forall₂_congr fun second _ => ?_
      rw [← @late_iff (.err e) second]
      simp [readOption]

theorem always_storeAndForwardMessage_iff
    (h : Judges good commandId sequenceNumber accepted refused)
    (hmessageId : Truncatable 65 messageId) (message : Value) :
    Always env (storeAndForwardMessage server commandId sequenceNumber messageId message)
        (fun result => result.elim False good) ↔
      Storable server env messageId message ∧ accepted ∧
        (Refusable server env messageId message → refused) := by
  have hschedule := fun status =>
    h.error status "invalid-schedule-delivery-time" (.inl (by decide))
  have hexpiry := fun status => h.error status "invalid-validity-period" (.inl (by decide))
  have hafter := fun status =>
    h.error status "schedule-delivery-time-after-validity-period" (.inl (by decide))
  have hstored := h.error CommandStatus.esmeRUnknownErr.asU32 "fail-to-store" (.inl (by decide))
  have hok := h.ok CommandStatus.esmeRok.asU32 messageId hmessageId
  unfold storeAndForwardMessage
  refine always_readTime.trans ?_
  simp only [always_readTime]
  simp only [scheduledAfter_iff, always_ite, always_pure, Option.elim_some, hschedule, hexpiry,
    hafter, perform, always_bind, always_perform]
  constructor
  · intro hall
    have htimes := fun readings : ClockReadings env =>
      hall readings.first readings.allowed.1 readings.second readings.allowed.2.1
    have hexpires := fun (readings : ClockReadings env) hlate =>
      (htimes readings).2.2 hlate readings.third readings.allowed.2.2.1 readings.fourth
        readings.allowed.2.2.2
    have huntimely : ∀ readings : ClockReadings env, ¬ Timely server readings message →
        refused := by
      intro readings huntimely
      by_cases hlate : Late (scheduleTime server readings message) readings.second
      · exact (htimes readings).2.1 hlate
      · by_cases hexpired : Late (expiryTime server readings message) readings.fourth
        · exact (hexpires readings hlate).2.1 hexpired
        · refine ((hexpires readings hlate).2.2 hexpired).1 ?_
          by_contra hafter
          exact huntimely ⟨hlate, hexpired, hafter⟩
    have hsave := fun (readings : ClockReadings env) (htimely : Timely server readings message) =>
      ((hexpires readings htimely.1).2.2 htimely.2.1).2 htimely.2.2
    obtain ⟨now, hnow⟩ := env.total .now
    let readings : ClockReadings env := ⟨now, now, now, now, hnow, hnow, hnow, hnow⟩
    refine ⟨⟨fun readings => (htimes readings).1, fun readings hlate =>
      (hexpires readings hlate).1, ?_⟩, ?_, ?_⟩
    · intro readings htimely hpanic
      simpa using hsave readings htimely _ hpanic
    · by_cases htimely : Timely server readings message
      · obtain ⟨reply, hreply⟩ := env.total (.save messageId message)
        have hend := hsave readings htimely reply hreply
        cases reply with
        | ok value => simpa [hok] using hend
        | err e => exact h.weaken (by simpa [hstored] using hend)
        | panicked => simp at hend
      · exact h.weaken (huntimely readings htimely)
    · rintro (⟨readings, hnot⟩ | ⟨e, he⟩)
      · exact huntimely readings hnot
      · by_cases htimely : Timely server readings message
        · simpa [hstored] using hsave readings htimely _ he
        · exact huntimely readings htimely
  · rintro ⟨hstorable, haccepted, hrefused⟩ first hfirst second hsecond
    obtain ⟨now, hnow⟩ := env.total .now
    refine ⟨hstorable.schedule ⟨first, second, now, now, hfirst, hsecond, hnow, hnow⟩, ?_, ?_⟩
    · intro hlate
      exact hrefused (.inl ⟨⟨first, second, now, now, hfirst, hsecond, hnow, hnow⟩,
        fun htimely => htimely.1 hlate⟩)
    · intro hlate third hthird fourth hfourth
      let readings : ClockReadings env :=
        ⟨first, second, third, fourth, hfirst, hsecond, hthird, hfourth⟩
      refine ⟨hstorable.expiry readings hlate, ?_, ?_⟩
      · intro hexpired
        exact hrefused (.inl ⟨readings, fun htimely => htimely.2.1 hexpired⟩)
      · intro hexpired
        refine ⟨?_, ?_⟩
        · intro hscheduled
          exact hrefused (.inl ⟨readings, fun htimely => htimely.2.2 hscheduled⟩)
        · intro hscheduled reply hreply
          cases reply with
          | ok value => simpa [hok] using haccepted
          | err e => simpa [hstored] using hrefused (.inr ⟨e, hreply⟩)
          | panicked =>
              exact (hstorable.saved readings ⟨hlate, hexpired, hscheduled⟩ hreply).elim

end Modes

section Local

variable {server : ServerContext} {env : Environment Reply} {commandId sequenceNumber : UInt32}

theorem always_localResponse {post : Option Value → Prop} (message : Value) :
    Always env (localResponse commandId sequenceNumber message) post ↔
      (∀ value, env.Allows (.handleRequest message) (.ok value) →
        post (some (handlerResponse commandId sequenceNumber value))) ∧
      ∀ e, env.Allows (.handleRequest message) (.error e) →
        ∀ messageId : MessageId, env.Allows .generateId messageId →
          post (some (messageIdResponse commandId sequenceNumber
            CommandStatus.esmeRUnknownErr.asU32 messageId.text)) := by
  unfold localResponse
  simp only [perform, always_bind, always_perform, Option.elim_some]
  constructor
  · intro h
    refine ⟨fun value hvalue => ?_, fun e he messageId hmessageId => ?_⟩
    · simpa [handlerResponse, replyFields] using h _ hvalue
    · have herror := h _ he
      simp only [always_bind, always_perform, Option.elim_some, always_pure] at herror
      exact herror messageId hmessageId
  · rintro ⟨hok, herror⟩ reply hreply
    cases reply with
    | ok value => simpa [handlerResponse, replyFields] using hok value hreply
    | error e =>
        simp only [always_bind, always_perform, Option.elim_some, always_pure]
        exact herror e hreply

theorem exists_afterLocal (server : ServerContext) (commandId sequenceNumber : UInt32)
    (message : Value) : ∃ next : Value → Action (Except IoError Bytes),
      processLocalDataSubmitMessage server commandId sequenceNumber message =
          localResponse commandId sequenceNumber message >>= next ∧
        ∀ response, (∀ octets, fromJson server.namedTlvFields response = .ok octets →
            next response = return .ok octets) ∧
          (fromJson server.namedTlvFields response = .panicked → next response = .panic) ∧
          ∀ e, fromJson server.namedTlvFields response = .err e → next response = (do
            let messageId : MessageId ← perform .generateId
            let encodedErrorResponse ← encodeOrEmpty server
              (createJsonResponse commandId sequenceNumber CommandStatus.esmeRUnknownErr.asU32
                [("message_id", .string messageId.text),
                 ("command_status", .ofNat CommandStatus.esmeRUnknownErr.asU32.toNat)])
            return .ok encodedErrorResponse) := by
  unfold processLocalDataSubmitMessage
  refine ⟨_, rfl, fun response => ⟨fun octets hok => ?_, fun hpanicked => ?_, fun e herr => ?_⟩⟩
  · simp only [hok]
  · simp only [hpanicked]
  · simp only [herr]

/-- A message for the server itself panics on nothing but a text of the handler's reply that cannot
be cut. -/
theorem always_processLocalDataSubmitMessage_iff
    (hresponse : messageCommandFields (0x80000000 ||| commandId) = some [("message_id", none)])
    {post : Except IoError Bytes → Prop} {accepted : Prop}
    (hpost : ∀ status fields octets, KeepsHeader status fields →
      fromJson server.namedTlvFields (createJsonResponse commandId sequenceNumber status fields) =
        .ok octets → (post (.ok octets) ↔ accepted)) (message : Value) :
    Always env (processLocalDataSubmitMessage server commandId sequenceNumber message)
        (fun result => result.elim False post) ↔
      (∀ value, env.Allows (.handleRequest message) (.ok value) →
        ReplyCut server.namedTlvFields value) ∧ accepted := by
  have hfallback : ∀ messageId : MessageId, ∃ octets, fromJson server.namedTlvFields
      (createJsonResponse commandId sequenceNumber CommandStatus.esmeRUnknownErr.asU32
        [("message_id", .string messageId.text),
         ("command_status", .ofNat CommandStatus.esmeRUnknownErr.asU32.toNat)]) = .ok octets ∧
      (post (.ok octets) ↔ accepted) := by
    intro messageId
    have hkeeps : KeepsHeader CommandStatus.esmeRUnknownErr.asU32
        [("message_id", .string messageId.text),
         ("command_status", .ofNat CommandStatus.esmeRUnknownErr.asU32.toNat)] := by
      simp [KeepsHeader]
    obtain ⟨octets, hencode⟩ := (encodes_textField_iff hresponse hkeeps rfl
      (by simp; decide)).mpr (truncatable_messageId messageId)
    exact ⟨octets, hencode, hpost _ _ _ hkeeps hencode⟩
  obtain ⟨next, hnext, hcases⟩ := exists_afterLocal server commandId sequenceNumber message
  -- a response that is refused is replaced by one that is encoded
  have hencode : ∀ status fields, KeepsHeader status fields →
      (Always env (next (createJsonResponse commandId sequenceNumber status fields))
          (fun result => result.elim False post) ↔
      fromJson server.namedTlvFields
        (createJsonResponse commandId sequenceNumber status fields) ≠ .panicked ∧ accepted) := by
    intro status fields hkeeps
    obtain ⟨hok, hpanicked, herr⟩ :=
      hcases (createJsonResponse commandId sequenceNumber status fields)
    cases hencode : fromJson server.namedTlvFields
        (createJsonResponse commandId sequenceNumber status fields) with
    | ok octets =>
        rw [hok octets hencode]
        simp [hpost _ _ _ hkeeps hencode]
    | panicked =>
        rw [hpanicked hencode]
        simp
    | err e =>
        rw [herr e hencode]
        simp only [perform, always_bind, always_perform, Option.elim_some, always_encodeOrEmpty]
        choose octets hok haccepted using hfallback
        simp [sentOctets_of_ok (hok _), haccepted]
  have hreply : ∀ value, fromJson server.namedTlvFields
      (handlerResponse commandId sequenceNumber value) ≠ .panicked ↔
        ReplyCut server.namedTlvFields value := by
    intro value
    rw [ne_eq, fromJson_handlerResponse_panicked_iff hresponse, not_not]
  have herror : ∀ messageId : MessageId, fromJson server.namedTlvFields
      (messageIdResponse commandId sequenceNumber CommandStatus.esmeRUnknownErr.asU32
        messageId.text) ≠ .panicked := by
    intro messageId hpanic
    have hexists : ∃ octets, fromJson server.namedTlvFields (messageIdResponse commandId
        sequenceNumber CommandStatus.esmeRUnknownErr.asU32 messageId.text) = .ok octets :=
      (encodes_messageId_iff hresponse messageId.text).mpr (truncatable_messageId messageId)
    simp [hpanic] at hexists
  rw [hnext, always_bind, always_localResponse]
  constructor
  · rintro ⟨hok, hfailed⟩
    have hvalues := fun value hvalue =>
      (hencode _ _ (keepsHeader_replyFields value)).mp (hok value hvalue)
    refine ⟨fun value hvalue => (hreply value).mp (hvalues value hvalue).1, ?_⟩
    obtain ⟨reply, hallowed⟩ := env.total (.handleRequest message)
    cases reply with
    | ok value => exact (hvalues value hallowed).2
    | error e =>
        obtain ⟨messageId, hmessageId⟩ := env.total .generateId
        exact ((hencode _ _ (by simp [KeepsHeader])).mp
          (hfailed e hallowed messageId hmessageId)).2
  · rintro ⟨hcut, haccepted⟩
    refine ⟨fun value hvalue => ?_, fun e _ messageId _ => ?_⟩
    · exact (hencode _ _ (keepsHeader_replyFields value)).mpr
        ⟨(hreply value).mpr (hcut value hvalue), haccepted⟩
    · exact (hencode _ _ (by simp [KeepsHeader])).mpr ⟨herror messageId, haccepted⟩

end Local

section SingleMessages

variable {server : ServerContext} {env : Environment Reply} {request : SMPPMessage}

theorem getMessageMode_ne_default (config : ServerConfig) (message : Value) :
    getMessageMode config message ≠ .default := by
  have hmode : config.getDefaultMcMode ≠ .default := by
    unfold ServerConfig.getDefaultMcMode
    simp only
    split
    · simp
    · assumption
  unfold getMessageMode
  split
  · exact hmode
  · assumption

/-- The message has a destination, and `Forwardable` says when it can be encoded as deliver_sm. -/
def Routable (server : ServerContext) (message : Value) : Prop :=
  (∃ destAddr, (message.get "destination_addr").bind Value.asStr = some destAddr) ∧
    ∀ n, (∃ octets, fromJson server.namedTlvFields (asDeliverSm n message) = .ok octets) ↔
      Forwardable message

theorem encodes_messageIdResponse
    (hresponse : messageCommandFields (0x80000000 ||| commandIdOf request) =
      some [("message_id", none)]) (status : UInt32) {text : String} (h : Truncatable 65 text) :
    Encodes server request
      (messageIdResponse (commandIdOf request) (sequenceNumberOf request) status text) := by
  rw [messageIdResponse, encodes_iff hresponse (by simp [KeepsHeader])]
  exact (encodes_messageId_iff hresponse text).mpr h

theorem always_submitInMode_iff
    (hresponse : messageCommandFields (0x80000000 ||| commandIdOf request) =
      some [("message_id", none)]) {messageId : String} (hmessageId : Truncatable 65 messageId)
    {message : Value} (hroutable : Routable server message) {messageMode : MessageMode}
    (hmode : messageMode ≠ .default)
    (hlocal : server.isMyRequestAddress (message.strField "destination_addr") = false) :
    Always env (submitInMode server messageMode (commandIdOf request) (sequenceNumberOf request)
        messageId message)
        (fun result => result.elim False fun response => Encodes server request
          (submitResponse (commandIdOf request) (sequenceNumberOf request) messageId response)) ↔
      Submittable server env messageMode messageId message := by
  have hjudges : Judges (fun response => Encodes server request (submitResponse
      (commandIdOf request) (sequenceNumberOf request) messageId (some response)))
      (commandIdOf request) (sequenceNumberOf request) True True :=
    ⟨fun status text h => iff_true_intro (encodes_messageIdResponse hresponse status h),
      fun status text h => iff_true_intro (encodes_messageIdResponse hresponse status h), id⟩
  obtain ⟨⟨destAddr, hdest⟩, hforwardable⟩ := hroutable
  unfold Submittable
  rw [if_neg (by simp [hlocal])]
  cases messageMode with
  | datagram =>
      simp only [submitInMode, always_bind, always_pure, Option.elim_some, Option.elim_none]
      exact always_sendMessageInDatagramMode_iff hjudges hmessageId message
  | transaction =>
      simp only [submitInMode, always_bind, always_pure, Option.elim_some, Option.elim_none]
      refine (always_sendMessageInTransactionMode_iff hjudges hmessageId hdest
        hforwardable).trans ?_
      simp
  | storeAndForward =>
      simp only [submitInMode, always_bind, always_pure, Option.elim_some, Option.elim_none]
      refine (always_storeAndForwardMessage_iff hjudges hmessageId message).trans ?_
      simp
  | default => exact absurd rfl hmode

theorem once_handleDataSubmitSm_iff
    (hresponse : messageCommandFields (0x80000000 ||| commandIdOf request) =
      some [("message_id", none)]) {message : Value}
    (hreplaced : ∃ replaced,
      replaceSmDefaultMsgIdWithPredefinedMessage server.config message = .ok replaced)
    (hroutable : ∀ n prepared, prepareDataSubmitSm server.config n message = .ok prepared →
      Routable server prepared) :
    Once env writtenOctets (RespondsTo request) (handleDataSubmitSm server (commandIdOf request)
        (sequenceNumberOf request) message) ↔ SubmitAnswerable server env message := by
  obtain ⟨replaced, hreplaced⟩ := hreplaced
  have hprepare : ∀ n prepared, prepareDataSubmitSm server.config n message = .ok prepared ↔
      (setServiceType server.config replaced).insertKey "sequence_number" (.ofNat n.toNat) =
        prepared := by
    intro n prepared
    rw [prepareDataSubmitSm_of_replaced hreplaced, Outcome.ok.injEq]
  unfold handleDataSubmitSm
  rw [once_bind_of_silent (silent_perform rfl)]
  simp only [perform, always_perform, Option.elim_some, hreplaced]
  have horder : SubmitAnswerable server env message ↔
      ∀ messageId, env.Allows .generateId messageId → ∀ n, env.Allows .nextSequenceNumber n →
        ∀ prepared, prepareDataSubmitSm server.config n message = .ok prepared →
          Submittable server env (getMessageMode server.config prepared) messageId.text prepared :=
    ⟨fun h messageId hmessageId n hn prepared => h messageId n prepared hmessageId hn,
      fun h messageId n prepared hmessageId hn => h messageId hmessageId n hn prepared⟩
  rw [horder]
  refine forall₂_congr fun messageId _ => ?_
  rw [once_bind_of_silent (calls_perform.mpr rfl), always_perform]
  refine forall₂_congr fun n _ => ?_
  simp only [Option.elim_some, hprepare, forall_eq']
  have hroute := hroutable n _ ((hprepare n _).mpr rfl)
  split
  · rename_i his
    rw [once_bind_of_silent (calls_processLocalDataSubmitMessage
      permitsDelivery_silent.toPermitsHandover _ _ _)]
    refine (always_processLocalDataSubmitMessage_iff hresponse
      (fun status fields octets hkeeps hencode => iff_true_intro
        (once_send.mpr (respondsTo_of_fromJson hresponse hkeeps hencode))) _).trans ?_
    unfold Submittable
    rw [if_pos his, and_true]
  · rename_i his
    rw [once_bind_of_silent (calls_submitInMode permitsDelivery_silent.permitsModes _ _ _ _ _)]
    simp only [once_encodeOrEmpty_bind fun _ => once_send]
    exact always_submitInMode_iff hresponse (truncatable_messageId messageId) hroute
      (getMessageMode_ne_default _ _) (by simpa using his)

end SingleMessages

section CopyFields

variable {decodedMessage : Value} {addr : Address} {n : UInt32}

/-- The entries of a copy that do not come from the submit_multi, but for the sequence number. -/
def ownEntries (addr : Address) : Map :=
  [("command_id", .ofNat CommandId.submitSm.asU32.toNat), ("command_status", .ofNat 0),
   ("dest_addr_ton", .ofNat addr.ton.toNat), ("dest_addr_npi", .ofNat addr.npi.toNat),
   ("destination_addr", .string addr.address)]

theorem get_copyFor_iff {name : String} (hname : name ≠ "sequence_number") {value : Value} :
    (copyFor decodedMessage addr n).get name = some value ↔
      (name, value) ∈ ownEntries addr ∨
        name ∈ submitMultiFields ∧ decodedMessage.get name = some value := by
  have hentries : ∀ value, (name, value) ∈
      [("command_id", .ofNat CommandId.submitSm.asU32.toNat),
       ("sequence_number", (decodedMessage.get "sequence_number").getD (.ofNat 0)),
       ("command_status", .ofNat 0), ("dest_addr_ton", .ofNat addr.ton.toNat),
       ("dest_addr_npi", .ofNat addr.npi.toNat), ("destination_addr", .string addr.address)] ++
        submitMultiFields.filterMap (fun field =>
          (decodedMessage.get field).map fun value => (field, value)) ↔
      (name, value) ∈ ownEntries addr ∨
        name ∈ submitMultiFields ∧ decodedMessage.get name = some value := by
    intro value
    rw [List.mem_append]
    refine or_congr ?_ ?_
    · simp [ownEntries, hname]
    · simp only [List.mem_filterMap, Option.map_eq_some_iff, Prod.mk.injEq]
      constructor
      · rintro ⟨field, hfield, value', hget, rfl, rfl⟩
        exact ⟨hfield, hget⟩
      · rintro ⟨hfield, hget⟩
        exact ⟨name, hfield, value, hget, rfl, rfl⟩
  -- the names of the two kinds are different, so that nothing is overwritten
  have hdisjoint : ∀ entry ∈ ownEntries addr, entry.1 ∉ submitMultiFields := by
    simp [ownEntries, submitMultiFields]
  have hnodup : ((ownEntries addr).map Prod.fst).Nodup := by
    simp [ownEntries]
  rw [copyFor, Value.get_insertKey_of_ne hname]
  constructor
  · intro hget
    exact (hentries value).mp (mem_of_lookup_insertAll hget)
  · intro hmem
    refine lookup_insertAll_of_agree ?_ ⟨(name, value), (hentries value).mpr hmem, rfl⟩
    rintro ⟨other, value'⟩ hother rfl
    rcases (hentries value').mp hother with hown' | ⟨hfield', hget'⟩ <;>
      rcases hmem with hown | ⟨hfield, hget⟩
    · exact congrArg Prod.snd (List.inj_on_of_nodup_map hnodup hown' hown rfl)
    · exact absurd hfield (hdisjoint _ hown')
    · exact absurd hfield' (hdisjoint (other, value) hown)
    · exact Option.some.inj (hget'.symm.trans hget)

theorem get_copyFor_destination :
    (copyFor decodedMessage addr n).get "destination_addr" = some (.string addr.address) :=
  (get_copyFor_iff (by decide)).mpr (.inl (by simp [ownEntries]))

theorem strField_copyFor :
    (copyFor decodedMessage addr n).strField "destination_addr" = addr.address := by
  rw [Value.strField, get_copyFor_destination]
  rfl

end CopyFields

section Copies

variable {server : ServerContext} {env : Environment Reply} {commandId sequenceNumber : UInt32}

theorem always_submitCopyInMode_iff {good : Except Value Value → Prop} {accepted refused : Prop}
    (hjudges : ∀ command, Judges good command sequenceNumber accepted refused)
    {messageId : String} (hmessageId : Truncatable 65 messageId) {message : Value}
    (hroutable : Routable server message) {messageMode : MessageMode}
    (hlocal : server.isMyRequestAddress (message.strField "destination_addr") = false) :
    Always env (submitCopyInMode server messageMode commandId sequenceNumber messageId message)
        (fun result => result.elim False good) ↔
      Submittable server env messageMode messageId message ∧ accepted ∧
        (Fallible server env messageMode messageId message → refused) := by
  obtain ⟨⟨destAddr, hdest⟩, hforwardable⟩ := hroutable
  unfold Submittable Fallible
  rw [if_neg (by simp [hlocal])]
  simp only [hlocal, true_and]
  cases messageMode with
  | datagram =>
      refine (always_sendMessageInDatagramMode_iff (hjudges _) hmessageId message).trans ?_
      simp
  | transaction =>
      exact always_sendMessageInTransactionMode_iff (hjudges _) hmessageId hdest hforwardable
  | storeAndForward => exact always_storeAndForwardMessage_iff (hjudges _) hmessageId message
  | default => exact always_storeAndForwardMessage_iff (hjudges _) hmessageId message

theorem always_submitToDestination_iff {good : Bool → Prop} (hgood : good true → good false)
    {messageId : String} (hmessageId : Truncatable 65 messageId) {messageMode : MessageMode}
    {decodedMessage : Value} {addr : Address}
    (hroutable : ∀ n, Routable server (copyFor decodedMessage addr n)) :
    Always env (submitToDestination server commandId sequenceNumber messageId messageMode
        decodedMessage addr) (fun result => result.elim False good) ↔
      (∀ n, env.Allows .nextSequenceNumber n →
        Submittable server env messageMode messageId (copyFor decodedMessage addr n)) ∧
      good false ∧
      ((∃ n, env.Allows .nextSequenceNumber n ∧
        Fallible server env messageMode messageId (copyFor decodedMessage addr n)) →
          good true) := by
  have hresponse : messageCommandFields (0x80000000 ||| CommandId.submitSm.asU32) =
      some [("message_id", none)] := rfl
  unfold submitToDestination
  rw [always_bind, perform, always_perform]
  refine Environment.forall_allowed_and_iff fun n => ?_
  simp only [Option.elim_some]
  split
  · rename_i his
    rw [always_bind]
    refine (always_processLocalDataSubmitMessage_iff hresponse
      (fun _ _ _ _ _ => always_pure false) (copyFor decodedMessage addr n)).trans ?_
    unfold Submittable Fallible
    rw [strField_copyFor, if_pos his, his]
    simp
  · rename_i his
    have hlocal : server.isMyRequestAddress
        ((copyFor decodedMessage addr n).strField "destination_addr") = false := by
      rw [strField_copyFor]
      simpa using his
    rw [always_bind]
    refine always_submitCopyInMode_iff ?_ hmessageId (hroutable n) hlocal
    intro command
    exact ⟨fun _ _ _ => always_pure false, fun _ _ _ => always_pure true, hgood⟩

theorem always_submitToDestinations_iff {good : List Address → Prop}
    (hgood : ∀ failed failed' : List Address, failed'.Sublist failed → good failed → good failed')
    {messageId : String} (hmessageId : Truncatable 65 messageId) {messageMode : MessageMode}
    {decodedMessage : Value}
    (hroutable : ∀ addr n, Routable server (copyFor decodedMessage addr n))
    (addresses : List Address) :
    Always env (submitToDestinations server commandId sequenceNumber messageId messageMode
        decodedMessage addresses) (fun result => result.elim False good) ↔
      (∀ addr ∈ addresses, ∀ n, env.Allows .nextSequenceNumber n →
        Submittable server env messageMode messageId (copyFor decodedMessage addr n)) ∧
      ∀ failed : List Address, failed.Sublist addresses →
        (∀ addr ∈ failed, ∃ n, env.Allows .nextSequenceNumber n ∧
          Fallible server env messageMode messageId (copyFor decodedMessage addr n)) →
        good failed := by
  induction addresses generalizing good with
  | nil => simp [submitToDestinations]
  | cons addr rest ih =>
      have hcons : ∀ failed failed' : List Address, failed'.Sublist failed →
          good (addr :: failed) → good (addr :: failed') :=
        fun failed failed' hsub => hgood _ _ (hsub.cons_cons addr)
      have hweaken : Always env (submitToDestinations server commandId sequenceNumber messageId
            messageMode decodedMessage rest)
            (fun result => result.elim False fun failed => good (addr :: failed)) →
          Always env (submitToDestinations server commandId sequenceNumber messageId messageMode
            decodedMessage rest) (fun result => result.elim False good) := by
        intro h
        refine h.mono fun result => ?_
        cases result with
        | none => exact id
        | some failed => exact hgood _ _ (List.sublist_cons_self addr failed)
      simp only [submitToDestinations, always_bind, always_pure, Option.elim_some,
        Option.elim_none]
      refine (always_submitToDestination_iff hweaken hmessageId fun n => hroutable addr n).trans ?_
      simp only [if_true, Bool.false_eq_true, if_false]
      rw [ih hgood, ih hcons, List.forall_mem_cons]
      constructor
      · rintro ⟨hsubmittable, ⟨hrest, hfew⟩, hfails⟩
        refine ⟨⟨hsubmittable, hrest⟩, ?_⟩
        intro failed hsub hfallible
        cases hsub with
        | cons _ hsub => exact hfew failed hsub hfallible
        | cons_cons _ hsub =>
            rw [List.forall_mem_cons] at hfallible
            exact (hfails hfallible.1).2 _ hsub hfallible.2
      · rintro ⟨⟨hsubmittable, hrest⟩, hfew⟩
        refine ⟨hsubmittable, ⟨hrest, fun failed hsub => hfew failed (hsub.cons addr)⟩, ?_⟩
        intro hfallible
        refine ⟨hrest, fun failed hsub hothers => hfew _ (hsub.cons_cons addr) ?_⟩
        exact List.forall_mem_cons.mpr ⟨hfallible, hothers⟩

end Copies

section Routes

variable {server : ServerContext}

theorem routable_of_relayable_submitSm {message : Value} (h : Relayable submitSmFields message) :
    Routable server message := by
  have hdest : ("destination_addr", none) ∈ submitSmFields := by simp [submitSmFields]
  have htext : ("short_message", none) ∈ submitSmFields := by simp [submitSmFields]
  refine ⟨h.destination hdest, fun n => ?_⟩
  obtain ⟨codec, value, -, hget, -⟩ := h.field _ htext
  rw [fromJson_asDeliverSm_iff h, Forwardable, hget]
  simp

theorem routable_of_relayable_dataSm {message : Value} (h : Relayable dataSmFields message) :
    Routable server message := by
  have hdest : ("destination_addr", none) ∈ dataSmFields := by simp [dataSmFields]
  refine ⟨h.destination hdest, fun n => ?_⟩
  rw [Forwardable, h.absent (by decide)]
  simp [fromJson_asDeliverSm_dataSm h n]

/-- The message has all the fields that the copies of a submit_multi take over. -/
def HasTakenFields (message : Value) : Prop :=
  ∀ name ∈ submitMultiFields, ∃ codec value, fieldCodecs name = some codec ∧
    message.get name = some value ∧ Shaped codec value

theorem HasTakenFields.assignKey {message : Value} (h : HasTakenFields message) {key : String}
    {codec : FieldCodec} {value : Value} (hcodec : fieldCodecs key = some codec)
    (hshaped : Shaped codec value) : HasTakenFields (message.assignKey key value) := by
  intro name hname
  obtain ⟨codec', value', hcodec', hget, hshaped'⟩ := h name hname
  by_cases heq : name = key
  · subst heq
    rw [Value.get_assignKey_self, hget]
    exact ⟨codec, value, hcodec, rfl, hshaped⟩
  · rw [Value.get_assignKey_of_ne heq]
    exact ⟨codec', value', hcodec', hget, hshaped'⟩

theorem HasTakenFields.of_decoded {decoded : Decoded}
    (hfields : messageCommandFields CommandId.submitMulti.asU32 = some decoded.fields) :
    HasTakenFields decoded.value := by
  have htable : ∀ fields, messageCommandFields CommandId.submitMulti.asU32 = some fields →
      ∀ name ∈ submitMultiFields, isValidTlvField name = false ∧
        ((fieldCodecs name).map flat).getD true = true ∧
          ∃ field ∈ fields, field.1 = name := by
    intro fields h
    obtain rfl := Option.some.inj h
    decide
  intro name hname
  obtain ⟨hinvalid, hflat, field, hfield, rfl⟩ := htable _ hfields name hname
  obtain ⟨codec, value, hcodec, hget, hshaped⟩ := decoded.get_field hfield hinvalid
  rw [hcodec] at hflat
  exact ⟨codec, value, hcodec, hget, hshaped (by simpa using hflat)⟩

theorem HasTakenFields.prepare {message replaced : Value} (h : HasTakenFields message)
    {config : ServerConfig}
    (hreplaced : replaceSmDefaultMsgIdWithPredefinedMessage config message = .ok replaced) :
    HasTakenFields (setServiceType config replaced) := by
  have hcleared : HasTakenFields (message.assignKey "sm_default_msg_id" (.ofNat 0)) :=
    h.assignKey rfl ⟨_, rfl⟩
  have hkept : HasTakenFields replaced := by
    rcases replaceSmDefaultMsgId_ok hreplaced with rfl | rfl | ⟨text, rfl⟩
    · exact h
    · exact hcleared
    · exact hcleared.assignKey rfl ⟨_, rfl⟩
  unfold setServiceType
  split
  · exact hkept.assignKey rfl ⟨_, rfl⟩
  · exact hkept

theorem relayable_copyFor {message : Value} (h : HasTakenFields message) (addr : Address)
    (n : UInt32) : Relayable submitSmFields (copyFor message addr n) where
  object := ⟨_, rfl⟩
  commandId := ⟨.ofNat CommandId.submitSm.asU32.toNat,
    (get_copyFor_iff (by decide)).mpr (.inl (by simp [ownEntries]))⟩
  field := by
    have htable : ∀ field ∈ submitSmFields, field.1 ≠ "sequence_number" ∧
        (field.1 ∈ submitMultiFields ∨
          field.1 ∈ ["dest_addr_ton", "dest_addr_npi", "destination_addr"]) := by decide
    intro field hfield
    obtain ⟨hne, htaken | hown⟩ := htable field hfield
    · obtain ⟨codec, value, hcodec, hget, hshaped⟩ := h field.1 htaken
      exact ⟨codec, value, hcodec, (get_copyFor_iff hne).mpr (.inr ⟨htaken, hget⟩), hshaped⟩
    · simp only [List.mem_cons, List.not_mem_nil, or_false] at hown
      rcases hown with hname | hname | hname
      · rw [hname]
        exact ⟨.u8, .ofNat addr.ton.toNat, rfl,
          (get_copyFor_iff (by decide)).mpr (.inl (by simp [ownEntries])), _, rfl⟩
      · rw [hname]
        exact ⟨.u8, .ofNat addr.npi.toNat, rfl,
          (get_copyFor_iff (by decide)).mpr (.inl (by simp [ownEntries])), _, rfl⟩
      · rw [hname]
        exact ⟨.cOctetStr 21, .string addr.address, rfl, get_copyFor_destination, _, rfl⟩
  tlv := by
    have hnames : ∀ codec ∈ createTlvFields, codec.name ≠ "sequence_number" ∧
        codec.name ∉ submitMultiFields ∧ codec.name ∉ ["command_id", "command_status",
          "dest_addr_ton", "dest_addr_npi", "destination_addr"] := by decide
    intro codec hcodec value hget
    obtain ⟨hne, htaken, hown⟩ := hnames codec hcodec
    rcases (get_copyFor_iff hne).mp hget with hmem | ⟨hmem, -⟩
    · have hname : codec.name ∈ (ownEntries addr).map Prod.fst := List.mem_map_of_mem hmem
      exact absurd hname (by simpa [ownEntries] using hown)
    · exact absurd hmem htaken
  absent := fun hfield => absurd rfl (hfield ("short_message", none) (by simp [submitSmFields]))

theorem exists_replaced {config : ServerConfig} {message : Value}
    (h : message.u64Field "sm_default_msg_id" = 0 ∨
      extractCommandId message = some .submitMulti ∨
        ∃ value, message.get "short_message" = some value) :
    ∃ replaced, replaceSmDefaultMsgIdWithPredefinedMessage config message = .ok replaced := by
  have hcommand : extractCommandId (message.assignKey "sm_default_msg_id" (.ofNat 0)) =
      extractCommandId message := by
    unfold extractCommandId
    rw [Value.get_assignKey_of_ne (by decide), Value.get_assignKey_of_ne (by decide)]
  have htext : (message.assignKey "sm_default_msg_id" (.ofNat 0)).get "short_message" =
      message.get "short_message" := Value.get_assignKey_of_ne (by decide) _ _
  unfold replaceSmDefaultMsgIdWithPredefinedMessage
  simp only
  split
  · rename_i hnonzero
    split
    · rcases h with hzero | hmulti | ⟨value, hvalue⟩
      · exact absurd hzero hnonzero
      · rw [replaceMessageWithPredefined, hcommand, hmulti]
        exact ⟨_, rfl⟩
      · unfold replaceMessageWithPredefined
        rw [htext, hvalue]
        simp only
        split
        all_goals first | exact ⟨_, rfl⟩ | (split <;> exact ⟨_, rfl⟩)
    · exact ⟨_, rfl⟩
  · exact ⟨_, rfl⟩

end Routes

section Requests

variable {server : ServerContext} {env : Environment Reply} {request : SMPPMessage}

/-- The copies of a submit_multi, then the response, and nothing is sent after it. -/
theorem exists_afterWrite {message replaced : Value}
    (hreplaced : replaceSmDefaultMsgIdWithPredefinedMessage server.config message = .ok replaced)
    (commandId sequenceNumber : UInt32) :
    ∃ finish : Bytes → Except IoError Unit → Action (Except IoError Unit),
      (∀ octets reply, Silent writtenOctets (finish octets reply)) ∧
        handleSubmitMulti server commandId sequenceNumber message = (do
          let messageId : MessageId ← perform .generateId
          let failedAddresses ← submitToDestinations server commandId sequenceNumber messageId.text
            (getMessageMode server.config message) (setServiceType server.config replaced)
            (extractDestionationAddresses (setServiceType server.config replaced)
              server.distributionList)
          let encodedResponse ← encodeOrEmpty server
            (submitMultiResponse sequenceNumber messageId.text failedAddresses)
          perform (.write encodedResponse) >>= finish encodedResponse) := by
  unfold handleSubmitMulti
  simp only [hreplaced]
  refine ⟨_, fun octets reply => ?_, rfl⟩
  cases reply <;> simp

theorem once_handleSubmitMulti_iff (hcommand : commandIdOf request = CommandId.submitMulti.asU32)
    {message : Value}
    (hreplaced : ∃ replaced,
      replaceSmDefaultMsgIdWithPredefinedMessage server.config message = .ok replaced)
    (hfields : HasTakenFields message) :
    Once env writtenOctets (RespondsTo request) (handleSubmitMulti server
        CommandId.submitMulti.asU32 (sequenceNumberOf request) message) ↔
      MultiAnswerable server env message := by
  obtain ⟨replaced, hreplaced⟩ := hreplaced
  have hencodes : ∀ messageId : MessageId, ∀ failed, Encodes server request
      (submitMultiResponse (sequenceNumberOf request) messageId.text failed) ↔
        failed.length ≤ 255 ∧ ∀ addr ∈ failed, Truncatable 21 addr.address := by
    intro messageId failed
    have hresponse : messageCommandFields (0x80000000 ||| commandIdOf request) =
        some [("message_id", none), ("unsuccess_smes", none)] := by
      rw [hcommand]
      rfl
    rw [← encodes_submitMulti_iff messageId.text (truncatable_messageId messageId) failed,
      submitMultiResponse, ← hcommand]
    exact encodes_iff hresponse (by simp [KeepsHeader])
  obtain ⟨finish, hsilent, hsubmit⟩ := exists_afterWrite hreplaced CommandId.submitMulti.asU32
    (sequenceNumberOf request)
  have hnext : ∀ octets, Once env writtenOctets (RespondsTo request)
      (perform (.write octets) >>= finish octets) ↔ RespondsTo request octets := by
    intro octets
    rw [once_bind_silent (hsilent octets)]
    exact once_perform rfl
  have hanswerable : MultiAnswerable server env message ↔
      ∀ messageId, env.Allows .generateId messageId →
        CopiesAnswerable server env (getMessageMode server.config message) messageId.text
          (setServiceType server.config replaced)
          (extractDestionationAddresses (setServiceType server.config replaced)
            server.distributionList) := by
    refine ⟨fun h messageId hmessageId => h messageId replaced hmessageId hreplaced, ?_⟩
    intro h messageId replaced' hmessageId hreplaced'
    obtain rfl := Outcome.ok.inj (hreplaced.symm.trans hreplaced')
    exact h messageId hmessageId
  rw [hsubmit, hanswerable, once_bind_of_silent (silent_perform rfl), perform, always_perform]
  refine forall₂_congr fun messageId _ => ?_
  rw [Option.elim_some]
  have hroutable : ∀ addr n,
      Routable server (copyFor (setServiceType server.config replaced) addr n) :=
    fun addr n =>
      routable_of_relayable_submitSm (relayable_copyFor (hfields.prepare hreplaced) addr n)
  have hmono : ∀ failed failed' : List Address, failed'.Sublist failed →
      (failed.length ≤ 255 ∧ ∀ addr ∈ failed, Truncatable 21 addr.address) →
      failed'.length ≤ 255 ∧ ∀ addr ∈ failed', Truncatable 21 addr.address :=
    fun failed failed' hsub h => ⟨Nat.le_trans hsub.length_le h.1,
      fun addr haddr => h.2 addr (hsub.subset haddr)⟩
  rw [once_bind_of_silent (calls_submitToDestinations permitsDelivery_silent _ _ _ _ _ _)]
  simp only [once_encodeOrEmpty_bind hnext, hencodes]
  refine (always_submitToDestinations_iff hmono (truncatable_messageId messageId) hroutable
    _).trans ?_
  constructor
  · rintro ⟨hsubmittable, hfailed⟩
    refine ⟨hsubmittable, fun failed hsub h => (hfailed failed hsub h).1, ?_⟩
    intro addr haddr hfallible
    exact (hfailed [addr] (List.singleton_sublist.mpr haddr) (by simpa using hfallible)).2 addr
      (by simp)
  · rintro ⟨hsubmittable, hfew, hcut⟩
    exact ⟨hsubmittable, fun failed hsub h => ⟨hfew failed hsub h,
      fun addr haddr => hcut addr (hsub.subset haddr) (h addr haddr)⟩⟩

theorem once_handleBindRequest_iff
    (hresponse : messageCommandFields (0x80000000 ||| commandIdOf request) =
      some [("system_id", none)]) (message : Value) :
    Once env writtenOctets (RespondsTo request) (handleBindRequest server (commandIdOf request)
        (sequenceNumberOf request) message) ↔ Truncatable 16 (message.strField "system_id") := by
  have hanswer : ∀ status : CommandStatus, Once env writtenOctets (RespondsTo request)
      (answerBind server (commandIdOf request) (sequenceNumberOf request)
        (message.strField "system_id") status) ↔ Truncatable 16 (message.strField "system_id") := by
    intro status
    have hnext : ∀ octets, Once env writtenOctets (RespondsTo request)
        (if status = .esmeRok then do
          let _ ← perform .startEnquireLinkTask
          send octets "Failed to send bind response: "
        else send octets "Failed to send bind response: ") ↔ RespondsTo request octets := by
      intro octets
      split
      · rw [once_bind_of_silent (silent_perform rfl)]
        simp [perform, once_send]
      · exact once_send
    unfold answerBind
    rw [once_encodeOrEmpty_bind hnext, encodes_iff hresponse (by simp [KeepsHeader])]
    exact encodes_bind_iff hresponse _ _
  unfold handleBindRequest
  rw [once_bind_silent]
  · unfold handleBind
    rw [once_bind_of_silent (silent_perform rfl), perform, always_perform]
    simp only [Option.elim_some, hanswer]
    exact env.forall_allowed_iff
  · intro result
    cases result with
    | error e => simp
    | ok value => exact Calls.bind (calls_perform.mpr rfl) fun _ => by simp

theorem once_respond_empty
    (hresponse : messageCommandFields (0x80000000 ||| commandIdOf request) = some [])
    (status : CommandStatus) (text : String) :
    Once env writtenOctets (RespondsTo request) (respond server (commandIdOf request)
      (sequenceNumberOf request) status [] text) := by
  rw [once_respond, encodes_iff hresponse (by simp [KeepsHeader]),
    encodes_noFields_iff hresponse (by simp)]

/-- A response with a mandatory field is never encoded without fields. -/
theorem not_once_respond_empty {field : CommandField} {rest : List CommandField}
    (hresponse : messageCommandFields (0x80000000 ||| commandIdOf request) = some (field :: rest))
    (hrequired : ∀ field' ∈ field :: rest, field'.2 = none) (status : CommandStatus)
    (text : String) :
    ¬ Once env writtenOctets (RespondsTo request) (respond server (commandIdOf request)
      (sequenceNumberOf request) status [] text) := by
  rw [once_respond, encodes_iff hresponse (by simp [KeepsHeader]),
    encodes_noFields_iff hresponse hrequired]
  simp

theorem once_trueOrFalse_iff
    (hresponse : messageCommandFields (0x80000000 ||| commandIdOf request) = some [])
    (answer : Bool → CommandStatus) (text : String) (reply : Outcome Bool) :
    Once env writtenOctets (RespondsTo request) (do
        let result ← trueOrFalse reply
        respond server (commandIdOf request) (sequenceNumberOf request) (answer result) [] text) ↔
      reply ≠ .panicked := by
  rw [once_bind_of_silent (calls_trueOrFalse reply)]
  have hanswered : ∀ result, Once env writtenOctets (RespondsTo request) (respond server
      (commandIdOf request) (sequenceNumberOf request) (answer result) [] text) :=
    fun result => once_respond_empty hresponse (answer result) text
  cases reply <;> simp [trueOrFalse, hanswered]

/-- A request is answered in every run that the environment allows exactly when its condition
holds. -/
theorem answered_iff (server : ServerContext) (env : Environment Reply) {request : SMPPMessage}
    {message : Value} (hdecode : toJson request = .ok message) {commandId : CommandId}
    (hcommand : extractCommandId message = some commandId)
    (hrequest : commandId.isRequest = true)
    (hresponse : (messageCommandFields (0x80000000 ||| commandId.asU32)).isSome = true) :
    Answered server env request message ↔ Answerable server env message commandId := by
  obtain ⟨decoded, rfl, hid, hnumber⟩ := exists_decoded_words hdecode
  have hword : commandId.asU32 = commandIdOf request := by
    rw [decoded.extractCommandId_value] at hcommand
    rw [CommandId.asU32_of_fromU32 hcommand, hid]
  have hsequence : (decoded.value.u64Field "sequence_number").toUInt32 =
      sequenceNumberOf request := by
    have hget : decoded.value.get "sequence_number" =
        some (.ofNat decoded.sequenceNumber.toNat) :=
      decoded.get_header (by simp [headerEntries])
    rw [Value.u64Field, hget, ← hnumber]
    simp [Value.asU64, Value.ofNat, Number.asU64]
  have hfields := decoded.table
  rw [hid] at hfields
  unfold Answered handleMessage
  rw [hcommand, hsequence]
  simp only
  cases commandId with
  | bindTransmitter =>
      simp only [Answerable, hword]
      exact once_handleBindRequest_iff (hword ▸ rfl) _
  | bindReceiver =>
      simp only [Answerable, hword]
      exact once_handleBindRequest_iff (hword ▸ rfl) _
  | bindTransceiver =>
      simp only [Answerable, hword]
      exact once_handleBindRequest_iff (hword ▸ rfl) _
  | unbind =>
      simp only [Answerable, hword, iff_true, handleUnbind]
      rw [once_bind_silent]
      · exact once_respond_empty (hword ▸ rfl) _ _
      · intro result
        cases result with
        | error e => simp
        | ok value => exact Calls.bind (calls_perform.mpr rfl) fun _ => by simp
  | enquireLink =>
      simp only [Answerable, hword, iff_true, handleEnquireLink]
      exact once_respond_empty (hword ▸ rfl) _ _
  | cancelBroadcastSm =>
      simp only [Answerable, hword, iff_true]
      exact once_respond_empty (hword ▸ rfl) _ _
  | cancelSm =>
      have hempty : messageCommandFields (0x80000000 ||| commandIdOf request) = some [] :=
        hword ▸ rfl
      simp only [Answerable, hword]
      rw [once_bind_of_silent (silent_perform rfl), perform, always_perform]
      simp only [Option.elim_some, once_trueOrFalse_iff hempty
        (fun result => if result = true then .esmeRok else .esmeRCancelFail)
        "Failed to send response: "]
      exact ⟨fun h hpanic => h _ hpanic rfl, fun h reply hreply hpanic => h (hpanic ▸ hreply)⟩
  | replaceSm =>
      have hempty : messageCommandFields (0x80000000 ||| commandIdOf request) = some [] :=
        hword ▸ rfl
      simp only [Answerable, hword]
      rw [once_bind_of_silent (silent_perform rfl), perform, always_perform]
      simp only [Option.elim_some, once_trueOrFalse_iff hempty
        (fun result => if result = true then .esmeRok else .esmeRReplaceFail)
        "Failed to send response: "]
      exact ⟨fun h hpanic => h _ hpanic rfl, fun h reply hreply hpanic => h (hpanic ▸ hreply)⟩
  | querySm =>
      simp only [Answerable]
      have hquery : messageCommandFields (0x80000000 ||| commandIdOf request) =
          some [("message_id", none), ("final_date", none), ("message_state", none),
            ("error_code", none)] := hword ▸ rfl
      rw [hword, once_respond, encodes_iff hquery (by simp [KeepsHeader]), ← hword]
      exact encodes_query_iff _
  | broadcastSm =>
      have hrequired : messageCommandFields (0x80000000 ||| commandIdOf request) =
          some [("message_id", none)] := hword ▸ rfl
      simp only [Answerable, hword, iff_false]
      exact not_once_respond_empty hrequired (by simp) _ _
  | queryBroadcastSm =>
      have hrequired : messageCommandFields (0x80000000 ||| commandIdOf request) =
          some [("message_id", none), ("message_state", none)] := hword ▸ rfl
      simp only [Answerable, hword, iff_false]
      exact not_once_respond_empty hrequired (by simp) _ _
  | deliverSm =>
      have hrequired : messageCommandFields (0x80000000 ||| commandIdOf request) =
          some [("message_id", none)] := hword ▸ rfl
      simp only [Answerable, iff_false]
      rw [if_pos hrequest, hword]
      exact not_once_respond_empty hrequired (by simp) _ _
  | submitSm =>
      have hmessageId : messageCommandFields (0x80000000 ||| commandIdOf request) =
          some [("message_id", none)] := hword ▸ rfl
      have hsubmit : decoded.fields = submitSmFields := by
        rw [← hword] at hfields
        exact (Option.some.inj hfields).symm
      have hrelayable : Relayable submitSmFields decoded.value :=
        hsubmit ▸ Relayable.of_decoded (hsubmit ▸ plainFields_submitSm)
      have htext : ("short_message", none) ∈ submitSmFields := by simp [submitSmFields]
      obtain ⟨-, text, -, hget, -⟩ := hrelayable.field _ htext
      simp only [Answerable, hword]
      exact once_handleDataSubmitSm_iff hmessageId (exists_replaced (.inr (.inr ⟨text, hget⟩)))
        fun n prepared hprepare =>
          routable_of_relayable_submitSm (hrelayable.prepare (by decide) hprepare)
  | dataSm =>
      have hmessageId : messageCommandFields (0x80000000 ||| commandIdOf request) =
          some [("message_id", none)] := hword ▸ rfl
      have hdata : decoded.fields = dataSmFields := by
        rw [← hword] at hfields
        exact (Option.some.inj hfields).symm
      have hrelayable : Relayable dataSmFields decoded.value :=
        hdata ▸ Relayable.of_decoded (hdata ▸ plainFields_dataSm)
      have hzero : decoded.value.u64Field "sm_default_msg_id" = 0 := by
        rw [Value.u64Field, decoded.get_other (by decide) (by rw [hdata]; decide) (by decide)]
        rfl
      simp only [Answerable, hword]
      exact once_handleDataSubmitSm_iff hmessageId (exists_replaced (.inl hzero))
        fun n prepared hprepare =>
          routable_of_relayable_dataSm (hrelayable.prepare (by decide) hprepare)
  | submitMulti =>
      have htaken : HasTakenFields decoded.value := by
        rw [← hword] at hfields
        exact HasTakenFields.of_decoded hfields
      exact once_handleSubmitMulti_iff hword.symm (exists_replaced (.inr (.inl hcommand))) htaken
  | outbind => exact absurd hresponse (by decide)
  | alertNotification => exact absurd hresponse (by decide)
  | _ => exact absurd hrequest (by decide)

/-- Surroundings that may reply anything. -/
def anything : Environment Reply where
  Allows _ _ := True
  total c := ⟨ConnectionRun.agreeing true c, trivial⟩

/-- A broadcast_sm with empty texts. -/
def broadcastSmPdu : SMPPMessage :=
  header 27 0x111 0 5 ++ [0, 0, 0, 0, 0, 0, 0, 0, 0, 0, 0]

/-- The response to a broadcast_sm lacks its `message_id`: it is not encoded, and an empty PDU is
written. -/
theorem not_answered_broadcastSm :
    toJson broadcastSmPdu = .ok (decodedValue broadcastSmPdu) ∧
      extractCommandId (decodedValue broadcastSmPdu) = some .broadcastSm ∧
        messageCommandFields (0x80000000 ||| CommandId.broadcastSm.asU32) =
          some [("message_id", none)] ∧
          ¬ Answered plainServer anything broadcastSmPdu (decodedValue broadcastSmPdu) := by
  have hcommand : extractCommandId (decodedValue broadcastSmPdu) = some .broadcastSm := by
    decide +kernel
  have hnumber : ((decodedValue broadcastSmPdu).u64Field "sequence_number").toUInt32 =
      sequenceNumberOf broadcastSmPdu := by decide +kernel
  refine ⟨toJson_of_isOk (by decide +kernel), hcommand, rfl, ?_⟩
  unfold Answered handleMessage
  rw [hcommand, hnumber]
  have hrequired : messageCommandFields (0x80000000 ||| commandIdOf broadcastSmPdu) =
      some [("message_id", none)] := rfl
  exact not_once_respond_empty hrequired (by simp) _ _

/-- A query_sm for the message `m`. -/
def querySmPdu : SMPPMessage := header 21 0x3 0 6 ++ [0x6d, 0, 0, 0, 0]

theorem answered_querySm :
    Answered plainServer anything querySmPdu (decodedValue querySmPdu) := by
  have htext : (decodedValue querySmPdu).strField "message_id" = "m" := by decide +kernel
  have hcut : Answerable plainServer anything (decodedValue querySmPdu) .querySm := by
    rw [Answerable, htext]
    exact .inl (by decide)
  exact (answered_iff plainServer anything (toJson_of_isOk (by decide +kernel))
    (by decide +kernel) rfl rfl).mpr hcut

end Requests

end SmppHerald.Responses
