import SmppHerald.Accounting
import SmppHerald.ClientConnection

namespace SmppHerald.HandlerResponses

open SmppHerald.Accounting (Log ownServer)
open SmppHerald.Buffer
open SmppHerald.ByteParser
open SmppHerald.ClientConnection (commandStatusOf)
open SmppHerald.CommandIds
open SmppHerald.ConnectionRun (agreeing)
open SmppHerald.DecodedMessage
open SmppHerald.Encodability
open SmppHerald.EncodedLayout
open SmppHerald.FieldCodecs
open SmppHerald.HandlerCalls
open SmppHerald.Interaction
open SmppHerald.Io
open SmppHerald.Json
open SmppHerald.Message
open SmppHerald.PduFormat
open SmppHerald.ResponseEncoding
open SmppHerald.Responses
open SmppHerald.ServerConnection
open SmppHerald.ServerMessage

section Statuses

/-- The command_status of a PDU. -/
def statusOf (pdu : SMPPMessage) : UInt32 := wordAt 8 pdu

theorem statusOf_header (length commandId commandStatus sequenceNumber : UInt32) (body : Bytes) :
    statusOf (header length commandId commandStatus sequenceNumber ++ body) = commandStatus := by
  rw [header, List.append_assoc, List.append_assoc]
  exact wordAt_append (by simp [writeU32]) _ _

variable {commandId sequenceNumber status : UInt32} {fields : Map}
  {namedTlvFields : NamedTlvFields} {responseFields : List CommandField}

theorem statusOf_response {octets : SMPPMessage}
    (hresponse : messageCommandFields (0x80000000 ||| commandId) = some responseFields)
    (h : KeepsHeader status fields)
    (hencode : fromJson namedTlvFields
      (createJsonResponse commandId sequenceNumber status fields) = .ok octets) :
    statusOf octets = status := by
  rw [fromJson_response hresponse h] at hencode
  obtain ⟨length, body, rfl⟩ :=
    exists_header_of_encode hencode (supplies_status h) (supplies_sequenceNumber h)
  exact statusOf_header _ _ _ _ _

end Statuses

section Answers

/-- The message id of the answer can be cut to its field, and every TLV is a value of its codec. -/
def ReplyEncodable (value : Value) : Prop :=
  Truncatable 65 (value.strField "message_id") ∧
    ∀ codec ∈ createTlvFields, ∀ tlv,
      (Value.object (insertAll (replyFields value) [])).get codec.name = some tlv →
        Encodable codec.valueCodec tlv

/-- The response with everything that the handler answered. -/
def fullResponse (commandId sequenceNumber : UInt32) (value : Value) : Value :=
  createJsonResponse commandId sequenceNumber (commandStatusOf (.ok value)) (replyFields value)

variable {commandId sequenceNumber status : UInt32} {namedTlvFields : NamedTlvFields}

theorem encodes_reply_iff
    (hresponse : messageCommandFields (0x80000000 ||| commandId) = some [("message_id", none)])
    (value : Value) :
    (∃ octets, fromJson namedTlvFields (createJsonResponse commandId sequenceNumber status
      (replyFields value)) = .ok octets) ↔ ReplyEncodable value := by
  have hlookup : (replyFields value).reverse.lookup "message_id" =
      some (.string (value.strField "message_id")) := by
    rw [← get_response_field (by decide)]
    exact @get_handlerResponse_messageId commandId sequenceNumber value
  have hget : (createJsonResponse commandId sequenceNumber status (replyFields value)).get
      "message_id" = some (.string (value.strField "message_id")) := by
    rw [get_response_field (by decide), hlookup]
  rw [encodes_response_iff hresponse (keepsHeader_replyFields value), List.forall_mem_singleton,
    encodeField_text_iff rfl hget, ReplyEncodable]
  refine and_congr Iff.rfl (forall₂_congr fun codec hcodec => ?_)
  rw [encodeTlvField_ok_iff, get_response_field (tlvName_notMem_headerNames hcodec), Value.get,
    lookup_insertAll, List.lookup_nil, Option.or_none]
  simp only [encode_ok_iff (flat_of_mem_createTlvFields hcodec)]

end Answers

section Runs

variable {server : ServerContext} {commandId sequenceNumber : UInt32} {message : Value}

/-- What was sent to the ESME. -/
def written (log : Log) : List Bytes := log.filterMap fun event => writtenOctets event.1

def isRequest : ServerCall → Bool
  | .handleRequest _ => true
  | _ => false

/-- The response that takes the place of one that is refused. -/
def refusedResponse (commandId sequenceNumber : UInt32) (messageId : MessageId) : Value :=
  createJsonResponse commandId sequenceNumber CommandStatus.esmeRUnknownErr.asU32
    [("message_id", .string messageId.text),
     ("command_status", .ofNat CommandStatus.esmeRUnknownErr.asU32.toNat)]

theorem keepsHeader_refused (messageId : MessageId) :
    KeepsHeader CommandStatus.esmeRUnknownErr.asU32
      [("message_id", .string messageId.text),
       ("command_status", .ofNat CommandStatus.esmeRUnknownErr.asU32.toNat)] := by
  simp [KeepsHeader]

/-- What is sent when the handler has answered: its answer with the status zero, or the response
that takes its place; nothing when a text of the answer cannot be cut. -/
inductive Sent (server : ServerContext) (commandId sequenceNumber : UInt32) (value : Value) :
    List Bytes → Prop
  | answer {octets : Bytes} : fromJson server.namedTlvFields
      (handlerResponse commandId sequenceNumber value) = .ok octets → Sent server _ _ value [octets]
  | refused {e : IoError} {messageId : MessageId} {octets : Bytes} :
      fromJson server.namedTlvFields (handlerResponse commandId sequenceNumber value) = .err e →
      fromJson server.namedTlvFields (refusedResponse commandId sequenceNumber messageId) =
        .ok octets → Sent server _ _ value [octets]
  | panicked : fromJson server.namedTlvFields (handlerResponse commandId sequenceNumber value) =
      .panicked → Sent server _ _ value []

theorem run_localResponse {log : Log} {result : Option Value}
    (hrun : Run (localResponse commandId sequenceNumber message) log result) :
    (∃ value, log = [⟨.handleRequest message, .ok value⟩] ∧
      result = some (handlerResponse commandId sequenceNumber value)) ∨
    ∃ e messageId response, log = [⟨.handleRequest message, .error e⟩, ⟨.generateId, messageId⟩] ∧
      result = some response := by
  obtain ⟨reply, rest, rfl, hrest⟩ := (run_perform_bind_iff _ _ _ _).mp hrun
  cases reply with
  | ok value =>
      obtain ⟨rfl, rfl⟩ := (run_pure_iff _ _ _).mp hrest
      exact .inl ⟨value, rfl, rfl⟩
  | error e =>
      obtain ⟨messageId, last, rfl, hlast⟩ := (run_perform_bind_iff _ _ _ _).mp hrest
      obtain ⟨rfl, rfl⟩ := (run_pure_iff _ _ _).mp hlast
      exact .inr ⟨e, messageId, _, rfl, rfl⟩

theorem run_encodeOrEmpty_refused
    (hresponse : messageCommandFields (0x80000000 ||| commandId) = some [("message_id", none)])
    {messageId : MessageId} {log : Log} {result : Option Bytes}
    (hrun : Run (encodeOrEmpty server (refusedResponse commandId sequenceNumber messageId)) log
      result) :
    ∃ octets, fromJson server.namedTlvFields (refusedResponse commandId sequenceNumber messageId) =
      .ok octets ∧ log = [] ∧ result = some octets := by
  obtain ⟨octets, hencode⟩ : ∃ octets, fromJson server.namedTlvFields
      (refusedResponse commandId sequenceNumber messageId) = .ok octets :=
    (encodes_textField_iff hresponse (keepsHeader_refused messageId) rfl (by simp; decide)).mpr
      (truncatable_messageId messageId)
  rw [encodeOrEmpty, hencode] at hrun
  obtain ⟨rfl, rfl⟩ := (run_pure_iff _ _ _).mp hrun
  exact ⟨octets, hencode, rfl, rfl⟩

theorem run_processLocal
    (hresponse : messageCommandFields (0x80000000 ||| commandId) = some [("message_id", none)])
    {log : Log} {result : Option (Except IoError Bytes)} {request value : Value}
    (hrun : Run (processLocalDataSubmitMessage server commandId sequenceNumber message) log result)
    (hreply : ⟨.handleRequest request, .ok value⟩ ∈ log) :
    written log = [] ∧ ((∃ octets, result = some (.ok octets) ∧
      Sent server commandId sequenceNumber value [octets]) ∨
        result = none ∧ Sent server commandId sequenceNumber value []) := by
  rcases (run_bind_iff _ _ _ _).mp hrun with
    ⟨hnone, -⟩ | ⟨response, first, second, rfl, hlocal, hrest⟩
  · rcases run_localResponse hnone with ⟨_, -, hsome⟩ | ⟨_, _, _, -, hsome⟩
    · cases hsome
    · cases hsome
  -- behind the handler's reply only an id is generated
  have hsecond : ∀ event ∈ second, event.1 = .generateId := by
    refine @Calls.run _ _ _ (fun c => c = .generateId) _ ?_ _ _ hrest
    split
    · simp
    · simp
    · exact Calls.bind (calls_perform.mpr rfl) fun _ => (calls_encodeOrEmpty _).bind fun _ => by simp
  have hquiet : written second = [] := by
    refine List.filterMap_eq_nil_iff.mpr fun event hevent => ?_
    rw [hsecond event hevent]
    rfl
  have hfirst : ⟨.handleRequest request, .ok value⟩ ∈ first := by
    rcases List.mem_append.mp hreply with hfirst | hlast
    · exact hfirst
    · cases hsecond _ hlast
  rcases run_localResponse hlocal with ⟨answer, rfl, hanswer⟩ | ⟨e, messageId, _, rfl, -⟩
  · obtain ⟨rfl, rfl⟩ : request = message ∧ value = answer := by simpa using hfirst
    obtain rfl := Option.some.inj hanswer
    refine ⟨hquiet, ?_⟩
    split at hrest
    · rename_i octets hencode
      obtain ⟨-, rfl⟩ := (run_pure_iff _ _ _).mp hrest
      exact .inl ⟨octets, rfl, .answer hencode⟩
    · rename_i hpanic
      obtain ⟨-, rfl⟩ := (run_panic_iff _ _).mp hrest
      exact .inr ⟨rfl, .panicked hpanic⟩
    · rename_i e hrefused
      obtain ⟨messageId, rest, rfl, hfallback⟩ := (run_perform_bind_iff _ _ _ _).mp hrest
      rcases (run_bind_iff _ _ _ _).mp hfallback with
        ⟨hnone, -⟩ | ⟨octets, _, last, rfl, hencoded, hlast⟩
      · obtain ⟨_, -, -, hsome⟩ := run_encodeOrEmpty_refused hresponse hnone
        cases hsome
      · obtain ⟨encoded, hencode, -, hsome⟩ := run_encodeOrEmpty_refused hresponse hencoded
        obtain rfl := Option.some.inj hsome
        obtain ⟨-, rfl⟩ := (run_pure_iff _ _ _).mp hlast
        exact .inl ⟨octets, rfl, .refused hrefused hencode⟩
  · simp at hfirst

/-- What is sent when the handler has answered a submit_sm or data_sm. -/
theorem run_handleDataSubmitSm
    (hresponse : messageCommandFields (0x80000000 ||| commandId) = some [("message_id", none)])
    {log : Log} {result : Option (Except IoError Unit)} {request value : Value}
    (hrun : Run (handleDataSubmitSm server commandId sequenceNumber message) log result)
    (hreply : ⟨.handleRequest request, .ok value⟩ ∈ log) :
    Sent server commandId sequenceNumber value (written log) := by
  obtain ⟨messageId, afterId, rfl, hprepare⟩ := (run_perform_bind_iff _ _ _ _).mp hrun
  have hafterId : ⟨.handleRequest request, .ok value⟩ ∈ afterId := by simpa using hreply
  change Sent server commandId sequenceNumber value (written afterId)
  split at hprepare
  · obtain ⟨rfl, -⟩ := (run_panic_iff _ _).mp hprepare
    simp at hafterId
  · obtain ⟨rfl, -⟩ := (run_pure_iff _ _ _).mp hprepare
    simp at hafterId
  · obtain ⟨n, afterNumber, rfl, hhandle⟩ := (run_perform_bind_iff _ _ _ _).mp hprepare
    have hafterNumber : ⟨.handleRequest request, .ok value⟩ ∈ afterNumber := by
      simpa using hafterId
    change Sent server commandId sequenceNumber value (written afterNumber)
    simp only at hhandle
    split at hhandle
    · rcases (run_bind_iff _ _ _ _).mp hhandle with
        ⟨hpanic, -⟩ | ⟨processed, first, second, rfl, hlocal, hsend⟩
      · obtain ⟨hquiet, hsent⟩ := run_processLocal hresponse hpanic hafterNumber
        rw [hquiet]
        rcases hsent with ⟨_, hsome, -⟩ | ⟨-, hsent⟩
        · cases hsome
        · exact hsent
      · have hfirst : ⟨.handleRequest request, .ok value⟩ ∈ first := by
          rcases List.mem_append.mp hafterNumber with hfirst | hlast
          · exact hfirst
          · -- behind the handler's reply the answer is only written
            have hforeign : isRequest (.handleRequest request) = false := by
              cases processed with
              | ok response =>
                  have hwrites := @calls_send (fun c => isRequest c = false) (fun _ => rfl) response
                    "Failed to send response: "
                  exact hwrites.run hsend _ hlast
              | error e =>
                  obtain ⟨rfl, -⟩ := (run_pure_iff _ _ _).mp hsend
                  cases hlast
            cases hforeign
        obtain ⟨hquiet, hsent⟩ := run_processLocal hresponse hlocal hfirst
        rcases hsent with ⟨octets, hsome, hsent⟩ | ⟨hnone, -⟩
        · obtain rfl := Option.some.inj hsome
          obtain ⟨reply, last, rfl, hlast⟩ := (run_perform_bind_iff _ _ _ _).mp hsend
          obtain ⟨rfl, -⟩ := (run_pure_iff _ _ _).mp hlast
          rw [written, List.filterMap_append, ← written, hquiet]
          exact hsent
        · cases hnone
    · -- nothing is asked of the handler for another address
      have hforeign : ∀ event ∈ afterNumber, isRequest event.1 = false := by
        have hmodes : PermitsModes fun c => isRequest c = false :=
          ⟨rfl, fun _ _ => rfl, fun _ => rfl, rfl, fun _ _ => rfl, fun _ => rfl⟩
        refine @Calls.run _ _ _ (fun c => isRequest c = false) _ ?_ _ _ hhandle
        refine (calls_submitInMode hmodes _ _ _ _ _).bind fun response => ?_
        exact (calls_encodeOrEmpty _).bind fun data => calls_send (fun _ => rfl) _ _
      cases hforeign _ hafterNumber

/-- What the ESME is told: the full response whenever it can be encoded, and never that all is well
when the handler has said something else. -/
structure Reported (server : ServerContext) (commandId sequenceNumber : UInt32) (value : Value)
    (log : Log) : Prop where
  full : ∀ octets, fromJson server.namedTlvFields
    (fullResponse commandId sequenceNumber value) = .ok octets → written log = [octets]
  status : commandStatusOf (.ok value) ≠ CommandStatus.esmeRok.asU32 →
    ∀ octets ∈ written log, statusOf octets ≠ CommandStatus.esmeRok.asU32

theorem fullResponse_of_status_zero {value : Value}
    (h : commandStatusOf (.ok value) = CommandStatus.esmeRok.asU32) :
    fullResponse commandId sequenceNumber value =
      handlerResponse commandId sequenceNumber value := by
  rw [fullResponse, h, handlerResponse]

theorem written_eq_of_ok {value : Value} {octets : Bytes} {sent : List Bytes}
    (h : Sent server commandId sequenceNumber value sent)
    (hencode : fromJson server.namedTlvFields (handlerResponse commandId sequenceNumber value) =
      .ok octets) : sent = [octets] := by
  cases h with
  | answer hanswer =>
      obtain rfl := Outcome.ok.inj (hencode.symm.trans hanswer)
      rfl
  | refused hrefused _ => cases hencode.symm.trans hrefused
  | panicked hpanic => cases hencode.symm.trans hpanic

theorem statusOf_of_refused
    (hresponse : messageCommandFields (0x80000000 ||| commandId) = some [("message_id", none)])
    {value : Value} {octets : Bytes} {sent : List Bytes}
    (h : Sent server commandId sequenceNumber value sent)
    (hrefused : ¬ ∃ octets, fromJson server.namedTlvFields
      (handlerResponse commandId sequenceNumber value) = .ok octets) (hmem : octets ∈ sent) :
    statusOf octets = CommandStatus.esmeRUnknownErr.asU32 := by
  cases h with
  | answer hanswer => exact absurd ⟨_, hanswer⟩ hrefused
  | @refused _ messageId _ _ hencode =>
      obtain rfl := List.mem_singleton.mp hmem
      exact statusOf_response hresponse (keepsHeader_refused messageId) hencode
  | panicked _ => cases hmem

/-- An answer that is encoded is reported with the status zero, whatever its status is. -/
theorem status_zero_of_reported
    (hresponse : messageCommandFields (0x80000000 ||| commandId) = some [("message_id", none)])
    {log : Log} {value : Value} (hsent : Sent server commandId sequenceNumber value (written log))
    (hreported : Reported server commandId sequenceNumber value log)
    (hencodable : ReplyEncodable value) :
    commandStatusOf (.ok value) = CommandStatus.esmeRok.asU32 := by
  obtain ⟨octets, hencode⟩ := (@encodes_reply_iff commandId sequenceNumber
    CommandStatus.esmeRok.asU32 server.namedTlvFields hresponse value).mpr hencodable
  by_contra hstatus
  have hmem : octets ∈ written log := by
    rw [written_eq_of_ok hsent hencode]
    exact List.mem_singleton_self octets
  exact hreported.status hstatus octets hmem
    (statusOf_response hresponse (keepsHeader_replyFields value) hencode)

/-- The handler's answer is reported exactly when its status is zero, or when it is refused. -/
theorem reported_iff (server : ServerContext) (commandId sequenceNumber : UInt32) (message : Value)
    (log : Log) (result : Option (Except IoError Unit)) (request value : Value)
    (hcommand : commandId = CommandId.submitSm.asU32 ∨ commandId = CommandId.dataSm.asU32)
    (hrun : Run (handleDataSubmitSm server commandId sequenceNumber message) log result)
    (hreply : ⟨.handleRequest request, .ok value⟩ ∈ log) :
    Reported server commandId sequenceNumber value log ↔
      (ReplyEncodable value → commandStatusOf (.ok value) = CommandStatus.esmeRok.asU32) := by
  have hresponse : messageCommandFields (0x80000000 ||| commandId) = some [("message_id", none)] := by
    rcases hcommand with rfl | rfl <;> rfl
  have hencodes := @encodes_reply_iff commandId sequenceNumber CommandStatus.esmeRok.asU32
    server.namedTlvFields hresponse value
  have hsent := run_handleDataSubmitSm hresponse hrun hreply
  constructor
  · exact status_zero_of_reported hresponse hsent
  · intro hzero
    constructor
    · intro octets hfull
      have hstatus := hzero ((encodes_reply_iff hresponse value).mp ⟨octets, hfull⟩)
      rw [fullResponse_of_status_zero hstatus] at hfull
      exact written_eq_of_ok hsent hfull
    · intro hstatus octets hmem
      have hrefused : ¬ ∃ octets, fromJson server.namedTlvFields
          (handlerResponse commandId sequenceNumber value) = .ok octets :=
        fun hencode => hstatus (hzero (hencodes.mp hencode))
      rw [statusOf_of_refused hresponse hsent hrefused hmem]
      decide

end Runs

section Example

/-- An answer of a message handler. -/
def answerWith (status : Nat) : Value :=
  .object [("command_status", .ofNat status), ("message_id", .string "m")]

/-- Surroundings whose message handler gives that answer. -/
def answering (status : Nat) : (c : ServerCall) → Reply c
  | .handleRequest _ => .ok (answerWith status)
  | c => agreeing true c

/-- A submit_sm to an address of the server. -/
def ownMessage : Value :=
  .object [("command_id", .ofNat 4), ("destination_addr", .string "49"),
    ("short_message", .string "hi")]

/-- The run of the server when the handler gives that answer. -/
def answeredRun (status : Nat) : Log × Option (Except IoError Unit) :=
  execute (answering status) (handleDataSubmitSm ownServer 4 1 ownMessage)

/-- What the handler is asked: the sequence number is a new one. -/
def askedMessage : Value := ownMessage.insertKey "sequence_number" (.ofNat 1)

theorem asked_answeredRun (status : Nat) :
    ⟨.handleRequest askedMessage, .ok (answerWith status)⟩ ∈ (answeredRun status).1 :=
  .tail _ (.tail _ (.head _))

theorem reported_zero :
    Reported ownServer 4 1 (answerWith 0) (answeredRun 0).1 :=
  (reported_iff ownServer 4 1 ownMessage (answeredRun 0).1 (answeredRun 0).2 askedMessage
    (answerWith 0) (.inl rfl) (run_execute _ _) (asked_answeredRun 0)).mpr fun _ => rfl

/-- The handler asks the ESME to send less (status 88), and the ESME is told that all is well. -/
theorem not_reported_throttled :
    Run (handleDataSubmitSm ownServer 4 1 ownMessage) (answeredRun 88).1 (answeredRun 88).2 ∧
      ⟨.handleRequest askedMessage, .ok (answerWith 88)⟩ ∈ (answeredRun 88).1 ∧
        ¬ Reported ownServer 4 1 (answerWith 88) (answeredRun 88).1 := by
  have hrun := run_execute (answering 88) (handleDataSubmitSm ownServer 4 1 ownMessage)
  refine ⟨hrun, asked_answeredRun 88, ?_⟩
  intro hreported
  have hencode := fromJson_encoded
    (show accepted ownServer.namedTlvFields (handlerResponse 4 1 (answerWith 88)) = true by
      decide +kernel)
  have hzero := status_zero_of_reported rfl
    (run_handleDataSubmitSm rfl hrun (asked_answeredRun 88)) hreported
    ((encodes_reply_iff rfl (answerWith 88)).mp ⟨_, hencode⟩)
  revert hzero
  decide

end Example

end SmppHerald.HandlerResponses
