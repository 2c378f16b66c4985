import SmppHerald.Accounting
import SmppHerald.HandlerCalls
import SmppHerald.HeaderLayout
import SmppHerald.Library.SingleEmission
import SmppHerald.TransactionMode

namespace SmppHerald.ServerAnswers

open SmppHerald.Buffer
open SmppHerald.ByteParser
open SmppHerald.CommandIds
open SmppHerald.EncodedLayout
open SmppHerald.FieldCodecs
open SmppHerald.HandlerCalls
open SmppHerald.HeaderLayout
open SmppHerald.Interaction
open SmppHerald.Io
open SmppHerald.Json
open SmppHerald.Message
open SmppHerald.PduFormat
open SmppHerald.ResponseEncoding
open SmppHerald.Responses
open SmppHerald.ServerConnection
open SmppHerald.ServerMessage
open SmppHerald.SingleEmission
open SmppHerald.TransactionMode

section Frames

/-- Nothing, or a header of four words whose first one is the length in 32 bits. -/
def Framed (octets : Bytes) : Prop :=
  octets = [] ∨ 16 ≤ octets.length ∧ octets.take 4 = writeU32 (UInt32.ofNat octets.length)

variable {namedTlvFields : NamedTlvFields} {message : Value} {octets : Bytes}

theorem framed_of_supplies (hencode : fromJson namedTlvFields message = .ok octets)
    {status sequenceNumber : UInt32} (hstatus : Supplies message "command_status" status)
    (hsequence : Supplies message "sequence_number" sequenceNumber) : Framed octets := by
  refine .inr ⟨?_, take_four_of_fromJson hencode⟩
  unfold fromJson at hencode
  split at hencode
  · obtain ⟨length, body, rfl⟩ := exists_header_of_encode hencode hstatus hsequence
    rw [List.length_append, length_header]
    exact Nat.le_add_right 16 _
  · cases hencode

theorem framed_response {commandId sequenceNumber status : UInt32} {fields : Map}
    (h : KeepsHeader status fields)
    (hencode : fromJson namedTlvFields (createJsonResponse commandId sequenceNumber status fields) =
      .ok octets) : Framed octets :=
  framed_of_supplies hencode (supplies_status h) (supplies_sequenceNumber h)

/-- The commands that a server forwards. -/
def isForwarded : CommandId → Bool
  | .submitSm | .dataSm | .deliverSm => true
  | _ => false

/-- The command of the message, if it has one, is one that a server forwards. -/
def Forwarded (message : Value) : Prop :=
  ∀ commandId, extractCommandId message = some commandId → isForwarded commandId = true

/-- The fewest octets that a codec writes. -/
def minSize : FieldCodec → Nat
  | .u8 | .optionalU8 _ | .cOctetStr _ => 1
  | _ => 0

theorem minSize_le_size (codec : FieldCodec) (value : Value) : minSize codec ≤ size codec value := by
  cases codec <;> simp [minSize, size]

def minFieldSize (field : CommandField) : Nat := (fieldCodecs field.1).elim 0 minSize

theorem minFieldSize_le_length {field : CommandField} {part : Bytes}
    (h : encodeField message field = .ok part) : minFieldSize field ≤ part.length := by
  rw [length_encodeField h, minFieldSize, fieldSize]
  unfold encodeField at h
  cases hcodec : fieldCodecs field.1 with
  | none => exact Nat.zero_le _
  | some codec =>
      cases hvalue : (message.get field.1).or field.2 with
      | none => simp [hcodec, hvalue] at h
      | some value => exact minSize_le_size codec value

theorem sum_minFieldSize_le {fields : List CommandField} {parts : List Bytes}
    (h : List.Forall₂ (fun field part => encodeField message field = .ok part) fields parts) :
    (fields.map minFieldSize).sum ≤ parts.flatten.length := by
  induction h with
  | nil => exact Nat.le_refl 0
  | cons hfirst _ ih =>
      rw [List.map_cons, List.sum_cons, List.flatten_cons, List.length_append]
      exact Nat.add_le_add (minFieldSize_le_length hfirst) ih

/-- The mandatory fields of a forwarded command are longer than the two words that may be missing
in its header. -/
theorem framed_of_forwarded (h : Forwarded message)
    (hencode : fromJson namedTlvFields message = .ok octets) : Framed octets := by
  refine .inr ⟨?_, take_four_of_fromJson hencode⟩
  obtain ⟨layout⟩ := exists_layout hencode
  have hsum : 8 ≤ ((mandatoryFields message).map minFieldSize).sum := by
    have hforwarded := h layout.commandId layout.command
    have htable := layout.table
    generalize mandatoryFields message = fields at htable
    cases hid : layout.commandId with
    | submitSm =>
        rw [hid] at htable
        obtain rfl : submitSmFields = fields := Option.some.inj htable
        decide
    | dataSm =>
        rw [hid] at htable
        obtain rfl : dataSmFields = fields := Option.some.inj htable
        decide
    | deliverSm =>
        rw [hid] at htable
        obtain rfl : deliverSmFields = fields := Option.some.inj htable
        decide
    | _ => simp [hid, isForwarded] at hforwarded
  have hfields := sum_minFieldSize_le layout.encodedFields
  have hlength := congrArg List.length layout.octets
  simp only [List.length_append, writeU32, length_beBytes] at hlength
  omega

theorem Forwarded.congr {message' : Value} (h : Forwarded message)
    (hsame : extractCommandId message' = extractCommandId message) : Forwarded message' := by
  rwa [Forwarded, hsame]

theorem Forwarded.asDeliverSm (h : Forwarded message) (n : UInt32) :
    Forwarded (asDeliverSm n message) := by
  cases hget : message.get "command_id" with
  | some value =>
      intro commandId hcommand
      rw [extractCommandId_asDeliverSm hget] at hcommand
      obtain rfl := Option.some.inj hcommand
      rfl
  | none =>
      apply h.congr
      apply extractCommandId_congr
      · rw [ServerMessage.asDeliverSm, Value.get_assignKey_of_ne (by decide),
          Value.get_assignKey_self, hget]
        rfl
      · exact get_asDeliverSm_of_ne (by decide) (by decide) n message

theorem Forwarded.insertSequenceNumber (h : Forwarded message) (value : Value) :
    Forwarded (message.insertKey "sequence_number" value) := by
  apply h.congr
  apply extractCommandId_congr
  · exact Value.get_insertKey_of_ne (by decide) message value
  · exact Value.get_insertKey_of_ne (by decide) message value

theorem forwarded_createSubmitSm (message : Value) (destAddr : Address) :
    Forwarded (createSubmitSmFromSubmitMulti message destAddr) := by
  have hget : (createSubmitSmFromSubmitMulti message destAddr).get "command_id" =
      some (.ofNat CommandId.submitSm.asU32.toNat) :=
    get_of_own (by simp) (by simp) (by decide)
  intro commandId hcommand
  rw [extractCommandId, hget] at hcommand
  obtain rfl : CommandId.submitSm = commandId := Option.some.inj hcommand
  rfl

end Frames

section Answers

variable {server : ServerContext} {commandId sequenceNumber : UInt32} {message : Value}
  {octets : Bytes} {messageId : String}

/-- What a handler writes or sends is framed, and what it leaves to a task of its own will be. -/
def WritesFramed : ServerCall → Prop
  | .write octets => Framed octets
  | .sendMessage _ octets => Framed octets
  | .spawnForward message => Forwarded message
  | _ => True

/-- Nothing, or the encoding of a response with this number. -/
def Response (server : ServerContext) (commandId sequenceNumber : UInt32) (octets : Bytes) : Prop :=
  octets = [] ∨ ∃ status fields, KeepsHeader status fields ∧ fromJson server.namedTlvFields
    (createJsonResponse commandId sequenceNumber status fields) = .ok octets

theorem Response.framed (h : Response server commandId sequenceNumber octets) : Framed octets := by
  rcases h with rfl | ⟨status, fields, hkeeps, hencode⟩
  · exact .inl rfl
  · exact framed_of_supplies hencode (supplies_status hkeeps) (supplies_sequenceNumber hkeeps)

abbrev Quiet : ServerCall → Prop := Silent WritesFramed writtenOctets

/-- The program writes one response at the most, whatever else it does. -/
abbrev Answers (server : ServerContext) (commandId sequenceNumber : UInt32) {α : Type}
    (p : Action α) : Prop :=
  EmitsOnce WritesFramed writtenOctets (Response server commandId sequenceNumber) p

theorem returns_encodeOrEmpty {permitted : ServerCall → Prop} {post : Bytes → Prop}
    (hempty : post [])
    (hencoded : ∀ octets, fromJson server.namedTlvFields message = .ok octets → post octets) :
    Returns permitted post (encodeOrEmpty server message) := by
  unfold encodeOrEmpty
  split
  · exact hencoded _ ‹_›
  · exact hempty
  · trivial

theorem returns_response {permitted : ServerCall → Prop} {status : UInt32} {fields : Map}
    (h : KeepsHeader status fields) :
    Returns permitted (Response server commandId sequenceNumber)
      (encodeOrEmpty server (createJsonResponse commandId sequenceNumber status fields)) :=
  returns_encodeOrEmpty (.inl rfl) fun _ hencode => .inr ⟨status, fields, h, hencode⟩

theorem answers_write (h : Response server commandId sequenceNumber octets) :
    Answers server commandId sequenceNumber (perform (.write octets)) := by
  refine EmitsOnce.perform h.framed fun value hvalue => ?_
  obtain rfl := Option.some.inj hvalue
  exact h

theorem answers_send (h : Response server commandId sequenceNumber octets) (text : String) :
    Answers server commandId sequenceNumber (send octets text) :=
  (answers_write h).before fun _ => by simp

theorem answers_encoded {status : UInt32} {fields : Map} (h : KeepsHeader status fields) {α : Type}
    {finish : Bytes → Action α}
    (hfinish : ∀ octets, Response server commandId sequenceNumber octets →
      Answers server commandId sequenceNumber (finish octets)) :
    Answers server commandId sequenceNumber
      (encodeOrEmpty server (createJsonResponse commandId sequenceNumber status fields) >>= finish) :=
  EmitsOnce.after (returns_response h) hfinish

theorem answers_respond (status : CommandStatus) {fields : Map}
    (h : KeepsHeader status.asU32 fields) (text : String) :
    Answers server commandId sequenceNumber
      (respond server commandId sequenceNumber status fields text) := by
  unfold respond
  exact answers_encoded h fun octets hoctets => answers_send hoctets text

theorem quiet_forwardMessageToClient (h : Forwarded message) :
    Calls Quiet (forwardMessageToClient server message) := by
  unfold forwardMessageToClient
  split
  · split
    · exact Calls.bind (calls_perform.mpr ⟨framed_of_forwarded h ‹_›, rfl⟩) fun _ => by simp
    · simp
  · simp

theorem framed_forwardMessageToClient (h : Forwarded message) :
    Calls WritesFramed (forwardMessageToClient server message) :=
  (quiet_forwardMessageToClient h).mono fun _ hquiet => hquiet.1

/-- The answer of a message mode is the response to the request. -/
def IsAnswer (commandId sequenceNumber : UInt32) (answer : Except Value Value) : Prop :=
  ∃ status text, answer = .ok (messageIdResponse commandId sequenceNumber status text) ∨
    answer = .error (messageIdResponse commandId sequenceNumber status text)

theorem isAnswer_ok (status : UInt32) (text : String) :
    IsAnswer commandId sequenceNumber
      (.ok (messageIdResponse commandId sequenceNumber status text)) := ⟨status, text, .inl rfl⟩

theorem isAnswer_error (status : UInt32) (text : String) :
    IsAnswer commandId sequenceNumber
      (.error (messageIdResponse commandId sequenceNumber status text)) := ⟨status, text, .inr rfl⟩

theorem returns_sendMessageInDatagramMode (h : Forwarded message) :
    Returns Quiet (IsAnswer commandId sequenceNumber)
      (sendMessageInDatagramMode commandId sequenceNumber messageId message) :=
  ⟨⟨trivial, rfl⟩, fun number => ⟨⟨h.asDeliverSm number, rfl⟩, fun _ => isAnswer_ok _ _⟩⟩

theorem returns_sendMessageInTransactionMode (h : Forwarded message) :
    Returns Quiet (IsAnswer commandId sequenceNumber)
      (sendMessageInTransactionMode server commandId sequenceNumber messageId message) := by
  unfold sendMessageInTransactionMode
  refine ⟨⟨trivial, rfl⟩, fun number => ?_⟩
  refine (quiet_forwardMessageToClient (h.asDeliverSm number)).returns.bind fun _ _ => ?_
  have hwait : Returns Quiet (fun _ => True) (perform (.waitResponse number)) :=
    ⟨⟨trivial, rfl⟩, fun _ => trivial⟩
  refine hwait.bind fun response _ => ?_
  cases response with
  | none => exact isAnswer_error _ _
  | some response =>
      simp only
      split
      · exact isAnswer_ok _ _
      · exact isAnswer_error _ _

theorem returns_storeAndForwardMessage :
    Returns Quiet (IsAnswer commandId sequenceNumber)
      (storeAndForwardMessage server commandId sequenceNumber messageId message) := by
  have hclock : Returns Quiet (fun _ => True) (perform .now) :=
    ⟨⟨trivial, rfl⟩, fun _ => trivial⟩
  have htime : ∀ time, Returns Quiet (fun _ => True) (timeOrNone time) :=
    fun time => (calls_timeOrNone time).returns
  unfold storeAndForwardMessage
  refine hclock.bind fun _ _ => (htime _).bind fun _ _ => hclock.bind fun _ _ => ?_
  split
  · exact isAnswer_error _ _
  · refine hclock.bind fun _ _ => (htime _).bind fun _ _ => hclock.bind fun _ _ => ?_
    split
    · exact isAnswer_error _ _
    · split
      · exact isAnswer_error _ _
      · refine ⟨⟨trivial, rfl⟩, fun saved => ?_⟩
        cases saved with
        | ok value => exact isAnswer_ok _ _
        | err e => exact isAnswer_error _ _
        | panicked => trivial

theorem returns_submitInMode (h : Forwarded message) (messageMode : MessageMode) :
    Returns Quiet
      (fun answer => ∀ answer', answer = some answer' → IsAnswer commandId sequenceNumber answer')
      (submitInMode server messageMode commandId sequenceNumber messageId message) := by
  have hsome : ∀ {p : Action (Except Value Value)},
      Returns Quiet (IsAnswer commandId sequenceNumber) p →
      Returns Quiet
        (fun answer => ∀ answer', answer = some answer' → IsAnswer commandId sequenceNumber answer')
        (p >>= fun answer => pure (some answer)) := by
    intro p hp
    refine hp.bind fun answer hanswer => ?_
    intro answer' heq
    obtain rfl := Option.some.inj heq
    exact hanswer
  cases messageMode with
  | datagram => exact hsome (returns_sendMessageInDatagramMode h)
  | transaction => exact hsome (returns_sendMessageInTransactionMode h)
  | storeAndForward => exact hsome returns_storeAndForwardMessage
  | default => exact fun answer' heq => by cases heq

theorem quiet_submitCopyInMode (h : Forwarded message) (messageMode : MessageMode) :
    Calls Quiet
      (submitCopyInMode server messageMode commandId sequenceNumber messageId message) := by
  cases messageMode with
  | datagram => exact (returns_sendMessageInDatagramMode h).calls
  | transaction => exact (returns_sendMessageInTransactionMode h).calls
  | storeAndForward => exact returns_storeAndForwardMessage.calls
  | default => exact returns_storeAndForwardMessage.calls

theorem returns_processLocal (message : Value) :
    Returns Quiet
      (fun result => ∀ octets, result = .ok octets → Response server commandId sequenceNumber octets)
      (processLocalDataSubmitMessage server commandId sequenceNumber message) := by
  have hlocal : Returns Quiet
      (fun response => ∃ status fields, KeepsHeader status fields ∧
        response = createJsonResponse commandId sequenceNumber status fields)
      (localResponse commandId sequenceNumber message) := by
    unfold localResponse
    refine ⟨⟨trivial, rfl⟩, fun reply => ?_⟩
    cases reply with
    | ok value => exact ⟨_, _, keepsHeader_replyFields value, rfl⟩
    | error e => exact ⟨⟨trivial, rfl⟩, fun messageId => ⟨_, _, by simp [KeepsHeader], rfl⟩⟩
  unfold processLocalDataSubmitMessage
  refine hlocal.bind ?_
  rintro response ⟨status, fields, hkeeps, rfl⟩
  split
  · rename_i encoded hencoded
    intro octets hoctets
    obtain rfl := Except.ok.inj hoctets
    exact .inr ⟨status, fields, hkeeps, hencoded⟩
  · trivial
  · refine ⟨⟨trivial, rfl⟩, fun messageId => ?_⟩
    refine (returns_response ?_).bind ?_
    · simp [KeepsHeader]
    · intro octets hoctets _ heq
      obtain rfl := Except.ok.inj heq
      exact hoctets

theorem answers_handleDataSubmitSm (h : Forwarded message) :
    Answers server commandId sequenceNumber
      (handleDataSubmitSm server commandId sequenceNumber message) := by
  unfold handleDataSubmitSm
  refine EmitsOnce.perform_bind ⟨trivial, rfl⟩ fun messageId => ?_
  split
  · trivial
  · trivial
  · rename_i replaced hreplaced
    refine EmitsOnce.perform_bind ⟨trivial, rfl⟩ fun number => ?_
    simp only
    split
    · refine EmitsOnce.after (returns_processLocal _) fun result hresult => ?_
      cases result with
      | ok octets => exact answers_send (hresult octets rfl) _
      | error e => trivial
    · have hforwarded :=
        (h.congr (Accounting.extractCommandId_prepared hreplaced)).insertSequenceNumber
          (.ofNat number.toNat)
      refine EmitsOnce.after (returns_submitInMode hforwarded _) fun answer hanswer => ?_
      obtain ⟨status, text, hresponse⟩ : ∃ status text,
          submitResponse commandId sequenceNumber messageId.text answer =
            messageIdResponse commandId sequenceNumber status text := by
        cases answer with
        | none => exact ⟨_, _, rfl⟩
        | some answer =>
            obtain ⟨status, text, rfl | rfl⟩ := hanswer answer rfl
            · exact ⟨status, text, rfl⟩
            · exact ⟨status, text, rfl⟩
      rw [hresponse]
      exact answers_encoded (by simp [KeepsHeader]) fun octets hoctets => answers_send hoctets _

theorem quiet_submitToDestination (messageMode : MessageMode) (message : Value)
    (destAddr : Address) :
    Calls Quiet
      (submitToDestination server commandId sequenceNumber messageId messageMode message
        destAddr) := by
  unfold submitToDestination
  refine Calls.bind (calls_perform.mpr ⟨trivial, rfl⟩) fun number => ?_
  simp only
  split
  · refine (returns_processLocal _).calls.bind fun result => ?_
    cases result <;> simp
  · refine (quiet_submitCopyInMode ?_ messageMode).bind fun answer => ?_
    · exact (forwarded_createSubmitSm message destAddr).insertSequenceNumber _
    · cases answer <;> simp

theorem quiet_submitToDestinations (messageMode : MessageMode) (message : Value)
    (addresses : List Address) :
    Calls Quiet
      (submitToDestinations server commandId sequenceNumber messageId messageMode message
        addresses) := by
  induction addresses with
  | nil => simp [submitToDestinations]
  | cons destAddr rest ih =>
      unfold submitToDestinations
      refine (quiet_submitToDestination messageMode message destAddr).bind fun failed => ?_
      exact ih.bind fun failedAddresses => by simp

theorem answers_handleSubmitMulti (message : Value) :
    Answers server CommandId.submitMulti.asU32 sequenceNumber
      (handleSubmitMulti server CommandId.submitMulti.asU32 sequenceNumber message) := by
  unfold handleSubmitMulti
  refine EmitsOnce.perform_bind ⟨trivial, rfl⟩ fun messageId => ?_
  simp only
  split
  · trivial
  · trivial
  · refine EmitsOnce.after (quiet_submitToDestinations _ _ _).returns fun failedAddresses _ => ?_
    refine answers_encoded (by simp [KeepsHeader]) fun octets hoctets => ?_
    refine (answers_write hoctets).before fun written => ?_
    cases written <;> simp

theorem answers_handleBindRequest (message : Value) :
    Answers server commandId sequenceNumber
      (handleBindRequest server commandId sequenceNumber message) := by
  have hanswer : ∀ systemId statusCode, Answers server commandId sequenceNumber
      (answerBind server commandId sequenceNumber systemId statusCode) := by
    intro systemId statusCode
    unfold answerBind
    refine answers_encoded (by simp [KeepsHeader]) fun octets hoctets => ?_
    split
    · exact EmitsOnce.perform_bind ⟨trivial, rfl⟩ fun _ => answers_send hoctets _
    · exact answers_send hoctets _
  unfold handleBindRequest
  refine EmitsOnce.before ?_ fun result => ?_
  · unfold handleBind
    exact EmitsOnce.perform_bind ⟨trivial, rfl⟩ fun _ => hanswer _ _
  · cases result with
    | error e => simp
    | ok value => exact Calls.bind (calls_perform.mpr ⟨trivial, rfl⟩) fun _ => by simp

theorem answers_handleUnbind :
    Answers server commandId sequenceNumber (handleUnbind server commandId sequenceNumber) := by
  unfold handleUnbind
  refine (answers_respond .esmeRok (by simp [KeepsHeader]) _).before fun written => ?_
  cases written with
  | error e => simp
  | ok value => exact Calls.bind (calls_perform.mpr ⟨trivial, rfl⟩) fun _ => by simp

theorem answers_handleMessage {commandId : CommandId}
    (hcommand : extractCommandId message = some commandId) :
    Answers server commandId.asU32 (message.u64Field "sequence_number").toUInt32
      (handleMessage server message) := by
  have hrespond : ∀ (status : CommandStatus) (text : String),
      Answers server commandId.asU32 (message.u64Field "sequence_number").toUInt32
        (respond server commandId.asU32 (message.u64Field "sequence_number").toUInt32 status []
          text) :=
    fun status text => answers_respond status (by simp [KeepsHeader]) text
  have hforwarded : isForwarded commandId = true → Forwarded message := by
    intro his commandId' hcommand'
    rw [hcommand] at hcommand'
    obtain rfl := Option.some.inj hcommand'
    exact his
  have hdecided : ∀ result : Outcome Bool, Returns Quiet (fun _ => True) (trueOrFalse result) :=
    fun result => (calls_trueOrFalse result).returns
  unfold handleMessage
  simp only [hcommand]
  cases commandId with
  | bindTransmitter => exact answers_handleBindRequest message
  | bindReceiver => exact answers_handleBindRequest message
  | bindTransceiver => exact answers_handleBindRequest message
  | unbind => exact answers_handleUnbind
  | submitSm => exact answers_handleDataSubmitSm (hforwarded rfl)
  | dataSm => exact answers_handleDataSubmitSm (hforwarded rfl)
  | submitMulti => exact answers_handleSubmitMulti message
  | cancelSm =>
      exact EmitsOnce.perform_bind ⟨trivial, rfl⟩ fun _ =>
        EmitsOnce.after (hdecided _) fun _ _ => hrespond _ _
  | replaceSm =>
      exact EmitsOnce.perform_bind ⟨trivial, rfl⟩ fun _ =>
        EmitsOnce.after (hdecided _) fun _ _ => hrespond _ _
  | querySm => exact answers_respond .esmeRQueryFail (by simp [KeepsHeader]) _
  | broadcastSm => exact hrespond _ _
  | queryBroadcastSm => exact hrespond _ _
  | cancelBroadcastSm => exact hrespond _ _
  | enquireLink => exact hrespond _ _
  | enquireLinkResp => trivial
  | deliverSmResp =>
      exact EmitsOnce.of_silent (Calls.bind (calls_perform.mpr ⟨trivial, rfl⟩) fun _ => by simp)
  | _ =>
      simp only
      split
      · exact hrespond _ _
      · trivial

/-- Whatever message a handler gets, the octets that it puts on a socket are framed. -/
theorem framed_handleMessage (message : Value) :
    Calls WritesFramed (handleMessage server message) := by
  cases hcommand : extractCommandId message with
  | none => simp [handleMessage, hcommand]
  | some commandId => exact (answers_handleMessage hcommand).calls

end Answers

end SmppHerald.ServerAnswers
