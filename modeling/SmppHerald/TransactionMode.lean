import SmppHerald.ClientConnection
import SmppHerald.HandlerCalls

namespace SmppHerald.TransactionMode

open SmppHerald.Buffer
open SmppHerald.ClientConnection (getCommandId)
open SmppHerald.CommandIds
open SmppHerald.FieldCodecs
open SmppHerald.HandlerCalls
open SmppHerald.Interaction
open SmppHerald.Io
open SmppHerald.Json
open SmppHerald.Message
open SmppHerald.PduFormat
open SmppHerald.ResponseEncoding
open SmppHerald.ServerConnection
open SmppHerald.ServerMessage

section Messages

/-- The status of the message is in range, and there is a sequence number to replace. -/
structure Headed (message : Value) : Prop where
  status : ∃ status, Supplies message "command_status" status
  sequenceNumber : (message.get "sequence_number").isSome = true

variable {message : Value}

theorem Headed.of_get (h : Headed message) {message' : Value}
    (hstatus : message'.get "command_status" = message.get "command_status")
    (hsequence : (message'.get "sequence_number").isSome = true) : Headed message' := by
  obtain ⟨status, hsupplies⟩ := h.status
  refine ⟨⟨status, ?_⟩, hsequence⟩
  rw [Supplies, hstatus]
  exact hsupplies

theorem headed_of_toJson {pdu : SMPPMessage} (h : toJson pdu = .ok message) : Headed message := by
  obtain ⟨decoded, rfl⟩ := DecodedMessage.exists_decoded h
  have hstatus : decoded.value.get "command_status" = some (.ofNat decoded.commandStatus.toNat) :=
    decoded.get_header (by simp [headerEntries])
  have hsequence : decoded.value.get "sequence_number" =
      some (.ofNat decoded.sequenceNumber.toNat) :=
    decoded.get_header (by simp [headerEntries])
  refine ⟨⟨decoded.commandStatus, ?_⟩, by simp [hsequence]⟩
  rw [Supplies, hstatus]
  rfl

theorem Headed.assignKey (h : Headed message) {key : String} (hstatus : "command_status" ≠ key)
    (hsequence : "sequence_number" ≠ key) (value : Value) : Headed (message.assignKey key value) := by
  apply h.of_get
  · exact Value.get_assignKey_of_ne hstatus message value
  · rw [Value.get_assignKey_of_ne hsequence]
    exact h.sequenceNumber

theorem Headed.replaceSmDefaultMsgId (h : Headed message) {config : ServerConfig}
    {replaced : Value}
    (hreplaced : replaceSmDefaultMsgIdWithPredefinedMessage config message = .ok replaced) :
    Headed replaced := by
  rcases replaceSmDefaultMsgId_ok hreplaced with rfl | rfl | ⟨text, rfl⟩
  · exact h
  · exact h.assignKey (by decide) (by decide) _
  · exact (h.assignKey (by decide) (by decide) _).assignKey (by decide) (by decide) _

theorem Headed.setServiceType (h : Headed message) (config : ServerConfig) :
    Headed (setServiceType config message) := by
  unfold ServerMessage.setServiceType
  split
  · exact h.assignKey (by decide) (by decide) _
  · exact h

theorem Headed.insertSequenceNumber (h : Headed message) (value : Value) :
    Headed (message.insertKey "sequence_number" value) := by
  apply h.of_get
  · exact Value.get_insertKey_of_ne (by decide) message value
  · obtain ⟨-, hsequence⟩ := h
    cases message with
    | object map => rw [Value.get_insertKey_self, Option.isSome_some]
    | _ => simp [Value.get] at hsequence

theorem headed_createSubmitSm (message : Value) (destAddr : Address) :
    Headed (createSubmitSmFromSubmitMulti message destAddr) := by
  constructor
  · refine ⟨0, ?_⟩
    have hget : (createSubmitSmFromSubmitMulti message destAddr).get "command_status" =
        some (.ofNat 0) := get_of_own (by simp) (by simp) (by decide)
    rw [Supplies, hget]
    rfl
  · have hmem : ("sequence_number", (message.get "sequence_number").getD (.ofNat 0)) ∈
        ([("command_id", .ofNat CommandId.submitSm.asU32.toNat),
          ("sequence_number", (message.get "sequence_number").getD (.ofNat 0)),
          ("command_status", .ofNat 0),
          ("dest_addr_ton", .ofNat destAddr.ton.toNat),
          ("dest_addr_npi", .ofNat destAddr.npi.toNat),
          ("destination_addr", .string destAddr.address)] : Map) ++
        submitMultiFields.filterMap fun field =>
          (message.get field).map fun value => (field, value) := by simp
    obtain ⟨value, hvalue⟩ := lookup_insertAll_isSome hmem
    rw [Option.isSome_iff_exists]
    exact ⟨value, hvalue⟩

theorem sequenceNumberOf_asDeliverSm (h : Headed message) {namedTlvFields : NamedTlvFields}
    {n : UInt32} {octets : SMPPMessage}
    (hencode : fromJson namedTlvFields (asDeliverSm n message) = .ok octets) :
    sequenceNumberOf octets = n := by
  obtain ⟨status, hstatus⟩ := h.status
  obtain ⟨value, hvalue⟩ := Option.isSome_iff_exists.mp h.sequenceNumber
  have hsupplies : Supplies (asDeliverSm n message) "command_status" status := by
    rw [Supplies, get_asDeliverSm_of_ne (by decide) (by decide)]
    exact hstatus
  have hsequence : Supplies (asDeliverSm n message) "sequence_number" n := by
    rw [Supplies, asDeliverSm, Value.get_assignKey_self, Value.get_assignKey_of_ne (by decide),
      hvalue]
    rfl
  unfold fromJson at hencode
  split at hencode
  · obtain ⟨length, body, rfl⟩ := exists_header_of_encode hencode hsupplies hsequence
    exact sequenceNumberOf_header _ _ _ _ _
  · simp at hencode

end Messages

section Waiting

/-- After a message has been sent to a client, the response to it is waited for. -/
def followUp : ServerCall → Option ServerCall
  | .sendMessage _ octets => some (.waitResponse (sequenceNumberOf octets))
  | _ => none

variable {server : ServerContext} {message : Value}

/-- A message is forwarded, and what follows begins with the wait for its response. -/
theorem follows_forwardMessageToClient {α : Type} {n : UInt32} (h : Headed message)
    {next : Option Value → Action α} (hnext : ∀ response, Follows followUp none (next response)) :
    Follows followUp none (forwardMessageToClient server (asDeliverSm n message) >>=
      fun _ => perform (.waitResponse n) >>= next) := by
  unfold forwardMessageToClient
  split
  · split
    · rename_i hencode
      refine ⟨by simp, fun reply => ⟨following_allows_some.mpr ?_, hnext⟩⟩
      rw [sequenceNumberOf_asDeliverSm h hencode]
    · rfl
  · exact ⟨by simp, hnext⟩

theorem follows_sendMessageInTransactionMode (h : Headed message)
    (commandId sequenceNumber : UInt32) (messageId : String) :
    Follows followUp none
      (sendMessageInTransactionMode server commandId sequenceNumber messageId message) := by
  unfold sendMessageInTransactionMode
  refine ⟨by simp, fun n => follows_forwardMessageToClient h ?_⟩
  intro response
  cases response with
  | none => rfl
  | some response =>
      simp only
      split <;> rfl

theorem permitsHandover_unfollowed : PermitsHandover fun c => followUp c = none :=
  ⟨rfl, rfl, fun _ => rfl, fun _ _ => rfl, fun _ => rfl, rfl⟩

theorem follows_sendMessageInDatagramMode (commandId sequenceNumber : UInt32)
    (messageId : String) (message : Value) :
    Follows followUp none
      (sendMessageInDatagramMode commandId sequenceNumber messageId message) :=
  (calls_sendMessageInDatagramMode permitsHandover_unfollowed.nextSequenceNumber
    permitsHandover_unfollowed.spawnForward _ _ _ _).follows

theorem follows_storeAndForwardMessage (commandId sequenceNumber : UInt32) (messageId : String)
    (message : Value) :
    Follows followUp none
      (storeAndForwardMessage server commandId sequenceNumber messageId message) :=
  (calls_storeAndForwardMessage permitsHandover_unfollowed.now permitsHandover_unfollowed.save _ _ _
    _).follows

theorem follows_submitInMode (h : Headed message) (messageMode : MessageMode)
    (commandId sequenceNumber : UInt32) (messageId : String) :
    Follows followUp none
      (submitInMode server messageMode commandId sequenceNumber messageId message) := by
  cases messageMode with
  | datagram => exact (follows_sendMessageInDatagramMode _ _ _ _).bind fun _ => rfl
  | transaction => exact (follows_sendMessageInTransactionMode h _ _ _).bind fun _ => rfl
  | storeAndForward => exact (follows_storeAndForwardMessage _ _ _ _).bind fun _ => rfl
  | default => rfl

theorem follows_submitCopyInMode (h : Headed message) (messageMode : MessageMode)
    (commandId sequenceNumber : UInt32) (messageId : String) :
    Follows followUp none
      (submitCopyInMode server messageMode commandId sequenceNumber messageId message) := by
  cases messageMode with
  | datagram => exact follows_sendMessageInDatagramMode _ _ _ _
  | transaction => exact follows_sendMessageInTransactionMode h _ _ _
  | storeAndForward => exact follows_storeAndForwardMessage _ _ _ _
  | default => exact follows_storeAndForwardMessage _ _ _ _

theorem follows_submitToDestination (commandId sequenceNumber : UInt32) (messageId : String)
    (messageMode : MessageMode) (message : Value) (destAddr : Address) :
    Follows followUp none (submitToDestination server commandId sequenceNumber messageId messageMode
      message destAddr) := by
  unfold submitToDestination
  refine ⟨by simp, fun newSequenceNumber => ?_⟩
  change Follows followUp none (ite _ _ _)
  split
  · refine (calls_processLocalDataSubmitMessage permitsHandover_unfollowed _ _ _).follows.bind
      fun response => ?_
    rcases response with e | octets <;> rfl
  · have hheaded := (headed_createSubmitSm message destAddr).insertSequenceNumber
      (.ofNat newSequenceNumber.toNat)
    refine (follows_submitCopyInMode hheaded _ _ _ _).bind fun response => ?_
    rcases response with e | response <;> rfl

theorem follows_submitToDestinations (commandId sequenceNumber : UInt32) (messageId : String)
    (messageMode : MessageMode) (message : Value) (addresses : List Address) :
    Follows followUp none (submitToDestinations server commandId sequenceNumber messageId
      messageMode message addresses) := by
  induction addresses with
  | nil => rfl
  | cons destAddr rest ih =>
      exact (follows_submitToDestination _ _ _ _ _ _).bind fun failed =>
        ih.bind fun failedAddresses => rfl

theorem follows_handleDataSubmitSm (h : Headed message) (commandId sequenceNumber : UInt32) :
    Follows followUp none (handleDataSubmitSm server commandId sequenceNumber message) := by
  unfold handleDataSubmitSm
  cases hreplaced : replaceSmDefaultMsgIdWithPredefinedMessage server.config message with
  | panicked => exact ⟨by simp, fun _ => rfl⟩
  | err e => exact ⟨by simp, fun _ => rfl⟩
  | ok replaced =>
      refine ⟨by simp, fun messageId => ?_⟩
      refine ⟨following_allows_none followUp _, fun newSequenceNumber => ?_⟩
      have hheaded := ((h.replaceSmDefaultMsgId hreplaced).setServiceType
        server.config).insertSequenceNumber (.ofNat newSequenceNumber.toNat)
      change Follows followUp none (ite _ _ _)
      split
      · refine (calls_processLocalDataSubmitMessage permitsHandover_unfollowed _ _ _).follows.bind
          fun response => ?_
        rcases response with e | octets
        · rfl
        · exact (calls_send (fun _ => rfl) _ _).follows
      · refine (follows_submitInMode hheaded _ _ _ _).bind fun response => ?_
        exact (calls_encodeOrEmpty _).follows.bind fun data =>
          (calls_send (fun _ => rfl) _ _).follows

theorem follows_handleSubmitMulti (commandId sequenceNumber : UInt32) (message : Value) :
    Follows followUp none (handleSubmitMulti server commandId sequenceNumber message) := by
  unfold handleSubmitMulti
  cases replaceSmDefaultMsgIdWithPredefinedMessage server.config message with
  | panicked => exact ⟨by simp, fun _ => rfl⟩
  | err e => exact ⟨by simp, fun _ => rfl⟩
  | ok replaced =>
      refine ⟨by simp, fun messageId => ?_⟩
      refine (follows_submitToDestinations _ _ _ _ _ _).bind fun failedAddresses => ?_
      refine (calls_encodeOrEmpty _).follows.bind fun data => ⟨by simp, fun written => ?_⟩
      rcases written with e | - <;> rfl

theorem follows_handleMessage {pdu : SMPPMessage} (h : toJson pdu = .ok message) :
    Follows followUp none (handleMessage server message) := by
  have hheaded := headed_of_toJson h
  have hrespond := @calls_respond server (fun c => followUp c = none) fun _ => rfl
  by_cases hsubmits : ∃ commandId, extractCommandId message = some commandId ∧
      submits commandId = true
  · obtain ⟨commandId, hcommand, his⟩ := hsubmits
    unfold handleMessage
    simp only [hcommand]
    cases commandId with
    | submitSm => exact follows_handleDataSubmitSm hheaded _ _
    | dataSm => exact follows_handleDataSubmitSm hheaded _ _
    | submitMulti => exact follows_handleSubmitMulti _ _ _
    | cancelSm =>
        refine ⟨by simp, fun result => Calls.follows ?_⟩
        exact (calls_trueOrFalse _).bind fun _ => hrespond _ _ _ _ _
    | replaceSm =>
        refine ⟨by simp, fun result => Calls.follows ?_⟩
        exact (calls_trueOrFalse _).bind fun _ => hrespond _ _ _ _ _
    | _ => simp [submits] at his
  · have hsession : PermitsSession fun c => followUp c = none := ⟨rfl, fun _ => rfl, rfl⟩
    apply Calls.follows
    refine calls_handleMessage hsession (fun _ => rfl) ?_ ?_
    · exact fun _ _ _ => ⟨fun _ _ => rfl, rfl⟩
    · exact fun commandId hcommand his => absurd ⟨commandId, hcommand, his⟩ hsubmits

end Waiting

section Responding

variable {server : ServerContext}

/-- The only responses that are passed on while a message is handled are the message itself, under
its number, if it is a deliver_sm_resp. -/
def PassesOn (message : Value) : ServerCall → Prop
  | .responseReceived sequenceNumber response =>
      sequenceNumber = (message.u64Field "sequence_number").toUInt32 ∧ response = message ∧
        extractCommandId message = some .deliverSmResp
  | _ => True

theorem passesOn_handleMessage (message : Value) :
    Calls (PassesOn message) (handleMessage server message) := by
  have hsubmission : PermitsSubmission (PassesOn message) :=
    ⟨⟨⟨trivial, trivial, fun _ => trivial, fun _ _ => trivial, fun _ => trivial, trivial⟩,
      fun _ _ => trivial, fun _ => trivial⟩, fun _ => trivial⟩
  refine calls_handleMessage ⟨trivial, fun _ => trivial, trivial⟩ ?_ ?_ ?_
  · exact fun hcommand => ⟨rfl, rfl, hcommand⟩
  · exact fun _ _ _ => ⟨fun _ _ => trivial, trivial⟩
  · exact fun _ _ _ => ⟨hsubmission, trivial, trivial⟩

end Responding

section Rest

/-- `SmscServer::handle_rest_request`: a deliver_sm is sent as it is, with the number it came
with. -/
def handleRestRequest (server : ServerContext) (payload : Value) : Action Value := do
  match fromJson server.namedTlvFields payload with
  | .ok smppMessage => do
      let commandId := (getCommandId smppMessage).bind CommandId.fromU32
      if commandId = some .deliverSm then do
        let destAddress := ((payload.get "destination_addr").bind Value.asStr).getD "unknown"
        -- a failure to send is logged and forgotten
        let _ ← perform (.sendMessage destAddress smppMessage)
        return restResult "ok" "SMPP message received"
      else return restResult "ok" "SMPP message received"
  | .err e => return restResult "error" ("Failed to decode SMPP message: " ++ e.message)
  | .panicked => .panic
where
  restResult (status message : String) : Value :=
    .object (insertAll [("status", .string status), ("message", .string message)] [])

end Rest

end SmppHerald.TransactionMode
