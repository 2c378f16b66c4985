import SmppHerald.ServerConnection

namespace SmppHerald.HandlerCalls

open SmppHerald.CommandIds
open SmppHerald.FieldCodecs
open SmppHerald.Interaction
open SmppHerald.Io
open SmppHerald.Json
open SmppHerald.Message
open SmppHerald.ServerConnection
open SmppHerald.ServerMessage

/-- The calls that only a bind makes. -/
def registers : ServerCall → Bool
  | .authenticate _ _ => true
  | .addClient _ => true
  | _ => false

/-- The calls that change the store, reach the message handler or forward a message. -/
def touchesMessages : ServerCall → Bool
  | .handleRequest _ => true
  | .save _ _ => true
  | .cancelMessage _ => true
  | .replaceMessage _ => true
  | .sendMessage _ _ => true
  | .spawnForward _ => true
  | _ => false

variable {server : ServerContext} {permitted : ServerCall → Prop}

theorem calls_encodeOrEmpty (response : Value) :
    Calls permitted (encodeOrEmpty server response) := by
  unfold encodeOrEmpty
  split <;> simp

theorem calls_send (hwrite : ∀ octets, permitted (.write octets)) (octets : ByteParser.Bytes)
    (text : String) : Calls permitted (send octets text) :=
  Calls.bind (calls_perform.mpr (hwrite octets)) fun _ => by simp

theorem calls_respond (hwrite : ∀ octets, permitted (.write octets))
    (commandId sequenceNumber : UInt32) (status : CommandStatus) (fields : Map) (text : String) :
    Calls permitted (respond server commandId sequenceNumber status fields text) := by
  unfold respond
  exact (calls_encodeOrEmpty _).bind fun data => calls_send hwrite data text

theorem calls_handleUnbind (hwrite : ∀ octets, permitted (.write octets))
    (hshutdown : permitted .shutdown) (commandId sequenceNumber : UInt32) :
    Calls permitted (handleUnbind server commandId sequenceNumber) := by
  unfold handleUnbind
  refine Calls.bind (calls_respond hwrite commandId sequenceNumber .esmeRok [] _)
    fun written => ?_
  rcases written with e | -
  · simp
  · exact Calls.bind (calls_perform.mpr hshutdown) fun _ => by simp

section Submission

/-- The calls that pass a submitted message on without waiting for its receiver are permitted. -/
structure PermitsHandover (permitted : ServerCall → Prop) : Prop where
  generateId : permitted .generateId
  nextSequenceNumber : permitted .nextSequenceNumber
  handleRequest message : permitted (.handleRequest message)
  save messageId message : permitted (.save messageId message)
  spawnForward message : permitted (.spawnForward message)
  now : permitted .now

/-- The calls that pass a submitted message on are permitted. -/
structure PermitsDelivery (permitted : ServerCall → Prop) : Prop
    extends PermitsHandover permitted where
  sendMessage address octets : permitted (.sendMessage address octets)
  waitResponse sequenceNumber : permitted (.waitResponse sequenceNumber)

/-- The calls of the three message modes are permitted. -/
structure PermitsModes (permitted : ServerCall → Prop) : Prop where
  nextSequenceNumber : permitted .nextSequenceNumber
  save messageId message : permitted (.save messageId message)
  spawnForward message : permitted (.spawnForward message)
  now : permitted .now
  sendMessage address octets : permitted (.sendMessage address octets)
  waitResponse sequenceNumber : permitted (.waitResponse sequenceNumber)

theorem PermitsDelivery.permitsModes (h : PermitsDelivery permitted) : PermitsModes permitted :=
  ⟨h.nextSequenceNumber, h.save, h.spawnForward, h.now, h.sendMessage, h.waitResponse⟩

/-- The calls that a submitted message leads to are permitted. -/
structure PermitsSubmission (permitted : ServerCall → Prop) : Prop
    extends PermitsDelivery permitted where
  write octets : permitted (.write octets)

theorem calls_forwardMessageToClient
    (hsend : ∀ address octets, permitted (.sendMessage address octets)) (decodedMessage : Value) :
    Calls permitted (forwardMessageToClient server decodedMessage) := by
  unfold forwardMessageToClient
  split
  · split
    · exact Calls.bind (calls_perform.mpr (hsend _ _)) fun _ => by simp
    · simp
  · simp

theorem calls_timeOrNone (time : Outcome Time.Instant) : Calls permitted (timeOrNone time) := by
  cases time <;> simp [timeOrNone]

theorem calls_sendMessageInDatagramMode (hnumber : permitted .nextSequenceNumber)
    (hspawn : ∀ message, permitted (.spawnForward message)) (commandId sequenceNumber : UInt32)
    (messageId : String) (decodedMessage : Value) :
    Calls permitted (sendMessageInDatagramMode commandId sequenceNumber messageId decodedMessage) :=
  Calls.bind (calls_perform.mpr hnumber) fun _ =>
    Calls.bind (calls_perform.mpr (hspawn _)) fun _ => by simp

theorem calls_storeAndForwardMessage (hnow : permitted .now)
    (hsave : ∀ messageId message, permitted (.save messageId message))
    (commandId sequenceNumber : UInt32) (messageId : String) (decodedMessage : Value) :
    Calls permitted
      (storeAndForwardMessage server commandId sequenceNumber messageId decodedMessage) := by
  have hclock : Calls permitted (perform .now) := calls_perform.mpr hnow
  unfold storeAndForwardMessage
  refine hclock.bind fun _ => (calls_timeOrNone _).bind fun _ => hclock.bind fun _ => ?_
  split
  · simp
  · refine hclock.bind fun _ => (calls_timeOrNone _).bind fun _ => hclock.bind fun _ => ?_
    split
    · simp
    · split
      · simp
      · refine Calls.bind (calls_perform.mpr (hsave _ _)) fun reply => ?_
        rcases reply with - | - | - <;> simp

section

variable (h : PermitsHandover permitted)

include h

theorem calls_localResponse (commandId sequenceNumber : UInt32) (decodedMessage : Value) :
    Calls permitted (localResponse commandId sequenceNumber decodedMessage) := by
  unfold localResponse
  refine Calls.bind (calls_perform.mpr (h.handleRequest decodedMessage)) fun reply => ?_
  rcases reply with e | value
  · exact Calls.bind (calls_perform.mpr h.generateId) fun _ => by simp
  · simp

theorem calls_processLocalDataSubmitMessage (commandId sequenceNumber : UInt32)
    (decodedMessage : Value) :
    Calls permitted
      (processLocalDataSubmitMessage server commandId sequenceNumber decodedMessage) := by
  unfold processLocalDataSubmitMessage
  refine (calls_localResponse h _ _ _).bind fun response => ?_
  split
  · simp
  · simp
  · exact Calls.bind (calls_perform.mpr h.generateId) fun _ =>
      (calls_encodeOrEmpty _).bind fun _ => by simp

end

section

variable (h : PermitsModes permitted)

include h

theorem calls_sendMessageInTransactionMode (commandId sequenceNumber : UInt32)
    (messageId : String) (decodedMessage : Value) :
    Calls permitted
      (sendMessageInTransactionMode server commandId sequenceNumber messageId decodedMessage) := by
  unfold sendMessageInTransactionMode
  refine Calls.bind (calls_perform.mpr h.nextSequenceNumber) fun _ => ?_
  refine (calls_forwardMessageToClient h.sendMessage _).bind fun _ => ?_
  refine Calls.bind (calls_perform.mpr (h.waitResponse _)) fun reply => ?_
  rcases reply with - | response
  · simp
  · simp only
    split <;> simp

theorem calls_submitInMode (messageMode : MessageMode) (commandId sequenceNumber : UInt32)
    (messageId : String) (decodedMessage : Value) :
    Calls permitted (submitInMode server messageMode commandId sequenceNumber messageId
      decodedMessage) := by
  cases messageMode with
  | datagram =>
      exact (calls_sendMessageInDatagramMode h.nextSequenceNumber h.spawnForward _ _ _ _).bind
        fun _ => by simp
  | transaction => exact (calls_sendMessageInTransactionMode h _ _ _ _).bind fun _ => by simp
  | storeAndForward =>
      exact (calls_storeAndForwardMessage h.now h.save _ _ _ _).bind fun _ => by simp
  | default => simp [submitInMode]

theorem calls_submitCopyInMode (messageMode : MessageMode) (commandId sequenceNumber : UInt32)
    (messageId : String) (submitSm : Value) :
    Calls permitted (submitCopyInMode server messageMode commandId sequenceNumber messageId
      submitSm) := by
  cases messageMode with
  | datagram => exact calls_sendMessageInDatagramMode h.nextSequenceNumber h.spawnForward _ _ _ _
  | transaction => exact calls_sendMessageInTransactionMode h _ _ _ _
  | storeAndForward => exact calls_storeAndForwardMessage h.now h.save _ _ _ _
  | default => exact calls_storeAndForwardMessage h.now h.save _ _ _ _

end

section

variable (h : PermitsDelivery permitted)

include h

theorem calls_submitToDestination (commandId sequenceNumber : UInt32) (messageId : String)
    (messageMode : MessageMode) (decodedMessage : Value) (destAddr : Address) :
    Calls permitted (submitToDestination server commandId sequenceNumber messageId messageMode
      decodedMessage destAddr) := by
  unfold submitToDestination
  refine Calls.bind (calls_perform.mpr h.nextSequenceNumber) fun newSequenceNumber => ?_
  simp only
  split
  · refine (calls_processLocalDataSubmitMessage h.toPermitsHandover _ _ _).bind fun response => ?_
    rcases response with e | octets <;> simp
  · refine (calls_submitCopyInMode h.permitsModes _ _ _ _ _).bind fun response => ?_
    rcases response with e | message <;> simp

theorem calls_submitToDestinations (commandId sequenceNumber : UInt32) (messageId : String)
    (messageMode : MessageMode) (decodedMessage : Value) (addresses : List Address) :
    Calls permitted (submitToDestinations server commandId sequenceNumber messageId messageMode
      decodedMessage addresses) := by
  induction addresses with
  | nil => simp [submitToDestinations]
  | cons destAddr rest ih =>
      exact (calls_submitToDestination h _ _ _ _ _ _).bind fun failed =>
        ih.bind fun failedAddresses => by simp

end

section

variable (h : PermitsSubmission permitted)

include h

theorem calls_handleDataSubmitSm (commandId sequenceNumber : UInt32) (decodedMessage : Value) :
    Calls permitted (handleDataSubmitSm server commandId sequenceNumber decodedMessage) := by
  unfold handleDataSubmitSm
  refine Calls.bind (calls_perform.mpr h.generateId) fun messageId => ?_
  split
  · simp
  · simp
  · refine Calls.bind (calls_perform.mpr h.nextSequenceNumber) fun newSequenceNumber => ?_
    simp only
    split
    · refine (calls_processLocalDataSubmitMessage h.toPermitsHandover _ _ _).bind fun response => ?_
      rcases response with e | octets
      · simp
      · exact calls_send h.write _ _
    · refine (calls_submitInMode h.permitsModes _ _ _ _ _).bind fun response => ?_
      exact (calls_encodeOrEmpty _).bind fun data => calls_send h.write _ _

theorem calls_handleSubmitMulti (commandId sequenceNumber : UInt32) (decodedMessage : Value) :
    Calls permitted (handleSubmitMulti server commandId sequenceNumber decodedMessage) := by
  unfold handleSubmitMulti
  refine Calls.bind (calls_perform.mpr h.generateId) fun messageId => ?_
  simp only
  split
  · simp
  · simp
  · refine (calls_submitToDestinations h.toPermitsDelivery _ _ _ _ _ _).bind
      fun failedAddresses => ?_
    refine (calls_encodeOrEmpty _).bind fun data => ?_
    refine Calls.bind (calls_perform.mpr (h.write _)) fun written => ?_
    rcases written with e | - <;> simp

end

end Submission

section Commands

def isBind : CommandId → Bool
  | .bindTransmitter | .bindReceiver | .bindTransceiver => true
  | _ => false

/-- The five requests that do something with messages. -/
def submits : CommandId → Bool
  | .submitSm | .dataSm | .submitMulti | .cancelSm | .replaceSm => true
  | _ => false

/-- The calls that any request may lead to are permitted. -/
structure PermitsSession (permitted : ServerCall → Prop) : Prop where
  startEnquireLinkTask : permitted .startEnquireLinkTask
  write octets : permitted (.write octets)
  shutdown : permitted .shutdown

theorem calls_answerBind (h : PermitsSession permitted) (commandId sequenceNumber : UInt32)
    (systemId : String) (statusCode : CommandStatus) :
    Calls permitted (answerBind server commandId sequenceNumber systemId statusCode) := by
  unfold answerBind
  refine (calls_encodeOrEmpty _).bind fun data => ?_
  split
  · exact Calls.bind (calls_perform.mpr h.startEnquireLinkTask) fun _ => calls_send h.write data _
  · exact calls_send h.write data _

theorem calls_trueOrFalse (result : Outcome Bool) : Calls permitted (trueOrFalse result) := by
  cases result <;> simp [trueOrFalse]

/-- The handlers call what any request may call, binds what a bind may call, the submitting
requests what a submission may call, and a deliver_sm_resp is passed on with its number. -/
theorem calls_handleMessage (h : PermitsSession permitted) {message : Value}
    (hresponse : extractCommandId message = some .deliverSmResp →
      permitted (.responseReceived (message.u64Field "sequence_number").toUInt32 message))
    (hbind : ∀ commandId, extractCommandId message = some commandId → isBind commandId = true →
      (∀ systemId password, permitted (.authenticate systemId password)) ∧
        permitted (.addClient (message.strField "address_range")))
    (hsubmit : ∀ commandId, extractCommandId message = some commandId →
      submits commandId = true → PermitsSubmission permitted ∧
        permitted (.cancelMessage message) ∧ permitted (.replaceMessage message)) :
    Calls permitted (handleMessage server message) := by
  have hrespond := @calls_respond server permitted h.write
  unfold handleMessage
  simp only
  cases hcommand : extractCommandId message with
  | none => simp
  | some commandId =>
      have hbindRequest : isBind commandId = true → Calls permitted (handleBindRequest server
          commandId.asU32 (message.u64Field "sequence_number").toUInt32 message) := by
        intro his
        obtain ⟨hauthenticate, hadd⟩ := hbind commandId hcommand his
        refine Calls.bind (Calls.bind (calls_perform.mpr (hauthenticate _ _)) fun _ =>
          calls_answerBind h _ _ _ _) fun result => ?_
        rcases result with e | -
        · simp
        · exact Calls.bind (calls_perform.mpr hadd) fun _ => by simp
      have hsubmission := hsubmit commandId hcommand
      rw [hcommand] at hresponse
      clear hbind hsubmit
      cases commandId with
      | bindTransmitter => exact hbindRequest rfl
      | bindReceiver => exact hbindRequest rfl
      | bindTransceiver => exact hbindRequest rfl
      | unbind => exact calls_handleUnbind h.write h.shutdown _ _
      | submitSm => exact calls_handleDataSubmitSm (hsubmission rfl).1 _ _ _
      | dataSm => exact calls_handleDataSubmitSm (hsubmission rfl).1 _ _ _
      | submitMulti => exact calls_handleSubmitMulti (hsubmission rfl).1 _ _ _
      | cancelSm =>
          exact Calls.bind (calls_perform.mpr (hsubmission rfl).2.1) fun _ =>
            (calls_trueOrFalse _).bind fun _ => hrespond _ _ _ _ _
      | replaceSm =>
          exact Calls.bind (calls_perform.mpr (hsubmission rfl).2.2) fun _ =>
            (calls_trueOrFalse _).bind fun _ => hrespond _ _ _ _ _
      | querySm => exact hrespond _ _ _ _ _
      | broadcastSm => exact hrespond _ _ _ _ _
      | queryBroadcastSm => exact hrespond _ _ _ _ _
      | cancelBroadcastSm => exact hrespond _ _ _ _ _
      | enquireLink => exact hrespond _ _ _ _ _
      | enquireLinkResp => simp
      | deliverSmResp =>
          exact Calls.bind (calls_perform.mpr (hresponse rfl)) fun _ => by simp
      | _ =>
          simp only
          split
          · exact hrespond _ _ _ _ _
          · simp

theorem notRegistering_handleMessage {message : Value}
    (h : ∀ commandId, extractCommandId message = some commandId → isBind commandId = false) :
    Calls (fun c => registers c = false) (handleMessage server message) := by
  have hsession : PermitsSession fun c => registers c = false :=
    ⟨rfl, fun _ => rfl, rfl⟩
  have hsubmission : PermitsSubmission fun c => registers c = false :=
    ⟨⟨⟨rfl, rfl, fun _ => rfl, fun _ _ => rfl, fun _ => rfl, rfl⟩, fun _ _ => rfl, fun _ => rfl⟩,
      fun _ => rfl⟩
  refine calls_handleMessage hsession (fun _ => rfl) ?_ ?_
  · intro commandId hcommand hbind
    simp [h commandId hcommand] at hbind
  · intro commandId _ _
    exact ⟨hsubmission, rfl, rfl⟩

/-- Requests other than the five reach neither the store nor the message handler, and forward
nothing. -/
theorem notTouching_handleMessage {message : Value}
    (h : ∀ commandId, extractCommandId message = some commandId → submits commandId = false) :
    Calls (fun c => touchesMessages c = false) (handleMessage server message) := by
  have hsession : PermitsSession fun c => touchesMessages c = false :=
    ⟨rfl, fun _ => rfl, rfl⟩
  refine calls_handleMessage hsession (fun _ => rfl) ?_ ?_
  · intro commandId _ _
    exact ⟨fun _ _ => rfl, rfl⟩
  · intro commandId hcommand hsubmits
    simp [h commandId hcommand] at hsubmits

/-- The calls of a bind after its authentication: it adds the client for one address range. -/
def AddsOnly (addressRange : String) : ServerCall → Prop
  | .authenticate _ _ => False
  | .addClient range => range = addressRange
  | _ => True

theorem exists_afterBind (server : ServerContext) (message : Value) :
    ∃ finish : Except IoError Unit → Action (Except IoError Unit),
      (∀ commandId sequenceNumber, handleBindRequest server commandId sequenceNumber message =
        handleBind server commandId sequenceNumber message >>= finish) ∧
      ∀ result, Calls (AddsOnly (message.strField "address_range")) (finish result) := by
  refine ⟨_, fun _ _ => rfl, fun result => ?_⟩
  rcases result with e | -
  · trivial
  · exact Calls.bind (calls_perform.mpr rfl) fun _ => trivial

theorem handleMessage_of_bind {message : Value} {commandId : CommandId}
    (hcommand : extractCommandId message = some commandId) (hbind : isBind commandId = true) :
    ∃ systemId password next,
      handleMessage server message = .act (.authenticate systemId password) next ∧
        ∀ authenticated, Calls (AddsOnly (message.strField "address_range"))
          (next authenticated) := by
  have hrequest : handleMessage server message = handleBindRequest server commandId.asU32
      (message.u64Field "sequence_number").toUInt32 message := by
    unfold handleMessage
    rw [hcommand]
    cases commandId <;> first | cases hbind; done | rfl
  obtain ⟨finish, hfinish, hcalls⟩ := exists_afterBind server message
  have hsession : PermitsSession (AddsOnly (message.strField "address_range")) :=
    ⟨trivial, fun _ => trivial, trivial⟩
  refine ⟨message.strField "system_id", message.strField "password", fun authenticated =>
    answerBind server commandId.asU32 (message.u64Field "sequence_number").toUInt32
      (message.strField "system_id") (if authenticated = true then .esmeRok else .esmeRBindFail)
      >>= finish, ?_, fun authenticated => (calls_answerBind hsession _ _ _ _).bind hcalls⟩
  rw [hrequest, hfinish]
  rfl

end Commands

end SmppHerald.HandlerCalls
