import Mathlib.Data.Nat.Log
import SmppHerald.Library.Interaction
import SmppHerald.ServerMessage
import SmppHerald.Time

/-!
`SmscServerConnection`: how the server handles one decoded message. What a handler does to its
surroundings (the store, the request handler, the other clients, its own socket) are calls.
-/

namespace SmppHerald.ServerConnection

open SmppHerald.ByteParser
open SmppHerald.CommandIds
open SmppHerald.FieldCodecs
open SmppHerald.Interaction
open SmppHerald.Io
open SmppHerald.Json
open SmppHerald.Message
open SmppHerald.ServerMessage
open SmppHerald.Time

section MessageIds

/-- What the three implementations of `MessageIdGenerator` put behind the prefix: a counter,
local or in Redis, or a random UUID. -/
inductive MessageId
  | counter (n : UInt64)
  | uuid (high low : UInt64)
deriving DecidableEq, Repr

def lowerHex (width n : Nat) : List Char :=
  (List.range width).reverse.map fun i =>
    let digit := n / 16 ^ i % 16
    Char.ofNat (if digit < 10 then digit + 48 else digit + 87)

/-- `generate(front)` -/
def generated (front : String) : MessageId → String
  | .counter n =>
      String.ofList (front.toList ++ lowerHex (max 12 (Nat.log 16 n.toNat + 1)) n.toNat)
  | .uuid high low =>
      String.ofList (front.toList ++ (lowerHex 8 (high.toNat / 16 ^ 8) ++ ['-'] ++
        lowerHex 4 (high.toNat / 16 ^ 4) ++ ['-'] ++ lowerHex 4 high.toNat ++ ['-'] ++
        lowerHex 4 (low.toNat / 16 ^ 12) ++ ['-'] ++ lowerHex 12 low.toNat))

def MessageId.text (id : MessageId) : String := generated "msg-" id

end MessageIds

/-- What a connection asks of its surroundings. -/
inductive ServerCall
  | authenticate (systemId password : String)
  | generateId
  | nextSequenceNumber
  | handleRequest (message : Value)
  | save (messageId : String) (message : Value)
  | cancelMessage (cancelSm : Value)
  | replaceMessage (replaceSm : Value)
  | sendMessage (address : String) (octets : Bytes)
  | spawnForward (message : Value)
  | waitResponse (sequenceNumber : UInt32)
  | responseReceived (sequenceNumber : UInt32) (response : Value)
  | addClient (addressRange : String)
  | startEnquireLinkTask
  | write (octets : Bytes)
  | shutdown
  | now

/-- The replies. The store parses the times of a message and may panic doing so. -/
@[reducible] def Reply : ServerCall → Type
  | .authenticate _ _ => Bool
  | .generateId => MessageId
  | .nextSequenceNumber => UInt32
  | .handleRequest _ => Except IoError Value
  | .save _ _ => Outcome Unit
  | .cancelMessage _ => Outcome Bool
  | .replaceMessage _ => Outcome Bool
  | .sendMessage _ _ => Except IoError Unit
  | .spawnForward _ => Unit
  | .waitResponse _ => Option Value
  | .responseReceived _ _ => Unit
  | .addClient _ => Unit
  | .startEnquireLinkTask => Unit
  | .write _ => Except IoError Unit
  | .shutdown => Except IoError Unit
  | .now => Instant

abbrev Action := Prog ServerCall Reply

def perform (c : ServerCall) : Action (Reply c) := Prog.perform c

/-- What all connections of a server share and never change. -/
structure ServerContext where
  config : ServerConfig
  distributionList : DistrubutionList
  namedTlvFields : NamedTlvFields
  calendar : Calendar
  isMyRequestAddress : String → Bool

/-- `map_err(|e| Error::new(Other, format!("{text}{e}")))` -/
def mapIoError (text : String) : Except IoError Unit → Except IoError Unit
  | .ok () => .ok ()
  | .error e => .error (otherError (text ++ e.message))

def send (octets : Bytes) (text : String) : Action (Except IoError Unit) := do
  let written ← perform (.write octets)
  return mapIoError text written

section Handlers

variable (server : ServerContext)

/-- `from_json(response).map_or(vec![], |v| v.to_vec())` -/
def encodeOrEmpty (response : Value) : Action Bytes :=
  match fromJson server.namedTlvFields response with
  | .ok pdu => return pdu
  | .err _ => return []
  | .panicked => .panic

def respond (commandId sequenceNumber : UInt32) (status : CommandStatus) (fields : Map)
    (text : String) : Action (Except IoError Unit) := do
  let data ← encodeOrEmpty server
    (createJsonResponse commandId sequenceNumber status.asU32 fields)
  send data text

def forwardMessageToClient (decodedMessage : Value) : Action Unit :=
  match (decodedMessage.get "destination_addr").bind Value.asStr with
  | some destAddr =>
      match fromJson server.namedTlvFields decodedMessage with
      | .ok pdu => do
          -- a failure to send is logged and forgotten
          let _ ← perform (.sendMessage destAddr pdu)
          return ()
      | _ => .panic
  | none => return ()

def handleEnquireLink (commandId sequenceNumber : UInt32) : Action (Except IoError Unit) :=
  respond server commandId sequenceNumber .esmeRok [] "Failed to send enquire link response: "

def answerBind (commandId sequenceNumber : UInt32) (systemId : String)
    (statusCode : CommandStatus) : Action (Except IoError Unit) := do
  let encodedResponse ← encodeOrEmpty server
    (createJsonResponse commandId sequenceNumber statusCode.asU32
      [("system_id", .string systemId),
       ("sc_interface_version", .ofNat server.config.interfaceVersion.toNat)])
  if statusCode = .esmeRok then do
    let _ ← perform .startEnquireLinkTask
    send encodedResponse "Failed to send bind response: "
  else send encodedResponse "Failed to send bind response: "

/-- The status is in the response only; whether the result is `Ok` depends on sending it. -/
def handleBind (commandId sequenceNumber : UInt32) (decodedMessage : Value) :
    Action (Except IoError Unit) := do
  let systemId := decodedMessage.strField "system_id"
  let authenticated : Bool ← perform
    (.authenticate systemId (decodedMessage.strField "password"))
  answerBind server commandId sequenceNumber systemId
    (if authenticated = true then .esmeRok else .esmeRBindFail)

/-- One round of the task that a bind starts: the next tick of the timer. -/
def enquireLinkRound : Action (Except IoError Unit) := do
  let sequenceNumber : UInt32 ← perform .nextSequenceNumber
  let encodedMessage ← encodeOrEmpty server
    (createJsonRequest CommandId.enquireLink.asU32 sequenceNumber [])
  perform (.write encodedMessage)

/-- The task ends with the first message that it cannot send. -/
def startEnquireLinkTask : Nat → Action (Except IoError Unit)
  | 0 => return .ok ()
  | ticks + 1 => do
      match ← enquireLinkRound server with
      | .ok () => startEnquireLinkTask ticks
      | .error e => return .error e

def handleUnbind (commandId sequenceNumber : UInt32) : Action (Except IoError Unit) := do
  match ← respond server commandId sequenceNumber .esmeRok []
      "Failed to send unbind response: " with
  | .error e => return .error e
  | .ok () => do
      let closed ← perform .shutdown
      return mapIoError "Failed to close connection: " closed

def extractTlvFieldsTo (response : Value) (fields : Map) : Map :=
  match response with
  | .object map => fields ++ map.filter fun entry => isValidTlvField entry.1
  | _ => fields

/-- The response to a message for the server itself. -/
def localResponse (commandId sequenceNumber : UInt32) (decodedMessage : Value) : Action Value := do
  match ← perform (.handleRequest decodedMessage) with
  | .ok value =>
      return createJsonResponse commandId sequenceNumber CommandStatus.esmeRok.asU32
        (extractTlvFieldsTo value [("message_id", .string (value.strField "message_id"))])
  | .error _ => do
      let messageId : MessageId ← perform .generateId
      return createJsonResponse commandId sequenceNumber CommandStatus.esmeRUnknownErr.asU32
        [("message_id", .string messageId.text)]

def processLocalDataSubmitMessage (commandId sequenceNumber : UInt32) (decodedMessage : Value) :
    Action (Except IoError Bytes) := do
  let response ← localResponse commandId sequenceNumber decodedMessage
  match fromJson server.namedTlvFields response with
  | .ok encodedResponse => return .ok encodedResponse
  | .panicked => .panic
  | .err _ => do
      let messageId : MessageId ← perform .generateId
      let encodedErrorResponse ← encodeOrEmpty server
        (createJsonResponse commandId sequenceNumber CommandStatus.esmeRUnknownErr.asU32
          [("message_id", .string messageId.text),
           ("command_status", .ofNat CommandStatus.esmeRUnknownErr.asU32.toNat)])
      return .ok encodedErrorResponse

/-- The response of the three modes: a status and the message id. -/
def messageIdResponse (commandId sequenceNumber commandStatus : UInt32) (messageId : String) :
    Value :=
  createJsonResponse commandId sequenceNumber commandStatus [("message_id", .string messageId)]

def sendMessageInDatagramMode (commandId sequenceNumber : UInt32) (messageId : String)
    (decodedMessage : Value) : Action (Except Value Value) := do
  let newSequenceNumber : UInt32 ← perform .nextSequenceNumber
  let _ ← perform (.spawnForward (asDeliverSm newSequenceNumber decodedMessage))
  return .ok (messageIdResponse commandId sequenceNumber CommandStatus.esmeRok.asU32 messageId)

def sendMessageInTransactionMode (commandId sequenceNumber : UInt32) (messageId : String)
    (decodedMessage : Value) : Action (Except Value Value) := do
  let newSequenceNumber : UInt32 ← perform .nextSequenceNumber
  forwardMessageToClient server (asDeliverSm newSequenceNumber decodedMessage)
  match ← perform (.waitResponse newSequenceNumber) with
  | some response =>
      let commandStatus := (((response.get "command_status").bind Value.asU64).getD
        CommandStatus.esmeRUnknownErr.asU32.toUInt64).toUInt32
      let response := messageIdResponse commandId sequenceNumber commandStatus messageId
      if commandStatus = CommandStatus.esmeRok.asU32 then return .ok response
      else return .error response
  | none =>
      return .error (messageIdResponse commandId sequenceNumber
        CommandStatus.esmeRSubmitFail.asU32 messageId)

/-- `match time { Ok(time) => Some(time), Err(_) => None }` -/
def timeOrNone : Outcome Instant → Action (Option Instant)
  | .ok time => return some time
  | .err _ => return none
  | .panicked => .panic

def storeAndForwardMessage (commandId sequenceNumber : UInt32) (messageId : String)
    (decodedMessage : Value) : Action (Except Value Value) := do
  let now : Instant ← perform .now
  let scheduleDeliveryTime ← timeOrNone
    (getScheduleDeliveryTime server.calendar now decodedMessage)
  let now : Instant ← perform .now
  if scheduleDeliveryTime.any (fun time => decide (time < now)) = true then
    return .error (messageIdResponse commandId sequenceNumber CommandStatus.esmeRInvSched.asU32
      "invalid-schedule-delivery-time")
  else do
    let now : Instant ← perform .now
    let validityPeriod ← timeOrNone (getValidityPeriod server.calendar now
      server.config.getDefaultValidityPeriod decodedMessage)
    let now : Instant ← perform .now
    if validityPeriod.any (fun time => decide (time < now)) = true then
      return .error (messageIdResponse commandId sequenceNumber
        CommandStatus.esmeRInvExpiry.asU32 "invalid-validity-period")
    else if scheduleDeliveryTime.any (fun time =>
        validityPeriod.any fun expiry => decide (expiry < time)) = true then
      return .error (messageIdResponse commandId sequenceNumber CommandStatus.esmeRInvSched.asU32
        "schedule-delivery-time-after-validity-period")
    else
      match ← perform (.save messageId decodedMessage) with
      | .ok () =>
          return .ok (messageIdResponse commandId sequenceNumber CommandStatus.esmeRok.asU32
            messageId)
      | .err _ =>
          return .error (messageIdResponse commandId sequenceNumber
            CommandStatus.esmeRUnknownErr.asU32 "fail-to-store")
      | .panicked => .panic

/-- What becomes of a single message that is not for the server itself; in the default mode,
nothing. -/
def submitInMode (messageMode : MessageMode) (commandId sequenceNumber : UInt32)
    (messageId : String) (decodedMessage : Value) : Action (Option (Except Value Value)) :=
  match messageMode with
  | .datagram => do
      let response ← sendMessageInDatagramMode commandId sequenceNumber messageId decodedMessage
      return some response
  | .transaction => do
      let response ← sendMessageInTransactionMode server commandId sequenceNumber messageId
        decodedMessage
      return some response
  | .storeAndForward => do
      let response ← storeAndForwardMessage server commandId sequenceNumber messageId
        decodedMessage
      return some response
  | .default => return none

def submitResponse (commandId sequenceNumber : UInt32) (messageId : String) :
    Option (Except Value Value) → Value
  | some (.ok response) => response
  | some (.error response) => response
  | none => messageIdResponse commandId sequenceNumber CommandStatus.esmeRok.asU32 messageId

def handleDataSubmitSm (commandId sequenceNumber : UInt32) (decodedMessage : Value) :
    Action (Except IoError Unit) := do
  let messageId : MessageId ← perform .generateId
  match replaceSmDefaultMsgIdWithPredefinedMessage server.config decodedMessage with
  | .panicked => .panic
  | .err e => return .error e
  | .ok replaced => do
      let newSequenceNumber : UInt32 ← perform .nextSequenceNumber
      let decodedMessage := (setServiceType server.config replaced).insertKey "sequence_number"
        (.ofNat newSequenceNumber.toNat)
      if server.isMyRequestAddress (decodedMessage.strField "destination_addr") = true then do
        match ← processLocalDataSubmitMessage server commandId sequenceNumber decodedMessage with
        | .ok response => send response "Failed to send response: "
        | .error e => return .error e
      else do
        let response ← submitInMode server (getMessageMode server.config decodedMessage) commandId
          sequenceNumber messageId.text decodedMessage
        let data ← encodeOrEmpty server
          (submitResponse commandId sequenceNumber messageId.text response)
        send data "Failed to send response: "

/-- What becomes of one copy of a submit_multi. -/
def submitCopyInMode (messageMode : MessageMode) (commandId sequenceNumber : UInt32)
    (messageId : String) (submitSm : Value) : Action (Except Value Value) :=
  match messageMode with
  | .datagram => sendMessageInDatagramMode commandId sequenceNumber messageId submitSm
  | .transaction => sendMessageInTransactionMode server commandId sequenceNumber messageId submitSm
  | .storeAndForward | .default =>
      storeAndForwardMessage server CommandId.submitSm.asU32 sequenceNumber messageId submitSm

/-- The body of the loop over the destinations of a submit_multi: whether the address failed. -/
def submitToDestination (commandId sequenceNumber : UInt32) (messageId : String)
    (messageMode : MessageMode) (decodedMessage : Value) (destAddr : Address) :
    Action Bool := do
  let newSequenceNumber : UInt32 ← perform .nextSequenceNumber
  let submitSm := (createSubmitSmFromSubmitMulti decodedMessage destAddr).insertKey
    "sequence_number" (.ofNat newSequenceNumber.toNat)
  if server.isMyRequestAddress destAddr.address = true then do
    match ← processLocalDataSubmitMessage server CommandId.submitSm.asU32 sequenceNumber
        submitSm with
    | .ok _ => return false
    | .error _ => return true
  else do
    match ← submitCopyInMode server messageMode commandId sequenceNumber messageId submitSm with
    | .ok _ => return false
    | .error _ => return true

def submitToDestinations (commandId sequenceNumber : UInt32) (messageId : String)
    (messageMode : MessageMode) (decodedMessage : Value) :
    List Address → Action (List Address)
  | [] => return []
  | destAddr :: rest => do
      let failed ← submitToDestination server commandId sequenceNumber messageId messageMode
        decodedMessage destAddr
      let failedAddresses ← submitToDestinations commandId sequenceNumber messageId messageMode
        decodedMessage rest
      return if failed = true then destAddr :: failedAddresses else failedAddresses

def unsuccessSme (addr : Address) : Value :=
  .object (insertAll
    [("dest_addr_ton", .ofNat addr.ton.toNat), ("dest_addr_npi", .ofNat addr.npi.toNat),
     ("destination_addr", .string addr.address),
     ("error_status_code", .ofNat CommandStatus.esmeRUnknownErr.asU32.toNat)] [])

def submitMultiResponse (sequenceNumber : UInt32) (messageId : String)
    (failedAddresses : List Address) : Value :=
  createJsonResponse CommandId.submitMulti.asU32 sequenceNumber
    (if failedAddresses = [] then CommandStatus.esmeRok else .esmeRUnknownErr).asU32
    [("message_id", .string messageId),
     ("unsuccess_smes", .array (failedAddresses.map unsuccessSme))]

def handleSubmitMulti (commandId sequenceNumber : UInt32) (decodedMessage : Value) :
    Action (Except IoError Unit) := do
  let messageId : MessageId ← perform .generateId
  let messageMode := getMessageMode server.config decodedMessage
  match replaceSmDefaultMsgIdWithPredefinedMessage server.config decodedMessage with
  | .panicked => .panic
  | .err e => return .error e
  | .ok replaced => do
      let decodedMessage := setServiceType server.config replaced
      let failedAddresses ← submitToDestinations server commandId sequenceNumber messageId.text
        messageMode decodedMessage
        (extractDestionationAddresses decodedMessage server.distributionList)
      let encodedResponse ← encodeOrEmpty server
        (submitMultiResponse sequenceNumber messageId.text failedAddresses)
      match ← perform (.write encodedResponse) with
      | .ok () => return .ok ()
      | .error _ => .panic

/-- `match result { Ok(r) => r, Err(_) => false }` -/
def trueOrFalse : Outcome Bool → Action Bool
  | .ok result => return result
  | .err _ => return false
  | .panicked => .panic

/-- The arm of the three binds. -/
def handleBindRequest (commandId sequenceNumber : UInt32) (decodedMessage : Value) :
    Action (Except IoError Unit) := do
  match ← handleBind server commandId sequenceNumber decodedMessage with
  | .ok () => do
      let _ ← perform (.addClient (decodedMessage.strField "address_range"))
      return .ok ()
  | .error _ => return .ok ()

def handleMessage (decodedMessage : Value) : Action (Except IoError Unit) := do
  let sequenceNumber := (decodedMessage.u64Field "sequence_number").toUInt32
  let failed := "Failed to send response: "
  match extractCommandId decodedMessage with
  | some commandId =>
      match commandId with
      | .bindTransmitter | .bindReceiver | .bindTransceiver =>
          handleBindRequest server commandId.asU32 sequenceNumber decodedMessage
      | .unbind => handleUnbind server commandId.asU32 sequenceNumber
      | .submitSm | .dataSm =>
          handleDataSubmitSm server commandId.asU32 sequenceNumber decodedMessage
      | .submitMulti => handleSubmitMulti server commandId.asU32 sequenceNumber decodedMessage
      | .querySm =>
          respond server commandId.asU32 sequenceNumber .esmeRQueryFail
            [("message_id", .string (decodedMessage.strField "message_id")),
             ("final_date", .string ""), ("message_state", .ofNat 5), ("error_code", .ofNat 0)]
            failed
      | .cancelSm => do
          let result ← trueOrFalse (← perform (.cancelMessage decodedMessage))
          respond server commandId.asU32 sequenceNumber
            (if result = true then .esmeRok else .esmeRCancelFail) [] failed
      | .replaceSm => do
          let result ← trueOrFalse (← perform (.replaceMessage decodedMessage))
          respond server commandId.asU32 sequenceNumber
            (if result = true then .esmeRok else .esmeRReplaceFail) [] failed
      | .broadcastSm =>
          respond server commandId.asU32 sequenceNumber .esmeRBcastFail [] failed
      | .queryBroadcastSm =>
          respond server commandId.asU32 sequenceNumber .esmeRBcastQueryFail [] failed
      | .cancelBroadcastSm =>
          respond server commandId.asU32 sequenceNumber .esmeRBcastCancelFail [] failed
      | .enquireLink => handleEnquireLink server commandId.asU32 sequenceNumber
      | .enquireLinkResp => return .ok ()
      | .deliverSmResp => do
          let _ ← perform (.responseReceived sequenceNumber decodedMessage)
          return .ok ()
      | commandId =>
          if commandId.isRequest = true then
            respond server commandId.asU32 sequenceNumber .esmeRInvCmdId [] failed
          else return .ok ()
  | none => return .ok ()

/-- `SmscServer::handle_schedule_delivery_message`, which always returns `Ok`. -/
def handleScheduleDeliveryMessage (message : Value) : Action Unit :=
  match extractCommandId message with
  | some .submitSm | some .dataSm => do
      let newSequenceNumber : UInt32 ← perform .nextSequenceNumber
      forwardMessageToClient server (asDeliverSm newSequenceNumber message)
  | _ => return ()

end Handlers

end SmppHerald.ServerConnection
