import SmppHerald.DeliveryReceipts
import SmppHerald.Library.Interaction
import SmppHerald.ResponseEncoding

/-!
`SmscConnection`: what the client does on a connection to an SMSC. As for the server, what it does
to its surroundings (the writer behind its lock, the pending responses, the receipts, the message
handler) are calls.
-/

namespace SmppHerald.ClientConnection

open SmppHerald.Buffer
open SmppHerald.ByteParser
open SmppHerald.CommandIds
open SmppHerald.DeliveryReceipts
open SmppHerald.FieldCodecs
open SmppHerald.Interaction
open SmppHerald.Io
open SmppHerald.Json
open SmppHerald.Message
open SmppHerald.ResponseEncoding
open SmppHerald.ServerMessage

section Header

def getCommandId (message : SMPPMessage) : Option UInt32 :=
  if 8 ≤ message.length then some (commandIdOf message) else none

def getSequenceNumber (message : SMPPMessage) : Option UInt32 :=
  if 16 ≤ message.length then some (sequenceNumberOf message) else none

def isRequest (message : SMPPMessage) : Bool :=
  match getCommandId message with
  | some commandId => commandId &&& 0x80000000 = 0
  | none => false

theorem getCommandId_of_length {message : SMPPMessage} (h : 16 ≤ message.length) :
    getCommandId message = some (commandIdOf message) :=
  if_pos (by omega)

theorem getSequenceNumber_of_length {message : SMPPMessage} (h : 16 ≤ message.length) :
    getSequenceNumber message = some (sequenceNumberOf message) :=
  if_pos h

end Header

/-- What comes of waiting for a response until the response timer has elapsed. -/
inductive Awaited
  | response (response : Value)
  | closed
  | elapsed

/-- What a connection asks of its surroundings. -/
inductive ClientCall
  | getReceiptUrl (messageId : String) (esmClass : EsmClass)
  | spawnReceipt (receiptUrl : String) (payload : Value)
  | handleMessage (decodedMessage : Value)
  | responseReceived (sequenceNumber : UInt32) (response : Value)
  | registerCallback (sequenceNumber : UInt32)
  | awaitResponse (sequenceNumber : UInt32)
  | lockWriter
  | unlockWriter
  | writeAll (octets : Bytes)
  | nextSequenceNumber
  | connect
  | replaceWriter
  | receive
  | incActiveConnections
  | clearAlarm

/-- The replies. Locking the writer says whether there is one, and `receive` reads from the socket
until a PDU has been taken off the buffer or the session timer has elapsed. -/
@[reducible] def Reply : ClientCall → Type
  | .getReceiptUrl _ _ => Option String
  | .spawnReceipt _ _ => Unit
  | .handleMessage _ => Except IoError Value
  | .responseReceived _ _ => Unit
  | .registerCallback _ => Unit
  | .awaitResponse _ => Awaited
  | .lockWriter => Bool
  | .unlockWriter => Unit
  | .writeAll _ => Except IoError Unit
  | .nextSequenceNumber => UInt32
  | .connect => Except IoError Unit
  | .replaceWriter => Unit
  | .receive => Option SMPPMessage
  | .incActiveConnections => Unit
  | .clearAlarm => Unit

abbrev Action := Prog ClientCall Reply

def perform (c : ClientCall) : Action (Reply c) := Prog.perform c

structure SmscConnectionConfig where
  systemId : String
  password : String
  systemType : String
  addrTon : UInt8
  addrNpi : UInt8
  addressRange : String
  interfaceVersion : UInt8

/-- What a connection has and never changes. -/
structure SmscConnection where
  bindType : String
  config : SmscConnectionConfig
  namedTlvFields : NamedTlvFields
  hasAlarmNotifier : Bool

section Sending

/-- Only a request other than enquire_link has a response that is waited for. -/
def awaitsResponse (message : SMPPMessage) : Bool :=
  isRequest message && decide ((getCommandId message).getD 0 ≠ CommandId.enquireLink.asU32)

def waitResponse (sequenceNumber : UInt32) : Action (Except IoError Value) := do
  match ← perform (.awaitResponse sequenceNumber) with
  | .response response => return .ok response
  | .closed => return .error (otherError "Failed to receive response")
  | .elapsed => return .error ⟨.timedOut, "Timeout waiting for response"⟩

/-- The writer stays locked until a request has its response. -/
def sendLocked (message : SMPPMessage) : Action (Except IoError (Option Value)) := do
  match ← perform (.writeAll message) with
  | .error e => return .error e
  | .ok () =>
      if awaitsResponse message = true then do
        match ← waitResponse ((getSequenceNumber message).getD 0) with
        | .ok response => return .ok (some response)
        | .error e => return .error e
      else return .ok none

def sendMessage (message : SMPPMessage) : Action (Except IoError (Option Value)) := do
  if awaitsResponse message = true then
    perform (.registerCallback ((getSequenceNumber message).getD 0))
  let connected : Bool ← perform .lockWriter
  let result ←
    if connected = true then sendLocked message
    else pure (.error ⟨.notConnected, "SMSC writer not available"⟩)
  let _ ← perform .unlockWriter
  return result

/-- The part of `send_message` that has the writer. -/
def sendAndUnlock (message : SMPPMessage) (connected : Bool) :
    Action (Except IoError (Option Value)) := do
  let result ←
    if connected = true then sendLocked message
    else pure (.error ⟨.notConnected, "SMSC writer not available"⟩)
  let _ ← perform .unlockWriter
  return result

theorem sendMessage_eq (message : SMPPMessage) :
    sendMessage message =
      if awaitsResponse message = true then
        .act (.registerCallback ((getSequenceNumber message).getD 0)) fun _ =>
          .act .lockWriter (sendAndUnlock message)
      else .act .lockWriter (sendAndUnlock message) := by
  unfold sendMessage
  split <;> rfl

end Sending

section Incoming

variable (connection : SmscConnection)

def enquireLinkResp (sequenceNumber : UInt32) : Value :=
  .object [("command_id", .string "0x80000015"), ("command_status", .ofNat 0),
    ("sequence_number", .ofNat sequenceNumber.toNat)]

def processEnquireLink (message : SMPPMessage) : Action (Except IoError Unit) :=
  match fromJson connection.namedTlvFields
      (enquireLinkResp ((getSequenceNumber message).getD 0)) with
  | .panicked => .panic
  | .err e => return .error e
  | .ok encodedRespMessage => do
      match ← sendMessage encodedRespMessage with
      | .ok _ => return .ok ()
      | .error e => return .error e

def sendDeliverSmResp (sequenceNumber commandId commandStatus : UInt32) :
    Action (Except IoError Unit) :=
  match fromJson connection.namedTlvFields (createJsonResponse commandId sequenceNumber
      commandStatus [("message_id", .string "")]) with
  | .panicked => .panic
  | .err _ => return .error ⟨.invalidData, "Failed to encode response"⟩
  | .ok v => do
      match ← sendMessage v with
      | .ok _ => return .ok ()
      | .error e => return .error e

/-- The URL for the receipt that a message is, if it is one that was asked for. -/
def findReceiptUrl (decodedMessage : Value) : Action (Option String) :=
  let receiptedMessageId := decodedMessage.strField "receipted_message_id"
  let esmClass := (EsmClass.fromU8 (decodedMessage.u64Field "esm_class").toUInt8).getD {}
  if receiptedMessageId ≠ "" then perform (.getReceiptUrl receiptedMessageId esmClass)
  else return none

def commandStatusOf : Except IoError Value → UInt32
  | .ok response => (response.u64Field "command_status").toUInt32
  | .error _ => CommandStatus.esmeRSysErr.asU32

def acknowledge (message : SMPPMessage) (decodedMessage : Value) : Action (Except IoError Unit) := do
  let handled ← perform (.handleMessage decodedMessage)
  sendDeliverSmResp connection ((getSequenceNumber message).getD 0)
    ((getCommandId message).getD 0) (commandStatusOf handled)

/-- A receipt goes to the URL that was registered for it, and the SMSC gets no response. -/
def handleDeliverSm (message : SMPPMessage) (decodedMessage : Value) :
    Action (Except IoError Unit) := do
  match ← findReceiptUrl decodedMessage with
  | some receiptUrl => do
      let _ ← perform (.spawnReceipt receiptUrl decodedMessage)
      return .ok ()
  | none => acknowledge connection message decodedMessage

def processInMessage (message : SMPPMessage) : Action (Except IoError Unit) :=
  let sequenceNumber := (getSequenceNumber message).getD 0
  let commandId := (CommandId.fromU32 ((getCommandId message).getD 0)).getD .unknown
  match toJson message with
  | .error _ => return .error ⟨.invalidData, "Failed to decode message from SMSC"⟩
  | .ok decodedMessage =>
      match commandId with
      | .enquireLink => processEnquireLink connection message
      | .enquireLinkResp => return .ok ()
      | .deliverSm | .dataSm => handleDeliverSm connection message decodedMessage
      | .alertNotification => return .ok ()
      | .genericNack => return .ok ()
      | commandId =>
          if commandId.isResponse = true then do
            let _ ← perform (.responseReceived sequenceNumber decodedMessage)
            return .ok ()
          else return .ok ()

end Incoming

section Connecting

variable (connection : SmscConnection)

/-- The enquire_link of the timer; one that cannot be encoded is sent as an empty PDU. -/
def sendEnquireLink : Action (Except IoError Unit) := do
  let sequenceNumber : UInt32 ← perform .nextSequenceNumber
  match fromJson connection.namedTlvFields
      (.object [("command_id", .string "0x00000015"), ("command_status", .ofNat 0),
        ("sequence_number", .ofNat sequenceNumber.toNat)]) with
  | .panicked => .panic
  | encoded => do
      let message : SMPPMessage := match encoded with
        | .ok message => message
        | _ => []
      match ← sendMessage message with
      | .ok _ => return .ok ()
      | .error e => return .error e

def bindCommand (bindType : String) : CommandId :=
  if bindType = "transmitter" then .bindTransmitter
  else if bindType = "receiver" then .bindReceiver
  else if bindType = "transceiver" then .bindTransceiver
  else .bindTransceiver

def bindMessage (sequenceNumber : UInt32) : SMPPMessage :=
  updateLength (writeU32 0 ++ writeU32 (bindCommand connection.bindType).asU32 ++ writeU32 0 ++
    writeU32 sequenceNumber ++ writeCOctetStr connection.config.systemId ++
    writeCOctetStr connection.config.password ++ writeCOctetStr connection.config.systemType ++
    writeU8 connection.config.interfaceVersion ++ writeU8 connection.config.addrTon ++
    writeU8 connection.config.addrNpi ++ writeCOctetStr connection.config.addressRange)

def createBindMessage : Action SMPPMessage := do
  let sequenceNumber : UInt32 ← perform .nextSequenceNumber
  return bindMessage connection sequenceNumber

def isBindOk (response : Value) : Bool :=
  match extractCommandId response with
  | some .bindTransmitterResp | some .bindReceiverResp | some .bindTransceiverResp =>
      ((response.get "command_status").bind Value.asU64).getD
        CommandStatus.esmeRInvBndSts.asU32.toUInt64 = CommandStatus.esmeRok.asU32.toUInt64
  | _ => false

/-- What `do_bind` makes of what it has received. -/
def bindResult : Option SMPPMessage → Except IoError Unit
  | none => .error ⟨.timedOut, "Timeout waiting for bind response"⟩
  | some message =>
      match toJson message with
      | .ok response =>
          if isBindOk response = true then .ok () else .error (otherError "Bind failed")
      | .error _ => .error (otherError "Failed to decode bind response")

def sendBindMessage : Action (Except IoError Unit) := do
  let bindMessage ← createBindMessage connection
  let connected : Bool ← perform .lockWriter
  let sent ←
    if connected = true then perform (.writeAll bindMessage)
    else pure (.error (otherError "SMSC writer not available"))
  let _ ← perform .unlockWriter
  return sent

def doBind : Action (Except IoError Unit) := do
  match ← sendBindMessage connection with
  | .error e => return .error e
  | .ok () => do
      let received ← perform .receive
      return bindResult received

/-- `connect_smsc_to` up to its main loop. -/
def establish (alarmActive : Bool) : Action (Except IoError Unit) := do
  match ← perform .connect with
  | .error e => return .error e
  | .ok () => do
      let _ ← perform .lockWriter
      let _ ← perform .replaceWriter
      let _ ← perform .unlockWriter
      match ← doBind connection with
      | .error e => return .error e
      | .ok () => do
          let _ ← perform .incActiveConnections
          if alarmActive = true ∧ connection.hasAlarmNotifier = true then do
            let _ ← perform .clearAlarm
            return .ok ()
          else return .ok ()

end Connecting

end SmppHerald.ClientConnection
