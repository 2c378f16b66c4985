import SmppHerald.ClientConnection
import SmppHerald.Responses

namespace SmppHerald.Acknowledgements

open SmppHerald.Buffer
open SmppHerald.ByteParser
open SmppHerald.ClientConnection
open SmppHerald.CommandIds
open SmppHerald.DeliveryReceipts
open SmppHerald.Environments
open SmppHerald.FieldCodecs
open SmppHerald.Interaction
open SmppHerald.Io
open SmppHerald.Json
open SmppHerald.Message
open SmppHerald.PduFormat
open SmppHerald.Relay
open SmppHerald.ResponseEncoding
open SmppHerald.ServerConnection (messageIdResponse)
open SmppHerald.ServerMessage
open SmppHerald.Time

/-- What a call writes to the connection. -/
def writtenOctets : ClientCall → Option Bytes
  | .writeAll octets => some octets
  | _ => none

/-- Surroundings with a writer that takes everything, in which receipts are looked up in the
manager as it is. -/
def writable (manager : DeliveryReceiptManager) (now : Instant) : Environment Reply where
  Allows
    | .getReceiptUrl messageId esmClass, reply =>
        reply = (manager.getReceiptUrl now messageId esmClass).1
    | .lockWriter, reply => reply = true
    | .writeAll _, reply => reply = .ok ()
    | _, _ => True
  total
    | .getReceiptUrl _ _ => ⟨_, rfl⟩
    | .spawnReceipt _ _ => ⟨(), trivial⟩
    | .handleMessage _ => ⟨.ok .null, trivial⟩
    | .responseReceived _ _ => ⟨(), trivial⟩
    | .registerCallback _ => ⟨(), trivial⟩
    | .awaitResponse _ => ⟨.elapsed, trivial⟩
    | .lockWriter => ⟨true, rfl⟩
    | .unlockWriter => ⟨(), trivial⟩
    | .writeAll _ => ⟨.ok (), rfl⟩
    | .nextSequenceNumber => ⟨0, trivial⟩
    | .connect => ⟨.ok (), trivial⟩
    | .replaceWriter => ⟨(), trivial⟩
    | .receive => ⟨none, trivial⟩
    | .incActiveConnections => ⟨(), trivial⟩
    | .clearAlarm => ⟨(), trivial⟩

/-- Exactly one PDU is written, and it is the response to the message. -/
def Acknowledged (connection : SmscConnection) (manager : DeliveryReceiptManager) (now : Instant)
    (message : SMPPMessage) : Prop :=
  Once (writable manager now) writtenOctets (RespondsTo message)
    (processInMessage connection message)

/-- The message is a receipt whose URL the manager has. -/
def PassedOn (manager : DeliveryReceiptManager) (now : Instant) (decodedMessage : Value) : Prop :=
  decodedMessage.strField "receipted_message_id" ≠ "" ∧
    manager.Knows now (decodedMessage.strField "receipted_message_id")

section Sending

variable {manager : DeliveryReceiptManager} {now : Instant}

theorem silent_perform {c : ClientCall} (h : writtenOctets c = none) :
    Silent writtenOctets (perform c) :=
  calls_perform.mpr h

theorem responseBit_and (commandId : UInt32) :
    (0x80000000 ||| commandId) &&& 0x80000000 = 0x80000000 := by
  apply UInt32.toBitVec_inj.mp
  apply BitVec.eq_of_getLsbD_eq
  intro i _
  simp only [UInt32.toBitVec_and, UInt32.toBitVec_or, BitVec.getLsbD_and, BitVec.getLsbD_or]
  cases BitVec.getLsbD (UInt32.toBitVec 0x80000000) i <;> simp

theorem awaitsResponse_of_respondsTo {request response : SMPPMessage}
    (h : RespondsTo request response) : awaitsResponse response = false := by
  obtain ⟨hlength, hid, -⟩ := h
  have hrequest : isRequest response = false := by
    rw [isRequest, getCommandId_of_length hlength]
    simp only
    rw [hid, responseBit_and]
    decide
  rw [awaitsResponse, hrequest, Bool.false_and]

theorem once_sendMessage {good : Bytes → Prop} {message : SMPPMessage}
    (h : awaitsResponse message = false) :
    Once (writable manager now) writtenOctets good (sendMessage message) ↔ good message := by
  have hlocked : Once (writable manager now) writtenOctets good (sendLocked message) ↔
      good message := by
    unfold sendLocked
    rw [once_bind_silent]
    · exact once_perform rfl
    · intro written
      rcases written with e | -
      · simp
      · simp [h]
  unfold sendMessage
  simp only [h, Bool.false_eq_true, if_false]
  rw [once_bind_of_silent (silent_perform rfl), perform, always_perform]
  simp only [Option.elim_some]
  have hrest : Once (writable manager now) writtenOctets good (do
      let result ← sendLocked message
      let _ ← perform .unlockWriter
      return result) ↔ good message := by
    rw [once_bind_silent fun _ => Calls.bind (silent_perform rfl) fun _ => by simp]
    exact hlocked
  constructor
  · intro hall
    exact hrest.mp (hall true rfl)
  · rintro hgood reply rfl
    exact hrest.mpr hgood

theorem once_sendEncoded {namedTlvFields : NamedTlvFields} {response : Value} {octets : Bytes}
    {onError : IoError → Action (Except IoError Unit)} {message : SMPPMessage}
    (hencode : fromJson namedTlvFields response = .ok octets)
    (hresponds : RespondsTo message octets) :
    Once (writable manager now) writtenOctets (RespondsTo message)
      (match fromJson namedTlvFields response with
        | .panicked => .panic
        | .err e => onError e
        | .ok encoded => do
            match ← sendMessage encoded with
            | .ok _ => return .ok ()
            | .error e => return .error e) := by
  rw [hencode]
  simp only
  rw [once_bind_silent]
  · exact (once_sendMessage (awaitsResponse_of_respondsTo hresponds)).mpr hresponds
  · intro sent
    rcases sent with e | response <;> simp

end Sending

section Requests

variable {connection : SmscConnection} {manager : DeliveryReceiptManager} {now : Instant}
  {message : SMPPMessage}

theorem enquireLinkResp_eq (sequenceNumber : UInt32) :
    enquireLinkResp sequenceNumber =
      createJsonResponse CommandId.enquireLink.asU32 sequenceNumber 0 [] := by
  have hid : "0x" ++ upperHex 8 (0x80000000 ||| CommandId.enquireLink.asU32).toNat =
      "0x80000015" := by decide
  have hstatus : ¬ "command_status" < "command_id" := by decide
  have hsequence : ¬ "sequence_number" < "command_id" ∧
      ¬ "sequence_number" < "command_status" := by decide
  rw [createJsonResponse, hid]
  simp [insertAll, Json.insert, hstatus, hsequence, enquireLinkResp]

theorem once_processEnquireLink (hlength : 16 ≤ message.length)
    (hcommand : commandIdOf message = CommandId.enquireLink.asU32) :
    Once (writable manager now) writtenOctets (RespondsTo message)
      (processEnquireLink connection message) := by
  have hresponse : messageCommandFields (0x80000000 ||| commandIdOf message) = some [] :=
    hcommand ▸ rfl
  obtain ⟨octets, hencode⟩ := (@encodes_noFields_iff _ (sequenceNumberOf message) 0
    connection.namedTlvFields _ hresponse (by simp)).mpr rfl
  have hresponds := respondsTo_of_fromJson hresponse (by simp [KeepsHeader]) hencode
  unfold processEnquireLink
  rw [getSequenceNumber_of_length hlength, Option.getD_some, enquireLinkResp_eq, ← hcommand]
  exact once_sendEncoded hencode hresponds

theorem once_acknowledge (hlength : 16 ≤ message.length)
    (hcommand : messageCommandFields (0x80000000 ||| commandIdOf message) =
      some [("message_id", none)]) (decodedMessage : Value) :
    Once (writable manager now) writtenOctets (RespondsTo message)
      (acknowledge connection message decodedMessage) := by
  unfold acknowledge
  rw [once_bind_of_silent (silent_perform rfl), perform, always_perform]
  simp only [Option.elim_some]
  intro handled _
  obtain ⟨octets, hencode⟩ := (@encodes_messageId_iff _ (sequenceNumberOf message)
    (commandStatusOf handled) connection.namedTlvFields hcommand "").mpr
      (.inl (by decide))
  have hresponds := respondsTo_of_fromJson hcommand (by simp [KeepsHeader]) hencode
  unfold sendDeliverSmResp
  rw [getSequenceNumber_of_length hlength, getCommandId_of_length hlength, Option.getD_some,
    Option.getD_some]
  exact once_sendEncoded hencode hresponds

/-- A message gets its response unless it is passed on as a receipt. -/
theorem once_handleDeliverSm_iff (hlength : 16 ≤ message.length)
    (hcommand : messageCommandFields (0x80000000 ||| commandIdOf message) =
      some [("message_id", none)]) (decodedMessage : Value) :
    Once (writable manager now) writtenOctets (RespondsTo message)
        (handleDeliverSm connection message decodedMessage) ↔
      ¬ PassedOn manager now decodedMessage := by
  have hacknowledge := @once_acknowledge connection manager now message hlength hcommand
    decodedMessage
  have hreceipt : ∀ receiptUrl, ¬ Once (writable manager now) writtenOctets (RespondsTo message) (do
      let _ ← perform (.spawnReceipt receiptUrl decodedMessage)
      return (.ok () : Except IoError Unit)) :=
    fun receiptUrl => not_once_of_silent (Calls.bind (silent_perform rfl) fun _ => by simp)
  unfold handleDeliverSm findReceiptUrl
  simp only
  by_cases hid : decodedMessage.strField "receipted_message_id" = ""
  · rw [if_neg (not_not_intro hid), once_bind_of_silent (by simp), always_pure]
    simp [PassedOn, hid, hacknowledge]
  · rw [if_pos hid, once_bind_of_silent (silent_perform rfl), perform, always_perform]
    simp only [Option.elim_some]
    rw [PassedOn, and_iff_right hid, ← DeliveryReceiptManager.getReceiptUrl_isSome_iff manager now _
      ((EsmClass.fromU8 (decodedMessage.u64Field "esm_class").toUInt8).getD {})]
    constructor
    · intro h hsome
      obtain ⟨receiptUrl, hurl⟩ := Option.isSome_iff_exists.mp hsome
      have hreply := h _ rfl
      rw [hurl] at hreply
      exact hreceipt receiptUrl hreply
    · intro h reply hreply
      have hnone : reply = none := by
        rw [show reply = _ from hreply]
        simpa using h
      rw [hnone]
      exact hacknowledge

/-- The SMSC's request is acknowledged in whatever way the message handler replies, exactly when it
is an enquire_link or is not passed on as a receipt. -/
theorem acknowledged_iff (connection : SmscConnection) (manager : DeliveryReceiptManager)
    (now : Instant) {message : SMPPMessage} {decodedMessage : Value}
    (hdecode : toJson message = .ok decodedMessage) {commandId : CommandId}
    (hcommand : CommandId.fromU32 (commandIdOf message) = some commandId)
    (hrequest : commandId ∈ [.enquireLink, .deliverSm, .dataSm]) :
    Acknowledged connection manager now message ↔
      commandId = .enquireLink ∨ ¬ PassedOn manager now decodedMessage := by
  have hlength := length_of_toJson hdecode
  have hword : commandId.asU32 = commandIdOf message := CommandId.asU32_of_fromU32 hcommand
  unfold Acknowledged processInMessage
  rw [hdecode, getCommandId_of_length hlength, Option.getD_some, hcommand, Option.getD_some]
  simp only [List.mem_cons, List.not_mem_nil, or_false] at hrequest
  rcases hrequest with rfl | rfl | rfl
  · simp only [true_or, iff_true]
    exact once_processEnquireLink hlength hword.symm
  · simp only [reduceCtorEq, false_or]
    exact once_handleDeliverSm_iff hlength (hword ▸ rfl) decodedMessage
  · simp only [reduceCtorEq, false_or]
    exact once_handleDeliverSm_iff hlength (hword ▸ rfl) decodedMessage

/-- A connection with empty credentials. -/
def plainConnection : SmscConnection where
  bindType := "transceiver"
  config := ⟨"", "", "", 0, 0, "", 0x34⟩
  namedTlvFields := plainServer.namedTlvFields
  hasAlarmNotifier := false

/-- A manager in which the receipts of the message `m` have a URL. -/
def receiptManager : DeliveryReceiptManager :=
  (DeliveryReceiptManager.new 0).registerReceiptUrl 0 "m" "http://127.0.0.1/receipts"
    { deliveryReceipt := .requestedWhenDeliverySucessOrFailure }

/-- A deliver_sm with the receipt for the message `m`. -/
def receiptPdu : SMPPMessage :=
  header 41 0x5 0 9 ++ [0, 0, 0, 0, 0, 0, 0x34, 0, 4, 0, 0, 0, 0, 0, 0, 0, 0, 1, 0x78,
    0, 0x1e, 0, 2, 0x6d, 0]

/-- The receipt is passed on, and the SMSC gets no response. -/
theorem not_acknowledged_receipt :
    toJson receiptPdu = .ok (decodedValue receiptPdu) ∧
      CommandId.fromU32 (commandIdOf receiptPdu) = some .deliverSm ∧
        ¬ Acknowledged plainConnection receiptManager 0 receiptPdu := by
  have hdecode := @toJson_of_isOk receiptPdu (by decide +kernel)
  have hid : CommandId.fromU32 (commandIdOf receiptPdu) = some .deliverSm := by decide +kernel
  have hpassed : PassedOn receiptManager 0 (decodedValue receiptPdu) := by
    have htext : (decodedValue receiptPdu).strField "receipted_message_id" = "m" := by
      decide +kernel
    rw [PassedOn, htext]
    exact ⟨by decide, _, rfl, by decide⟩
  refine ⟨hdecode, hid, ?_⟩
  unfold Acknowledged processInMessage
  rw [hdecode, getCommandId_of_length (by decide), Option.getD_some, hid, Option.getD_some]
  simp only
  rw [once_handleDeliverSm_iff (by decide) rfl]
  exact not_not_intro hpassed

/-- Before the registration the same receipt is acknowledged. -/
theorem acknowledged_receipt :
    Acknowledged plainConnection (.new 0) 0 receiptPdu := by
  refine (acknowledged_iff plainConnection (.new 0) 0 (toJson_of_isOk (by decide +kernel))
    (by decide +kernel : _ = some CommandId.deliverSm) (by decide)).mpr (.inr ?_)
  rintro ⟨-, receipt, hnone, -⟩
  simp [DeliveryReceiptManager.new] at hnone

end Requests

end SmppHerald.Acknowledgements
