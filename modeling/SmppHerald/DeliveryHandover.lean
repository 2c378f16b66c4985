import SmppHerald.Acknowledgements
import SmppHerald.EndToEnd
import SmppHerald.TransactionMode

namespace SmppHerald.DeliveryHandover

open SmppHerald.Acknowledgements
open SmppHerald.Buffer
open SmppHerald.ByteParser
open SmppHerald.ClientConnection
open SmppHerald.CommandIds
open SmppHerald.DeliveryReceipts
open SmppHerald.EndToEnd
open SmppHerald.FieldCodecs
open SmppHerald.Interaction
open SmppHerald.Io
open SmppHerald.Json
open SmppHerald.Message
open SmppHerald.PduFormat
open SmppHerald.ResponseEncoding
open SmppHerald.RoundTrip
open SmppHerald.ServerConnection (ServerContext messageIdResponse)
open SmppHerald.ServerMessage
open SmppHerald.TransactionMode (handleRestRequest)

section Client

variable {connection : SmscConnection} {pdu octets : SMPPMessage} {decoded : Value}
  {log : List (Event Reply)} {result : Option (Except IoError Unit)}

/-- The response to the PDU, with this status. -/
def AnswersWith (pdu : SMPPMessage) (status : UInt32) (octets : Bytes) : Prop :=
  RespondsTo pdu octets ∧ ∃ length body,
    octets = header length (0x80000000 ||| commandIdOf pdu) status (sequenceNumberOf pdu) ++ body

/-- The writer is taken for the octets and given back, and they are written if there is one. -/
def Transmits (octets : Bytes) (log : List (Event Reply)) : Prop :=
  log = [⟨.lockWriter, false⟩, ⟨.unlockWriter, ()⟩] ∨
    ∃ sent, log = [⟨.lockWriter, true⟩, ⟨.writeAll octets, sent⟩, ⟨.unlockWriter, ()⟩]

/-- The question whether a URL waits for the receipt that the message is. -/
def receiptUrlOf (decoded : Value) : ClientCall :=
  .getReceiptUrl (decoded.strField "receipted_message_id")
    ((EsmClass.fromU8 (decoded.u64Field "esm_class").toUInt8).getD {})

/-- What becomes of a delivery: a receipt goes to the URL that waits for it, without an answer.
Anything else goes to the handler once, and its verdict is the status of the one answer. -/
inductive Disposes (pdu : SMPPMessage) (decoded : Value) : List (Event Reply) → Prop
  | receipt (receiptUrl : String) : decoded.strField "receipted_message_id" ≠ "" →
      Disposes pdu decoded
        [⟨receiptUrlOf decoded, some receiptUrl⟩, ⟨.spawnReceipt receiptUrl decoded, ()⟩]
  | unknown (handled : Except IoError Value) {answer : Bytes} {sent : List (Event Reply)} :
      decoded.strField "receipted_message_id" ≠ "" →
        AnswersWith pdu (commandStatusOf handled) answer → Transmits answer sent →
          Disposes pdu decoded
            (⟨receiptUrlOf decoded, none⟩ :: ⟨.handleMessage decoded, handled⟩ :: sent)
  | message (handled : Except IoError Value) {answer : Bytes} {sent : List (Event Reply)} :
      decoded.strField "receipted_message_id" = "" →
        AnswersWith pdu (commandStatusOf handled) answer → Transmits answer sent →
          Disposes pdu decoded (⟨.handleMessage decoded, handled⟩ :: sent)

theorem sendLocked_eq (h : awaitsResponse octets = false) :
    sendLocked octets = .act (.writeAll octets) fun sent => .ret (sent.map fun _ => none) := by
  unfold sendLocked
  simp only [h, Bool.false_eq_true, if_false]
  change Prog.act (ClientCall.writeAll octets) _ = _
  congr 1
  funext sent
  cases sent <;> rfl

theorem transmits_of_run {next : Except IoError (Option Value) → Action (Except IoError Unit)}
    {value : Except IoError (Option Value) → Except IoError Unit}
    (h : awaitsResponse octets = false) (hnext : ∀ sent, next sent = .ret (value sent))
    (hrun : Run (sendMessage octets >>= next) log result) : Transmits octets log := by
  rw [sendMessage_eq, h, if_neg (by decide)] at hrun
  obtain ⟨connected, rest, rfl, hsend⟩ := (run_act_iff _ _ _ _).mp hrun
  cases connected with
  | false =>
      obtain ⟨u, rest, rfl, hreturn⟩ := (run_act_iff _ _ _ _).mp hsend
      have hlast : Run (next _) rest result := hreturn
      rw [hnext, run_ret_iff] at hlast
      obtain ⟨rfl, -⟩ := hlast
      exact .inl rfl
  | true =>
      have hwrite : Run ((sendLocked octets >>= fun sent =>
          perform .unlockWriter >>= fun _ => pure sent) >>= next) rest result := hsend
      rw [sendLocked_eq h] at hwrite
      obtain ⟨sent, rest', rfl, hunlock⟩ := (run_act_iff _ _ _ _).mp hwrite
      obtain ⟨u, rest'', rfl, hreturn⟩ := (run_act_iff _ _ _ _).mp hunlock
      have hlast : Run (next _) rest'' result := hreturn
      rw [hnext, run_ret_iff] at hlast
      obtain ⟨rfl, -⟩ := hlast
      exact .inr ⟨sent, rfl⟩

theorem run_acknowledge (hlength : 16 ≤ pdu.length)
    (hcommand : messageCommandFields (0x80000000 ||| commandIdOf pdu) =
      some [("message_id", none)])
    (hrun : Run (acknowledge connection pdu decoded) log result) :
    ∃ handled answer sent, log = ⟨.handleMessage decoded, handled⟩ :: sent ∧
      AnswersWith pdu (commandStatusOf handled) answer ∧ Transmits answer sent := by
  obtain ⟨handled, sent, rfl, hsend⟩ := (run_perform_bind_iff _ _ _ _).mp hrun
  have hkeeps : KeepsHeader (commandStatusOf handled) [("message_id", .string "")] := by
    simp [KeepsHeader]
  obtain ⟨answer, hencode⟩ := (@encodes_messageId_iff _ (sequenceNumberOf pdu)
    (commandStatusOf handled) connection.namedTlvFields hcommand "").mpr (.inl (by decide))
  have hresponds := respondsTo_of_fromJson hcommand hkeeps hencode
  have hheader := exists_header_of_encode ((fromJson_response hcommand hkeeps).symm.trans hencode)
    (supplies_status hkeeps) (supplies_sequenceNumber hkeeps)
  refine ⟨handled, answer, sent, rfl, ⟨hresponds, hheader⟩, ?_⟩
  rw [sendDeliverSmResp, getSequenceNumber_of_length hlength, getCommandId_of_length hlength,
    Option.getD_some, Option.getD_some, ← messageIdResponse, hencode] at hsend
  apply transmits_of_run (awaitsResponse_of_respondsTo hresponds) ?_ hsend
  · exact fun sent => sent.map fun _ => ()
  · intro sent
    cases sent <;> rfl

theorem disposes_of_run (hlength : 16 ≤ pdu.length)
    (hcommand : messageCommandFields (0x80000000 ||| commandIdOf pdu) =
      some [("message_id", none)])
    (hrun : Run (handleDeliverSm connection pdu decoded) log result) :
    Disposes pdu decoded log := by
  unfold handleDeliverSm findReceiptUrl at hrun
  simp only at hrun
  by_cases hid : decoded.strField "receipted_message_id" = ""
  · rw [if_neg (not_not_intro hid)] at hrun
    obtain ⟨handled, answer, sent, rfl, hanswer, hsent⟩ := run_acknowledge hlength hcommand hrun
    exact .message handled hid hanswer hsent
  · rw [if_pos hid] at hrun
    obtain ⟨receiptUrl, rest, rfl, hrest⟩ := (run_perform_bind_iff _ _ _ _).mp hrun
    cases receiptUrl with
    | none =>
        obtain ⟨handled, answer, sent, rfl, hanswer, hsent⟩ :=
          run_acknowledge hlength hcommand hrest
        exact .unknown handled hid hanswer hsent
    | some receiptUrl =>
        obtain ⟨u, rest', rfl, hreturn⟩ := (run_act_iff _ _ _ _).mp hrest
        obtain ⟨rfl, -⟩ := (run_ret_iff _ _ _).mp hreturn
        exact .receipt receiptUrl hid

theorem disposes_processInMessage (hdecode : toJson pdu = .ok decoded)
    (hid : CommandId.fromU32 (commandIdOf pdu) = some .deliverSm)
    (hrun : Run (processInMessage connection pdu) log result) : Disposes pdu decoded log := by
  have hlength := length_of_toJson hdecode
  have hword : CommandId.deliverSm.asU32 = commandIdOf pdu := CommandId.asU32_of_fromU32 hid
  unfold processInMessage at hrun
  rw [hdecode, getCommandId_of_length hlength, Option.getD_some, hid, Option.getD_some] at hrun
  exact disposes_of_run hlength (hword ▸ rfl) hrun

end Client

section Server

variable {server : ServerContext} {payload decoded : Value} {pdu : SMPPMessage} {address : String}
  {values : String → Option Value}

theorem extractCommandId_received (h : Received .deliverSm values decoded) :
    extractCommandId decoded = some .deliverSm := by
  rw [extractCommandId, h.commandId]
  rfl

theorem commandIdOf_received (hdecode : toJson pdu = .ok decoded)
    (h : Received .deliverSm values decoded) :
    CommandId.fromU32 (commandIdOf pdu) = some .deliverSm := by
  have hextract := extractCommandId_received h
  obtain ⟨parsed, rfl, hid, -⟩ := exists_decoded_words hdecode
  rw [parsed.extractCommandId_value, hid] at hextract
  exact hextract

theorem supplies_received {n : UInt32} (hnumber : Supplies payload "sequence_number" n)
    (hdecode : toJson pdu = .ok decoded)
    (hget : decoded.get "sequence_number" = some (.ofNat n.toNat)) :
    Supplies payload "sequence_number" (sequenceNumberOf pdu) := by
  have hsequence := sequenceField_of_toJson hdecode
  rw [Value.u64Field, hget] at hsequence
  have hsame : sequenceNumberOf pdu = n := by
    rw [← hsequence]
    simp [Value.asU64, Value.ofNat, Number.asU64]
  rw [hsame]
  exact hnumber

theorem run_handleRestRequest (hencode : fromJson server.namedTlvFields payload = .ok pdu)
    (hlength : 16 ≤ pdu.length) (hid : CommandId.fromU32 (commandIdOf pdu) = some .deliverSm)
    (hget : payload.get "destination_addr" = some (.string address))
    {log : List (Event ServerConnection.Reply)} {result : Option Value}
    (hrun : Run (handleRestRequest server payload) log result) :
    ∃ reply, log = [⟨.sendMessage address pdu, reply⟩] := by
  unfold handleRestRequest at hrun
  rw [hencode] at hrun
  simp only [getCommandId_of_length hlength, Option.bind_some, hid, if_true] at hrun
  obtain ⟨reply, rest, rfl, hreturn⟩ := (run_act_iff _ _ _ _).mp hrun
  obtain ⟨rfl, -⟩ := (run_ret_iff _ _ _).mp hreturn
  obtain rfl : address = ((payload.get "destination_addr").bind Value.asStr).getD "unknown" := by
    rw [hget]
    rfl
  exact ⟨reply, rfl⟩

theorem exists_destination (hrange : InRange payload .deliverSm submitSmFields) :
    ∃ address, payload.get "destination_addr" = some (.string address) := by
  have hmem : ("destination_addr", none) ∈ submitSmFields := by
    simp [submitSmFields]
  obtain ⟨value, hget⟩ := Option.ne_none_iff_exists'.mp (hrange.required _ hmem rfl)
  obtain ⟨octets, hrepresents⟩ := hrange.field _ hmem (.cOctetStr 21) value rfl hget
  cases hrepresents with
  | cOctetStr _ _ => exact ⟨_, hget⟩

/-- A deliver_sm in range that is posted to the server goes once to its destination, and the client
there disposes of exactly what was posted. -/
theorem delivery_handed_over (server : ServerContext) (connection : SmscConnection)
    (hrange : InRange payload .deliverSm submitSmFields) :
    ∃ address octets decoded, payload.get "destination_addr" = some (.string address) ∧
      toJson octets = .ok decoded ∧ Received .deliverSm (given payload) decoded ∧
      Supplies payload "sequence_number" (sequenceNumberOf octets) ∧
      (∀ log result, Run (handleRestRequest server payload) log result →
        ∃ reply, log = [⟨.sendMessage address octets, reply⟩]) ∧
      ∀ log result, Run (processInMessage connection octets) log result →
        Disposes octets decoded log := by
  obtain ⟨n, hnumber⟩ := hrange.sequenceNumber
  obtain ⟨octets, decoded, hencode, hdecode, hreceived, hsequence⟩ :=
    exists_received hrange server.namedTlvFields hnumber
  obtain ⟨address, hget⟩ := exists_destination hrange
  have hid := commandIdOf_received hdecode hreceived
  refine ⟨address, octets, decoded, hget, hdecode, hreceived,
    supplies_received hnumber hdecode hsequence, ?_, ?_⟩
  · exact fun log result hrun =>
      run_handleRestRequest hencode (length_of_toJson hdecode) hid hget hrun
  · exact fun log result hrun => disposes_processInMessage hdecode hid hrun

/-- The same message as a deliver_sm. -/
def deliverMessage : Value := payloadMessage.assignKey "command_name" (.string "deliver_sm")

theorem inRange_deliverMessage : InRange deliverMessage .deliverSm submitSmFields := by
  have hget : ∀ {name}, name ≠ "command_name" → deliverMessage.get name = payloadMessage.get name :=
    fun hname => Value.get_assignKey_of_ne hname _ _
  have hfield : ∀ field ∈ submitSmFields,
      deliverMessage.get field.1 = payloadMessage.get field.1 := by
    intro field hmem
    apply hget
    intro hname
    exact fieldName_notMem_headerNames inRange_payloadMessage.table hmem (hname ▸ by decide)
  refine ⟨by decide, rfl, ⟨0, rfl⟩, ⟨0, rfl⟩, ?_, ?_, ?_⟩
  · intro field hmem codec value hcodec hvalue
    rw [hfield field hmem] at hvalue
    exact inRange_payloadMessage.field field hmem codec value hcodec hvalue
  · intro field hmem hnone
    rw [hfield field hmem]
    exact inRange_payloadMessage.required field hmem hnone
  · intro codec hcodec value hvalue
    have hname : codec.name ≠ "command_name" := by
      intro hname
      exact tlvName_notMem_headerNames hcodec (hname ▸ by decide)
    rw [hget hname] at hvalue
    exact inRange_payloadMessage.tlv codec hcodec value hvalue

theorem delivery_handed_over_deliverMessage :
    ∃ address octets decoded, deliverMessage.get "destination_addr" = some (.string address) ∧
      toJson octets = .ok decoded ∧ Received .deliverSm (given deliverMessage) decoded ∧
      Supplies deliverMessage "sequence_number" (sequenceNumberOf octets) ∧
      (∀ log result, Run (handleRestRequest Relay.plainServer deliverMessage) log result →
        ∃ reply, log = [⟨.sendMessage address octets, reply⟩]) ∧
      ∀ log result, Run (processInMessage plainConnection octets) log result →
        Disposes octets decoded log :=
  delivery_handed_over Relay.plainServer plainConnection inRange_deliverMessage

end Server

end SmppHerald.DeliveryHandover
