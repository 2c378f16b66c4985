import SmppHerald.CommandIds
import SmppHerald.FieldCodec

namespace SmppHerald.Message

open SmppHerald.Buffer
open SmppHerald.ByteParser
open SmppHerald.CommandIds
open SmppHerald.FieldCodecs
open SmppHerald.Io
open SmppHerald.Json

/-- A mandatory field of a command: its name and the value it takes when a message omits it. -/
abbrev CommandField := String × Option Value

def submitSmFields : List CommandField :=
  [("service_type", some (.string "")), ("source_addr_ton", some (.ofNat 0)),
   ("source_addr_npi", some (.ofNat 0)), ("source_addr", some (.string "")),
   ("dest_addr_ton", some (.ofNat 0)), ("dest_addr_npi", some (.ofNat 0)),
   ("destination_addr", none), ("esm_class", some (.ofNat 0)),
   ("protocol_id", some (.ofNat 0)), ("priority_flag", some (.ofNat 0)),
   ("schedule_delivery_time", some (.string "")), ("validity_period", some (.string "")),
   ("registered_delivery", some (.ofNat 0)), ("replace_if_present_flag", some (.ofNat 0)),
   ("data_coding", some (.ofNat 0)), ("sm_default_msg_id", some (.ofNat 0)),
   ("short_message", none)]

def dataSmFields : List CommandField :=
  [("service_type", some (.string "")), ("source_addr_ton", some (.ofNat 0)),
   ("source_addr_npi", some (.ofNat 0)), ("source_addr", some (.string "")),
   ("dest_addr_ton", some (.ofNat 0)), ("dest_addr_npi", some (.ofNat 0)),
   ("destination_addr", none), ("esm_class", some (.ofNat 0)),
   ("registered_delivery", some (.ofNat 0)), ("data_coding", some (.ofNat 0))]

def deliverSmFields : List CommandField :=
  [("service_type", some (.string "")), ("source_addr_ton", some (.ofNat 0)),
   ("source_addr_npi", some (.ofNat 0)), ("source_addr", some (.string "")),
   ("dest_addr_ton", some (.ofNat 0)), ("dest_addr_npi", some (.ofNat 0)),
   ("destination_addr", none), ("esm_class", some (.ofNat 0)),
   ("protocol_id", some (.ofNat 0)), ("priority_flag", some (.ofNat 0)),
   ("schedule_delivery_time", some (.string "")), ("validity_period", some (.string "")),
   ("registered_delivery", some (.ofNat 0)), ("replace_if_present_flag", some (.ofNat 0)),
   ("data_coding", some (.ofNat 0)), ("sm_default_msg_id", some (.ofNat 0)),
   ("short_message", none)]

def createCommandFields : List (CommandId × List CommandField) :=
  [(.bindTransmitter,
     [("system_id", none), ("password", none), ("system_type", none),
      ("interface_version", some (.ofNat 0x34)), ("addr_ton", some (.ofNat 0)),
      ("addr_npi", some (.ofNat 0)), ("address_range", none)]),
   (.bindTransmitterResp,
     [("system_id", none)]),
   (.bindReceiver,
     [("system_id", none), ("password", none), ("system_type", none),
      ("interface_version", some (.ofNat 0x34)), ("addr_ton", some (.ofNat 0)),
      ("addr_npi", some (.ofNat 0)), ("address_range", none)]),
   (.bindReceiverResp,
     [("system_id", none)]),
   (.bindTransceiver,
     [("system_id", none), ("password", none), ("system_type", none),
      ("interface_version", some (.ofNat 0x34)), ("addr_ton", some (.ofNat 0)),
      ("addr_npi", some (.ofNat 0)), ("address_range", none)]),
   (.bindTransceiverResp,
     [("system_id", none)]),
   (.outbind,
     [("system_id", none), ("password", none)]),
   (.unbind, []),
   (.unbindResp, []),
   (.enquireLink, []),
   (.enquireLinkResp, []),
   (.alertNotification,
     [("source_addr_ton", some (.ofNat 0)), ("source_addr_npi", some (.ofNat 0)),
      ("source_addr", none), ("esme_addr_ton", some (.ofNat 0)),
      ("esme_addr_npi", some (.ofNat 0)), ("esme_addr", none)]),
   (.genericNack, []),
   (.submitSm, submitSmFields),
   (.submitSmResp,
     [("message_id", none)]),
   (.dataSm, dataSmFields),
   (.dataSmResp,
     [("message_id", none)]),
   (.submitMulti,
     [("service_type", some (.string "")), ("source_addr_ton", some (.ofNat 0)),
      ("source_addr_npi", some (.ofNat 0)), ("source_addr", some (.string "")),
      ("dest_addresses", none), ("esm_class", some (.ofNat 0)),
      ("protocol_id", some (.ofNat 0)), ("priority_flag", some (.ofNat 0)),
      ("schedule_delivery_time", some (.string "")), ("validity_period", some (.string "")),
      ("registered_delivery", some (.ofNat 0)), ("replace_if_present_flag", some (.ofNat 0)),
      ("data_coding", some (.ofNat 0)), ("sm_default_msg_id", some (.ofNat 0)),
      ("short_message", none)]),
   (.submitMultiResp,
     [("message_id", none), ("unsuccess_smes", none)]),
   (.deliverSm, deliverSmFields),
   (.deliverSmResp,
     [("message_id", none)]),
   (.broadcastSm,
     [("service_type", some (.string "")), ("source_addr_ton", some (.ofNat 0)),
      ("source_addr_npi", some (.ofNat 0)), ("source_addr", some (.string "")),
      ("message_id", some (.string "")), ("priority_flag", some (.ofNat 0)),
      ("schedule_delivery_time", some (.string "")), ("validity_period", some (.string "")),
      ("replace_if_present_flag", some (.ofNat 0)), ("data_coding", some (.ofNat 0)),
      ("sm_default_msg_id", some (.ofNat 0))]),
   (.broadcastSmResp,
     [("message_id", none)]),
   (.cancelSm,
     [("service_type", some (.string "")), ("message_id", some (.string "")),
      ("source_addr_ton", some (.ofNat 0)), ("source_addr_npi", some (.ofNat 0)),
      ("source_addr", some (.string "")), ("dest_addr_ton", some (.ofNat 0)),
      ("dest_addr_npi", some (.ofNat 0)), ("destination_addr", some (.string ""))]),
   (.cancelSmResp, []),
   (.querySm,
     [("message_id", none), ("source_addr_ton", some (.ofNat 0)),
      ("source_addr_npi", some (.ofNat 0)), ("source_addr", some (.string ""))]),
   (.querySmResp,
     [("message_id", none), ("final_date", none), ("message_state", none),
      ("error_code", none)]),
   (.replaceSm,
     [("message_id", none), ("source_addr_ton", some (.ofNat 0)),
      ("source_addr_npi", some (.ofNat 0)), ("source_addr", some (.string "")),
      ("schedule_delivery_time", some (.string "")), ("validity_period", some (.string "")),
      ("registered_delivery", some (.ofNat 0)), ("sm_default_msg_id", some (.ofNat 0)),
      ("short_message", none)]),
   (.replaceSmResp, []),
   (.queryBroadcastSm,
     [("message_id", some (.string "")), ("source_addr_ton", some (.ofNat 0)),
      ("source_addr_npi", some (.ofNat 0)), ("source_addr", some (.string ""))]),
   (.queryBroadcastSmResp,
     [("message_id", none), ("message_state", none)]),
   (.cancelBroadcastSm,
     [("service_type", some (.string "")), ("message_id", some (.string "")),
      ("source_addr_ton", some (.ofNat 0)), ("source_addr_npi", some (.ofNat 0)),
      ("source_addr", some (.string ""))]),
   (.cancelBroadcastSmResp, [])]

/-- The static map `MESSAGE_COMMAND_FIELDS`. -/
def messageCommandFields (commandId : UInt32) : Option (List CommandField) :=
  (createCommandFields.find? fun entry => entry.1.asU32 = commandId).map Prod.snd

def extractCommandId (message : Value) : Option CommandId :=
  match message.get "command_id" with
  | some (.number n) => n.asU64.bind fun n => CommandId.fromU32 n.toUInt32
  | some (.string commandName) => CommandId.fromStr commandName
  | _ =>
      match message.get "command_name" with
      | some (.string commandName) => CommandId.fromStr commandName
      | _ => none

theorem extractCommandId_congr {message message' : Value}
    (hid : message'.get "command_id" = message.get "command_id")
    (hname : message'.get "command_name" = message.get "command_name") :
    extractCommandId message' = extractCommandId message := by
  unfold extractCommandId
  rw [hid, hname]

def createJsonRequest (commandId sequenceNumber : UInt32) (additionalFields : Map) : Value :=
  .object (insertAll
    ([("command_id", .string ("0x" ++ upperHex 8 commandId.toNat)),
      ("sequence_number", .ofNat sequenceNumber.toNat)] ++ additionalFields) [])

def createJsonResponse (commandId sequenceNumber commandStatus : UInt32)
    (additionalFields : Map) : Value :=
  .object (insertAll
    ([("command_id", .string ("0x" ++ upperHex 8 (0x80000000 ||| commandId).toNat)),
      ("command_status", .ofNat commandStatus.toNat),
      ("sequence_number", .ofNat sequenceNumber.toNat)] ++ additionalFields) [])

section Encode

/-- A header word the message supplies, or zero. Nothing is written for a value that is not an
unsigned integer. -/
def headerWord (message : Value) (key : String) : Bytes :=
  match ((message.get key).getD (.ofNat 0)).asU64 with
  | some n => writeU32 n.toUInt32
  | none => []

def encodeField (message : Value) (field : CommandField) : Outcome Bytes :=
  match fieldCodecs field.1 with
  | some codec =>
      match (message.get field.1).or field.2 with
      | some value =>
          (codec.encode value).mapErr fun _ =>
            invalidInput ("Failed to encode field: " ++ field.1)
      | none => .err (invalidInput ("Missing field: " ++ field.1))
  | none => .err (invalidInput ("Unknown field: " ++ field.1))

def encodeTlvField (message : Value) (codec : TLVFieldCodec) : Outcome Bytes :=
  match message.get codec.name with
  | some value =>
      (codec.encode value).mapErr fun _ =>
        invalidInput ("Failed to encode TLV field: " ++ codec.name)
  | none => .ok []

def updateLength (message : SMPPMessage) : SMPPMessage :=
  writeU32 (UInt32.ofNat message.length) ++ message.drop 4

def encodeMessageWithFields (namedTlvFields : NamedTlvFields) (commandId : UInt32)
    (message : Value) : Outcome SMPPMessage :=
  match messageCommandFields commandId with
  | none => .err (invalidInput ("Unknown command_id: 0x" ++ upperHex 8 commandId.toNat))
  | some fields => do
      let mandatory ← encodeAll (encodeField message) fields
      let tlvs ← encodeAll (encodeTlvField message) namedTlvFields.entries
      return updateLength (writeU32 0 ++ writeU32 commandId ++ headerWord message "command_status" ++
        headerWord message "sequence_number" ++ mandatory ++ tlvs)

def fromJson (namedTlvFields : NamedTlvFields) (message : Value) : Outcome SMPPMessage :=
  match extractCommandId message with
  | some commandId => encodeMessageWithFields namedTlvFields commandId.asU32 message
  | none => .err (invalidInput "Missing command_id/command_name in message")

end Encode

section Decode

def decodeField (field : CommandField) : Parser IoError (String × Value) :=
  match fieldCodecs field.1 with
  | some codec => do
      let value ← codec.decode.mapError fun _ =>
        invalidInput ("Failed to decode field: " ++ field.1)
      return (field.1, value)
  | none => Parser.fail (invalidInput ("Unknown field: " ++ field.1))

def decodeMandatory : List CommandField → Parser IoError Map
  | [] => pure []
  | field :: fields => do
      let entry ← decodeField field
      let entries ← decodeMandatory fields
      return entry :: entries

/-- The TLV loop of `to_json`. Every round takes at least the two octets of the tag, so there are
never more rounds than octets. -/
def decodeTlvs : Nat → Bytes → Except IoError Map
  | 0, _ => .ok []
  | rounds + 1, buffer =>
      match peekTlvTag buffer with
      | none => .ok []
      | some tag =>
          match taggedTlvFields tag with
          | none => .error (invalidInput ("Unknown TLV tag: 0x" ++ upperHex 4 tag.toNat))
          | some codec =>
              let (value, rest) := codec.decode buffer
              -- a TLV that cannot be decoded is reported as null
              let value := match value with
                | .ok value => value
                | .error _ => .null
              (decodeTlvs rounds rest).map ((codec.name, value) :: ·)

def headerEntries (commandId commandStatus sequenceNumber : UInt32) : Map :=
  [("command_name", .string ((CommandId.fromU32 commandId).elim "Unknown" CommandId.toStr)),
   ("command_id", .string ("0x" ++ upperHex 8 commandId.toNat)),
   ("command_status", .ofNat commandStatus.toNat),
   ("sequence_number", .ofNat sequenceNumber.toNat)]

/-- What `to_json` does once it has read the header. -/
def decodeBody (commandId commandStatus sequenceNumber : UInt32) (buffer : Bytes) :
    Except IoError Value :=
  match messageCommandFields commandId with
  | none => .error (invalidInput ("Unknown command_id: 0x" ++ upperHex 8 commandId.toNat))
  | some fields =>
      match decodeMandatory fields buffer with
      | (.error e, _) => .error e
      | (.ok entries, rest) =>
          (decodeTlvs rest.length rest).map fun tlvs =>
            .object (insertAll
              (headerEntries commandId commandStatus sequenceNumber ++ entries ++ tlvs) [])

def toJson (message : SMPPMessage) : Except IoError Value :=
  let (_, buffer) := readU32 message
  let (commandId, buffer) := readU32 buffer
  let (commandStatus, buffer) := readU32 buffer
  let (sequenceNumber, buffer) := readU32 buffer
  match sequenceNumber with
  | .error _ => .error (invalidInput "Failed to read sequence_number")
  | .ok sequenceNumber =>
      decodeBody (commandId.toOption.getD 0) (commandStatus.toOption.getD 0) sequenceNumber buffer

end Decode

end SmppHerald.Message
