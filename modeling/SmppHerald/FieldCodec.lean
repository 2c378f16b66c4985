import SmppHerald.Buffer
import SmppHerald.Io
import SmppHerald.Json
import SmppHerald.Library.Base64

/-!
`field_codec.rs`: how the value of one field is written to and read from a PDU, and the tables of
the mandatory fields and of the TLVs. Encoding returns the octets a codec appends; what it had
appended before an error is dropped with the buffer by every caller.
-/

namespace SmppHerald.FieldCodecs

open SmppHerald.Buffer
open SmppHerald.ByteParser
open SmppHerald.Io
open SmppHerald.Json
open SmppHerald.Utf8

/-- The implementations of the trait `FieldCodec`. -/
inductive FieldCodec
  | u8
  | optionalU8 (defaultValue : UInt8)
  | varLengthInt
  | cOctetStr (maxLength : Nat)
  | octet (lengthIndicator : Bool) (lengthBytes : Nat)
  | u16
  | u32
  | array (itemCodec : FieldCodec)
  | composite (fields : List (String × FieldCodec))
  | destAddress
  | destAddresses

/-- The octets `VarLengthIntFieldCodec` writes, least significant first. Eight rounds exhaust a
`u64`. -/
def varLengthOctets : Nat → UInt64 → Bytes
  | 0, _ => []
  | rounds + 1, temp => if temp = 0 then [] else temp.toUInt8 :: varLengthOctets rounds (temp >>> 8)

theorem toNat_shiftRight_eight (n : UInt64) : (n >>> 8).toNat = n.toNat / 256 := by
  simp [UInt64.toNat_shiftRight, Nat.shiftRight_eq_div_pow]

theorem toNat_shiftRight_eight_lt {rounds : Nat} {n : UInt64} (h : n.toNat < 256 ^ (rounds + 1)) :
    (n >>> 8).toNat < 256 ^ rounds := by
  rw [toNat_shiftRight_eight, Nat.div_lt_iff_lt_mul (by decide), ← Nat.pow_succ]
  exact h

def writeLength (lengthBytes length : Nat) : Bytes :=
  match lengthBytes with
  | 1 => writeU8 (UInt8.ofNat length)
  | 2 => writeU16 (UInt16.ofNat length)
  | 4 => writeU32 (UInt32.ofNat length)
  | _ => []

def readLength (lengthBytes : Nat) : Parser Unit Nat :=
  match lengthBytes with
  | 1 => do
      let n ← readU8
      return n.toNat
  | 2 => do
      let n ← readU16
      return n.toNat
  | 4 => do
      let n ← readU32
      return n.toNat
  | _ => Parser.fail ()

/-- Encode items one after another; the first failure ends the encoding. -/
def encodeAll {α : Type} (encode : α → Outcome Bytes) : List α → Outcome Bytes
  | [] => .ok []
  | item :: items => do
      let first ← encode item
      let rest ← encodeAll encode items
      return first ++ rest

/-- `&s[0..max_length]` where the text is longer than the limit; a cut inside a character
panics. -/
def truncate (maxLength : Nat) (s : String) : Outcome String :=
  if maxLength < (bytes s).length then
    match cut s maxLength with
    | some s => .ok s
    | none => .panicked
  else .ok s

def encodeCOctetStr (maxLength : Nat) : Value → Outcome Bytes
  | .string s => do
      let s ← truncate maxLength s
      return writeCOctetStr s
  | _ => .err (invalidInput "Failed to encode c_octet_str")

/-- Text that is not Base64 is written as it stands. -/
def octetsOf (s : String) : Bytes :=
  match Base64.decode s with
  | some decoded => decoded
  | none => bytes s

def encodeOctet (lengthIndicator : Bool) (lengthBytes : Nat) : Value → Outcome Bytes
  | .string s =>
      let octets := octetsOf s
      .ok ((if lengthIndicator then writeLength lengthBytes octets.length else []) ++ octets)
  | _ => .err (invalidInput "Failed to encode OctetField")

def encodeDestAddress : Value → Outcome Bytes
  | .object map =>
      let destAddrTon := (((map.lookup "dest_addr_ton").bind Value.asU64).getD 0).toUInt8
      let destAddrNpi := (((map.lookup "dest_addr_npi").bind Value.asU64).getD 0).toUInt8
      match (map.lookup "destination_addr").bind Value.asStr with
      | some addr =>
          .ok (writeU8 1 ++ writeU8 destAddrTon ++ writeU8 destAddrNpi ++ writeCOctetStr addr)
      | none =>
          match (map.lookup "dl_name").bind Value.asStr with
          | some addr => .ok (writeU8 2 ++ writeCOctetStr addr)
          | none => .err (invalidInput "Failed to encode dest_addr")
  | _ => .err (invalidInput "Failed to encode dest_addr")

mutual

def FieldCodec.encode : FieldCodec → Value → Outcome Bytes
  | .u8, value =>
      match value.asU64 with
      | some n => .ok (writeU8 n.toUInt8)
      | none => .err (invalidInput "Failed to encode u8")
  | .optionalU8 defaultValue, value =>
      match value.asU64 with
      | some n => .ok (writeU8 (if n ≠ defaultValue.toUInt64 then n.toUInt8 else defaultValue))
      | none => .ok (writeU8 defaultValue)
  | .varLengthInt, value =>
      match value.asU64 with
      | some n => .ok (varLengthOctets 8 n)
      | none => .err (invalidInput "Failed to encode VarLengthInt")
  | .cOctetStr maxLength, value => encodeCOctetStr maxLength value
  | .octet lengthIndicator lengthBytes, value => encodeOctet lengthIndicator lengthBytes value
  | .u16, value =>
      match value.asU64 with
      | some n => .ok (writeU16 n.toUInt16)
      | none => .err (invalidInput "Failed to encode u16")
  | .u32, value =>
      match value.asU64 with
      | some n => .ok (writeU32 n.toUInt32)
      | none => .err (invalidInput "Failed to encode u32")
  | .array itemCodec, value =>
      match value.asArray with
      | some items =>
          if 255 < items.length then .err (invalidInput "Array length exceeds maximum of 255")
          else do
            let octets ← encodeAll (itemCodec.encode) items
            return writeU8 (UInt8.ofNat items.length) ++ octets
      | none => .err (invalidInput "Expected an array for encoding")
  | .composite fields, value => encodeFields fields value
  | .destAddress, value => encodeDestAddress value
  | .destAddresses, value =>
      match value.asArray with
      | some items => do
          let octets ← encodeAll encodeDestAddress items
          return writeU8 (UInt8.ofNat items.length) ++ octets
      | none => .err (invalidInput "Failed to encode dest_addresses")

def encodeFields : List (String × FieldCodec) → Value → Outcome Bytes
  | [], _ => .ok []
  | (name, codec) :: fields, value =>
      match value.get name with
      | some fieldValue => do
          let first ← codec.encode fieldValue
          let rest ← encodeFields fields value
          return first ++ rest
      | none => .err (invalidInput ("Missing field '" ++ name ++ "' for encoding"))

end

def readOctets (lengthIndicator : Bool) (lengthBytes : Nat) : Parser Unit Bytes :=
  if lengthIndicator then do
    let length ← readLength lengthBytes
    read length
  else readRemaining

def decodeOctet (lengthIndicator : Bool) (lengthBytes : Nat) : Parser Unit Value := do
  let octets ← readOctets lengthIndicator lengthBytes
  return .string (Base64.encode octets)

def decodeDestAddress : Parser IoError Value := do
  let failed := fun (_ : Unit) => invalidInput "Failed to decode dest_addr from buffer"
  let destFlag ← readU8.mapError failed
  if destFlag = 1 then
    let ton ← readU8.mapError failed
    let npi ← readU8.mapError failed
    let addr ← readCOctetStr.mapError failed
    return .object (insertAll [("dest_addr_ton", .ofNat ton.toNat),
      ("dest_addr_npi", .ofNat npi.toNat), ("destination_addr", .string addr)] [])
  else if destFlag = 2 then
    let addr ← readCOctetStr.mapError failed
    return .object (insertAll [("dl_name", .string addr)] [])
  else Parser.fail (invalidInput ("Unknown dest_flag value: " ++ toString destFlag.toNat))

mutual

def FieldCodec.decode : FieldCodec → Parser IoError Value
  | .u8 => do
      let n ← readU8.mapError fun _ => invalidInput "Failed to read u8 from buffer"
      return .ofNat n.toNat
  | .optionalU8 defaultValue => fun buffer =>
      match readU8 buffer with
      | (.ok n, rest) => (.ok (.ofNat n.toNat), rest)
      | (.error _, rest) => (.ok (.ofNat defaultValue.toNat), rest)
  | .varLengthInt => fun buffer =>
      (.ok (.number (.posInt (buffer.foldl (fun n b => n <<< 8 ||| b.toUInt64) 0))), [])
  | .cOctetStr _ => do
      let s ← readCOctetStr.mapError fun _ => invalidInput "Failed to read c_octet_str from buffer"
      return .string s
  | .octet lengthIndicator lengthBytes =>
      (decodeOctet lengthIndicator lengthBytes).mapError fun _ =>
        invalidInput "Failed to decode OctetField"
  | .u16 => do
      let n ← readU16.mapError fun _ => invalidInput "Failed to read u16 from buffer"
      return .ofNat n.toNat
  | .u32 => do
      let n ← readU32.mapError fun _ => invalidInput "Failed to read u32 from buffer"
      return .ofNat n.toNat
  | .array itemCodec => do
      let length ← readU8.mapError fun _ =>
        invalidInput "Failed to read array length from buffer"
      let items ← Parser.times length.toNat itemCodec.decode
      return .array items
  | .composite fields => do
      let entries ← decodeFields fields
      return .object (insertAll entries [])
  | .destAddress => decodeDestAddress
  | .destAddresses => do
      let numDests ← readU8.mapError fun _ => invalidInput "Failed to decode dest_addresses"
      let dests ← (Parser.times numDests.toNat decodeDestAddress).mapError fun _ =>
        invalidInput "Failed to decode one of the dest_addresses"
      return .array dests

def decodeFields : List (String × FieldCodec) → Parser IoError Map
  | [] => pure []
  | (name, codec) :: fields => do
      let value ← codec.decode.mapError fun _ =>
        invalidInput ("Failed to decode field '" ++ name ++ "'")
      let entries ← decodeFields fields
      return (name, value) :: entries

end

structure TLVFieldCodec where
  tag : UInt16
  name : String
  valueCodec : FieldCodec

/-- `{:04X}` and `{:08X}`: the last `width` hexadecimal digits, upper case. -/
def upperHex (width n : Nat) : String :=
  String.ofList ((List.range width).reverse.map fun i =>
    let digit := n / 16 ^ i % 16
    Char.ofNat (if digit < 10 then digit + 48 else digit + 55))

namespace TLVFieldCodec

def encode (codec : TLVFieldCodec) (value : Value) : Outcome Bytes := do
  let octets ← (codec.valueCodec.encode value).mapErr fun _ =>
    invalidInput "Failed to encode TLVField"
  return writeU16 codec.tag ++ writeU16 (UInt16.ofNat octets.length) ++ octets

def decode (codec : TLVFieldCodec) : Parser IoError Value := do
  let (tag, octets) ← readTlv.mapError fun _ => invalidInput "Failed to read TLV from buffer"
  if tag = codec.tag then codec.valueCodec.decode.within octets
  else Parser.fail (invalidInput ("Expected TLV tag " ++ upperHex 4 codec.tag.toNat ++
    " but found " ++ upperHex 4 tag.toNat))

end TLVFieldCodec

def createTlvFields : List TLVFieldCodec :=
  [⟨0x001D, "additional_status_info_text", .cOctetStr 256⟩,
   ⟨0x130C, "alert_on_message_delivery", .optionalU8 0⟩,
   ⟨0x060B, "billing_identification", .octet false 1⟩,
   ⟨0x0606, "broadcast_area_identifier", .octet false 1⟩,
   ⟨0x0608, "broadcast_area_success", .u8⟩,
   ⟨0x0602, "broadcast_content_type_info", .octet false 1⟩,
   ⟨0x0600, "broadcast_channel_indicator", .u8⟩,
   ⟨0x0601, "broadcast_content_type", .octet false 1⟩,
   ⟨0x0609, "broadcast_end_time", .cOctetStr 16⟩,
   ⟨0x0607, "broadcast_error_status", .u32⟩,
   ⟨0x0605, "broadcast_frequency_interval", .octet false 1⟩,
   ⟨0x0603, "broadcast_message_class", .u8⟩,
   ⟨0x0604, "broadcast_rep_num", .u16⟩,
   ⟨0x060A, "broadcast_service_group", .octet false 1⟩,
   ⟨0x0381, "callback_num", .octet false 1⟩,
   ⟨0x0303, "callback_num_atag", .octet false 1⟩,
   ⟨0x0302, "callback_num_pres_ind", .u8⟩,
   ⟨0x0428, "congestion_state", .u8⟩,
   ⟨0x0425, "delivery_failure_reason", .u8⟩,
   ⟨0x0613, "dest_addr_np_country", .varLengthInt⟩,
   ⟨0x0612, "dest_addr_np_information", .octet false 1⟩,
   ⟨0x0611, "dest_addr_np_resolution", .u8⟩,
   ⟨0x0005, "dest_addr_subunit", .u8⟩,
   ⟨0x0007, "dest_bearer_type", .u8⟩,
   ⟨0x060E, "dest_network_id", .cOctetStr 65⟩,
   ⟨0x0006, "dest_network_type", .u8⟩,
   ⟨0x0610, "dest_node_id", .octet false 1⟩,
   ⟨0x0203, "dest_subaddress", .octet false 1⟩,
   ⟨0x0008, "dest_telematics_id", .u16⟩,
   ⟨0x020B, "dest_port", .u16⟩,
   ⟨0x1201, "display_time", .u8⟩,
   ⟨0x0420, "dpf_result", .u8⟩,
   ⟨0x1380, "its_reply_type", .u8⟩,
   ⟨0x1383, "its_session_info", .octet false 1⟩,
   ⟨0x020D, "language_indicator", .u8⟩,
   ⟨0x0424, "message_payload", .octet false 1⟩,
   ⟨0x0427, "message_state", .u8⟩,
   ⟨0x0426, "more_messages_to_send", .u8⟩,
   ⟨0x0422, "ms_availability_status", .u8⟩,
   ⟨0x0030, "ms_msg_wait_facilities", .u8⟩,
   ⟨0x1204, "ms_validity", .octet false 1⟩,
   ⟨0x0423, "network_error_code", .octet false 1⟩,
   ⟨0x0304, "number_of_messages", .u8⟩,
   ⟨0x0019, "payload_type", .u8⟩,
   ⟨0x0201, "privacy_indicator", .u8⟩,
   ⟨0x0017, "qos_time_to_live", .u32⟩,
   ⟨0x001E, "receipted_message_id", .cOctetStr 65⟩,
   ⟨0x020C, "sar_msg_ref_num", .u16⟩,
   ⟨0x020F, "sar_segment_seqnum", .u8⟩,
   ⟨0x020E, "sar_total_segments", .u8⟩,
   ⟨0x0210, "sc_interface_version", .u8⟩,
   ⟨0x0421, "set_dpf", .u8⟩,
   ⟨0x1203, "sms_signal", .u16⟩,
   ⟨0x000D, "source_addr_subunit", .u8⟩,
   ⟨0x000F, "source_bearer_type", .u8⟩,
   ⟨0x060D, "source_network_id", .cOctetStr 65⟩,
   ⟨0x000E, "source_network_type", .u8⟩,
   ⟨0x060F, "source_node_id", .octet false 1⟩,
   ⟨0x020A, "source_port", .u16⟩,
   ⟨0x0202, "source_subaddress", .octet false 1⟩,
   ⟨0x0010, "source_telematics_id", .u8⟩,
   ⟨0x0204, "user_message_reference", .u16⟩,
   ⟨0x0205, "user_response_code", .u8⟩,
   ⟨0x0501, "ussd_service_op", .u8⟩]

theorem userMessageReference_mem :
    (⟨0x0204, "user_message_reference", .u16⟩ : TLVFieldCodec) ∈ createTlvFields := by
  simp [createTlvFields]

/-- The hash map `NAMED_TLV_FIELDS`, whose entries are visited in an order fixed by the process and
not by the program. -/
structure NamedTlvFields where
  entries : List TLVFieldCodec
  perm : entries.Perm createTlvFields

def taggedTlvFields (tag : UInt16) : Option TLVFieldCodec :=
  createTlvFields.find? fun codec => codec.tag = tag

def isValidTlvField (name : String) : Bool :=
  createTlvFields.any fun codec => codec.name = name

def unsuccessSmeCodec : FieldCodec :=
  .composite [("dest_addr_ton", .u8), ("dest_addr_npi", .u8),
    ("destination_addr", .cOctetStr 21), ("error_status_code", .u32)]

def createFieldCodecs : List (String × FieldCodec) :=
  [("system_id", .cOctetStr 16),
   ("password", .cOctetStr 9),
   ("system_type", .cOctetStr 13),
   ("interface_version", .u8),
   ("addr_ton", .u8),
   ("addr_npi", .u8),
   ("address_range", .cOctetStr 41),
   ("service_type", .cOctetStr 6),
   ("source_addr_ton", .u8),
   ("source_addr_npi", .u8),
   ("source_addr", .cOctetStr 21),
   ("dest_addr_ton", .u8),
   ("dest_addr_npi", .u8),
   ("destination_addr", .cOctetStr 21),
   ("esm_class", .u8),
   ("protocol_id", .u8),
   ("priority_flag", .u8),
   ("schedule_delivery_time", .cOctetStr 17),
   ("validity_period", .cOctetStr 17),
   ("registered_delivery", .u8),
   ("replace_if_present_flag", .u8),
   ("data_coding", .u8),
   ("sm_default_msg_id", .u8),
   ("sm_length", .u8),
   ("short_message", .octet true 1),
   ("message_id", .cOctetStr 65),
   ("final_date", .cOctetStr 17),
   ("message_state", .u8),
   ("error_code", .u8),
   ("number_of_dests", .u8),
   ("dest_flag", .u8),
   ("dest_addresses", .destAddresses),
   ("dl_name", .cOctetStr 21),
   ("unsuccess_smes", .array unsuccessSmeCodec),
   ("ms_availability_status", .u8),
   ("esme_addr_ton", .u8),
   ("esme_addr_npi", .u8),
   ("esme_addr", .cOctetStr 65)]

def fieldCodecs (name : String) : Option FieldCodec := createFieldCodecs.lookup name

end SmppHerald.FieldCodecs
