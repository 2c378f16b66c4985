import SmppHerald.DecodedMessage
import SmppHerald.ServerConnection

namespace SmppHerald.ResponseEncoding

open SmppHerald.Buffer
open SmppHerald.ByteParser
open SmppHerald.CommandIds
open SmppHerald.DecodedMessage
open SmppHerald.Encodability
open SmppHerald.FieldCodecs
open SmppHerald.Io
open SmppHerald.Json
open SmppHerald.Message
open SmppHerald.PduFormat
open SmppHerald.ServerConnection
open SmppHerald.ServerMessage
open SmppHerald.Utf8

section Words

def wordAt (offset : Nat) (pdu : SMPPMessage) : UInt32 :=
  UInt32.ofNat (beNat ((pdu.drop offset).take 4))

def commandIdOf (pdu : SMPPMessage) : UInt32 := wordAt 4 pdu

def sequenceNumberOf (pdu : SMPPMessage) : UInt32 := wordAt 12 pdu

/-- A PDU with a header that makes it the response to the request. -/
def RespondsTo (request response : SMPPMessage) : Prop :=
  16 ≤ response.length ∧ commandIdOf response = 0x80000000 ||| commandIdOf request ∧
    sequenceNumberOf response = sequenceNumberOf request

theorem not_respondsTo_nil (request : SMPPMessage) : ¬ RespondsTo request [] := by
  simp [RespondsTo]

theorem wordAt_append {front : Bytes} {offset : Nat} (hfront : front.length = offset)
    (word : UInt32) (rest : Bytes) : wordAt offset (front ++ (writeU32 word ++ rest)) = word := by
  have hlength : (writeU32 word).length = 4 := length_beBytes 4 _
  have hvalue : beNat (writeU32 word) = word.toNat := by
    rw [writeU32, beNat_beBytes]
    exact Nat.mod_eq_of_lt word.toNat_lt
  rw [wordAt, ← hfront, List.drop_left, ← hlength, List.take_left, hvalue, UInt32.ofNat_toNat]

theorem commandIdOf_header (length commandId commandStatus sequenceNumber : UInt32)
    (body : Bytes) :
    commandIdOf (header length commandId commandStatus sequenceNumber ++ body) = commandId := by
  simp only [header, List.append_assoc, commandIdOf]
  exact wordAt_append (length_beBytes 4 _) _ _

theorem sequenceNumberOf_header (length commandId commandStatus sequenceNumber : UInt32)
    (body : Bytes) :
    sequenceNumberOf (header length commandId commandStatus sequenceNumber ++ body) =
      sequenceNumber := by
  rw [header, List.append_assoc]
  exact wordAt_append (by simp [writeU32]) _ _

theorem exists_decoded_words {pdu : SMPPMessage} {message : Value} (h : toJson pdu = .ok message) :
    ∃ decoded : Decoded, decoded.value = message ∧ decoded.commandId = commandIdOf pdu ∧
      decoded.sequenceNumber = sequenceNumberOf pdu := by
  obtain ⟨length, commandId, commandStatus, sequenceNumber, body, rfl⟩ := exists_header_of_toJson h
  rw [toJson_header] at h
  obtain ⟨decoded, hvalue, hid, -, hnumber⟩ := exists_decoded_of_decodeBody h
  exact ⟨decoded, hvalue, by rw [hid, commandIdOf_header],
    by rw [hnumber, sequenceNumberOf_header]⟩

theorem sequenceField_of_toJson {pdu : SMPPMessage} {message : Value}
    (h : toJson pdu = .ok message) :
    (message.u64Field "sequence_number").toUInt32 = sequenceNumberOf pdu := by
  obtain ⟨decoded, rfl, -, hnumber⟩ := exists_decoded_words h
  have hget : decoded.value.get "sequence_number" = some (.ofNat decoded.sequenceNumber.toNat) :=
    decoded.get_header (by simp [headerEntries])
  rw [Value.u64Field, hget, ← hnumber]
  simp [Value.asU64, Value.ofNat, Number.asU64]

end Words

section Responses

/-- The additional fields leave the header of a response as it is. -/
def KeepsHeader (status : UInt32) (fields : Map) : Prop :=
  ∀ entry ∈ fields, entry.1 ≠ "command_id" ∧ entry.1 ≠ "sequence_number" ∧
    (entry.1 = "command_status" → entry.2 = .ofNat status.toNat)

variable {commandId sequenceNumber status : UInt32} {fields : Map}

theorem mem_responseEntries {entry : String × Value}
    (h : entry ∈ [("command_id", .string ("0x" ++ upperHex 8 (0x80000000 ||| commandId).toNat)),
      ("command_status", .ofNat status.toNat),
      ("sequence_number", .ofNat sequenceNumber.toNat)] ++ fields) :
    entry = ("command_id", .string ("0x" ++ upperHex 8 (0x80000000 ||| commandId).toNat)) ∨
      entry = ("command_status", .ofNat status.toNat) ∨
        entry = ("sequence_number", .ofNat sequenceNumber.toNat) ∨ entry ∈ fields := by
  simpa only [List.cons_append, List.nil_append, List.mem_cons] using h

theorem get_response_commandId (h : KeepsHeader status fields) :
    (createJsonResponse commandId sequenceNumber status fields).get "command_id" =
      some (.string ("0x" ++ upperHex 8 (0x80000000 ||| commandId).toNat)) := by
  refine lookup_insertAll_of_agree ?_ ⟨_, List.mem_append_left _ List.mem_cons_self, rfl⟩
  intro entry hentry hname
  rcases mem_responseEntries hentry with rfl | rfl | rfl | hfield
  · rfl
  · simp at hname
  · simp at hname
  · exact absurd hname (h entry hfield).1

theorem supplies_status (h : KeepsHeader status fields) :
    Supplies (createJsonResponse commandId sequenceNumber status fields) "command_status"
      status := by
  have hget : (createJsonResponse commandId sequenceNumber status fields).get "command_status" =
      some (.ofNat status.toNat) := by
    refine lookup_insertAll_of_agree ?_ ⟨("command_status", .ofNat status.toNat), by simp, rfl⟩
    intro entry hentry hname
    rcases mem_responseEntries hentry with rfl | rfl | rfl | hfield
    · simp at hname
    · rfl
    · simp at hname
    · exact (h entry hfield).2.2 hname
  rw [Supplies, hget]
  rfl

theorem supplies_sequenceNumber (h : KeepsHeader status fields) :
    Supplies (createJsonResponse commandId sequenceNumber status fields) "sequence_number"
      sequenceNumber := by
  have hget : (createJsonResponse commandId sequenceNumber status fields).get
      "sequence_number" = some (.ofNat sequenceNumber.toNat) := by
    refine lookup_insertAll_of_agree ?_
      ⟨("sequence_number", .ofNat sequenceNumber.toNat), by simp, rfl⟩
    intro entry hentry hname
    rcases mem_responseEntries hentry with rfl | rfl | rfl | hfield
    · simp at hname
    · simp at hname
    · rfl
    · exact absurd hname (h entry hfield).2.1
  rw [Supplies, hget]
  rfl

theorem get_response_field {name : String} (hname : name ∉ headerNames) :
    (createJsonResponse commandId sequenceNumber status fields).get name =
      fields.reverse.lookup name := by
  simp only [headerNames, List.mem_cons, not_or] at hname
  rw [createJsonResponse, Value.get, lookup_insertAll, List.reverse_append, List.lookup_append]
  simp [List.lookup_cons, beq_false_of_ne hname.2.1, beq_false_of_ne hname.2.2.1,
    beq_false_of_ne hname.2.2.2.1]

variable {namedTlvFields : NamedTlvFields} {responseFields : List CommandField}

theorem fromJson_response
    (hresponse : messageCommandFields (0x80000000 ||| commandId) = some responseFields)
    (h : KeepsHeader status fields) :
    fromJson namedTlvFields (createJsonResponse commandId sequenceNumber status fields) =
      encodeMessageWithFields namedTlvFields (0x80000000 ||| commandId)
        (createJsonResponse commandId sequenceNumber status fields) := by
  obtain ⟨command, hid, hstr⟩ := exists_command hresponse
  rw [fromJson, extractCommandId, get_response_commandId h]
  simp only
  rw [hstr]
  simp only [hid]

theorem respondsTo_of_fromJson {request octets : SMPPMessage}
    (hresponse : messageCommandFields (0x80000000 ||| commandIdOf request) = some responseFields)
    (h : KeepsHeader status fields)
    (hencode : fromJson namedTlvFields (createJsonResponse (commandIdOf request)
      (sequenceNumberOf request) status fields) = .ok octets) : RespondsTo request octets := by
  rw [fromJson_response hresponse h] at hencode
  obtain ⟨length, body, rfl⟩ :=
    exists_header_of_encode hencode (supplies_status h) (supplies_sequenceNumber h)
  refine ⟨?_, commandIdOf_header _ _ _ _ _, sequenceNumberOf_header _ _ _ _ _⟩
  rw [List.length_append, length_header]
  omega

theorem encodes_response_iff
    (hresponse : messageCommandFields (0x80000000 ||| commandId) = some responseFields)
    (h : KeepsHeader status fields) :
    (∃ octets, fromJson namedTlvFields
        (createJsonResponse commandId sequenceNumber status fields) = .ok octets) ↔
      (∀ field ∈ responseFields, ∃ octets, encodeField
          (createJsonResponse commandId sequenceNumber status fields) field = .ok octets) ∧
        ∀ codec ∈ createTlvFields, ∃ octets, encodeTlvField
          (createJsonResponse commandId sequenceNumber status fields) codec = .ok octets := by
  rw [fromJson_response hresponse h, encodeMessageWithFields_ok_iff hresponse]

end Responses

section Fields

theorem encodeField_text_iff {message : Value} {field : CommandField} {maxLength : Nat}
    {text : String} (hcodec : fieldCodecs field.1 = some (.cOctetStr maxLength))
    (hget : message.get field.1 = some (.string text)) :
    (∃ octets, encodeField message field = .ok octets) ↔ Truncatable maxLength text := by
  rw [encodeField_ok_iff hcodec, hget]
  simp only [Option.some_or, Option.some.injEq, exists_eq_left']
  rw [encode_ok_iff rfl]
  simp [Encodability.Encodable]

theorem encodeField_text_panicked_iff {message : Value} {field : CommandField} {maxLength : Nat}
    {text : String} (hcodec : fieldCodecs field.1 = some (.cOctetStr maxLength))
    (hget : message.get field.1 = some (.string text)) :
    encodeField message field = .panicked ↔ ¬ Truncatable maxLength text := by
  simp only [encodeField, hcodec, hget, Option.some_or, Outcome.mapErr_eq_panicked_iff]
  rw [encode_panicked_iff rfl]
  simp

theorem encodeField_octet {message : Value} {field : CommandField} {n : Nat}
    (hcodec : fieldCodecs field.1 = some .u8) (hget : message.get field.1 = some (.ofNat n)) :
    ∃ octets, encodeField message field = .ok octets := by
  rw [encodeField_ok_iff hcodec, hget]
  refine ⟨_, rfl, ?_⟩
  rw [encode_ok_iff rfl]
  exact ⟨_, rfl⟩

theorem encodeTlvField_absent {message : Value} {codec : TLVFieldCodec}
    (h : message.get codec.name = none) : ∃ octets, encodeTlvField message codec = .ok octets :=
  ⟨[], by rw [encodeTlvField, h]⟩

theorem not_encodeField_missing {message : Value} {name : String}
    (h : message.get name = none) : ¬ ∃ octets, encodeField message (name, none) = .ok octets := by
  rintro ⟨octets, hencode⟩
  simp only [encodeField, h, Option.or_none] at hencode
  split at hencode <;> simp at hencode

variable {commandId sequenceNumber status : UInt32} {namedTlvFields : NamedTlvFields}

theorem encodes_noFields_iff {responseFields : List CommandField}
    (hresponse : messageCommandFields (0x80000000 ||| commandId) = some responseFields)
    (hrequired : ∀ field ∈ responseFields, field.2 = none) :
    (∃ octets, fromJson namedTlvFields (createJsonResponse commandId sequenceNumber status []) =
      .ok octets) ↔ responseFields = [] := by
  have habsent : ∀ {name}, name ∉ headerNames →
      (createJsonResponse commandId sequenceNumber status []).get name = none := by
    intro name hname
    rw [get_response_field hname]
    rfl
  rw [encodes_response_iff hresponse (by simp [KeepsHeader])]
  constructor
  · rintro ⟨hmandatory, -⟩
    cases responseFields with
    | nil => rfl
    | cons field rest =>
        have hfield := hmandatory field List.mem_cons_self
        obtain ⟨name, default⟩ := field
        obtain rfl : default = none := hrequired (name, default) List.mem_cons_self
        have hname := fieldName_notMem_headerNames hresponse List.mem_cons_self
        exact absurd hfield (not_encodeField_missing (habsent hname))
  · rintro rfl
    refine ⟨by simp, ?_⟩
    intro codec hcodec
    exact encodeTlvField_absent (habsent (tlvName_notMem_headerNames hcodec))

theorem encodes_textField_iff {fields : Map} {text : String}
    (hresponse : messageCommandFields (0x80000000 ||| commandId) = some [("message_id", none)])
    (hkeeps : KeepsHeader status fields)
    (hget : fields.reverse.lookup "message_id" = some (.string text))
    (hnames : ∀ entry ∈ fields, isValidTlvField entry.1 = false) :
    (∃ octets, fromJson namedTlvFields (createJsonResponse commandId sequenceNumber status fields) =
      .ok octets) ↔ Truncatable 65 text := by
  have hfield : (createJsonResponse commandId sequenceNumber status fields).get "message_id" =
      some (.string text) := by
    rw [get_response_field (by decide), hget]
  rw [encodes_response_iff hresponse hkeeps, List.forall_mem_singleton,
    encodeField_text_iff rfl hfield]
  simp only [and_iff_left_iff_imp]
  intro _ codec hcodec
  refine encodeTlvField_absent ?_
  rw [get_response_field (tlvName_notMem_headerNames hcodec), List.lookup_eq_none_iff]
  intro entry hentry
  rw [bne_iff_ne]
  intro hname
  have hinvalid := hnames entry (List.mem_reverse.mp hentry)
  have hvalid : isValidTlvField entry.1 = true := by
    rw [isValidTlvField, List.any_eq_true]
    exact ⟨codec, hcodec, by simp [hname]⟩
  simp [hinvalid] at hvalid

theorem encodes_messageId_iff
    (hresponse : messageCommandFields (0x80000000 ||| commandId) = some [("message_id", none)])
    (text : String) :
    (∃ octets, fromJson namedTlvFields (messageIdResponse commandId sequenceNumber status text) =
      .ok octets) ↔ Truncatable 65 text :=
  encodes_textField_iff hresponse (by simp [KeepsHeader]) rfl (by simp; decide)

theorem encodeTlvField_response {fields : Map} {codec : TLVFieldCodec}
    (hcodec : codec ∈ createTlvFields)
    (hfields : ∀ entry ∈ fields, entry.1 = codec.name →
      codec.valueCodec = .u8 ∧ ∃ n, entry.2 = .ofNat n) :
    ∃ octets, encodeTlvField (createJsonResponse commandId sequenceNumber status fields) codec =
      .ok octets := by
  rw [encodeTlvField_ok_iff, get_response_field (tlvName_notMem_headerNames hcodec)]
  intro value hvalue
  rw [List.lookup_eq_some_iff] at hvalue
  obtain ⟨before, after, hsplit, -⟩ := hvalue
  have hmem : (codec.name, value) ∈ fields := by
    rw [← List.mem_reverse, hsplit]
    simp
  obtain ⟨hu8, n, rfl⟩ := hfields _ hmem rfl
  rw [hu8, encode_ok_iff rfl]
  exact ⟨_, rfl⟩

def bindResponse (commandId sequenceNumber status : UInt32) (systemId : String)
    (interfaceVersion : UInt8) : Value :=
  createJsonResponse commandId sequenceNumber status
    [("system_id", .string systemId), ("sc_interface_version", .ofNat interfaceVersion.toNat)]

theorem encodes_bind_iff
    (hresponse : messageCommandFields (0x80000000 ||| commandId) = some [("system_id", none)])
    (systemId : String) (interfaceVersion : UInt8) :
    (∃ octets, fromJson namedTlvFields
        (bindResponse commandId sequenceNumber status systemId interfaceVersion) = .ok octets) ↔
      Truncatable 16 systemId := by
  have hget : (bindResponse commandId sequenceNumber status systemId interfaceVersion).get
      "system_id" = some (.string systemId) := get_response_field (by decide)
  have hnames : ∀ codec ∈ createTlvFields, codec.name ≠ "system_id" ∧
      (codec.name = "sc_interface_version" → codec.tag = 0x0210) := by decide
  rw [bindResponse, encodes_response_iff hresponse (by simp [KeepsHeader]),
    List.forall_mem_singleton, encodeField_text_iff rfl hget]
  simp only [and_iff_left_iff_imp]
  intro _ codec hcodec
  refine encodeTlvField_response hcodec ?_
  intro entry hentry hname
  simp only [List.mem_cons, List.not_mem_nil, or_false] at hentry
  rcases hentry with rfl | rfl
  · exact absurd hname.symm (hnames codec hcodec).1
  · obtain rfl : ⟨0x0210, "sc_interface_version", .u8⟩ = codec :=
      tag_injective (by simp [createTlvFields]) hcodec ((hnames codec hcodec).2 hname.symm).symm
    exact ⟨rfl, _, rfl⟩

def queryResponse (commandId sequenceNumber status : UInt32) (messageId : String) : Value :=
  createJsonResponse commandId sequenceNumber status
    [("message_id", .string messageId), ("final_date", .string ""), ("message_state", .ofNat 5),
     ("error_code", .ofNat 0)]

/-- `message_state` is a TLV as well, so that the response has it twice. -/
theorem encodes_query_iff (messageId : String) :
    (∃ octets, fromJson namedTlvFields
        (queryResponse CommandId.querySm.asU32 sequenceNumber status messageId) = .ok octets) ↔
      Truncatable 65 messageId := by
  have hresponse : messageCommandFields (0x80000000 ||| CommandId.querySm.asU32) =
      some [("message_id", none), ("final_date", none), ("message_state", none),
        ("error_code", none)] := rfl
  have hget : ∀ {name}, name ∉ headerNames → (queryResponse CommandId.querySm.asU32 sequenceNumber
      status messageId).get name = [("error_code", .ofNat 0), ("message_state", .ofNat 5),
        ("final_date", .string ""), ("message_id", .string messageId)].lookup name :=
    fun hname => get_response_field hname
  have hnames : ∀ codec ∈ createTlvFields, codec.name ∉
      ["message_id", "final_date", "error_code"] ∧
      (codec.name = "message_state" → codec.tag = 0x0427) := by decide
  rw [queryResponse, encodes_response_iff hresponse (by simp [KeepsHeader])]
  simp only [List.forall_mem_cons, List.not_mem_nil, false_implies, implies_true, and_true]
  rw [encodeField_text_iff (show fieldCodecs "message_id" = _ from rfl) (hget (by decide))]
  constructor
  · rintro ⟨⟨hmessageId, -⟩, -⟩
    exact hmessageId
  · intro hmessageId
    refine ⟨⟨hmessageId, ?_, ?_, ?_⟩, ?_⟩
    · rw [encodeField_text_iff (show fieldCodecs "final_date" = _ from rfl) (hget (by decide))]
      exact .inl (by decide)
    · exact encodeField_octet rfl (hget (by decide))
    · exact encodeField_octet rfl (hget (by decide))
    · intro codec hcodec
      refine encodeTlvField_response hcodec ?_
      intro entry hentry hname
      obtain ⟨hother, hstate⟩ := hnames codec hcodec
      simp only [List.mem_cons, List.not_mem_nil, or_false, not_or] at hentry hother
      rcases hentry with rfl | rfl | rfl | rfl
      · exact absurd hname.symm hother.1
      · exact absurd hname.symm hother.2.1
      · obtain rfl : ⟨0x0427, "message_state", .u8⟩ = codec :=
          tag_injective (by simp [createTlvFields]) hcodec (hstate hname.symm).symm
        exact ⟨rfl, _, rfl⟩
      · exact absurd hname.symm hother.2.2

theorem encode_unsuccessSme_iff (addr : Address) :
    (∃ octets, unsuccessSmeCodec.encode (unsuccessSme addr) = .ok octets) ↔
      Truncatable 21 addr.address := by
  have hget : ∀ name, (unsuccessSme addr).get name =
      [("error_status_code", .ofNat CommandStatus.esmeRUnknownErr.asU32.toNat),
       ("destination_addr", .string addr.address), ("dest_addr_npi", .ofNat addr.npi.toNat),
       ("dest_addr_ton", .ofNat addr.ton.toNat)].lookup name := by
    intro name
    rw [unsuccessSme, Value.get, lookup_insertAll, List.lookup_nil, Option.or_none]
    rfl
  have hton : (unsuccessSme addr).get "dest_addr_ton" = some (.ofNat addr.ton.toNat) := hget _
  have hnpi : (unsuccessSme addr).get "dest_addr_npi" = some (.ofNat addr.npi.toNat) := hget _
  have haddr : (unsuccessSme addr).get "destination_addr" = some (.string addr.address) := hget _
  have hcode : (unsuccessSme addr).get "error_status_code" =
      some (.ofNat CommandStatus.esmeRUnknownErr.asU32.toNat) := hget _
  rw [unsuccessSmeCodec, FieldCodec.encode, encodeFields_ok_iff]
  simp only [List.forall_mem_cons, List.not_mem_nil, false_implies, implies_true, and_true, hton,
    hnpi, haddr, hcode, Option.some.injEq, exists_eq_left']
  rw [encode_ok_iff rfl, encode_ok_iff rfl, encode_ok_iff rfl, encode_ok_iff rfl]
  simp [Encodability.Encodable, Value.ofNat]

theorem encodes_submitMulti_iff (messageId : String) (hmessageId : Truncatable 65 messageId)
    (failedAddresses : List Address) :
    (∃ octets, fromJson namedTlvFields
        (submitMultiResponse sequenceNumber messageId failedAddresses) = .ok octets) ↔
      failedAddresses.length ≤ 255 ∧
        ∀ addr ∈ failedAddresses, Truncatable 21 addr.address := by
  have hresponse : messageCommandFields (0x80000000 ||| CommandId.submitMulti.asU32) =
      some [("message_id", none), ("unsuccess_smes", none)] := rfl
  have hget : ∀ {name}, name ∉ headerNames →
      (submitMultiResponse sequenceNumber messageId failedAddresses).get name =
        [("unsuccess_smes", .array (failedAddresses.map unsuccessSme)),
          ("message_id", .string messageId)].lookup name :=
    fun hname => get_response_field hname
  have hnames : ∀ codec ∈ createTlvFields,
      codec.name ∉ ["message_id", "unsuccess_smes"] := by decide
  have hkeeps : ∀ status, KeepsHeader status [("message_id", .string messageId),
      ("unsuccess_smes", .array (failedAddresses.map unsuccessSme))] := by
    intro status
    simp [KeepsHeader]
  rw [submitMultiResponse, encodes_response_iff hresponse (hkeeps _), ← submitMultiResponse]
  simp only [List.forall_mem_cons, List.not_mem_nil, false_implies, implies_true, and_true]
  rw [encodeField_text_iff (show fieldCodecs "message_id" = _ from rfl) (hget (by decide)),
    encodeField_ok_iff (show fieldCodecs "unsuccess_smes" = _ from rfl), hget (by decide)]
  have harray : ("unsuccess_smes" == "unsuccess_smes") = true := by decide
  simp only [List.lookup_cons, harray, Option.some_or, Option.some.injEq, exists_eq_left']
  rw [encode_array_ok_iff, List.length_map]
  simp only [List.forall_mem_map, encode_unsuccessSme_iff, hmessageId, true_and,
    and_iff_left_iff_imp]
  intro _ codec hcodec
  refine encodeTlvField_absent ?_
  have hname := hnames codec hcodec
  simp only [List.mem_cons, List.not_mem_nil, or_false, not_or] at hname
  rw [hget (tlvName_notMem_headerNames hcodec)]
  simp [List.lookup_cons, beq_false_of_ne hname.1, beq_false_of_ne hname.2]

end Fields

section MessageIds

theorem lowerHex_ascii (width n : Nat) : ∀ c ∈ lowerHex width n, c.utf8Size = 1 := by
  have hdigits : ∀ digit < 16,
      (Char.ofNat (if digit < 10 then digit + 48 else digit + 87)).utf8Size = 1 := by decide
  intro c hc
  simp only [lowerHex, List.mem_map] at hc
  obtain ⟨i, -, rfl⟩ := hc
  exact hdigits _ (Nat.mod_lt _ (by decide))

theorem length_lowerHex (width n : Nat) : (lowerHex width n).length = width := by
  simp [lowerHex]

theorem log_counter_lt (n : UInt64) : Nat.log 16 n.toNat < 16 := by
  have hlt : n.toNat < 2 ^ 64 := n.toNat_lt
  refine Nat.log_lt_of_lt_pow' (by decide) ?_
  rwa [show 16 = 2 ^ 4 from rfl, ← Nat.pow_mul]

theorem length_messageId (messageId : MessageId) : (bytes messageId.text).length ≤ 65 := by
  have hfront : ∀ c ∈ "msg-".toList, c.utf8Size = 1 := by
    simp
    decide
  have hdash : ∀ c ∈ ['-'], c.utf8Size = 1 := by
    simp
    decide
  cases messageId with
  | counter n =>
      have hlog := log_counter_lt n
      unfold MessageId.text generated
      rw [bytes_ofList, length_charBytes_ascii, List.length_append, length_lowerHex]
      · have hfour : "msg-".toList.length = 4 := rfl
        omega
      · exact List.forall_mem_append.mpr ⟨hfront, lowerHex_ascii _ _⟩
  | uuid high low =>
      unfold MessageId.text generated
      rw [bytes_ofList, length_charBytes_ascii]
      · simp [length_lowerHex]
      · simp only [List.forall_mem_append]
        exact ⟨hfront, ⟨⟨⟨⟨⟨⟨⟨lowerHex_ascii _ _, hdash⟩, lowerHex_ascii _ _⟩, hdash⟩,
          lowerHex_ascii _ _⟩, hdash⟩, lowerHex_ascii _ _⟩, hdash⟩, lowerHex_ascii _ _⟩

theorem truncatable_messageId (messageId : MessageId) : Truncatable 65 messageId.text :=
  .inl (length_messageId messageId)

end MessageIds

section HandlerResponses

/-- What the response takes over from the handler's reply. -/
def replyFields (value : Value) : Map :=
  extractTlvFieldsTo value [("message_id", .string (value.strField "message_id"))]

/-- The response made from what the message handler returned. -/
def handlerResponse (commandId sequenceNumber : UInt32) (value : Value) : Value :=
  createJsonResponse commandId sequenceNumber CommandStatus.esmeRok.asU32 (replyFields value)

/-- No TLV that is visited has a text that cannot be cut. A value that its codec refuses ends the
visit. -/
def TlvsCut (message : Value) : List TLVFieldCodec → Prop
  | [] => True
  | codec :: rest =>
      (∀ maxLength s, codec.valueCodec = .cOctetStr maxLength →
        message.get codec.name = some (.string s) → Truncatable maxLength s) ∧
      ((∀ value, message.get codec.name = some value →
          Encodability.Encodable codec.valueCodec value) →
        TlvsCut message rest)

theorem encodeTlvs_panicked_iff (message : Value) {entries : List TLVFieldCodec}
    (hentries : ∀ codec ∈ entries, codec ∈ createTlvFields) :
    encodeAll (encodeTlvField message) entries = .panicked ↔ ¬ TlvsCut message entries := by
  induction entries with
  | nil => simp [encodeAll, TlvsCut]
  | cons codec entries ih =>
      rw [List.forall_mem_cons] at hentries
      have hflat := flat_of_mem_createTlvFields hentries.1
      have hok : (∃ octets, encodeTlvField message codec = .ok octets) ↔
          ∀ value, message.get codec.name = some value →
            Encodability.Encodable codec.valueCodec value := by
        simp only [encodeTlvField_ok_iff, encode_ok_iff hflat]
      rw [encodeAll_cons_panicked_iff, encodeTlvField_panicked_iff message hflat, hok,
        ih hentries.2, TlvsCut]
      constructor
      · rintro (⟨maxLength, s, hcodec, hget, hcut⟩ | ⟨haccepted, hrest⟩) ⟨hfirst, htail⟩
        · exact hcut (hfirst maxLength s hcodec hget)
        · exact hrest (htail haccepted)
      · intro hnot
        by_cases hfirst : ∀ maxLength s, codec.valueCodec = .cOctetStr maxLength →
            message.get codec.name = some (.string s) → Truncatable maxLength s
        · exact .inr (Classical.not_imp.mp fun htail => hnot ⟨hfirst, htail⟩)
        · simp only [not_forall] at hfirst
          obtain ⟨maxLength, s, hcodec, hget, hcut⟩ := hfirst
          exact .inl ⟨maxLength, s, hcodec, hget, hcut⟩

theorem tlvsCut_congr {message message' : Value} {entries : List TLVFieldCodec}
    (h : ∀ codec ∈ entries, message.get codec.name = message'.get codec.name) :
    TlvsCut message entries ↔ TlvsCut message' entries := by
  induction entries with
  | nil => rfl
  | cons codec entries ih =>
      rw [List.forall_mem_cons] at h
      rw [TlvsCut, TlvsCut, h.1, ih h.2]

/-- The texts of the handler's reply are cut without a panic. -/
def ReplyCut (namedTlvFields : NamedTlvFields) (value : Value) : Prop :=
  Truncatable 65 (value.strField "message_id") ∧
    TlvsCut (.object (insertAll (replyFields value) [])) namedTlvFields.entries

variable {commandId sequenceNumber status : UInt32} {namedTlvFields : NamedTlvFields}

theorem keepsHeader_extractTlvFieldsTo (value : Value) {fields : Map}
    (h : KeepsHeader status fields) : KeepsHeader status (extractTlvFieldsTo value fields) := by
  cases value with
  | object map =>
      refine List.forall_mem_append.mpr ⟨h, ?_⟩
      intro entry hentry
      obtain ⟨-, hvalid⟩ := List.mem_filter.mp hentry
      rw [isValidTlvField, List.any_eq_true] at hvalid
      obtain ⟨codec, hcodec, hname⟩ := hvalid
      have hheader := tlvName_notMem_headerNames hcodec
      rw [show codec.name = entry.1 by simpa using hname] at hheader
      simp only [headerNames, List.mem_cons, not_or] at hheader
      exact ⟨hheader.2.1, hheader.2.2.2.1, fun hstatus => absurd hstatus hheader.2.2.1⟩
  | _ => exact h

theorem keepsHeader_replyFields (value : Value) : KeepsHeader status (replyFields value) :=
  keepsHeader_extractTlvFieldsTo value (by simp [KeepsHeader])

theorem get_handlerResponse_messageId (value : Value) :
    (handlerResponse commandId sequenceNumber value).get "message_id" =
      some (.string (value.strField "message_id")) := by
  have hinvalid : isValidTlvField "message_id" = false := by decide
  rw [handlerResponse, get_response_field (by decide)]
  cases hvalue : value with
  | object map =>
      rw [replyFields, extractTlvFieldsTo, List.reverse_append, List.lookup_append]
      have hnone : (map.filter fun entry => isValidTlvField entry.1).reverse.lookup
          "message_id" = none := by
        rw [List.lookup_eq_none_iff]
        intro entry hentry
        obtain ⟨-, hvalid⟩ := List.mem_filter.mp (List.mem_reverse.mp hentry)
        rw [bne_iff_ne]
        intro hname
        simp [← hname, hinvalid] at hvalid
      rw [hnone]
      rfl
  | _ => rfl

theorem fromJson_handlerResponse_panicked_iff
    (hresponse : messageCommandFields (0x80000000 ||| commandId) = some [("message_id", none)])
    (value : Value) :
    fromJson namedTlvFields (handlerResponse commandId sequenceNumber value) = .panicked ↔
      ¬ ReplyCut namedTlvFields value := by
  have hget := @get_handlerResponse_messageId commandId sequenceNumber value
  have hfield : (∃ octets, encodeField (handlerResponse commandId sequenceNumber value)
      ("message_id", none) = .ok octets) ↔ Truncatable 65 (value.strField "message_id") :=
    encodeField_text_iff rfl hget
  have hpanic : encodeField (handlerResponse commandId sequenceNumber value)
      ("message_id", none) = .panicked ↔ ¬ Truncatable 65 (value.strField "message_id") :=
    encodeField_text_panicked_iff rfl hget
  have hmandatory : encodeAll (encodeField (handlerResponse commandId sequenceNumber value))
      [("message_id", none)] = .panicked ↔ ¬ Truncatable 65 (value.strField "message_id") := by
    rw [encodeAll_cons_panicked_iff, hpanic]
    simp [encodeAll]
  have hencoded : (∃ octets, encodeAll
      (encodeField (handlerResponse commandId sequenceNumber value)) [("message_id", none)] =
        .ok octets) ↔ Truncatable 65 (value.strField "message_id") := by
    rw [encodeAll_ok_iff, List.forall_mem_singleton, hfield]
  have hknown : ∀ codec ∈ namedTlvFields.entries, codec ∈ createTlvFields :=
    fun codec hcodec => namedTlvFields.perm.mem_iff.mp hcodec
  have htlvs : encodeAll (encodeTlvField (handlerResponse commandId sequenceNumber value))
      namedTlvFields.entries = .panicked ↔
        ¬ TlvsCut (.object (insertAll (replyFields value) [])) namedTlvFields.entries := by
    rw [encodeTlvs_panicked_iff _ hknown]
    refine not_congr (tlvsCut_congr fun codec hcodec => ?_)
    rw [handlerResponse, get_response_field (tlvName_notMem_headerNames (hknown codec hcodec)),
      Value.get, lookup_insertAll, List.lookup_nil, Option.or_none]
  rw [handlerResponse, fromJson_response hresponse (keepsHeader_replyFields value),
    ← handlerResponse]
  simp only [encodeMessageWithFields, hresponse]
  refine Outcome.bind_eq_panicked_iff.trans ?_
  rw [hmandatory, ReplyCut, not_and_or, ← htlvs]
  constructor
  · rintro (hcut | ⟨mandatory, -, hrest⟩)
    · exact .inl hcut
    · rcases Outcome.bind_eq_panicked_iff.mp hrest with htlv | ⟨tlvs, -, hpure⟩
      · exact .inr htlv
      · simp [pure] at hpure
  · rintro (hcut | htlv)
    · exact .inl hcut
    · by_cases hcut : Truncatable 65 (value.strField "message_id")
      · obtain ⟨mandatory, hok⟩ := hencoded.mpr hcut
        exact .inr ⟨mandatory, hok, Outcome.bind_eq_panicked_iff.mpr (.inl htlv)⟩
      · exact .inl hcut

end HandlerResponses

end SmppHerald.ResponseEncoding
