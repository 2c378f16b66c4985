import SmppHerald.DecodedMessage
import SmppHerald.ServerConnection

namespace SmppHerald.Relay

open SmppHerald.Buffer
open SmppHerald.ByteParser
open SmppHerald.CommandIds
open SmppHerald.DecodedMessage
open SmppHerald.Encodability
open SmppHerald.FieldCodecs
open SmppHerald.Interaction
open SmppHerald.Io
open SmppHerald.Json
open SmppHerald.Message
open SmppHerald.PduFormat
open SmppHerald.ServerConnection
open SmppHerald.ServerMessage

section Encodable

/-- What holds of a decoded submit_sm or data_sm, with the mandatory fields `fields`, and is kept
by everything the server does to it before it relays it. -/
structure Relayable (fields : List CommandField) (message : Value) : Prop where
  object : ∃ map, message = .object map
  commandId : ∃ value, message.get "command_id" = some value
  field : ∀ field ∈ fields, ∃ codec value, fieldCodecs field.1 = some codec ∧
    message.get field.1 = some value ∧ Shaped codec value
  tlv : ∀ codec ∈ createTlvFields, ∀ value, message.get codec.name = some value →
    value = .null ∨ Shaped codec.valueCodec value
  absent : (∀ field ∈ fields, field.1 ≠ "short_message") → message.get "short_message" = none

/-- Fields of single values that are no TLVs as well. -/
def PlainFields (fields : List CommandField) : Prop :=
  ∀ field ∈ fields, isValidTlvField field.1 = false ∧
    ∀ codec, fieldCodecs field.1 = some codec → flat codec = true

theorem plainFields_of_check {fields : List CommandField}
    (h : ∀ field ∈ fields, isValidTlvField field.1 = false ∧
      ((fieldCodecs field.1).map flat).getD true = true) : PlainFields fields := by
  intro field hfield
  refine ⟨(h field hfield).1, ?_⟩
  intro codec hcodec
  simpa [hcodec] using (h field hfield).2

theorem plainFields_submitSm : PlainFields submitSmFields := plainFields_of_check (by decide)

theorem plainFields_dataSm : PlainFields dataSmFields := plainFields_of_check (by decide)

theorem Relayable.of_decoded {decoded : Decoded} (h : PlainFields decoded.fields) :
    Relayable decoded.fields decoded.value where
  object := ⟨_, rfl⟩
  commandId := ⟨.string ("0x" ++ upperHex 8 decoded.commandId.toNat),
    decoded.get_header (by simp [headerEntries])⟩
  field := by
    intro field hfield
    obtain ⟨hname, hflat⟩ := h field hfield
    obtain ⟨codec, value, hcodec, hget, hshaped⟩ := decoded.get_field hfield hname
    exact ⟨codec, value, hcodec, hget, hshaped (hflat codec hcodec)⟩
  tlv := by
    intro codec hcodec value hget
    refine decoded.get_tlv hcodec ?_ hget
    intro field hfield hname
    have hvalid : isValidTlvField field.1 = true := by
      rw [isValidTlvField, List.any_eq_true]
      exact ⟨codec, hcodec, by simpa using hname.symm⟩
    simp [(h field hfield).1] at hvalid
  absent := fun hfield => decoded.get_other (by decide) hfield (by decide)

theorem Relayable.assignKey {fields : List CommandField} {message : Value}
    (h : Relayable fields message) {key : String} {codec : FieldCodec} {value : Value}
    (hcodec : fieldCodecs key = some codec) (hshaped : Shaped codec value)
    (htlv : isValidTlvField key = false) (hcommand : key ≠ "command_id") :
    Relayable fields (message.assignKey key value) where
  object := by
    obtain ⟨map, rfl⟩ := h.object
    exact ⟨_, rfl⟩
  commandId := by
    rw [Value.get_assignKey_of_ne hcommand.symm]
    exact h.commandId
  field := by
    intro field hfield
    obtain ⟨codec', value', hcodec', hget, hshaped'⟩ := h.field field hfield
    by_cases hname : field.1 = key
    · rw [hname] at hget ⊢
      rw [Value.get_assignKey_self, hget]
      exact ⟨codec, value, hcodec, rfl, hshaped⟩
    · rw [Value.get_assignKey_of_ne hname]
      exact ⟨codec', value', hcodec', hget, hshaped'⟩
  tlv := by
    intro codec' hcodec' value' hget
    have hname : codec'.name ≠ key := by
      rintro rfl
      have hvalid : isValidTlvField codec'.name = true := by
        rw [isValidTlvField, List.any_eq_true]
        exact ⟨codec', hcodec', by simp⟩
      simp [htlv] at hvalid
    rw [Value.get_assignKey_of_ne hname] at hget
    exact h.tlv codec' hcodec' value' hget
  absent := by
    intro hfield
    by_cases hname : "short_message" = key
    · subst hname
      rw [Value.get_assignKey_self, h.absent hfield]
      rfl
    · rw [Value.get_assignKey_of_ne hname]
      exact h.absent hfield

theorem Relayable.insertSequenceNumber {fields : List CommandField} {message : Value}
    (h : Relayable fields message) (hfields : ∀ field ∈ fields, field.1 ≠ "sequence_number")
    (value : Value) : Relayable fields (message.insertKey "sequence_number" value) where
  object := by
    obtain ⟨map, rfl⟩ := h.object
    exact ⟨_, rfl⟩
  commandId := by
    rw [Value.get_insertKey_of_ne (by decide)]
    exact h.commandId
  field := by
    intro field hfield
    rw [Value.get_insertKey_of_ne (hfields field hfield)]
    exact h.field field hfield
  tlv := by
    intro codec hcodec value' hget
    have hname : codec.name ≠ "sequence_number" := by
      intro hname
      exact tlvName_notMem_headerNames hcodec (by simp [hname, headerNames])
    rw [Value.get_insertKey_of_ne hname] at hget
    exact h.tlv codec hcodec value' hget
  absent := by
    intro hfield
    rw [Value.get_insertKey_of_ne (by decide)]
    exact h.absent hfield

theorem Relayable.prepare {fields : List CommandField} {message prepared : Value}
    (h : Relayable fields message) (hfields : ∀ field ∈ fields, field.1 ≠ "sequence_number")
    {config : ServerConfig} {n : UInt32}
    (hprepare : prepareDataSubmitSm config n message = .ok prepared) :
    Relayable fields prepared := by
  obtain ⟨replaced, hreplaced, hrest⟩ := Outcome.bind_eq_ok_iff.mp hprepare
  obtain rfl := Outcome.ok.inj hrest
  have hreplacedRelayable : Relayable fields replaced := by
    have hcleared : Relayable fields (message.assignKey "sm_default_msg_id" (.ofNat 0)) :=
      h.assignKey rfl ⟨_, rfl⟩ (by decide) (by decide)
    rcases replaceSmDefaultMsgId_ok hreplaced with rfl | rfl | ⟨text, rfl⟩
    · exact h
    · exact hcleared
    · exact hcleared.assignKey rfl ⟨_, rfl⟩ (by decide) (by decide)
  apply Relayable.insertSequenceNumber _ hfields
  unfold setServiceType
  split
  · exact hreplacedRelayable.assignKey rfl ⟨_, rfl⟩ (by decide) (by decide)
  · exact hreplacedRelayable

/-- Every text that is too long for its field can be cut at the limit. -/
def TextsTruncatable (message : Value) : Prop :=
  (∀ field ∈ deliverSmFields, ∀ maxLength s, fieldCodecs field.1 = some (.cOctetStr maxLength) →
      message.get field.1 = some (.string s) → Truncatable maxLength s) ∧
    ∀ codec ∈ createTlvFields, ∀ maxLength s, codec.valueCodec = .cOctetStr maxLength →
      message.get codec.name = some (.string s) → Truncatable maxLength s

/-- No TLV was decoded to null, except the one whose codec has a default. -/
def NoNullTlv (message : Value) : Prop :=
  ∀ codec ∈ createTlvFields, codec.name ≠ "alert_on_message_delivery" →
    message.get codec.name ≠ some .null

def isOptionalU8 : FieldCodec → Bool
  | .optionalU8 _ => true
  | _ => false

theorem encodable_null_iff {codec : FieldCodec} (hflat : flat codec = true) :
    Encodability.Encodable codec .null ↔ isOptionalU8 codec = true := by
  cases codec <;> simp_all [Encodability.Encodable, isOptionalU8, flat]

theorem isOptionalU8_iff {codec : TLVFieldCodec} (h : codec ∈ createTlvFields) :
    isOptionalU8 codec.valueCodec = true ↔ codec.name = "alert_on_message_delivery" := by
  have htable : ∀ codec ∈ createTlvFields, isOptionalU8 codec.valueCodec =
      decide (codec.name = "alert_on_message_delivery") := by decide
  rw [htable codec h, decide_eq_true_eq]

theorem encodeField_relayed_iff {fields : List CommandField} {message : Value}
    (h : Relayable fields message) {field : CommandField} (hfield : field ∈ fields)
    (hplain : PlainFields fields) :
    (∃ octets, encodeField message field = .ok octets) ↔
      ∀ maxLength s, fieldCodecs field.1 = some (.cOctetStr maxLength) →
        message.get field.1 = some (.string s) → Truncatable maxLength s := by
  obtain ⟨codec, value, hcodec, hget, hshaped⟩ := h.field field hfield
  rw [encodeField_ok_iff hcodec, hget, hcodec]
  simp only [Option.some_or, Option.some.injEq, exists_eq_left']
  rw [encode_ok_iff ((hplain field hfield).2 codec hcodec), encodable_of_shaped_iff hshaped]

theorem encodeTlvField_relayed_iff {fields : List CommandField} {message : Value}
    (h : Relayable fields message) {codec : TLVFieldCodec} (hcodec : codec ∈ createTlvFields) :
    (∃ octets, encodeTlvField message codec = .ok octets) ↔
      (∀ maxLength s, codec.valueCodec = .cOctetStr maxLength →
        message.get codec.name = some (.string s) → Truncatable maxLength s) ∧
      (codec.name ≠ "alert_on_message_delivery" → message.get codec.name ≠ some .null) := by
  have hflat := flat_of_mem_createTlvFields hcodec
  rw [encodeTlvField_ok_iff]
  cases hget : message.get codec.name with
  | none => simp
  | some value =>
      simp only [Option.some.injEq, forall_eq', ne_eq]
      rw [encode_ok_iff hflat]
      rcases h.tlv codec hcodec value hget with rfl | hshaped
      · rw [encodable_null_iff hflat, isOptionalU8_iff hcodec]
        simp
      · rw [encodable_of_shaped_iff hshaped]
        have hnull : value ≠ .null := by
          rintro rfl
          revert hshaped
          cases codec.valueCodec <;> simp [Shaped]
        simp [hnull]

theorem fromJson_asDeliverSm_iff {namedTlvFields : NamedTlvFields} {message : Value}
    (h : Relayable submitSmFields message) (n : UInt32) :
    (∃ octets, fromJson namedTlvFields (asDeliverSm n message) = .ok octets) ↔
      TextsTruncatable message ∧ NoNullTlv message := by
  obtain ⟨value, hvalue⟩ := h.commandId
  have hfields : messageCommandFields CommandId.deliverSm.asU32 = some submitSmFields := rfl
  have hget : ∀ field ∈ submitSmFields, encodeField (asDeliverSm n message) field =
      encodeField message field := by
    intro field hfield
    have hname := fieldName_notMem_headerNames hfields hfield
    simp only [headerNames, List.mem_cons, not_or] at hname
    simp only [encodeField, get_asDeliverSm_of_ne hname.2.1 hname.2.2.2.1]
  have hgetTlv : ∀ codec ∈ createTlvFields, encodeTlvField (asDeliverSm n message) codec =
      encodeTlvField message codec := by
    intro codec hcodec
    have hname := tlvName_notMem_headerNames hcodec
    simp only [headerNames, List.mem_cons, not_or] at hname
    simp only [encodeTlvField, get_asDeliverSm_of_ne hname.2.1 hname.2.2.2.1]
  rw [fromJson, extractCommandId_asDeliverSm hvalue]
  simp only
  rw [encodeMessageWithFields_ok_iff hfields]
  constructor
  · rintro ⟨hmandatory, htlvs⟩
    refine ⟨⟨?_, ?_⟩, ?_⟩
    · intro field hfield
      have hencode := hmandatory field hfield
      rw [hget field hfield] at hencode
      exact (encodeField_relayed_iff h hfield plainFields_submitSm).mp hencode
    · intro codec hcodec
      have hencode := htlvs codec hcodec
      rw [hgetTlv codec hcodec] at hencode
      exact ((encodeTlvField_relayed_iff h hcodec).mp hencode).1
    · intro codec hcodec
      have hencode := htlvs codec hcodec
      rw [hgetTlv codec hcodec] at hencode
      exact ((encodeTlvField_relayed_iff h hcodec).mp hencode).2
  · rintro ⟨⟨hmandatory, htexts⟩, hnull⟩
    refine ⟨?_, ?_⟩
    · intro field hfield
      rw [hget field hfield]
      exact (encodeField_relayed_iff h hfield plainFields_submitSm).mpr (hmandatory field hfield)
    · intro codec hcodec
      rw [hgetTlv codec hcodec]
      exact (encodeTlvField_relayed_iff h hcodec).mpr ⟨htexts codec hcodec, hnull codec hcodec⟩

/-- A data_sm has no `short_message`, which deliver_sm cannot do without. -/
theorem fromJson_asDeliverSm_dataSm {namedTlvFields : NamedTlvFields} {message : Value}
    (h : Relayable dataSmFields message) (n : UInt32) :
    ¬ ∃ octets, fromJson namedTlvFields (asDeliverSm n message) = .ok octets := by
  obtain ⟨value, hvalue⟩ := h.commandId
  have hfields : messageCommandFields CommandId.deliverSm.asU32 = some deliverSmFields := rfl
  have habsent : (asDeliverSm n message).get "short_message" = none := by
    rw [get_asDeliverSm_of_ne (by decide) (by decide)]
    exact h.absent (by decide)
  rw [fromJson, extractCommandId_asDeliverSm hvalue]
  simp only
  rw [encodeMessageWithFields_ok_iff hfields]
  rintro ⟨hmandatory, -⟩
  obtain ⟨octets, hoctets⟩ := hmandatory ("short_message", none) (by simp [deliverSmFields])
  simp [encodeField, habsent, fieldCodecs, createFieldCodecs, List.lookup_cons] at hoctets

theorem run_forward_panic_iff {server : ServerContext} {message : Value} {destAddr : String}
    (hdest : (message.get "destination_addr").bind Value.asStr = some destAddr) :
    (∃ log, Run (forwardMessageToClient server message) log none) ↔
      ¬ ∃ octets, fromJson server.namedTlvFields message = .ok octets := by
  simp only [forwardMessageToClient, hdest]
  cases hencode : fromJson server.namedTlvFields message with
  | ok octets =>
      simp only [Outcome.ok.injEq, exists_eq', not_true_eq_false, iff_false, not_exists]
      intro log hrun
      rcases (run_bind_iff _ _ _ _).mp hrun with ⟨hpanic, -⟩ | ⟨_, _, _, -, -, hret⟩
      · obtain ⟨reply, -, hreply⟩ := (run_perform_iff _ _ _).mp hpanic
        simp at hreply
      · simp at hret
  | err e => simp
  | panicked => simp

theorem Relayable.destination {fields : List CommandField} {message : Value}
    (h : Relayable fields message) {default : Option Value}
    (hfield : ("destination_addr", default) ∈ fields) :
    ∃ destAddr, (message.get "destination_addr").bind Value.asStr = some destAddr := by
  obtain ⟨codec, value, hcodec, hget, hshaped⟩ := h.field _ hfield
  obtain rfl : FieldCodec.cOctetStr 21 = codec := Option.some.inj hcodec
  obtain ⟨destAddr, rfl⟩ := hshaped
  exact ⟨destAddr, by rw [hget]; rfl⟩

/-- The messages that the server relays for a decoded one: itself, or what it prepared from it. -/
def Relayed (server : ServerContext) (message relayed : Value) : Prop :=
  relayed = message ∨ ∃ k, prepareDataSubmitSm server.config k message = .ok relayed

/-- The deliver_sm made from a submit_sm or data_sm is encoded, and forwarding it does not panic,
exactly when it comes from a submit_sm, its texts can be cut and no TLV is null. -/
theorem deliver_sm_encodable_iff (server : ServerContext) (n : UInt32) {pdu : SMPPMessage}
    {message relayed : Value} (hdecode : toJson pdu = .ok message)
    (hcommand : extractCommandId message = some .submitSm ∨
      extractCommandId message = some .dataSm)
    (hrelayed : Relayed server message relayed) :
    ((∃ octets, fromJson server.namedTlvFields (asDeliverSm n relayed) = .ok octets) ∧
        ¬ ∃ log, Run (forwardMessageToClient server (asDeliverSm n relayed)) log none) ↔
      extractCommandId message = some .submitSm ∧ TextsTruncatable relayed ∧
        NoNullTlv relayed := by
  obtain ⟨decoded, rfl⟩ := exists_decoded hdecode
  have hrelayable : ∀ {fields}, decoded.fields = fields → PlainFields fields →
      (∀ field ∈ fields, field.1 ≠ "sequence_number") → Relayable fields relayed := by
    rintro fields rfl hplain hnames
    have hdecoded := Relayable.of_decoded hplain
    rcases hrelayed with rfl | ⟨k, hprepare⟩
    · exact hdecoded
    · exact hdecoded.prepare hnames hprepare
  have hdest : ∀ {fields default}, Relayable fields relayed →
      ("destination_addr", default) ∈ fields → ∃ destAddr,
        ((asDeliverSm n relayed).get "destination_addr").bind Value.asStr = some destAddr := by
    intro fields default h hfield
    obtain ⟨destAddr, hget⟩ := h.destination hfield
    exact ⟨destAddr, by rw [get_asDeliverSm_of_ne (by decide) (by decide), hget]⟩
  have htable := decoded.table
  rw [decoded.extractCommandId_value] at hcommand ⊢
  rcases hcommand with hcommand | hcommand
  · rw [← CommandId.asU32_of_fromU32 hcommand] at htable
    have hfields : decoded.fields = submitSmFields := (Option.some.inj htable).symm
    have h := hrelayable hfields plainFields_submitSm (by decide)
    have hmem : ("destination_addr", none) ∈ submitSmFields := by simp [submitSmFields]
    obtain ⟨destAddr, hget⟩ := hdest h hmem
    rw [run_forward_panic_iff hget, fromJson_asDeliverSm_iff h]
    simp [hcommand]
  · rw [← CommandId.asU32_of_fromU32 hcommand] at htable
    have hfields : decoded.fields = dataSmFields := (Option.some.inj htable).symm
    have h := hrelayable hfields plainFields_dataSm (by decide)
    have hnot : ¬ ∃ octets, fromJson server.namedTlvFields (asDeliverSm n relayed) = .ok octets :=
      fromJson_asDeliverSm_dataSm h n
    simp [hnot, hcommand]

/-- A server without configuration that no destination address belongs to. -/
def plainServer : ServerContext where
  config := ⟨0x34, none, none, none, none⟩
  distributionList := []
  namedTlvFields := ⟨createTlvFields, .refl _⟩
  calendar := Time.relativeCalendar
  isMyRequestAddress := fun _ => false

/-- A data_sm to the address 49. -/
def dataSmPdu : SMPPMessage :=
  header 28 0x103 0 1 ++ [0, 0, 0, 0, 1, 1, 0x34, 0x39, 0, 0, 0, 0]

/-- A submit_sm to the address 49 with the text `hi` and a `user_message_reference` of one octet,
where two are expected. -/
def shortReferencePdu : SMPPMessage :=
  header 43 0x4 0 1 ++ [0x41, 0, 0, 0, 0, 1, 1, 0x34, 0x39, 0, 0, 0, 0, 0, 0, 0, 0, 0, 0, 2,
    0x68, 0x69, 0x02, 0x04, 0, 1, 7]

def decodedValue (pdu : SMPPMessage) : Value := (toJson pdu).toOption.getD .null

theorem toJson_of_isOk {pdu : SMPPMessage} (h : (toJson pdu).isOk = true) :
    toJson pdu = .ok (decodedValue pdu) := by
  cases hdecode : toJson pdu with
  | error e => simp [hdecode, Except.isOk, Except.toBool] at h
  | ok message => simp [decodedValue, hdecode, Except.toOption]

/-- Both PDUs are decoded, and forwarding either of them panics. -/
theorem forward_panics :
    (toJson dataSmPdu = .ok (decodedValue dataSmPdu) ∧
        fromJson plainServer.namedTlvFields (asDeliverSm 7 (decodedValue dataSmPdu)) =
          .err (invalidInput "Missing field: short_message") ∧
        ∃ log, Run (forwardMessageToClient plainServer
          (asDeliverSm 7 (decodedValue dataSmPdu))) log none) ∧
      toJson shortReferencePdu = .ok (decodedValue shortReferencePdu) ∧
        fromJson plainServer.namedTlvFields (asDeliverSm 7 (decodedValue shortReferencePdu)) =
          .err (invalidInput "Failed to encode TLV field: user_message_reference") ∧
        ∃ log, Run (forwardMessageToClient plainServer
          (asDeliverSm 7 (decodedValue shortReferencePdu))) log none := by
  have hdata : fromJson plainServer.namedTlvFields (asDeliverSm 7 (decodedValue dataSmPdu)) =
      .err (invalidInput "Missing field: short_message") := by decide +kernel
  have hshort : fromJson plainServer.namedTlvFields
      (asDeliverSm 7 (decodedValue shortReferencePdu)) =
        .err (invalidInput "Failed to encode TLV field: user_message_reference") := by
    decide +kernel
  have hdest : ∀ pdu ∈ [dataSmPdu, shortReferencePdu],
      ((asDeliverSm 7 (decodedValue pdu)).get "destination_addr").bind Value.asStr =
        some "49" := by decide +kernel
  refine ⟨⟨toJson_of_isOk (by decide +kernel), hdata, ?_⟩, toJson_of_isOk (by decide +kernel),
    hshort, ?_⟩
  · rw [run_forward_panic_iff (hdest _ (by simp)), hdata]
    simp
  · rw [run_forward_panic_iff (hdest _ (by simp)), hshort]
    simp

theorem dataSm_encodable_iff :
    ((∃ octets, fromJson plainServer.namedTlvFields
          (asDeliverSm 7 (decodedValue dataSmPdu)) = .ok octets) ∧
        ¬ ∃ log, Run (forwardMessageToClient plainServer (asDeliverSm 7 (decodedValue dataSmPdu)))
          log none) ↔
      extractCommandId (decodedValue dataSmPdu) = some .submitSm ∧
        TextsTruncatable (decodedValue dataSmPdu) ∧ NoNullTlv (decodedValue dataSmPdu) :=
  deliver_sm_encodable_iff plainServer 7 (toJson_of_isOk (by decide +kernel))
    (.inr (by decide +kernel)) (.inl rfl)

end Encodable

section Octets

/-- A submit_sm in which every field and every TLV is one that its codec writes, and no TLV occurs
twice. -/
structure SubmitSmPdu where
  length : UInt32
  commandStatus : UInt32
  sequenceNumber : UInt32
  parts : List FieldPart
  tlvs : List TlvPart
  partsOf : PartsOf submitSmFields parts
  distinct : (tlvs.map fun part => part.codec.tag).Nodup

namespace SubmitSmPdu

variable (pdu : SubmitSmPdu)

def octets : SMPPMessage :=
  header pdu.length CommandId.submitSm.asU32 pdu.commandStatus pdu.sequenceNumber ++
    (fieldOctets pdu.parts ++ tlvOctets pdu.tlvs)

def entries : Map :=
  decodedEntries CommandId.submitSm.asU32 pdu.commandStatus pdu.sequenceNumber pdu.parts pdu.tlvs

theorem toJson_octets : toJson pdu.octets = .ok (.object (insertAll pdu.entries [])) :=
  toJson_pdu _ _ _ _ rfl pdu.partsOf

theorem nodup_tlvs : pdu.tlvs.Nodup := pdu.distinct.of_map

/-- No name occurs in the header, among the fields and among the TLVs more than once. -/
theorem nodup_entries : (pdu.entries.map Prod.fst).Nodup := by
  have hfields : messageCommandFields CommandId.submitSm.asU32 = some submitSmFields := rfl
  have hparts : pdu.parts.map FieldPart.name = submitSmFields.map Prod.fst := pdu.partsOf.symm
  have hmap : pdu.entries.map Prod.fst = headerNames ++ submitSmFields.map Prod.fst ++
      pdu.tlvs.map fun part => part.codec.name := by
    rw [← hparts]
    simp [entries, decodedEntries, headerEntries, headerNames, FieldPart.entry, TlvPart.entry,
      Function.comp_def]
  have htlvs : (pdu.tlvs.map fun part => part.codec.name).Nodup := by
    refine pdu.nodup_tlvs.map_on ?_
    intro part hpart other hother hname
    exact List.inj_on_of_nodup_map pdu.distinct hpart hother
      (by rw [tlvName_injective part.known other.known hname])
  have hfront : (headerNames ++ submitSmFields.map Prod.fst).Nodup := by decide
  have hdisjoint : ∀ codec ∈ createTlvFields,
      codec.name ∉ headerNames ++ submitSmFields.map Prod.fst := by decide
  rw [hmap, List.nodup_append]
  refine ⟨hfront, htlvs, ?_⟩
  rintro name hname other hother rfl
  obtain ⟨part, -, hpartName⟩ := List.mem_map.mp hother
  rw [← hpartName] at hname
  exact hdisjoint part.codec part.known hname

theorem exists_field {part : FieldPart} (h : part ∈ pdu.parts) :
    ∃ field ∈ submitSmFields, field.1 = part.name := by
  have hmem : part.name ∈ submitSmFields.map Prod.fst := by
    rw [pdu.partsOf]
    exact List.mem_map_of_mem h
  exact List.mem_map.mp hmem

theorem get_entry {name : String} {value : Value} (h : (name, value) ∈ pdu.entries) :
    (Value.object (insertAll pdu.entries [])).get name = some value :=
  WireFormat.get_object_of_nodup pdu.nodup_entries h

/-- The message that is encoded when the PDU is relayed. -/
def relayed (preparedNumber newNumber : UInt32) : Value :=
  asDeliverSm newNumber ((Value.object (insertAll pdu.entries [])).insertKey "sequence_number"
    (.ofNat preparedNumber.toNat))

variable {preparedNumber newNumber : UInt32}

theorem get_relayed {name : String} (hname : name ∉ headerNames) :
    (pdu.relayed preparedNumber newNumber).get name =
      (Value.object (insertAll pdu.entries [])).get name := by
  simp only [headerNames, List.mem_cons, not_or] at hname
  rw [relayed, get_asDeliverSm_of_ne hname.2.1 hname.2.2.2.1,
    Value.get_insertKey_of_ne hname.2.2.2.1]

theorem get_relayed_field {part : FieldPart} (h : part ∈ pdu.parts) :
    (pdu.relayed preparedNumber newNumber).get part.name = some part.value := by
  have hfields : messageCommandFields CommandId.submitSm.asU32 = some submitSmFields := rfl
  obtain ⟨field, hfield, hname⟩ := pdu.exists_field h
  rw [pdu.get_relayed (hname ▸ fieldName_notMem_headerNames hfields hfield)]
  exact pdu.get_entry (mem_decodedEntries.mpr (.inr (.inl ⟨part, h, rfl⟩)))

theorem get_relayed_tlv {part : TlvPart} (h : part ∈ pdu.tlvs) :
    (pdu.relayed preparedNumber newNumber).get part.codec.name = some part.value := by
  rw [pdu.get_relayed (tlvName_notMem_headerNames part.known)]
  exact pdu.get_entry (mem_decodedEntries.mpr (.inr (.inr ⟨part, h, rfl⟩)))

theorem exists_tlv_of_get_relayed {codec : TLVFieldCodec} (hcodec : codec ∈ createTlvFields)
    {value : Value} (h : (pdu.relayed preparedNumber newNumber).get codec.name = some value) :
    ∃ part ∈ pdu.tlvs, part.codec = codec := by
  have hheader := tlvName_notMem_headerNames hcodec
  rw [pdu.get_relayed hheader] at h
  rcases mem_decodedEntries.mp (mem_of_lookup_insertAll h) with hentry | ⟨part, hpart, hentry⟩ |
    ⟨part, hpart, hentry⟩
  · exact absurd (headerEntries_names hentry) hheader
  · obtain ⟨field, hfield, hname⟩ := pdu.exists_field hpart
    have hpartName : part.name = codec.name := congrArg Prod.fst hentry
    have hvalid : isValidTlvField field.1 = true := by
      rw [isValidTlvField, List.any_eq_true]
      exact ⟨codec, hcodec, by simp [hname, hpartName]⟩
    simp [(plainFields_submitSm field hfield).1] at hvalid
  · exact ⟨part, hpart, tlvName_injective part.known hcodec (congrArg Prod.fst hentry)⟩

theorem supplies_commandStatus :
    Supplies (pdu.relayed preparedNumber newNumber) "command_status" pdu.commandStatus := by
  have hget : (Value.object (insertAll pdu.entries [])).get "command_status" =
      some (.ofNat pdu.commandStatus.toNat) :=
    pdu.get_entry (mem_decodedEntries.mpr (.inl (by simp [headerEntries])))
  rw [Supplies, relayed, get_asDeliverSm_of_ne (by decide) (by decide),
    Value.get_insertKey_of_ne (by decide), hget]
  rfl

theorem supplies_sequenceNumber :
    Supplies (pdu.relayed preparedNumber newNumber) "sequence_number" newNumber := by
  rw [Supplies, relayed, asDeliverSm, Value.get_assignKey_self,
    Value.get_assignKey_of_ne (by decide), Value.get_insertKey_self]
  rfl

end SubmitSmPdu

/-- The bytes that leave the server for those that came in: `to_json`, the preparations, the
rewriting to deliver_sm, and `from_json`. -/
def relay (server : ServerContext) (preparedNumber newNumber : UInt32) (pdu : SMPPMessage) :
    Outcome SMPPMessage :=
  match toJson pdu with
  | .error e => .err e
  | .ok message => do
      let prepared ← prepareDataSubmitSm server.config preparedNumber message
      fromJson server.namedTlvFields (asDeliverSm newNumber prepared)

theorem prepareDataSubmitSm_eq {config : ServerConfig} {message : Value}
    (hdefault : message.u64Field "sm_default_msg_id" = 0)
    (hservice : message.strField "service_type" ≠ "") (n : UInt32) :
    prepareDataSubmitSm config n message =
      .ok (message.insertKey "sequence_number" (.ofNat n.toNat)) := by
  have hreplace : replaceSmDefaultMsgIdWithPredefinedMessage config message = .ok message := by
    simp [replaceSmDefaultMsgIdWithPredefinedMessage, hdefault]
  have hset : setServiceType config message = message := by
    simp [setServiceType, hservice]
  rw [prepareDataSubmitSm, hreplace]
  change Outcome.ok ((setServiceType config message).insertKey _ _) = _
  rw [hset]

theorem fillsParts_of_get {message : Value} {fields : List CommandField} {parts : List FieldPart}
    (hparts : PartsOf fields parts)
    (hget : ∀ part ∈ parts, message.get part.name = some part.value) :
    FillsParts message fields parts := by
  induction fields generalizing parts with
  | nil =>
      obtain rfl : parts = [] := by simpa [PartsOf] using hparts.symm
      exact .nil
  | cons field fields ih =>
      cases parts with
      | nil => simp [PartsOf] at hparts
      | cons part parts =>
          rw [PartsOf, List.map_cons, List.map_cons, List.cons.injEq] at hparts
          refine .cons ⟨hparts.1, ?_⟩ (ih hparts.2 fun part hpart =>
            hget part (List.mem_cons_of_mem _ hpart))
          rw [hparts.1, hget part List.mem_cons_self, Option.some_or]

theorem exists_fillsTlvs {message : Value} {tlvs : List TlvPart}
    (hget : ∀ part ∈ tlvs, message.get part.codec.name = some part.value)
    (hall : ∀ codec ∈ createTlvFields, ∀ value, message.get codec.name = some value →
      ∃ part ∈ tlvs, part.codec = codec)
    (entries : List TLVFieldCodec) (hentries : ∀ codec ∈ entries, codec ∈ createTlvFields) :
    ∃ visited, FillsTlvs message entries visited ∧ (∀ part ∈ visited, part ∈ tlvs) ∧
      ∀ part ∈ tlvs, part.codec ∈ entries → ∃ other ∈ visited, other.codec = part.codec := by
  induction entries with
  | nil => exact ⟨[], .nil, by simp, by simp⟩
  | cons codec entries ih =>
      obtain ⟨visited, hfills, hsub, hcover⟩ :=
        ih fun codec hcodec => hentries codec (List.mem_cons_of_mem _ hcodec)
      cases hvalue : message.get codec.name with
      | none =>
          refine ⟨visited, .absent hvalue hfills, hsub, ?_⟩
          intro part hpart hmem
          rcases List.mem_cons.mp hmem with heq | hmem
          · rw [← heq, hget part hpart] at hvalue
            simp at hvalue
          · exact hcover part hpart hmem
      | some value =>
          obtain ⟨part, hpart, rfl⟩ := hall codec (hentries codec List.mem_cons_self) value hvalue
          refine ⟨part :: visited, .present part (hget part hpart) hfills, ?_, ?_⟩
          · rw [List.forall_mem_cons]
            exact ⟨hpart, hsub⟩
          · intro other hother hmem
            rcases List.mem_cons.mp hmem with heq | hmem
            · exact ⟨part, List.mem_cons_self, heq.symm⟩
            · obtain ⟨found, hfound, heq⟩ := hcover other hother hmem
              exact ⟨found, List.mem_cons_of_mem _ hfound, heq⟩

theorem exists_perm_fillsTlvs {message : Value} {tlvs : List TlvPart}
    (namedTlvFields : NamedTlvFields) (hdistinct : (tlvs.map fun part => part.codec.tag).Nodup)
    (hget : ∀ part ∈ tlvs, message.get part.codec.name = some part.value)
    (hall : ∀ codec ∈ createTlvFields, ∀ value, message.get codec.name = some value →
      ∃ part ∈ tlvs, part.codec = codec) :
    ∃ visited, FillsTlvs message namedTlvFields.entries visited ∧ visited.Perm tlvs := by
  obtain ⟨visited, hfills, hsub, hcover⟩ := exists_fillsTlvs hget hall namedTlvFields.entries
    fun codec hcodec => namedTlvFields.perm.mem_iff.mp hcodec
  have hentries : namedTlvFields.entries.Nodup :=
    namedTlvFields.perm.nodup_iff.mpr nodup_tags.of_map
  have hvisited : visited.Nodup := (hentries.sublist hfills.sublist).of_map
  refine ⟨visited, hfills, (List.perm_ext_iff_of_nodup hvisited hdistinct.of_map).mpr ?_⟩
  intro part
  constructor
  · exact hsub part
  · intro hpart
    obtain ⟨other, hother, hcodec⟩ :=
      hcover part hpart (namedTlvFields.perm.mem_iff.mpr part.known)
    rwa [← List.inj_on_of_nodup_map hdistinct (hsub other hother) hpart (by rw [hcodec])]

/-- Relaying a submit_sm keeps the octets of every field and of every TLV; only the header words
and the order of the TLVs change. -/
theorem relay_keeps_octets (server : ServerContext) (pdu : SubmitSmPdu)
    (preparedNumber newNumber : UInt32) {message : Value}
    (hdecode : toJson pdu.octets = .ok message)
    (hdefault : message.u64Field "sm_default_msg_id" = 0)
    (hservice : message.strField "service_type" ≠ "") :
    ∃ length tlvs, tlvs.Perm pdu.tlvs ∧
      relay server preparedNumber newNumber pdu.octets =
        .ok (header length CommandId.deliverSm.asU32 pdu.commandStatus newNumber ++
          (fieldOctets pdu.parts ++ tlvOctets tlvs)) := by
  obtain rfl := Except.ok.inj (pdu.toJson_octets.symm.trans hdecode)
  have hfields : messageCommandFields CommandId.deliverSm.asU32 = some submitSmFields := rfl
  have hparts : FillsParts (pdu.relayed preparedNumber newNumber) submitSmFields pdu.parts :=
    fillsParts_of_get pdu.partsOf fun part hpart => pdu.get_relayed_field hpart
  obtain ⟨tlvs, htlvs, hperm⟩ := exists_perm_fillsTlvs server.namedTlvFields pdu.distinct
    (fun part hpart => pdu.get_relayed_tlv hpart)
    fun codec hcodec value hget => pdu.exists_tlv_of_get_relayed hcodec hget
  obtain ⟨length, hencode⟩ := encodeMessageWithFields_eq hfields hparts htlvs
    pdu.supplies_commandStatus pdu.supplies_sequenceNumber
  have hget : (Value.object (insertAll pdu.entries [])).get "command_id" =
      some (.string ("0x" ++ upperHex 8 CommandId.submitSm.asU32.toNat)) :=
    pdu.get_entry (mem_decodedEntries.mpr (.inl (by simp [headerEntries])))
  have hcommand : extractCommandId (pdu.relayed preparedNumber newNumber) = some .deliverSm := by
    refine extractCommandId_asDeliverSm (Eq.trans ?_ hget) newNumber
    rw [Value.get_insertKey_of_ne (by decide)]
  refine ⟨length, tlvs, hperm, ?_⟩
  rw [relay, pdu.toJson_octets]
  simp only
  rw [prepareDataSubmitSm_eq hdefault hservice]
  change fromJson server.namedTlvFields (pdu.relayed preparedNumber newNumber) = _
  rw [fromJson, hcommand]
  exact hencode

def textPart (name : String) (maxLength : Nat) (text : String)
    (known : fieldCodecs name = some (.cOctetStr maxLength)) (hzero : (0 : UInt8) ∉ Utf8.bytes text)
    (hlength : (Utf8.bytes text).length ≤ maxLength) : FieldPart :=
  ⟨name, .cOctetStr maxLength, .string text, Utf8.bytes text ++ [0], known,
    .cOctetStr hzero hlength⟩

def octetPart (name : String) (n : UInt8) (known : fieldCodecs name = some .u8) : FieldPart :=
  ⟨name, .u8, .ofNat n.toNat, [n], known, .u8 n⟩

/-- A submit_sm of service A to the address 49 with the text `hi` and a `user_message_reference`. -/
def referencePdu : SubmitSmPdu where
  length := 44
  commandStatus := 0
  sequenceNumber := 1
  parts :=
    [textPart "service_type" 6 "A" rfl (by decide) (by decide), octetPart "source_addr_ton" 0 rfl,
     octetPart "source_addr_npi" 0 rfl, textPart "source_addr" 21 "" rfl (by decide) (by decide),
     octetPart "dest_addr_ton" 1 rfl, octetPart "dest_addr_npi" 1 rfl,
     textPart "destination_addr" 21 "49" rfl (by decide) (by decide), octetPart "esm_class" 0 rfl,
     octetPart "protocol_id" 0 rfl, octetPart "priority_flag" 0 rfl,
     textPart "schedule_delivery_time" 17 "" rfl (by decide) (by decide),
     textPart "validity_period" 17 "" rfl (by decide) (by decide),
     octetPart "registered_delivery" 0 rfl, octetPart "replace_if_present_flag" 0 rfl,
     octetPart "data_coding" 0 rfl, octetPart "sm_default_msg_id" 0 rfl,
     ⟨"short_message", .octet true 1, .string (Base64.encode [0x68, 0x69]), [2, 0x68, 0x69], rfl,
      @WireFormat.Represents.counted [0x68, 0x69] (by simp) (by simp)⟩]
  tlvs :=
    [⟨⟨0x0204, "user_message_reference", .u16⟩, .ofNat 7, [0, 7], userMessageReference_mem,
      .u16 7, by simp, by simp⟩]
  partsOf := rfl
  distinct := by simp

theorem relay_referencePdu :
    ∃ length tlvs, tlvs.Perm referencePdu.tlvs ∧
      relay plainServer 5 6 referencePdu.octets =
        .ok (header length CommandId.deliverSm.asU32 referencePdu.commandStatus 6 ++
          (fieldOctets referencePdu.parts ++ tlvOctets tlvs)) :=
  relay_keeps_octets plainServer referencePdu 5 6 referencePdu.toJson_octets (by decide +kernel)
    (by decide +kernel)

/-- A submit_sm with the service type, the destination and the TLVs given in octets. -/
def rawSubmitSm (serviceType destinationAddr tlvs : Bytes) : SMPPMessage :=
  header 0 0x4 0 1 ++ (serviceType ++ [0, 0, 0, 1, 1] ++ destinationAddr ++
    [0, 0, 0, 0, 0, 0, 0, 0, 0, 2, 0x68, 0x69] ++ tlvs)

/-- An octet that is no UTF-8, an address of 22 octets, an integer TLV that is too long, and two
TLVs with one tag. -/
def changedPdus : List SMPPMessage :=
  [rawSubmitSm [0xFF, 0] [0x34, 0x39, 0] [],
   rawSubmitSm [0x41, 0] (List.replicate 22 0x34 ++ [0]) [],
   rawSubmitSm [0x41, 0] [0x34, 0x39, 0] [0x00, 0x05, 0, 2, 1, 1],
   rawSubmitSm [0x41, 0] [0x34, 0x39, 0] [0x02, 0x04, 0, 2, 0, 7, 0x02, 0x04, 0, 2, 0, 8]]

/-- None of them leaves the server with the length it came in with. -/
theorem relay_changes_octets :
    changedPdus ≠ [] ∧ ∀ pdu ∈ changedPdus,
      ((toJson pdu).isOk = true ∧ (decodedValue pdu).u64Field "sm_default_msg_id" = 0 ∧
        (decodedValue pdu).strField "service_type" ≠ "") ∧
      ∃ octets, relay plainServer 5 6 pdu = .ok octets ∧ octets.length ≠ pdu.length := by
  refine ⟨by simp [changedPdus], ?_⟩
  intro pdu hpdu
  have hdecode : ∀ pdu ∈ changedPdus, (toJson pdu).isOk = true ∧
      (decodedValue pdu).u64Field "sm_default_msg_id" = 0 ∧
      (decodedValue pdu).strField "service_type" ≠ "" := by decide +kernel
  have hrelay : ∀ pdu ∈ changedPdus, (relay plainServer 5 6 pdu).bind (fun octets =>
      .ok (decide (octets.length ≠ pdu.length))) = .ok true := by decide +kernel
  obtain ⟨octets, hoctets, heq⟩ := Outcome.bind_eq_ok_iff.mp (hrelay pdu hpdu)
  exact ⟨hdecode pdu hpdu, octets, hoctets, of_decide_eq_true (Outcome.ok.inj heq)⟩

end Octets

end SmppHerald.Relay
