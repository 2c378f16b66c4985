import SmppHerald.PduFormat

namespace SmppHerald.RoundTrip

open SmppHerald.Buffer
open SmppHerald.ByteParser
open SmppHerald.CommandIds
open SmppHerald.FieldCodecs
open SmppHerald.Io
open SmppHerald.Json
open SmppHerald.Message
open SmppHerald.PduFormat
open SmppHerald.WireFormat

/-- The message is one for the command, its values are in the range of their codecs, and nothing
that the table gives no default for is missing. -/
structure InRange (message : Value) (commandId : CommandId) (fields : List CommandField) :
    Prop where
  command : extractCommandId message = some commandId
  table : messageCommandFields commandId.asU32 = some fields
  commandStatus : ∃ n, Supplies message "command_status" n
  sequenceNumber : ∃ n, Supplies message "sequence_number" n
  field : ∀ field ∈ fields, ∀ codec value, fieldCodecs field.1 = some codec →
    message.get field.1 = some value → ∃ octets, Represents codec value octets
  required : ∀ field ∈ fields, field.2 = none → message.get field.1 ≠ none
  tlv : ∀ codec ∈ createTlvFields, ∀ value, message.get codec.name = some value →
    ∃ octets, Represents codec.valueCodec value octets ∧ octets ≠ [] ∧ octets.length < 65536

/-- What the decoded message says about the one that was encoded. -/
structure Returns (message decoded : Value) (fields : List CommandField) : Prop where
  field : ∀ field ∈ fields, decoded.get field.1 = (message.get field.1).or field.2
  tlv : ∀ codec ∈ createTlvFields, ∀ value, message.get codec.name = some value →
    decoded.get codec.name = some value
  commandStatus : decoded.get "command_status" =
    some ((message.get "command_status").getD (.ofNat 0))
  sequenceNumber : decoded.get "sequence_number" =
    some ((message.get "sequence_number").getD (.ofNat 0))

/-- Encoding and decoding succeed, in whatever order the TLVs are visited, and give back the
message. -/
def RoundTrips (message : Value) (fields : List CommandField) : Prop :=
  ∀ namedTlvFields : NamedTlvFields, ∃ pdu decoded, fromJson namedTlvFields message = .ok pdu ∧
    toJson pdu = .ok decoded ∧ Returns message decoded fields

section Defaults

/-- The defaults of the table are small integers for octets and empty texts for strings. -/
def defaultFits : FieldCodec → Value → Bool
  | .u8, .number (.posInt n) => n < 256
  | .cOctetStr _, .string s => s = ""
  | _, _ => false

theorem represents_of_defaultFits {codec : FieldCodec} {value : Value}
    (h : defaultFits codec value = true) : ∃ octets, Represents codec value octets := by
  unfold defaultFits at h
  split at h
  · rename_i n
    have hlt : n.toNat < 256 := by simpa [UInt64.lt_iff_toNat_lt] using h
    have hn : Value.number (.posInt n) = .ofNat (UInt8.ofNat n.toNat).toNat := by
      rw [toNat_ofNat_length hlt, Value.ofNat, UInt64.ofNat_toNat]
    rw [hn]
    exact ⟨_, .u8 _⟩
  · rename_i s
    have hs : s = "" := by simpa using h
    subst hs
    exact ⟨_, .cOctetStr (by simp [Utf8.bytes, Utf8.charBytes]) (Nat.zero_le _)⟩
  · simp at h

/-- Every default passes the range check of its field's codec. -/
theorem represents_default {commandId : UInt32} {fields : List CommandField}
    (h : messageCommandFields commandId = some fields) {field : CommandField}
    (hfield : field ∈ fields) {codec : FieldCodec} (hcodec : fieldCodecs field.1 = some codec)
    {value : Value} (hvalue : field.2 = some value) :
    ∃ octets, Represents codec value octets := by
  have htable : ∀ entry ∈ createCommandFields, ∀ field ∈ entry.2,
      (((fieldCodecs field.1).bind fun codec => field.2.map (defaultFits codec)).getD true)
        = true := by decide
  obtain ⟨entry, hentry, rfl⟩ := mem_createCommandFields h
  have hfits := htable entry hentry field hfield
  rw [hcodec, hvalue] at hfits
  exact represents_of_defaultFits hfits

end Defaults

section Parts

theorem exists_forall₂ {α β : Type} {R : α → β → Prop} {as : List α}
    (h : ∀ a ∈ as, ∃ b, R a b) : ∃ bs, List.Forall₂ R as bs := by
  induction as with
  | nil => exact ⟨[], .nil⟩
  | cons a as ih =>
      obtain ⟨b, hb⟩ := h a List.mem_cons_self
      obtain ⟨bs, hbs⟩ := ih fun a ha => h a (List.mem_cons_of_mem _ ha)
      exact ⟨b :: bs, .cons hb hbs⟩

theorem InRange.exists_fieldParts {message : Value} {commandId : CommandId}
    {fields : List CommandField} (h : InRange message commandId fields) :
    ∃ parts, FillsParts message fields parts := by
  refine exists_forall₂ fun field hfield => ?_
  obtain ⟨codec, hcodec⟩ := fieldCodecs_isSome h.table hfield
  have hvalue : ∃ value octets, (message.get field.1).or field.2 = some value ∧
      Represents codec value octets := by
    cases hget : message.get field.1 with
    | some value =>
        obtain ⟨octets, hoctets⟩ := h.field field hfield codec value hcodec hget
        exact ⟨value, octets, rfl, hoctets⟩
    | none =>
        cases hdefault : field.2 with
        | none => exact absurd hget (h.required field hfield hdefault)
        | some value =>
            obtain ⟨octets, hoctets⟩ := represents_default h.table hfield hcodec hdefault
            exact ⟨value, octets, rfl, hoctets⟩
  obtain ⟨value, octets, hor, hoctets⟩ := hvalue
  exact ⟨⟨field.1, codec, value, octets, hcodec, hoctets⟩, rfl, hor⟩

theorem InRange.exists_tlvParts {message : Value} {commandId : CommandId}
    {fields : List CommandField} (h : InRange message commandId fields)
    (entries : List TLVFieldCodec) (hentries : ∀ codec ∈ entries, codec ∈ createTlvFields) :
    ∃ parts, FillsTlvs message entries parts := by
  induction entries with
  | nil => exact ⟨[], .nil⟩
  | cons codec entries ih =>
      obtain ⟨parts, hparts⟩ := ih fun codec hcodec => hentries codec (List.mem_cons_of_mem _ hcodec)
      have hknown := hentries codec List.mem_cons_self
      cases hget : message.get codec.name with
      | none => exact ⟨parts, .absent hget hparts⟩
      | some value =>
          obtain ⟨octets, hoctets, hne, hlen⟩ := h.tlv codec hknown value hget
          exact ⟨_, .present ⟨codec, value, octets, hknown, hoctets, hne, hlen⟩ hget hparts⟩

end Parts

section Lookup

variable {message : Value} {fields : List CommandField} {parts : List FieldPart}
  {tlvs : List TlvPart} {entries : List TLVFieldCodec}
  {commandId commandStatus sequenceNumber : UInt32}

/-- A name that is a field as well as a TLV was encoded from one value of the message. -/
theorem get_decoded_field (hfields : messageCommandFields commandId = some fields)
    (hparts : FillsParts message fields parts) (htlvs : FillsTlvs message entries tlvs)
    {field : CommandField} (hfield : field ∈ fields) :
    (Value.object (insertAll
      (decodedEntries commandId commandStatus sequenceNumber parts tlvs) [])).get field.1 =
        (message.get field.1).or field.2 := by
  obtain ⟨part, hpart, hname, hvalue⟩ := hparts.exists_part hfield
  rw [hvalue]
  refine lookup_insertAll_of_agree ?_
    ⟨part.entry, mem_decodedEntries.mpr (.inr (.inl ⟨part, hpart, rfl⟩)), hname.symm⟩
  intro entry hentry hkey
  rcases mem_decodedEntries.mp hentry with hheader | ⟨other, hother, rfl⟩ | ⟨tlv, htlv, rfl⟩
  · have hmem := headerEntries_names hheader
    rw [hkey] at hmem
    exact absurd hmem (fieldName_notMem_headerNames hfields hfield)
  · obtain ⟨field', hfield', hname', hvalue'⟩ := hparts.exists_field hother
    have heq : field' = field := fieldName_injective hfields hfield' hfield (hname'.trans hkey)
    rw [heq, hvalue, Option.some.injEq] at hvalue'
    exact hvalue'.symm
  · have hget := htlvs.get_eq htlv
    rw [show tlv.codec.name = field.1 from hkey] at hget
    rw [hget, Option.some_or, Option.some.injEq] at hvalue
    exact hvalue

theorem get_decoded_tlv (hparts : FillsParts message fields parts)
    (htlvs : FillsTlvs message entries tlvs) {codec : TLVFieldCodec}
    (hknown : codec ∈ createTlvFields) (hcodec : codec ∈ entries) {value : Value}
    (hget : message.get codec.name = some value) :
    (Value.object (insertAll
      (decodedEntries commandId commandStatus sequenceNumber parts tlvs) [])).get codec.name =
        some value := by
  obtain ⟨part, hpart, rfl⟩ := htlvs.exists_part hcodec hget
  refine lookup_insertAll_of_agree ?_
    ⟨part.entry, mem_decodedEntries.mpr (.inr (.inr ⟨part, hpart, rfl⟩)), rfl⟩
  intro entry hentry hkey
  rcases mem_decodedEntries.mp hentry with hheader | ⟨field, hfield, rfl⟩ | ⟨tlv, htlv, rfl⟩
  · have hmem := headerEntries_names hheader
    rw [hkey] at hmem
    exact absurd hmem (tlvName_notMem_headerNames hknown)
  · obtain ⟨_, _, hname, hvalue⟩ := hparts.exists_field hfield
    rw [hname, show field.name = part.codec.name from hkey, hget, Option.some_or,
      Option.some.injEq] at hvalue
    exact hvalue.symm
  · have hother := htlvs.get_eq htlv
    rw [show tlv.codec.name = part.codec.name from hkey, hget, Option.some.injEq] at hother
    exact hother.symm

theorem get_decoded_header (hfields : messageCommandFields commandId = some fields)
    (hparts : FillsParts message fields parts) {key : String} {value : Value}
    (hentry : (key, value) ∈ headerEntries commandId commandStatus sequenceNumber) :
    (Value.object (insertAll
      (decodedEntries commandId commandStatus sequenceNumber parts tlvs) [])).get key =
        some value := by
  have hkey := headerEntries_names hentry
  refine lookup_insertAll_of_agree ?_ ⟨_, mem_decodedEntries.mpr (.inl hentry), rfl⟩
  rintro entry hmem hname
  rcases mem_decodedEntries.mp hmem with hheader | ⟨field, hfield, rfl⟩ | ⟨tlv, htlv, rfl⟩
  · have hnodup : ((headerEntries commandId commandStatus sequenceNumber).map Prod.fst).Nodup := by
      simp [headerEntries]
    rw [List.inj_on_of_nodup_map hnodup hheader hentry hname]
  · obtain ⟨field', hfield', hname', -⟩ := hparts.exists_field hfield
    refine absurd hkey ?_
    rw [← show field.name = key from hname, ← hname']
    exact fieldName_notMem_headerNames hfields hfield'
  · refine absurd hkey ?_
    rw [← show tlv.codec.name = key from hname]
    exact tlvName_notMem_headerNames tlv.known

theorem get_decoded_none (hparts : FillsParts message fields parts)
    (htlvs : FillsTlvs message entries tlvs) {name : String} (hheader : name ∉ headerNames)
    (hfield : ∀ field ∈ fields, field.1 ≠ name)
    (hgiven : ∀ codec ∈ createTlvFields, codec.name = name → message.get name = none) :
    (Value.object (insertAll
      (decodedEntries commandId commandStatus sequenceNumber parts tlvs) [])).get name = none := by
  rw [Option.eq_none_iff_forall_ne_some]
  intro value hdecoded
  rcases mem_decodedEntries.mp (mem_of_lookup_insertAll hdecoded) with
    hentry | ⟨part, hpart, hentry⟩ | ⟨part, hpart, hentry⟩
  · exact hheader (headerEntries_names hentry)
  · obtain ⟨field, hmem, hname, -⟩ := hparts.exists_field hpart
    exact hfield field hmem (hname.trans (congrArg Prod.fst hentry))
  · have hname : part.codec.name = name := congrArg Prod.fst hentry
    have hpresent := htlvs.get_eq hpart
    rw [hname, hgiven part.codec part.known hname] at hpresent
    cases hpresent

end Lookup

/-- Every message whose values are in range survives encoding and decoding, for every command and
every order of the TLVs. -/
theorem round_trip {message : Value} {commandId : CommandId} {fields : List CommandField}
    (h : InRange message commandId fields) : RoundTrips message fields := by
  intro namedTlvFields
  obtain ⟨parts, hparts⟩ := h.exists_fieldParts
  have hentries : ∀ codec ∈ namedTlvFields.entries, codec ∈ createTlvFields :=
    fun codec hcodec => namedTlvFields.perm.mem_iff.mp hcodec
  obtain ⟨tlvs, htlvs⟩ := h.exists_tlvParts namedTlvFields.entries hentries
  obtain ⟨commandStatus, hstatus⟩ := h.commandStatus
  obtain ⟨sequenceNumber, hsequence⟩ := h.sequenceNumber
  obtain ⟨length, hencode⟩ :=
    encodeMessageWithFields_eq h.table hparts htlvs hstatus hsequence
  refine ⟨_, _, ?_, toJson_pdu length commandStatus sequenceNumber tlvs h.table hparts.partsOf,
    ?_, ?_, ?_, ?_⟩
  · rw [fromJson, h.command]
    exact hencode
  · exact fun field hfield => get_decoded_field h.table hparts htlvs hfield
  · exact fun codec hcodec value hget => get_decoded_tlv hparts htlvs hcodec
      (namedTlvFields.perm.mem_iff.mpr hcodec) hget
  · rw [show (message.get "command_status").getD (.ofNat 0) = _ from hstatus]
    exact get_decoded_header h.table hparts (by simp [headerEntries])
  · rw [show (message.get "sequence_number").getD (.ofNat 0) = _ from hsequence]
    exact get_decoded_header h.table hparts (by simp [headerEntries])

/-- A submit_sm that gives its text in Base64, in the field and in `message_payload`. -/
def payloadMessage : Value :=
  .object [("command_name", .string "submit_sm"), ("destination_addr", .string "12345"),
    ("message_payload", .string "aGVsbG8="), ("short_message", .string "aGk=")]

theorem inRange_payloadMessage : InRange payloadMessage .submitSm submitSmFields where
  command := by decide
  table := rfl
  commandStatus := ⟨0, rfl⟩
  sequenceNumber := ⟨0, rfl⟩
  field := by
    intro field _ codec value hcodec hget
    have hmem := Value.mem_of_get hget
    obtain ⟨name, default⟩ := field
    simp only [List.mem_cons, Prod.mk.injEq, List.not_mem_nil, or_false] at hmem hcodec
    rcases hmem with ⟨rfl, rfl⟩ | ⟨rfl, rfl⟩ | ⟨rfl, rfl⟩ | ⟨rfl, rfl⟩
    · exact absurd hcodec (by simp [fieldCodecs, createFieldCodecs, List.lookup_cons])
    · obtain rfl : FieldCodec.cOctetStr 21 = codec := Option.some.inj hcodec
      exact ⟨_, .cOctetStr (by decide) (by decide)⟩
    · exact absurd hcodec (by simp [fieldCodecs, createFieldCodecs, List.lookup_cons])
    · obtain rfl : FieldCodec.octet true 1 = codec := Option.some.inj hcodec
      exact ⟨_, @Represents.counted [104, 105] (by simp) (by simp)⟩
  required := by
    intro field hfield hnone
    have htable : ∀ field ∈ submitSmFields, field.2.isSome = true ∨
        field.1 = "destination_addr" ∨ field.1 = "short_message" := by decide
    rcases htable field hfield with hsome | hname | hname
    · simp [hnone] at hsome
    · rw [hname]
      simp [payloadMessage, Value.get, List.lookup_cons]
    · rw [hname]
      simp [payloadMessage, Value.get, List.lookup_cons]
  tlv := by
    intro codec hcodec value hget
    have hmem := Value.mem_of_get hget
    have htable : ∀ codec ∈ createTlvFields, codec.name ≠ "command_name" ∧
        codec.name ≠ "destination_addr" ∧ codec.name ≠ "short_message" := by decide
    obtain ⟨hname, haddr, hshort⟩ := htable codec hcodec
    simp only [List.mem_cons, Prod.mk.injEq, List.not_mem_nil, or_false, hname, haddr, hshort,
      false_and, or_false, false_or] at hmem
    obtain ⟨hpayload, rfl⟩ := hmem
    have hpayloadCodec : codec = ⟨0x0424, "message_payload", .octet false 1⟩ :=
      tlvName_injective hcodec (by simp [createTlvFields]) hpayload
    subst hpayloadCodec
    exact ⟨_, @Represents.octets 1 [104, 101, 108, 108, 111] (by simp), by simp, by simp⟩

theorem round_trip_payloadMessage : RoundTrips payloadMessage submitSmFields :=
  round_trip inRange_payloadMessage

/-- A submit_sm whose `message_payload` is plain text. -/
def plainMessage : Value :=
  .object [("command_name", .string "submit_sm"), ("destination_addr", .string "12345"),
    ("message_payload", .string "hi!"), ("short_message", .string "aGk=")]

/-- A submit_sm without destination. -/
def undirectedMessage : Value :=
  .object [("command_name", .string "submit_sm"), ("short_message", .string "aGk=")]

/-- A submit_multi_resp that reports a distribution list. -/
def unsuccessMessage : Value :=
  .object [("command_name", .string "submit_multi_resp"), ("message_id", .string "1"),
    ("unsuccess_smes", .array [.object [("dl_name", .string "team")]])]

def submitMultiRespFields : List CommandField := [("message_id", none), ("unsuccess_smes", none)]

set_option maxRecDepth 4000 in
/-- Plain text in an octet TLV comes back in Base64; a message that lacks a field without default,
or reports a distribution list in `unsuccess_smes`, is not encoded. -/
theorem not_round_trip_examples :
    ¬ RoundTrips plainMessage submitSmFields ∧ ¬ RoundTrips undirectedMessage submitSmFields ∧
      ¬ RoundTrips unsuccessMessage submitMultiRespFields := by
  refine ⟨?_, ?_, ?_⟩
  · intro h
    obtain ⟨pdu, decoded, hencode, hdecode, hreturns⟩ := h ⟨createTlvFields, .refl _⟩
    have hpayload := hreturns.tlv ⟨0x0424, "message_payload", .octet false 1⟩
      (by simp [createTlvFields]) (.string "hi!") rfl
    have hplain : ((fromJson ⟨createTlvFields, .refl _⟩ plainMessage).bind fun pdu =>
        (toJson pdu).toOption.elim .panicked fun decoded =>
          .ok (decoded.get "message_payload")) = .ok (some (.string "aGkh")) := rfl
    rw [hencode] at hplain
    simp [Outcome.bind, hdecode, Except.toOption, hpayload] at hplain
  · intro h
    obtain ⟨pdu, decoded, hencode, -⟩ := h ⟨createTlvFields, .refl _⟩
    have herr : fromJson ⟨createTlvFields, .refl _⟩ undirectedMessage =
      .err (invalidInput "Missing field: destination_addr") := rfl
    simp [herr] at hencode
  · intro h
    obtain ⟨pdu, decoded, hencode, -⟩ := h ⟨createTlvFields, .refl _⟩
    have herr : fromJson ⟨createTlvFields, .refl _⟩ unsuccessMessage =
      .err (invalidInput "Failed to encode field: unsuccess_smes") := rfl
    simp [herr] at hencode

end SmppHerald.RoundTrip
