import SmppHerald.WireFormat

namespace SmppHerald.PduFormat

open SmppHerald.Buffer
open SmppHerald.ByteParser
open SmppHerald.CommandIds
open SmppHerald.FieldCodecs
open SmppHerald.Io
open SmppHerald.Json
open SmppHerald.Message
open SmppHerald.WireFormat

/-- A mandatory field, its value, and the octets that represent it. -/
structure FieldPart where
  name : String
  codec : FieldCodec
  value : Value
  octets : Bytes
  known : fieldCodecs name = some codec
  represents : Represents codec value octets

/-- A TLV, its value, and the octets that represent it. -/
structure TlvPart where
  codec : TLVFieldCodec
  value : Value
  octets : Bytes
  known : codec ∈ createTlvFields
  represents : Represents codec.valueCodec value octets
  nonempty : octets ≠ []
  fits : octets.length < 65536

def FieldPart.entry (part : FieldPart) : String × Value := (part.name, part.value)

def TlvPart.entry (part : TlvPart) : String × Value := (part.codec.name, part.value)

/-- Tag, length and value. -/
def TlvPart.encoded (part : TlvPart) : Bytes :=
  writeU16 part.codec.tag ++ writeU16 (UInt16.ofNat part.octets.length) ++ part.octets

def fieldOctets (parts : List FieldPart) : Bytes := (parts.map FieldPart.octets).flatten

def tlvOctets (parts : List TlvPart) : Bytes := (parts.map TlvPart.encoded).flatten

def header (length commandId commandStatus sequenceNumber : UInt32) : Bytes :=
  writeU32 length ++ writeU32 commandId ++ writeU32 commandStatus ++ writeU32 sequenceNumber

/-- The parts are those of the fields, in the order of the table. -/
def PartsOf (fields : List CommandField) (parts : List FieldPart) : Prop :=
  fields.map Prod.fst = parts.map FieldPart.name

section Tables

theorem selfDelimiting_of_known {name : String} {codec : FieldCodec}
    (h : fieldCodecs name = some codec) : selfDelimiting codec = true := by
  have htable : ∀ entry ∈ createFieldCodecs, selfDelimiting entry.2 = true := by
    simp [createFieldCodecs, selfDelimiting]
  rw [fieldCodecs, List.lookup_eq_some_iff] at h
  obtain ⟨before, after, hsplit, -⟩ := h
  exact htable (name, codec) (by rw [hsplit]; simp)

theorem nodup_tags : (createTlvFields.map TLVFieldCodec.tag).Nodup := by decide

theorem nodup_tlvNames : (createTlvFields.map TLVFieldCodec.name).Nodup := by decide

theorem tag_injective {codec codec' : TLVFieldCodec} (h : codec ∈ createTlvFields)
    (h' : codec' ∈ createTlvFields) (htag : codec.tag = codec'.tag) : codec = codec' :=
  List.inj_on_of_nodup_map nodup_tags h h' htag

theorem tlvName_injective {codec codec' : TLVFieldCodec} (h : codec ∈ createTlvFields)
    (h' : codec' ∈ createTlvFields) (hname : codec.name = codec'.name) : codec = codec' :=
  List.inj_on_of_nodup_map nodup_tlvNames h h' hname

theorem taggedTlvFields_tag {codec : TLVFieldCodec} (h : codec ∈ createTlvFields) :
    taggedTlvFields codec.tag = some codec := by
  cases hfind : taggedTlvFields codec.tag with
  | none =>
      rw [taggedTlvFields, List.find?_eq_none] at hfind
      exact absurd (hfind codec h) (by simp)
  | some found =>
      have hmem := List.mem_of_find?_eq_some hfind
      have htag := List.find?_some hfind
      rw [tag_injective hmem h (by simpa using htag)]

def headerNames : List String :=
  ["command_name", "command_id", "command_status", "sequence_number"]

theorem mem_createCommandFields {commandId : UInt32} {fields : List CommandField}
    (h : messageCommandFields commandId = some fields) :
    ∃ entry ∈ createCommandFields, entry.2 = fields := by
  rw [messageCommandFields, Option.map_eq_some_iff] at h
  obtain ⟨entry, hfind, rfl⟩ := h
  exact ⟨entry, List.mem_of_find?_eq_some hfind, rfl⟩

theorem exists_command {commandId : UInt32} {fields : List CommandField}
    (h : messageCommandFields commandId = some fields) :
    ∃ command : CommandId, command.asU32 = commandId ∧
      CommandId.fromStr ("0x" ++ upperHex 8 commandId.toNat) = some command := by
  have htable : ∀ entry ∈ createCommandFields,
      CommandId.fromStr ("0x" ++ upperHex 8 entry.1.asU32.toNat) = some entry.1 := by decide
  rw [messageCommandFields, Option.map_eq_some_iff] at h
  obtain ⟨entry, hfind, -⟩ := h
  obtain rfl : entry.1.asU32 = commandId := by simpa using List.find?_some hfind
  exact ⟨entry.1, rfl, htable entry (List.mem_of_find?_eq_some hfind)⟩

theorem fieldCodecs_isSome {commandId : UInt32} {fields : List CommandField}
    (h : messageCommandFields commandId = some fields) {field : CommandField}
    (hfield : field ∈ fields) : ∃ codec, fieldCodecs field.1 = some codec := by
  have htable : ∀ entry ∈ createCommandFields, ∀ field ∈ entry.2,
      (fieldCodecs field.1).isSome = true := by decide
  obtain ⟨entry, hentry, rfl⟩ := mem_createCommandFields h
  exact Option.isSome_iff_exists.mp (htable entry hentry field hfield)

theorem fieldName_notMem_headerNames {commandId : UInt32} {fields : List CommandField}
    (h : messageCommandFields commandId = some fields) {field : CommandField}
    (hfield : field ∈ fields) : field.1 ∉ headerNames := by
  have htable : ∀ entry ∈ createCommandFields, ∀ field ∈ entry.2,
      field.1 ∉ headerNames := by decide
  obtain ⟨entry, hentry, rfl⟩ := mem_createCommandFields h
  exact htable entry hentry field hfield

theorem tlvName_notMem_headerNames {codec : TLVFieldCodec} (h : codec ∈ createTlvFields) :
    codec.name ∉ headerNames := by
  revert codec
  decide

theorem nodup_fieldNames {commandId : UInt32} {fields : List CommandField}
    (h : messageCommandFields commandId = some fields) : (fields.map Prod.fst).Nodup := by
  have htable : ∀ entry ∈ createCommandFields, (entry.2.map Prod.fst).Nodup := by decide
  obtain ⟨entry, hentry, rfl⟩ := mem_createCommandFields h
  exact htable entry hentry

theorem fieldName_injective {commandId : UInt32} {fields : List CommandField}
    (hfields : messageCommandFields commandId = some fields) {field field' : CommandField}
    (h : field ∈ fields) (h' : field' ∈ fields) (hname : field.1 = field'.1) : field = field' :=
  List.inj_on_of_nodup_map (nodup_fieldNames hfields) h h' hname

theorem headerEntries_names {commandId commandStatus sequenceNumber : UInt32}
    {entry : String × Value}
    (h : entry ∈ headerEntries commandId commandStatus sequenceNumber) :
    entry.1 ∈ headerNames := by
  simp only [headerEntries, List.mem_cons, List.not_mem_nil, or_false] at h
  rcases h with rfl | rfl | rfl | rfl <;> simp [headerNames]

end Tables

section Decoding

theorem consumes_decodeMandatory {fields : List CommandField} {parts : List FieldPart}
    (h : PartsOf fields parts) :
    Consumes (decodeMandatory fields) (fieldOctets parts) (parts.map FieldPart.entry) := by
  induction fields generalizing parts with
  | nil =>
      have hparts : parts = [] := by simpa [PartsOf] using h.symm
      subst hparts
      exact consumes_pure []
  | cons field fields ih =>
      obtain ⟨part, parts, rfl, hname, hrest⟩ : ∃ part rest, parts = part :: rest ∧
          field.1 = part.name ∧ PartsOf fields rest := by
        cases parts with
        | nil => simp [PartsOf] at h
        | cons part rest =>
            rw [PartsOf, List.map_cons, List.map_cons, List.cons.injEq] at h
            exact ⟨part, rest, rfl, h.1, h.2⟩
      have hdecode := part.represents.decode (selfDelimiting_of_known part.known)
      have hfield : Consumes (decodeField field) part.octets part.entry := by
        simp only [decodeField, hname, part.known]
        exact (hdecode.mapError _).bind_pure fun value => (part.name, value)
      exact hfield.bind ((ih hrest).bind_pure _)

theorem TlvPart.decode (part : TlvPart) :
    Consumes part.codec.decode part.encoded part.value := by
  have hlen : (UInt16.ofNat part.octets.length).toNat = part.octets.length :=
    UInt16.toNat_ofNat_of_lt' part.fits
  have hread : Consumes readTlv part.encoded (part.codec.tag, part.octets) := by
    rw [TlvPart.encoded, List.append_assoc]
    refine (consumes_readU16 _).bind ((consumes_readU16 _).bind ?_)
    rw [hlen]
    exact (consumes_read part.nonempty).bind_pure fun octets => (part.codec.tag, octets)
  rw [← List.append_nil part.encoded, TLVFieldCodec.decode]
  refine (hread.mapError _).bind ?_
  simp only [if_true]
  exact consumes_within part.represents.decode_whole

theorem decodeTlvs_tlvOctets (parts : List TlvPart) (rounds : Nat)
    (hrounds : (tlvOctets parts).length ≤ rounds) :
    decodeTlvs rounds (tlvOctets parts) = .ok (parts.map TlvPart.entry) := by
  induction parts generalizing rounds with
  | nil => cases rounds <;> rfl
  | cons part parts ih =>
      have hoctets : tlvOctets (part :: parts) = part.encoded ++ tlvOctets parts := rfl
      have hpeek : peekTlvTag (part.encoded ++ tlvOctets parts) = some part.codec.tag := by
        rw [TlvPart.encoded, List.append_assoc, List.append_assoc]
        exact peekTlvTag_writeU16 _ _
      have hpos : 0 < part.encoded.length := by
        simp only [TlvPart.encoded, List.length_append, writeU16, length_beBytes]
        omega
      rw [hoctets] at hrounds ⊢
      rw [List.length_append] at hrounds
      cases rounds with
      | zero => omega
      | succ rounds =>
          simp only [decodeTlvs, hpeek, taggedTlvFields_tag part.known, part.decode _]
          rw [ih rounds (by omega)]
          rfl

theorem toJson_header (length commandId commandStatus sequenceNumber : UInt32) (body : Bytes) :
    toJson (header length commandId commandStatus sequenceNumber ++ body) =
      decodeBody commandId commandStatus sequenceNumber body := by
  have hlength := consumes_readU32 length
  have hcommand := consumes_readU32 commandId
  have hstatus := consumes_readU32 commandStatus
  have hsequence := consumes_readU32 sequenceNumber
  simp only [header, List.append_assoc, toJson, hlength _, hcommand _, hstatus _, hsequence _,
    Except.toOption, Option.getD_some]

theorem length_header (length commandId commandStatus sequenceNumber : UInt32) :
    (header length commandId commandStatus sequenceNumber).length = 16 := by
  simp [header, writeU32]

theorem readU32_cases (buffer : Bytes) :
    (∃ word rest, buffer = writeU32 word ++ rest ∧ readU32 buffer = (.ok word, rest)) ∨
      ∃ e, readU32 buffer = (.error e, buffer) := by
  by_cases h : 4 ≤ buffer.length
  · have hsplit : buffer =
        writeU32 (UInt32.ofNat (beNat (buffer.take 4))) ++ buffer.drop 4 := by
      rw [writeU32_ofNat_beNat (List.length_take_of_le h), List.take_append_drop]
    refine .inl ⟨_, _, hsplit, ?_⟩
    have hread := consumes_readU32 (UInt32.ofNat (beNat (buffer.take 4))) (buffer.drop 4)
    rwa [← hsplit] at hread
  · refine .inr ⟨(), ?_⟩
    simp [readU32, word, Parser.bind_apply, exactly, h]

theorem exists_header_of_toJson {pdu : SMPPMessage} {message : Value}
    (h : toJson pdu = .ok message) :
    ∃ length commandId commandStatus sequenceNumber body,
      pdu = header length commandId commandStatus sequenceNumber ++ body := by
  -- once a word is missing, so are those after it, the sequence number among them
  rcases readU32_cases pdu with ⟨length, rest, rfl, hlength⟩ | ⟨e, herror⟩
  · rcases readU32_cases rest with ⟨commandId, rest, rfl, hcommand⟩ | ⟨e, herror⟩
    · rcases readU32_cases rest with ⟨commandStatus, rest, rfl, hstatus⟩ | ⟨e, herror⟩
      · rcases readU32_cases rest with ⟨sequenceNumber, body, rfl, hsequence⟩ | ⟨e, herror⟩
        · exact ⟨length, commandId, commandStatus, sequenceNumber, body, by
            simp only [header, List.append_assoc]⟩
        · simp [toJson, hlength, hcommand, hstatus, herror] at h
      · simp [toJson, hlength, hcommand, herror] at h
    · simp [toJson, hlength, herror] at h
  · simp [toJson, herror] at h

theorem length_of_toJson {pdu : SMPPMessage} {message : Value} (h : toJson pdu = .ok message) :
    16 ≤ pdu.length := by
  obtain ⟨length, commandId, commandStatus, sequenceNumber, body, rfl⟩ := exists_header_of_toJson h
  rw [List.length_append, length_header]
  omega

/-- What `to_json` inserts into its result, in order. -/
def decodedEntries (commandId commandStatus sequenceNumber : UInt32) (parts : List FieldPart)
    (tlvs : List TlvPart) : Map :=
  headerEntries commandId commandStatus sequenceNumber ++ parts.map FieldPart.entry ++
    tlvs.map TlvPart.entry

theorem mem_decodedEntries {commandId commandStatus sequenceNumber : UInt32}
    {parts : List FieldPart} {tlvs : List TlvPart} {entry : String × Value} :
    entry ∈ decodedEntries commandId commandStatus sequenceNumber parts tlvs ↔
      entry ∈ headerEntries commandId commandStatus sequenceNumber ∨
        (∃ part ∈ parts, part.entry = entry) ∨ ∃ part ∈ tlvs, part.entry = entry := by
  simp only [decodedEntries, List.mem_append, List.mem_map, or_assoc]

theorem toJson_pdu (length commandStatus sequenceNumber : UInt32) {commandId : UInt32}
    {fields : List CommandField} {parts : List FieldPart} (tlvs : List TlvPart)
    (hfields : messageCommandFields commandId = some fields) (hparts : PartsOf fields parts) :
    toJson (header length commandId commandStatus sequenceNumber ++
        (fieldOctets parts ++ tlvOctets tlvs)) =
      .ok (.object (insertAll
        (decodedEntries commandId commandStatus sequenceNumber parts tlvs) [])) := by
  rw [toJson_header]
  simp only [decodeBody, decodedEntries, hfields, consumes_decodeMandatory hparts (tlvOctets tlvs),
    decodeTlvs_tlvOctets tlvs _ (Nat.le_refl _), Except.map]

end Decoding

section Encoding

/-- A header word the message supplies in range, or omits. -/
def Supplies (message : Value) (key : String) (n : UInt32) : Prop :=
  (message.get key).getD (.ofNat 0) = .ofNat n.toNat

theorem headerWord_of_supplies {message : Value} {key : String} {n : UInt32}
    (h : Supplies message key n) : headerWord message key = writeU32 n := by
  have hvalue : (message.get key).getD (.ofNat 0) = .ofNat n.toNat := h
  rw [headerWord, hvalue]
  simp [Value.asU64, Value.ofNat, Number.asU64]

/-- The message gives each field, or the table gives in its place, the value of its part. -/
def FillsParts (message : Value) (fields : List CommandField) (parts : List FieldPart) : Prop :=
  List.Forall₂ (fun field part => field.1 = part.name ∧
    (message.get field.1).or field.2 = some part.value) fields parts

theorem FillsParts.partsOf {message : Value} {fields : List CommandField}
    {parts : List FieldPart} (h : FillsParts message fields parts) : PartsOf fields parts := by
  induction h with
  | nil => rfl
  | cons hfirst _ ih => simp [PartsOf, hfirst.1, show _ = _ from ih]

theorem FillsParts.exists_part {message : Value} {fields : List CommandField}
    {parts : List FieldPart} (h : FillsParts message fields parts) {field : CommandField}
    (hfield : field ∈ fields) : ∃ part ∈ parts, field.1 = part.name ∧
      (message.get field.1).or field.2 = some part.value := by
  induction h with
  | nil => simp at hfield
  | @cons first part fields parts hfirst _ ih =>
      rcases List.mem_cons.mp hfield with rfl | hrest
      · exact ⟨part, List.mem_cons_self, hfirst⟩
      · obtain ⟨found, hmem, hfound⟩ := ih hrest
        exact ⟨found, List.mem_cons_of_mem _ hmem, hfound⟩

theorem FillsParts.exists_field {message : Value} {fields : List CommandField}
    {parts : List FieldPart} (h : FillsParts message fields parts) {part : FieldPart}
    (hpart : part ∈ parts) : ∃ field ∈ fields, field.1 = part.name ∧
      (message.get field.1).or field.2 = some part.value := by
  induction h with
  | nil => simp at hpart
  | @cons field first fields parts hfirst _ ih =>
      rcases List.mem_cons.mp hpart with rfl | hrest
      · exact ⟨field, List.mem_cons_self, hfirst⟩
      · obtain ⟨found, hmem, hfound⟩ := ih hrest
        exact ⟨found, List.mem_cons_of_mem _ hmem, hfound⟩

theorem encodeField_of_fills {message : Value} {field : CommandField} {part : FieldPart}
    (hname : field.1 = part.name) (hvalue : (message.get field.1).or field.2 = some part.value) :
    encodeField message field = .ok part.octets := by
  have hcodec : fieldCodecs field.1 = some part.codec := by rw [hname, part.known]
  simp only [encodeField, hcodec, hvalue, part.represents.encode]
  rfl

theorem encodeAll_of_fills {message : Value} {fields : List CommandField}
    {parts : List FieldPart} (h : FillsParts message fields parts) :
    encodeAll (encodeField message) fields = .ok (fieldOctets parts) := by
  induction h with
  | nil => rfl
  | cons hfirst _ ih =>
      rw [encodeAll, encodeField_of_fills hfirst.1 hfirst.2, ih]
      rfl

theorem TlvPart.encode (part : TlvPart) :
    part.codec.encode part.value = .ok part.encoded := by
  rw [TLVFieldCodec.encode, part.represents.encode]
  rfl

/-- The parts are the TLVs of `entries` that the message has, in that order. -/
inductive FillsTlvs (message : Value) : List TLVFieldCodec → List TlvPart → Prop
  | nil : FillsTlvs message [] []
  | absent {codec entries parts} : message.get codec.name = none →
      FillsTlvs message entries parts → FillsTlvs message (codec :: entries) parts
  | present {entries parts} (part : TlvPart) : message.get part.codec.name = some part.value →
      FillsTlvs message entries parts →
      FillsTlvs message (part.codec :: entries) (part :: parts)

theorem FillsTlvs.get_eq {message : Value} {entries : List TLVFieldCodec}
    {parts : List TlvPart} (h : FillsTlvs message entries parts) {part : TlvPart}
    (hpart : part ∈ parts) : message.get part.codec.name = some part.value := by
  induction h with
  | nil => simp at hpart
  | absent _ _ ih => exact ih hpart
  | present first hget _ ih =>
      rcases List.mem_cons.mp hpart with rfl | hrest
      · exact hget
      · exact ih hrest

theorem FillsTlvs.exists_part {message : Value} {entries : List TLVFieldCodec}
    {parts : List TlvPart} (h : FillsTlvs message entries parts) {codec : TLVFieldCodec}
    (hcodec : codec ∈ entries) {value : Value} (hget : message.get codec.name = some value) :
    ∃ part ∈ parts, part.codec = codec := by
  induction h with
  | nil => simp at hcodec
  | absent hnone _ ih =>
      rcases List.mem_cons.mp hcodec with rfl | hrest
      · simp [hget] at hnone
      · exact ih hrest
  | present first _ _ ih =>
      rcases List.mem_cons.mp hcodec with rfl | hrest
      · exact ⟨first, List.mem_cons_self, rfl⟩
      · obtain ⟨part, hmem, heq⟩ := ih hrest
        exact ⟨part, List.mem_cons_of_mem _ hmem, heq⟩

theorem FillsTlvs.sublist {message : Value} {entries : List TLVFieldCodec}
    {parts : List TlvPart} (h : FillsTlvs message entries parts) :
    (parts.map TlvPart.codec).Sublist entries := by
  induction h with
  | nil => exact .slnil
  | absent _ _ ih => exact ih.cons _
  | present part _ _ ih => exact ih.cons_cons _

theorem encodeAll_of_fillsTlvs {message : Value} {entries : List TLVFieldCodec}
    {parts : List TlvPart} (h : FillsTlvs message entries parts) :
    encodeAll (encodeTlvField message) entries = .ok (tlvOctets parts) := by
  induction h with
  | nil => rfl
  | absent hnone _ ih =>
      rw [encodeAll, encodeTlvField, hnone, ih]
      rfl
  | present part hsome _ ih =>
      rw [encodeAll, encodeTlvField, hsome, ih]
      simp only [part.encode]
      rfl

theorem updateLength_header (length commandId commandStatus sequenceNumber : UInt32)
    (body : Bytes) :
    updateLength (header length commandId commandStatus sequenceNumber ++ body) =
      header (UInt32.ofNat (header length commandId commandStatus sequenceNumber ++ body).length)
        commandId commandStatus sequenceNumber ++ body := by
  have hword : (writeU32 length).length = 4 := length_beBytes 4 _
  have hdrop : (header length commandId commandStatus sequenceNumber ++ body).drop 4 =
      writeU32 commandId ++ (writeU32 commandStatus ++ (writeU32 sequenceNumber ++ body)) := by
    simp only [header, List.append_assoc]
    rw [← hword, List.drop_left]
  rw [updateLength, hdrop]
  simp only [header, List.append_assoc]

/-- What is encoded begins with the header words that the message supplies. -/
theorem exists_header_of_encode {namedTlvFields : NamedTlvFields} {commandId : UInt32}
    {message : Value} {octets : SMPPMessage} {commandStatus sequenceNumber : UInt32}
    (hencode : encodeMessageWithFields namedTlvFields commandId message = .ok octets)
    (hstatus : Supplies message "command_status" commandStatus)
    (hsequence : Supplies message "sequence_number" sequenceNumber) :
    ∃ length body, octets = header length commandId commandStatus sequenceNumber ++ body := by
  unfold encodeMessageWithFields at hencode
  split at hencode
  · simp at hencode
  · obtain ⟨mandatory, -, hencode⟩ := Outcome.bind_eq_ok_iff.mp hencode
    obtain ⟨tlvs, -, hencode⟩ := Outcome.bind_eq_ok_iff.mp hencode
    rw [headerWord_of_supplies hstatus, headerWord_of_supplies hsequence] at hencode
    have hoctets : updateLength (header 0 commandId commandStatus sequenceNumber ++
        (mandatory ++ tlvs)) = octets := by
      rw [← Outcome.ok.inj hencode]
      simp only [header, List.append_assoc]
    rw [updateLength_header] at hoctets
    exact ⟨_, _, hoctets.symm⟩

theorem encodeMessageWithFields_eq {namedTlvFields : NamedTlvFields} {commandId : UInt32}
    {message : Value} {fields : List CommandField} {parts : List FieldPart}
    {tlvs : List TlvPart} {commandStatus sequenceNumber : UInt32}
    (hfields : messageCommandFields commandId = some fields)
    (hparts : FillsParts message fields parts)
    (htlvs : FillsTlvs message namedTlvFields.entries tlvs)
    (hstatus : Supplies message "command_status" commandStatus)
    (hsequence : Supplies message "sequence_number" sequenceNumber) :
    ∃ length, encodeMessageWithFields namedTlvFields commandId message =
      .ok (header length commandId commandStatus sequenceNumber ++
        (fieldOctets parts ++ tlvOctets tlvs)) := by
  have hmandatory := encodeAll_of_fills hparts
  have hoptional := encodeAll_of_fillsTlvs htlvs
  refine ⟨UInt32.ofNat (header 0 commandId commandStatus sequenceNumber ++
    (fieldOctets parts ++ tlvOctets tlvs)).length, ?_⟩
  simp only [encodeMessageWithFields, hfields, hmandatory, hoptional,
    headerWord_of_supplies hstatus, headerWord_of_supplies hsequence]
  change Outcome.ok (updateLength _) = _
  rw [← updateLength_header]
  simp only [header, List.append_assoc]

end Encoding

end SmppHerald.PduFormat
