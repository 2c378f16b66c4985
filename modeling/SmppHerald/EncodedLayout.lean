import SmppHerald.Encodability

namespace SmppHerald.EncodedLayout

open SmppHerald.Buffer
open SmppHerald.ByteParser
open SmppHerald.CommandIds
open SmppHerald.Encodability
open SmppHerald.FieldCodecs
open SmppHerald.Io
open SmppHerald.Json
open SmppHerald.Message
open SmppHerald.PduFormat

/-- The mandatory fields of the command that a message names. -/
def mandatoryFields (message : Value) : List CommandField :=
  ((extractCommandId message).bind fun command => messageCommandFields command.asU32).getD []

/-- The TLVs in the order of the source. -/
def declaredTlvFields : NamedTlvFields := ⟨createTlvFields, .refl _⟩

/-- `from_json(message).is_ok()` -/
def accepted (namedTlvFields : NamedTlvFields) (message : Value) : Bool :=
  match fromJson namedTlvFields message with
  | .ok _ => true
  | _ => false

def encoded (namedTlvFields : NamedTlvFields) (message : Value) : SMPPMessage :=
  match fromJson namedTlvFields message with
  | .ok pdu => pdu
  | _ => []

theorem fromJson_encoded {namedTlvFields : NamedTlvFields} {message : Value}
    (h : accepted namedTlvFields message = true) :
    fromJson namedTlvFields message = .ok (encoded namedTlvFields message) := by
  unfold accepted at h
  unfold encoded
  cases hencode : fromJson namedTlvFields message with
  | ok pdu => rfl
  | err e => simp [hencode] at h
  | panicked => simp [hencode] at h

section Pieces

theorem encodeAll_eq_ok {α : Type} {encode : α → Outcome Bytes} {items : List α}
    {octets : Bytes} (h : encodeAll encode items = .ok octets) :
    ∃ parts, List.Forall₂ (fun item part => encode item = .ok part) items parts ∧
      octets = parts.flatten := by
  induction items generalizing octets with
  | nil => exact ⟨[], .nil, (Outcome.ok.inj h).symm⟩
  | cons item items ih =>
      obtain ⟨first, hfirst, h⟩ := Outcome.bind_eq_ok_iff.mp h
      obtain ⟨rest, hrest, h⟩ := Outcome.bind_eq_ok_iff.mp h
      obtain ⟨parts, hparts, rfl⟩ := ih hrest
      exact ⟨first :: parts, .cons hfirst hparts, (Outcome.ok.inj h).symm⟩

theorem exists_part {α : Type} {encode : α → Outcome Bytes} {items : List α}
    {parts : List Bytes}
    (h : List.Forall₂ (fun item part => encode item = .ok part) items parts) {item : α}
    (hitem : item ∈ items) : ∃ part, encode item = .ok part ∧ part <:+: parts.flatten := by
  induction h with
  | nil => simp at hitem
  | @cons first part items parts hfirst _ ih =>
      rcases List.mem_cons.mp hitem with rfl | hrest
      · exact ⟨part, hfirst, (List.prefix_append part _).isInfix⟩
      · obtain ⟨found, hfound, hinfix⟩ := ih hrest
        exact ⟨found, hfound, hinfix.trans (List.suffix_append part _).isInfix⟩

theorem exists_entry {fields : List (String × FieldCodec)} {value : Value} {octets : Bytes}
    (h : encodeFields fields value = .ok octets) {name : String} {codec : FieldCodec}
    (hfield : (name, codec) ∈ fields) : ∃ fieldValue part, value.get name = some fieldValue ∧
      codec.encode fieldValue = .ok part ∧ part <:+: octets := by
  induction fields generalizing octets with
  | nil => simp at hfield
  | cons field fields ih =>
      obtain ⟨fieldName, fieldCodec⟩ := field
      obtain ⟨fieldValue, first, rest, hget, hfirst, hrest, rfl⟩ := encodeFields_cons_eq_ok h
      rcases List.mem_cons.mp hfield with heq | hlater
      · obtain ⟨rfl, rfl⟩ := Prod.mk.inj heq
        exact ⟨fieldValue, first, hget, hfirst, (List.prefix_append first _).isInfix⟩
      · obtain ⟨value', part, hvalue', hpart, hinfix⟩ := ih hrest hlater
        exact ⟨value', part, hvalue', hpart, hinfix.trans (List.suffix_append first _).isInfix⟩

end Pieces

section Layout

/-- How the octets of an encoded message are put together. -/
structure Layout (namedTlvFields : NamedTlvFields) (message : Value) (pdu : SMPPMessage) where
  commandId : CommandId
  length : UInt32
  fields : List Bytes
  tlvs : List Bytes
  command : extractCommandId message = some commandId
  table : messageCommandFields commandId.asU32 = some (mandatoryFields message)
  encodedFields : List.Forall₂ (fun field part => encodeField message field = .ok part)
    (mandatoryFields message) fields
  encodedTlvs : List.Forall₂ (fun codec part => encodeTlvField message codec = .ok part)
    namedTlvFields.entries tlvs
  octets : pdu = writeU32 length ++ (writeU32 commandId.asU32 ++
    (headerWord message "command_status" ++ (headerWord message "sequence_number" ++
      (fields.flatten ++ tlvs.flatten))))

variable {namedTlvFields : NamedTlvFields} {message : Value} {pdu : SMPPMessage}

/-- Every accepted message is laid out in this way. -/
theorem exists_layout (h : fromJson namedTlvFields message = .ok pdu) :
    Nonempty (Layout namedTlvFields message pdu) := by
  unfold fromJson at h
  split at h
  · rename_i commandId hcommand
    unfold encodeMessageWithFields at h
    split at h
    · cases h
    · rename_i fields htable
      have hfields : mandatoryFields message = fields := by
        rw [mandatoryFields, hcommand, Option.bind_some, htable, Option.getD_some]
      obtain ⟨mandatory, hmandatory, h⟩ := Outcome.bind_eq_ok_iff.mp h
      obtain ⟨tlvs, htlvs, h⟩ := Outcome.bind_eq_ok_iff.mp h
      obtain ⟨fieldParts, hfieldParts, rfl⟩ := encodeAll_eq_ok hmandatory
      obtain ⟨tlvParts, htlvParts, rfl⟩ := encodeAll_eq_ok htlvs
      have hword : (writeU32 0).length = 4 := length_beBytes 4 _
      have hwhole : ∃ length, pdu = writeU32 length ++ (writeU32 commandId.asU32 ++
          (headerWord message "command_status" ++ (headerWord message "sequence_number" ++
            (fieldParts.flatten ++ tlvParts.flatten)))) := by
        rw [← Outcome.ok.inj h, updateLength]
        refine ⟨_, congrArg (writeU32 _ ++ ·) ?_⟩
        simp only [List.append_assoc]
        rw [← hword, List.drop_left]
      obtain ⟨length, hoctets⟩ := hwhole
      exact ⟨⟨commandId, length, fieldParts, tlvParts, hcommand, hfields ▸ htable,
        hfields ▸ hfieldParts, htlvParts, hoctets⟩⟩
  · cases h

namespace Layout

variable (layout : Layout namedTlvFields message pdu)

/-- The four words of the header. -/
def header : Bytes :=
  writeU32 layout.length ++ writeU32 layout.commandId.asU32 ++
    headerWord message "command_status" ++ headerWord message "sequence_number"

theorem octets_eq : pdu = layout.header ++ layout.fields.flatten ++ layout.tlvs.flatten := by
  rw [header]
  simp only [List.append_assoc]
  exact layout.octets

theorem fields_infix : layout.fields.flatten <:+: pdu :=
  ⟨layout.header, layout.tlvs.flatten, layout.octets_eq.symm⟩

theorem tlvs_infix : layout.tlvs.flatten <:+: pdu := by
  apply List.IsSuffix.isInfix
  exact ⟨layout.header ++ layout.fields.flatten, layout.octets_eq.symm⟩

include layout in
theorem exists_field {field : CommandField} (hfield : field ∈ mandatoryFields message) :
    ∃ codec value part, fieldCodecs field.1 = some codec ∧
      (message.get field.1).or field.2 = some value ∧ codec.encode value = .ok part ∧
        part <:+: pdu := by
  obtain ⟨part, hpart, hinfix⟩ := exists_part layout.encodedFields hfield
  obtain ⟨codec, hcodec⟩ := fieldCodecs_isSome layout.table hfield
  simp only [encodeField, hcodec] at hpart
  split at hpart
  · rename_i value hvalue
    exact ⟨codec, value, part, hcodec, hvalue, Outcome.mapErr_eq_ok_iff.mp hpart,
      hinfix.trans layout.fields_infix⟩
  · cases hpart

include layout in
theorem exists_tlv {codec : TLVFieldCodec} (hcodec : codec ∈ createTlvFields) {value : Value}
    (hget : message.get codec.name = some value) :
    ∃ part, codec.valueCodec.encode value = .ok part ∧
      writeU16 codec.tag ++ writeU16 (UInt16.ofNat part.length) ++ part <:+: pdu := by
  have hentry : codec ∈ namedTlvFields.entries := namedTlvFields.perm.mem_iff.mpr hcodec
  obtain ⟨part, hpart, hinfix⟩ := exists_part layout.encodedTlvs hentry
  rw [encodeTlvField, hget] at hpart
  obtain ⟨octets, hoctets, hwhole⟩ :=
    Outcome.bind_eq_ok_iff.mp (Outcome.mapErr_eq_ok_iff.mp hpart)
  obtain rfl := Outcome.ok.inj hwhole
  exact ⟨octets, Outcome.mapErr_eq_ok_iff.mp hoctets, hinfix.trans layout.tlvs_infix⟩

end Layout

end Layout

section Supplies

/-- The values that a message supplies, or its table in their place, and the codecs that encode
them: of the mandatory fields, of the TLVs, and of what is nested in them. -/
inductive Supplied (message : Value) : FieldCodec → Value → Prop
  | field {field : CommandField} {codec : FieldCodec} {value : Value} :
      field ∈ mandatoryFields message → fieldCodecs field.1 = some codec →
      (message.get field.1).or field.2 = some value → Supplied message codec value
  | tlv {codec : TLVFieldCodec} {value : Value} : codec ∈ createTlvFields →
      message.get codec.name = some value → Supplied message codec.valueCodec value
  | item {itemCodec : FieldCodec} {items : List Value} {item : Value} :
      Supplied message (.array itemCodec) (.array items) → item ∈ items →
      Supplied message itemCodec item
  | entry {fields : List (String × FieldCodec)} {value : Value} {name : String}
      {codec : FieldCodec} {fieldValue : Value} : Supplied message (.composite fields) value →
      (name, codec) ∈ fields → value.get name = some fieldValue →
      Supplied message codec fieldValue
  | address {items : List Value} {item : Value} :
      Supplied message .destAddresses (.array items) → item ∈ items →
      Supplied message .destAddress item

theorem Layout.exists_supplied {namedTlvFields : NamedTlvFields} {message : Value}
    {pdu : SMPPMessage} (layout : Layout namedTlvFields message pdu) {codec : FieldCodec}
    {value : Value} (h : Supplied message codec value) :
    ∃ octets, codec.encode value = .ok octets ∧ octets <:+: pdu := by
  induction h with
  | field hfield hcodec hvalue =>
      obtain ⟨codec, value, part, hcodec', hvalue', hpart, hinfix⟩ := layout.exists_field hfield
      obtain rfl := Option.some.inj (hcodec.symm.trans hcodec')
      obtain rfl := Option.some.inj (hvalue.symm.trans hvalue')
      exact ⟨part, hpart, hinfix⟩
  | tlv hcodec hget =>
      obtain ⟨part, hpart, hinfix⟩ := layout.exists_tlv hcodec hget
      exact ⟨part, hpart, (List.suffix_append _ part).isInfix.trans hinfix⟩
  | item _ hitem ih =>
      obtain ⟨octets, hoctets, hinfix⟩ := ih
      simp only [FieldCodec.encode, Value.asArray] at hoctets
      split at hoctets
      · cases hoctets
      · obtain ⟨whole, hwhole, hoctets⟩ := Outcome.bind_eq_ok_iff.mp hoctets
        obtain rfl := Outcome.ok.inj hoctets
        obtain ⟨parts, hparts, rfl⟩ := encodeAll_eq_ok hwhole
        obtain ⟨part, hpart, hpartInfix⟩ := exists_part hparts hitem
        exact ⟨part, hpart, hpartInfix.trans
          ((List.suffix_append _ parts.flatten).isInfix.trans hinfix)⟩
  | entry _ hfield hget ih =>
      obtain ⟨octets, hoctets, hinfix⟩ := ih
      rw [FieldCodec.encode] at hoctets
      obtain ⟨fieldValue, part, hget', hpart, hpartInfix⟩ := exists_entry hoctets hfield
      obtain rfl := Option.some.inj (hget.symm.trans hget')
      exact ⟨part, hpart, hpartInfix.trans hinfix⟩
  | address _ hitem ih =>
      obtain ⟨octets, hoctets, hinfix⟩ := ih
      simp only [FieldCodec.encode, Value.asArray] at hoctets
      obtain ⟨whole, hwhole, hoctets⟩ := Outcome.bind_eq_ok_iff.mp hoctets
      obtain rfl := Outcome.ok.inj hoctets
      obtain ⟨parts, hparts, rfl⟩ := encodeAll_eq_ok hwhole
      obtain ⟨part, hpart, hpartInfix⟩ := exists_part hparts hitem
      refine ⟨part, ?_, hpartInfix.trans
        ((List.suffix_append _ parts.flatten).isInfix.trans hinfix)⟩
      rw [FieldCodec.encode, hpart]

end Supplies

end SmppHerald.EncodedLayout
