import SmppHerald.Encodability

namespace SmppHerald.DecodedMessage

open SmppHerald.Buffer
open SmppHerald.ByteParser
open SmppHerald.CommandIds
open SmppHerald.Encodability
open SmppHerald.FieldCodecs
open SmppHerald.Io
open SmppHerald.Json
open SmppHerald.Message
open SmppHerald.PduFormat

/-- The insertions that make up a decoded message. -/
structure Decoded where
  commandId : UInt32
  commandStatus : UInt32
  sequenceNumber : UInt32
  fields : List CommandField
  entries : Map
  tlvs : Map
  table : messageCommandFields commandId = some fields
  names : entries.map Prod.fst = fields.map Prod.fst
  shaped : ∀ entry ∈ entries, ∃ codec, fieldCodecs entry.1 = some codec ∧
    (flat codec = true → Shaped codec entry.2)
  tlvShaped : ∀ entry ∈ tlvs, ∃ codec ∈ createTlvFields, codec.name = entry.1 ∧
    (entry.2 = .null ∨ Shaped codec.valueCodec entry.2)

def Decoded.value (decoded : Decoded) : Value :=
  .object (insertAll (headerEntries decoded.commandId decoded.commandStatus
    decoded.sequenceNumber ++ decoded.entries ++ decoded.tlvs) [])

section Decoding

theorem flat_of_mem_createTlvFields {codec : TLVFieldCodec} (h : codec ∈ createTlvFields) :
    flat codec.valueCodec = true := by
  have htable : ∀ codec ∈ createTlvFields, flat codec.valueCodec = true := by
    simp [createTlvFields, flat]
  exact htable codec h

theorem decodeMandatory_ok {fields : List CommandField} {buffer rest : Bytes} {entries : Map}
    (h : decodeMandatory fields buffer = (.ok entries, rest)) :
    entries.map Prod.fst = fields.map Prod.fst ∧
      ∀ entry ∈ entries, ∃ codec, fieldCodecs entry.1 = some codec ∧
        (flat codec = true → Shaped codec entry.2) := by
  induction fields generalizing buffer entries with
  | nil =>
      simp only [decodeMandatory, Parser.pure_apply, Prod.mk.injEq, Except.ok.injEq] at h
      simp [← h.1]
  | cons field fields ih =>
      obtain ⟨entry, middle, hentry, h⟩ := (Parser.bind_ok_iff _ _ _ _ _).mp h
      obtain ⟨tail, middle', htail, h⟩ := (Parser.bind_ok_iff _ _ _ _ _).mp h
      simp only [Parser.pure_apply, Prod.mk.injEq, Except.ok.injEq] at h
      obtain ⟨rfl, rfl⟩ := h
      obtain ⟨hnames, hshaped⟩ := ih htail
      have hfirst : entry.1 = field.1 ∧ ∃ codec, fieldCodecs entry.1 = some codec ∧
          (flat codec = true → Shaped codec entry.2) := by
        cases hcodec : fieldCodecs field.1 with
        | none => simp [decodeField, hcodec, Parser.fail] at hentry
        | some codec =>
          simp only [decodeField, hcodec] at hentry
          obtain ⟨value, after, hvalue, hpure⟩ := (Parser.bind_ok_iff _ _ _ _ _).mp hentry
          rw [Parser.mapError_ok_iff] at hvalue
          simp only [Parser.pure_apply, Prod.mk.injEq, Except.ok.injEq] at hpure
          obtain ⟨rfl, -⟩ := hpure
          exact ⟨rfl, codec, hcodec, fun hflat => decode_shaped hflat hvalue⟩
      refine ⟨by rw [List.map_cons, List.map_cons, hnames, hfirst.1], ?_⟩
      rw [List.forall_mem_cons]
      exact ⟨hfirst.2, hshaped⟩

theorem decode_tlv_shaped {codec : TLVFieldCodec} (hcodec : codec ∈ createTlvFields)
    {buffer : Bytes} {value : Value} (h : (codec.decode buffer).1 = .ok value) :
    Shaped codec.valueCodec value := by
  have hrun : codec.decode buffer = (.ok value, (codec.decode buffer).2) := by rw [← h]
  obtain ⟨⟨tag, octets⟩, middle, -, hrest⟩ := (Parser.bind_ok_iff _ _ _ _ _).mp hrun
  by_cases htag : tag = codec.tag
  · simp only [htag, if_true, Parser.within, Prod.mk.injEq] at hrest
    have hinner : codec.valueCodec.decode octets =
        (.ok value, (codec.valueCodec.decode octets).2) := by rw [← hrest.1]
    exact decode_shaped (flat_of_mem_createTlvFields hcodec) hinner
  · simp [htag, Parser.fail] at hrest

theorem decodeTlvs_ok {rounds : Nat} {buffer : Bytes} {tlvs : Map}
    (h : decodeTlvs rounds buffer = .ok tlvs) :
    ∀ entry ∈ tlvs, ∃ codec ∈ createTlvFields, codec.name = entry.1 ∧
      (entry.2 = .null ∨ Shaped codec.valueCodec entry.2) := by
  induction rounds generalizing buffer tlvs with
  | zero =>
      obtain rfl := Except.ok.inj h
      simp
  | succ rounds ih =>
      simp only [decodeTlvs] at h
      split at h
      · obtain rfl := Except.ok.inj h
        simp
      · split at h
        · simp at h
        · rename_i tag _ codec hcodec
          have hknown : codec ∈ createTlvFields := List.mem_of_find?_eq_some hcodec
          cases htail : decodeTlvs rounds (codec.decode buffer).2 with
          | error e => simp [htail, Except.map] at h
          | ok tail =>
              rw [htail] at h
              obtain rfl := Except.ok.inj h
              rw [List.forall_mem_cons]
              refine ⟨⟨codec, hknown, rfl, ?_⟩, ih htail⟩
              cases hvalue : (codec.decode buffer).1 with
              | error e => exact .inl rfl
              | ok value => exact .inr (decode_tlv_shaped hknown hvalue)

theorem exists_decoded_of_decodeBody {commandId commandStatus sequenceNumber : UInt32}
    {buffer : Bytes} {message : Value}
    (h : decodeBody commandId commandStatus sequenceNumber buffer = .ok message) :
    ∃ decoded : Decoded, decoded.value = message ∧ decoded.commandId = commandId ∧
      decoded.commandStatus = commandStatus ∧ decoded.sequenceNumber = sequenceNumber := by
  unfold decodeBody at h
  split at h
  · simp at h
  · rename_i fields hfields
    split at h
    · simp at h
    · rename_i entries rest hmandatory
      obtain ⟨hnames, hshaped⟩ := decodeMandatory_ok hmandatory
      cases htlvs : decodeTlvs rest.length rest with
      | error e => simp [htlvs, Except.map] at h
      | ok tlvs =>
          rw [htlvs] at h
          obtain rfl := Except.ok.inj h
          exact ⟨⟨commandId, commandStatus, sequenceNumber, fields, entries, tlvs, hfields, hnames,
            hshaped, decodeTlvs_ok htlvs⟩, rfl, rfl, rfl, rfl⟩

theorem exists_decoded {pdu : SMPPMessage} {message : Value} (h : toJson pdu = .ok message) :
    ∃ decoded : Decoded, decoded.value = message := by
  simp only [toJson] at h
  split at h
  · simp at h
  · obtain ⟨decoded, hvalue, -⟩ := exists_decoded_of_decodeBody h
    exact ⟨decoded, hvalue⟩

end Decoding

namespace Decoded

variable (decoded : Decoded)

theorem mem_insertions {entry : String × Value} :
    entry ∈ headerEntries decoded.commandId decoded.commandStatus decoded.sequenceNumber ++
        decoded.entries ++ decoded.tlvs ↔
      entry ∈ headerEntries decoded.commandId decoded.commandStatus decoded.sequenceNumber ∨
        entry ∈ decoded.entries ∨ entry ∈ decoded.tlvs := by
  simp only [List.mem_append, or_assoc]

theorem exists_field {entry : String × Value} (h : entry ∈ decoded.entries) :
    ∃ field ∈ decoded.fields, field.1 = entry.1 := by
  have hmem : entry.1 ∈ decoded.fields.map Prod.fst := by
    rw [← decoded.names]
    exact List.mem_map_of_mem h
  exact List.mem_map.mp hmem

theorem get_header {key : String} {value : Value}
    (hentry : (key, value) ∈ headerEntries decoded.commandId decoded.commandStatus
      decoded.sequenceNumber) : decoded.value.get key = some value := by
  have hkey := headerEntries_names hentry
  refine lookup_insertAll_of_agree ?_ ⟨_, decoded.mem_insertions.mpr (.inl hentry), rfl⟩
  intro entry hmem hname
  rcases decoded.mem_insertions.mp hmem with hheader | hfield | htlv
  · have hnodup : ((headerEntries decoded.commandId decoded.commandStatus
        decoded.sequenceNumber).map Prod.fst).Nodup := by
      simp [headerEntries]
    rw [List.inj_on_of_nodup_map hnodup hheader hentry hname]
  · obtain ⟨field, hfield, hfieldName⟩ := decoded.exists_field hfield
    refine absurd hkey ?_
    rw [← show entry.1 = key from hname, ← hfieldName]
    exact fieldName_notMem_headerNames decoded.table hfield
  · obtain ⟨codec, hcodec, hcodecName, -⟩ := decoded.tlvShaped entry htlv
    refine absurd hkey ?_
    rw [← show entry.1 = key from hname, ← hcodecName]
    exact tlvName_notMem_headerNames hcodec

theorem get_field {field : CommandField} (hfield : field ∈ decoded.fields)
    (htlv : isValidTlvField field.1 = false) :
    ∃ codec value, fieldCodecs field.1 = some codec ∧ decoded.value.get field.1 = some value ∧
      (flat codec = true → Shaped codec value) := by
  have hname : field.1 ∈ decoded.entries.map Prod.fst := by
    rw [decoded.names]
    exact List.mem_map_of_mem hfield
  obtain ⟨entry, hentry, hentryName⟩ := List.mem_map.mp hname
  obtain ⟨value, hvalue⟩ :=
    lookup_insertAll_isSome (decoded.mem_insertions.mpr (.inr (.inl hentry)))
  rw [hentryName] at hvalue
  rcases decoded.mem_insertions.mp (mem_of_lookup_insertAll hvalue) with hheader | hmem | hmem
  · exact absurd (headerEntries_names hheader) (fieldName_notMem_headerNames decoded.table hfield)
  · obtain ⟨codec, hcodec, hshaped⟩ := decoded.shaped _ hmem
    exact ⟨codec, value, hcodec, hvalue, hshaped⟩
  · obtain ⟨codec, hcodec, hcodecName, -⟩ := decoded.tlvShaped _ hmem
    have hvalid : isValidTlvField field.1 = true := by
      rw [isValidTlvField, List.any_eq_true]
      exact ⟨codec, hcodec, by simpa using hcodecName⟩
    simp [htlv] at hvalid

theorem get_tlv {codec : TLVFieldCodec} (hcodec : codec ∈ createTlvFields)
    (hfield : ∀ field ∈ decoded.fields, field.1 ≠ codec.name) {value : Value}
    (hget : decoded.value.get codec.name = some value) :
    value = .null ∨ Shaped codec.valueCodec value := by
  rcases decoded.mem_insertions.mp (mem_of_lookup_insertAll hget) with hheader | hmem | hmem
  · exact absurd (headerEntries_names hheader) (tlvName_notMem_headerNames hcodec)
  · obtain ⟨field, hmem, hname⟩ := decoded.exists_field hmem
    exact absurd hname (hfield field hmem)
  · obtain ⟨found, hfound, hname, hshaped⟩ := decoded.tlvShaped _ hmem
    rw [tlvName_injective hfound hcodec hname] at hshaped
    exact hshaped

theorem get_other {name : String} (hheader : name ∉ headerNames)
    (hfield : ∀ field ∈ decoded.fields, field.1 ≠ name) (htlv : isValidTlvField name = false) :
    decoded.value.get name = none := by
  cases hget : decoded.value.get name with
  | none => rfl
  | some value =>
      rcases decoded.mem_insertions.mp (mem_of_lookup_insertAll hget) with hmem | hmem | hmem
      · exact absurd (headerEntries_names hmem) hheader
      · obtain ⟨field, hmem, hname⟩ := decoded.exists_field hmem
        exact absurd hname (hfield field hmem)
      · obtain ⟨codec, hcodec, hname, -⟩ := decoded.tlvShaped _ hmem
        have hvalid : isValidTlvField name = true := by
          rw [isValidTlvField, List.any_eq_true]
          exact ⟨codec, hcodec, by simpa using hname⟩
        simp [htlv] at hvalid

theorem extractCommandId_value :
    extractCommandId decoded.value = CommandId.fromU32 decoded.commandId := by
  obtain ⟨command, hid, hstr⟩ := exists_command decoded.table
  have hget : decoded.value.get "command_id" =
      some (.string ("0x" ++ upperHex 8 decoded.commandId.toNat)) :=
    decoded.get_header (by simp [headerEntries])
  rw [extractCommandId, hget]
  simp only
  rw [hstr, ← hid]
  refine (CommandId.fromU32_asU32 ?_).symm
  rintro rfl
  have hunknown := decoded.table
  rw [← hid] at hunknown
  exact absurd hunknown (by simp [messageCommandFields, createCommandFields, CommandId.asU32])

end Decoded

end SmppHerald.DecodedMessage
