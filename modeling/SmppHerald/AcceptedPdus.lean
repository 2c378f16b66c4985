import SmppHerald.DecodedMessage
import SmppHerald.Delimiting

namespace SmppHerald.AcceptedPdus

open SmppHerald.Buffer
open SmppHerald.ByteParser
open SmppHerald.CommandIds
open SmppHerald.DecodedMessage
open SmppHerald.Delimiting
open SmppHerald.Encodability
open SmppHerald.FieldCodecs
open SmppHerald.Io
open SmppHerald.Json
open SmppHerald.Message
open SmppHerald.PduFormat
open SmppHerald.WireFormat

section Fields

/-- The octets of an address of `dest_addresses`. -/
inductive HasAddressFormat : Bytes → Prop
  | sme (ton npi : UInt8) {addr : Bytes} : Terminated addr →
      HasAddressFormat (1 :: ton :: npi :: addr)
  | distributionList {dlName : Bytes} : Terminated dlName → HasAddressFormat (2 :: dlName)

/-- The octets of a mandatory field, whatever its value. -/
inductive HasFormat : FieldCodec → Bytes → Prop
  | u8 (n : UInt8) : HasFormat .u8 (writeU8 n)
  | u16 (n : UInt16) : HasFormat .u16 (writeU16 n)
  | u32 (n : UInt32) : HasFormat .u32 (writeU32 n)
  | cOctetStr (maxLength : Nat) {octets : Bytes} : Terminated octets →
      HasFormat (.cOctetStr maxLength) octets
  | counted (n : UInt8) {octets : Bytes} : octets.length = n.toNat → octets ≠ [] →
      HasFormat (.octet true 1) (writeU8 n ++ octets)
  | array {itemCodec : FieldCodec} (n : UInt8) {items : List Bytes} : items.length = n.toNat →
      (∀ item ∈ items, HasFormat itemCodec item) →
      HasFormat (.array itemCodec) (writeU8 n ++ items.flatten)
  | composite {parts : List ((String × FieldCodec) × Bytes)} :
      (∀ part ∈ parts, HasFormat part.1.2 part.2) →
      HasFormat (.composite (parts.map Prod.fst)) (parts.map Prod.snd).flatten
  | destAddresses (n : UInt8) {items : List Bytes} : items.length = n.toNat →
      (∀ item ∈ items, HasAddressFormat item) →
      HasFormat .destAddresses (writeU8 n ++ items.flatten)

/-- What the codec takes off a buffer has its format. -/
def TakesFormat (codec : FieldCodec) : Prop := Takes codec.decode fun _ => HasFormat codec

theorem takes_address : Takes decodeDestAddress fun _ => HasAddressFormat := by
  unfold decodeDestAddress
  apply (takes_readU8.mapError _).bind
  rintro flag _ rfl
  by_cases hsme : flag = 1
  · rw [if_pos hsme]
    apply (takes_readU8.mapError _).bind
    rintro ton _ rfl
    apply (takes_readU8.mapError _).bind
    rintro npi _ rfl
    apply (takes_readCOctetStr.mapError _).bind_pure
    rintro _ addr haddr
    rw [hsme]
    exact .sme ton npi haddr
  · rw [if_neg hsme]
    by_cases hlist : flag = 2
    · rw [if_pos hlist]
      apply (takes_readCOctetStr.mapError _).bind_pure
      rintro _ dlName hdlName
      rw [hlist]
      exact .distributionList hdlName
    · rw [if_neg hlist]
      exact takes_fail _

theorem takesFormat_u8 : TakesFormat .u8 := by
  unfold TakesFormat
  rw [FieldCodec.decode]
  apply (takes_readU8.mapError _).bind_pure
  rintro n _ rfl
  exact .u8 n

theorem takesFormat_u32 : TakesFormat .u32 := by
  unfold TakesFormat
  rw [FieldCodec.decode]
  apply (takes_readU32.mapError _).bind_pure
  rintro n _ rfl
  exact .u32 n

theorem takesFormat_cOctetStr (maxLength : Nat) : TakesFormat (.cOctetStr maxLength) := by
  unfold TakesFormat
  rw [FieldCodec.decode]
  apply (takes_readCOctetStr.mapError _).bind_pure
  intro _ octets hoctets
  exact .cOctetStr maxLength hoctets

theorem takesFormat_counted : TakesFormat (.octet true 1) := by
  have hlength : Takes (readLength 1) fun n input => ∃ word : UInt8, n = word.toNat ∧
      input = writeU8 word := by
    apply takes_readU8.bind_pure
    intro word input hinput
    exact ⟨word, rfl, hinput⟩
  have hoctets : Takes (readOctets true 1) fun _ => HasFormat (.octet true 1) := by
    rw [readOctets, if_pos rfl]
    apply hlength.bind
    rintro n _ ⟨word, rfl, rfl⟩
    apply (takes_read word.toNat).mono
    rintro _ octets ⟨hlength, hne⟩
    exact .counted word hlength hne
  unfold TakesFormat
  rw [FieldCodec.decode, decodeOctet]
  apply Takes.mapError
  apply hoctets.bind_pure
  exact fun _ _ h => h

theorem takesFormat_array {itemCodec : FieldCodec} (h : TakesFormat itemCodec) :
    TakesFormat (.array itemCodec) := by
  unfold TakesFormat
  rw [FieldCodec.decode]
  apply (takes_readU8.mapError _).bind
  rintro n _ rfl
  apply (takes_times h n.toNat).bind_pure
  rintro _ _ ⟨items, hlength, hitems, rfl⟩
  exact .array n hlength hitems

theorem takes_decodeFields {fields : List (String × FieldCodec)}
    (h : ∀ field ∈ fields, TakesFormat field.2) :
    Takes (decodeFields fields) fun _ input =>
      ∃ parts : List ((String × FieldCodec) × Bytes), parts.map Prod.fst = fields ∧
        (∀ part ∈ parts, HasFormat part.1.2 part.2) ∧ input = (parts.map Prod.snd).flatten := by
  induction fields with
  | nil =>
      rw [decodeFields]
      exact takes_pure [] ⟨[], rfl, by simp, rfl⟩
  | cons field fields ih =>
      rw [List.forall_mem_cons] at h
      rw [decodeFields]
      apply Takes.bind (h.1.mapError _)
      intro value first hfirst
      apply (ih h.2).bind_pure
      rintro _ _ ⟨parts, rfl, hparts, rfl⟩
      refine ⟨(field, first) :: parts, rfl, ?_, rfl⟩
      rw [List.forall_mem_cons]
      exact ⟨hfirst, hparts⟩

theorem takesFormat_composite {fields : List (String × FieldCodec)}
    (h : ∀ field ∈ fields, TakesFormat field.2) : TakesFormat (.composite fields) := by
  unfold TakesFormat
  rw [FieldCodec.decode]
  apply (takes_decodeFields h).bind_pure
  rintro _ _ ⟨parts, rfl, hparts, rfl⟩
  exact .composite hparts

theorem takesFormat_destAddresses : TakesFormat .destAddresses := by
  unfold TakesFormat
  rw [FieldCodec.decode]
  apply (takes_readU8.mapError _).bind
  rintro n _ rfl
  apply ((takes_times takes_address n.toNat).mapError _).bind_pure
  rintro _ _ ⟨items, hlength, hitems, rfl⟩
  exact .destAddresses n hlength hitems

theorem takesFormat_of_known {name : String} {codec : FieldCodec}
    (h : fieldCodecs name = some codec) : TakesFormat codec := by
  have hsmes : TakesFormat unsuccessSmeCodec := by
    apply takesFormat_composite
    simp [takesFormat_u8, takesFormat_u32, takesFormat_cOctetStr]
  have htable : ∀ entry ∈ createFieldCodecs, TakesFormat entry.2 := by
    simp [createFieldCodecs, takesFormat_u8, takesFormat_cOctetStr, takesFormat_counted,
      takesFormat_destAddresses, takesFormat_array hsmes]
  rw [fieldCodecs, List.lookup_eq_some_iff] at h
  obtain ⟨before, after, hsplit, -⟩ := h
  exact htable (name, codec) (by rw [hsplit]; simp)

theorem consumes_terminated {octets : Bytes} (h : Terminated octets) :
    ∃ s, Consumes readCOctetStr octets s := by
  obtain ⟨text, hnul, rfl⟩ := h
  exact ⟨_, (consumes_untilOctet 0 text hnul).bind_pure _⟩

theorem HasAddressFormat.decode {octets : Bytes} (h : HasAddressFormat octets) :
    ∃ value, Consumes decodeDestAddress octets value := by
  unfold decodeDestAddress
  cases h with
  | @sme ton npi addr haddr =>
      obtain ⟨s, hs⟩ := consumes_terminated haddr
      refine ⟨.object (insertAll [("dest_addr_ton", .ofNat ton.toNat),
        ("dest_addr_npi", .ofNat npi.toNat), ("destination_addr", .string s)] []), ?_⟩
      change Consumes _ (writeU8 1 ++ (writeU8 ton ++ (writeU8 npi ++ addr))) _
      refine ((consumes_readU8 1).mapError _).bind ?_
      rw [if_pos rfl]
      refine ((consumes_readU8 ton).mapError _).bind (((consumes_readU8 npi).mapError _).bind ?_)
      exact (hs.mapError _).bind_pure fun s => Value.object (insertAll
        [("dest_addr_ton", .ofNat ton.toNat), ("dest_addr_npi", .ofNat npi.toNat),
          ("destination_addr", .string s)] [])
  | @distributionList dlName hdlName =>
      obtain ⟨s, hs⟩ := consumes_terminated hdlName
      refine ⟨.object (insertAll [("dl_name", .string s)] []), ?_⟩
      change Consumes _ (writeU8 2 ++ dlName) _
      refine ((consumes_readU8 2).mapError _).bind ?_
      rw [if_neg (by decide), if_pos rfl]
      exact (hs.mapError _).bind_pure fun s => Value.object (insertAll [("dl_name", .string s)] [])

theorem exists_consumes_decodeFields {parts : List ((String × FieldCodec) × Bytes)}
    (h : ∀ part ∈ parts, ∃ value, Consumes part.1.2.decode part.2 value) :
    ∃ entries, Consumes (decodeFields (parts.map Prod.fst)) (parts.map Prod.snd).flatten
      entries := by
  induction parts with
  | nil =>
      rw [List.map_nil, decodeFields]
      exact ⟨[], consumes_pure []⟩
  | cons part parts ih =>
      rw [List.forall_mem_cons] at h
      obtain ⟨value, hvalue⟩ := h.1
      obtain ⟨entries, hentries⟩ := ih h.2
      rw [List.map_cons, decodeFields]
      exact ⟨_, (hvalue.mapError _).bind (hentries.bind_pure _)⟩

theorem HasFormat.decode {codec : FieldCodec} {octets : Bytes} (h : HasFormat codec octets) :
    ∃ value, Consumes codec.decode octets value := by
  induction h with
  | u8 n =>
      rw [FieldCodec.decode]
      exact ⟨_, ((consumes_readU8 n).mapError _).bind_pure _⟩
  | u16 n =>
      rw [FieldCodec.decode]
      exact ⟨_, ((consumes_readU16 n).mapError _).bind_pure _⟩
  | u32 n =>
      rw [FieldCodec.decode]
      exact ⟨_, ((consumes_readU32 n).mapError _).bind_pure _⟩
  | cOctetStr maxLength hterminated =>
      obtain ⟨s, hs⟩ := consumes_terminated hterminated
      rw [FieldCodec.decode]
      exact ⟨_, (hs.mapError _).bind_pure _⟩
  | @counted n octets hlength hne =>
      have hcount : Consumes (readLength 1) (writeU8 n) octets.length := by
        rw [hlength]
        exact (consumes_readU8 n).bind_pure UInt8.toNat
      rw [FieldCodec.decode, decodeOctet]
      exact ⟨_, ((hcount.bind (consumes_read hne)).bind_pure _).mapError _⟩
  | @array itemCodec n items hlength _ ih =>
      obtain ⟨values, hvalues⟩ := exists_consumes_times ih
      rw [hlength] at hvalues
      rw [FieldCodec.decode]
      exact ⟨_, ((consumes_readU8 n).mapError _).bind (hvalues.bind_pure _)⟩
  | composite _ ih =>
      obtain ⟨entries, hentries⟩ := exists_consumes_decodeFields ih
      rw [FieldCodec.decode]
      exact ⟨_, hentries.bind_pure _⟩
  | @destAddresses n items hlength hitems =>
      obtain ⟨values, hvalues⟩ := exists_consumes_times fun item hitem => (hitems item hitem).decode
      rw [hlength] at hvalues
      rw [FieldCodec.decode]
      exact ⟨_, ((consumes_readU8 n).mapError _).bind ((hvalues.mapError _).bind_pure _)⟩

/-- The octets of the mandatory fields, one part for each field. -/
def HaveFormat (fields : List CommandField) (parts : List Bytes) : Prop :=
  List.Forall₂ (fun field part => ∃ codec, fieldCodecs field.1 = some codec ∧ HasFormat codec part)
    fields parts

theorem takes_decodeField (field : CommandField) :
    Takes (decodeField field) fun entry part => entry.1 = field.1 ∧
      ∃ codec, fieldCodecs field.1 = some codec ∧ HasFormat codec part := by
  unfold decodeField
  split
  · rename_i codec hcodec
    apply ((takesFormat_of_known hcodec).mapError _).bind_pure
    intro value part hpart
    exact ⟨rfl, codec, hcodec, hpart⟩
  · exact takes_fail _

theorem takes_decodeMandatory (fields : List CommandField) :
    Takes (decodeMandatory fields) fun entries input => entries.map Prod.fst = fields.map Prod.fst ∧
      ∃ parts, HaveFormat fields parts ∧ input = parts.flatten := by
  induction fields with
  | nil => exact takes_pure [] ⟨rfl, [], .nil, rfl⟩
  | cons field fields ih =>
      apply (takes_decodeField field).bind
      rintro entry first ⟨hname, hfirst⟩
      apply ih.bind_pure
      rintro entries _ ⟨hnames, parts, hparts, rfl⟩
      refine ⟨?_, first :: parts, .cons hfirst hparts, rfl⟩
      rw [List.map_cons, List.map_cons, hname, hnames]

theorem HaveFormat.decode {fields : List CommandField} {parts : List Bytes}
    (h : HaveFormat fields parts) :
    ∃ entries, Consumes (decodeMandatory fields) parts.flatten entries := by
  induction h with
  | nil => exact ⟨[], consumes_pure []⟩
  | @cons field part fields parts hfirst _ ih =>
      obtain ⟨codec, hcodec, hformat⟩ := hfirst
      obtain ⟨value, hvalue⟩ := hformat.decode
      obtain ⟨entries, hentries⟩ := ih
      have hfield : Consumes (decodeField field) part (field.1, value) := by
        simp only [decodeField, hcodec]
        exact (hvalue.mapError _).bind_pure fun value => (field.1, value)
      exact ⟨_, hfield.bind (hentries.bind_pure _)⟩

end Fields

section Tlvs

/-- A known tag and octets, no more than a length can say. -/
structure Tlv where
  codec : TLVFieldCodec
  octets : Bytes
  known : codec ∈ createTlvFields
  fits : octets.length ≤ 65535

namespace Tlv

/-- Tag, length and octets. -/
def encoded (tlv : Tlv) : Bytes := encodedTlv tlv.codec tlv.octets

def name (tlv : Tlv) : String := tlv.codec.name

def reported (tlv : Tlv) : String × Value := (tlv.name, readBack tlv.codec tlv.octets)

end Tlv

def tlvsOctets (tlvs : List Tlv) : Bytes := (tlvs.map Tlv.encoded).flatten

theorem readTlvs_tlvsOctets (tlvs : List Tlv) (rest : Bytes) :
    readTlvs (tlvsOctets tlvs ++ rest) = (readTlvs rest).map (tlvs.map Tlv.reported ++ ·) := by
  induction tlvs with
  | nil =>
      cases hrest : readTlvs rest with
      | error e => simp [tlvsOctets, hrest, Except.map]
      | ok entries => simp [tlvsOctets, hrest, Except.map]
  | cons tlv tlvs ih =>
      have hoctets : tlvsOctets (tlv :: tlvs) ++ rest =
          encodedTlv tlv.codec tlv.octets ++ (tlvsOctets tlvs ++ rest) :=
        List.append_assoc _ _ _
      rw [hoctets, readTlvs_encodedTlv tlv.known tlv.fits, ih]
      cases readTlvs rest <;> rfl

theorem writeU16_append_inj {word word' : UInt16} {rest rest' : Bytes}
    (h : writeU16 word ++ rest = writeU16 word' ++ rest') : word = word' ∧ rest = rest' :=
  (consumes_readU16 word).append_inj (consumes_readU16 word') h

theorem decode_noLength (codec : TLVFieldCodec) {rest : Bytes} (h : rest.length < 2) :
    ∃ e, codec.decode (writeU16 codec.tag ++ rest) = (.error e, rest) := by
  have htag := consumes_readU16 codec.tag rest
  have hlength : readU16 rest = (.error (), rest) := by
    simp [readU16, word, Parser.bind_apply, exactly, show ¬ 2 ≤ rest.length by omega]
  refine ⟨invalidInput "Failed to read TLV from buffer", ?_⟩
  rw [TLVFieldCodec.decode, Parser.bind_apply, Parser.mapError, readTlv, Parser.bind_apply, htag]
  simp only [Parser.bind_apply, hlength]

theorem decode_cut (codec : TLVFieldCodec) {length : UInt16} {rest : Bytes}
    (h : rest.length < length.toNat) :
    ∃ e, codec.decode (writeU16 codec.tag ++ (writeU16 length ++ rest)) = (.error e, rest) := by
  have htag := consumes_readU16 codec.tag (writeU16 length ++ rest)
  have hlength := consumes_readU16 length rest
  have hread : Buffer.read length.toNat rest = (.error (), rest) := by
    rw [Buffer.read, if_pos (by omega), exactly, if_neg (by omega)]
  refine ⟨invalidInput "Failed to read TLV from buffer", ?_⟩
  rw [TLVFieldCodec.decode, Parser.bind_apply, Parser.mapError, readTlv, Parser.bind_apply, htag]
  simp only [Parser.bind_apply, hlength, hread]

/-- What can be at the front of the octets behind the mandatory fields. -/
inductive Front : Bytes → Prop
  | noTag {octets : Bytes} : octets.length < 2 → Front octets
  | unknown {tag : UInt16} (rest : Bytes) : taggedTlvFields tag = none →
      Front (writeU16 tag ++ rest)
  | noLength {codec : TLVFieldCodec} {rest : Bytes} : codec ∈ createTlvFields → rest.length < 2 →
      Front (writeU16 codec.tag ++ rest)
  | cut {codec : TLVFieldCodec} {length : UInt16} {rest : Bytes} : codec ∈ createTlvFields →
      rest.length < length.toNat → Front (writeU16 codec.tag ++ (writeU16 length ++ rest))
  | complete (tlv : Tlv) (rest : Bytes) : Front (tlv.encoded ++ rest)

theorem front (buffer : Bytes) : Front buffer := by
  by_cases htwo : 2 ≤ buffer.length
  · obtain ⟨tag, rest, rfl⟩ := exists_writeU16 htwo
    cases hcodec : taggedTlvFields tag with
    | none => exact .unknown rest hcodec
    | some codec =>
        have hknown : codec ∈ createTlvFields := List.mem_of_find?_eq_some hcodec
        obtain rfl : codec.tag = tag := by simpa using List.find?_some hcodec
        by_cases hfour : 2 ≤ rest.length
        · obtain ⟨length, rest, rfl⟩ := exists_writeU16 hfour
          by_cases hlength : length.toNat ≤ rest.length
          · have htake : (rest.take length.toNat).length = length.toNat :=
              List.length_take_of_le hlength
            have hfits : (rest.take length.toNat).length ≤ 65535 := by
              have := length.toNat_lt
              omega
            have hcomplete := Front.complete ⟨codec, rest.take length.toNat, hknown, hfits⟩
              (rest.drop length.toNat)
            rw [Tlv.encoded, encodedTlv, htake, UInt16.ofNat_toNat, List.append_assoc,
              List.append_assoc, List.take_append_drop] at hcomplete
            exact hcomplete
          · exact .cut hknown (Nat.lt_of_not_le hlength)
        · exact .noLength hknown (Nat.lt_of_not_le hfour)
  · exact .noTag (Nat.lt_of_not_le htwo)

/-- Octets that the loop reads to their end: it reads on behind the length of a TLV that is cut
off. -/
inductive Skimmed : Bytes → Prop
  | noTag {octets : Bytes} : octets.length < 2 → Skimmed octets
  | noLength {codec : TLVFieldCodec} {rest : Bytes} : codec ∈ createTlvFields → rest.length < 2 →
      Skimmed (writeU16 codec.tag ++ rest)
  | cut {codec : TLVFieldCodec} {length : UInt16} {rest : Bytes} : codec ∈ createTlvFields →
      rest.length < length.toNat → Skimmed rest →
      Skimmed (writeU16 codec.tag ++ (writeU16 length ++ rest))
  | complete (tlv : Tlv) {rest : Bytes} : Skimmed rest → Skimmed (tlv.encoded ++ rest)

theorem readTlvs_noTag {octets : Bytes} (h : octets.length < 2) : readTlvs octets = .ok [] := by
  have hpeek : peekTlvTag octets = none := if_neg (by omega)
  unfold readTlvs
  cases octets.length with
  | zero => rfl
  | succ rounds => rw [decodeTlvs, hpeek]

theorem readTlvs_complete (tlvs : List Tlv) :
    readTlvs (tlvsOctets tlvs) = .ok (tlvs.map Tlv.reported) := by
  have hread := readTlvs_tlvsOctets tlvs []
  rw [List.append_nil, @readTlvs_noTag [] (by simp)] at hread
  simpa [Except.map] using hread

theorem readTlvs_unknown {tag : UInt16} (rest : Bytes) (h : taggedTlvFields tag = none) :
    ∃ e, readTlvs (writeU16 tag ++ rest) = .error e := by
  have hlength : (writeU16 tag ++ rest).length = (rest.length + 1) + 1 := by
    simp [writeU16]
    omega
  refine ⟨invalidInput ("Unknown TLV tag: 0x" ++ upperHex 4 tag.toNat), ?_⟩
  rw [readTlvs, hlength, decodeTlvs, peekTlvTag_writeU16]
  simp only [h]

theorem Skimmed.readTlvs {buffer : Bytes} (h : Skimmed buffer) :
    ∃ entries, readTlvs buffer = .ok entries := by
  induction h with
  | noTag hshort => exact ⟨[], readTlvs_noTag hshort⟩
  | @noLength codec rest hknown hshort =>
      obtain ⟨e, hdecode⟩ := decode_noLength codec hshort
      rw [readTlvs_decode hknown (peekTlvTag_writeU16 _ _) hdecode, readTlvs_noTag hshort]
      exact ⟨_, rfl⟩
  | @cut codec length rest hknown hshort _ ih =>
      obtain ⟨e, hdecode⟩ := decode_cut codec hshort
      obtain ⟨entries, hentries⟩ := ih
      rw [readTlvs_decode hknown (peekTlvTag_writeU16 _ _) hdecode, hentries]
      exact ⟨_, rfl⟩
  | complete tlv _ ih =>
      obtain ⟨entries, hentries⟩ := ih
      rw [Tlv.encoded, readTlvs_encodedTlv tlv.known tlv.fits, hentries]
      exact ⟨_, rfl⟩

theorem exists_of_map_ok {α β ε : Type} {f : α → β} {result : Except ε α} {b : β}
    (h : result.map f = .ok b) : ∃ a, result = .ok a := by
  cases result with
  | error e => simp [Except.map] at h
  | ok a => exact ⟨a, rfl⟩

theorem skimmed_of_readTlvs (buffer : Bytes) {entries : Map} (h : readTlvs buffer = .ok entries) :
    Skimmed buffer := by
  -- on the number of octets: behind every tag that is read there are fewer
  induction hlength : buffer.length using Nat.strongRecOn generalizing buffer entries with
  | ind n ih =>
      subst hlength
      cases front buffer with
      | noTag hshort => exact .noTag hshort
      | unknown rest hunknown =>
          obtain ⟨e, herror⟩ := readTlvs_unknown rest hunknown
          rw [herror] at h
          cases h
      | noLength hknown hshort => exact .noLength hknown hshort
      | @cut codec length rest hknown hshort =>
          obtain ⟨e, hdecode⟩ := decode_cut codec hshort
          rw [readTlvs_decode hknown (peekTlvTag_writeU16 _ _) hdecode] at h
          obtain ⟨tail, htail⟩ := exists_of_map_ok h
          refine .cut hknown hshort (ih rest.length ?_ rest htail rfl)
          simp [writeU16]
          omega
      | complete tlv rest =>
          rw [Tlv.encoded, readTlvs_encodedTlv tlv.known tlv.fits] at h
          obtain ⟨tail, htail⟩ := exists_of_map_ok h
          refine .complete tlv (ih rest.length ?_ rest htail rfl)
          simp [Tlv.encoded, encodedTlv, writeU16]
          omega

/-- Octets that begin no complete TLV and are read nevertheless. -/
inductive Stub : Bytes → Prop
  | octet (octet : UInt8) : Stub [octet]
  | noLength {codec : TLVFieldCodec} {rest : Bytes} : codec ∈ createTlvFields → rest.length < 2 →
      Stub (writeU16 codec.tag ++ rest)
  | cut {codec : TLVFieldCodec} {length : UInt16} {rest : Bytes} : codec ∈ createTlvFields →
      rest.length < length.toNat → Skimmed rest →
      Stub (writeU16 codec.tag ++ (writeU16 length ++ rest))

theorem Stub.skimmed {stub : Bytes} (h : Stub stub) : Skimmed stub := by
  cases h with
  | octet octet => exact .noTag (by simp)
  | noLength hknown hshort => exact .noLength hknown hshort
  | cut hknown hshort hrest => exact .cut hknown hshort hrest

theorem skimmed_tlvsOctets (tlvs : List Tlv) {rest : Bytes} (h : Skimmed rest) :
    Skimmed (tlvsOctets tlvs ++ rest) := by
  induction tlvs with
  | nil => exact h
  | cons tlv tlvs ih =>
      have hoctets : tlvsOctets (tlv :: tlvs) ++ rest =
          tlv.encoded ++ (tlvsOctets tlvs ++ rest) := List.append_assoc _ _ _
      rw [hoctets]
      exact .complete tlv ih

/-- What is read to its end is complete TLVs, with or without a stub behind them. -/
theorem Skimmed.split {buffer : Bytes} (h : Skimmed buffer) :
    ∃ tlvs, buffer = tlvsOctets tlvs ∨ ∃ stub, Stub stub ∧ buffer = tlvsOctets tlvs ++ stub := by
  induction h with
  | @noTag octets hshort =>
      refine ⟨[], ?_⟩
      match octets, hshort with
      | [], _ => exact .inl rfl
      | [octet], _ => exact .inr ⟨[octet], .octet octet, rfl⟩
  | noLength hknown hshort => exact ⟨[], .inr ⟨_, .noLength hknown hshort, rfl⟩⟩
  | cut hknown hshort hrest => exact ⟨[], .inr ⟨_, .cut hknown hshort hrest, rfl⟩⟩
  | complete tlv _ ih =>
      obtain ⟨tlvs, rfl | ⟨stub, hstub, rfl⟩⟩ := ih
      · exact ⟨tlv :: tlvs, .inl rfl⟩
      · exact ⟨tlv :: tlvs, .inr ⟨stub, hstub, (List.append_assoc _ _ _).symm⟩⟩

theorem encoded_append (tlv : Tlv) (rest : Bytes) :
    tlv.encoded ++ rest = writeU16 tlv.codec.tag ++
      (writeU16 (UInt16.ofNat tlv.octets.length) ++ (tlv.octets ++ rest)) := by
  rw [Tlv.encoded, encodedTlv, List.append_assoc, List.append_assoc]

theorem toNat_length (tlv : Tlv) : (UInt16.ofNat tlv.octets.length).toNat = tlv.octets.length :=
  UInt16.toNat_ofNat_of_lt' (Nat.lt_succ_of_le tlv.fits)

theorem length_writeU16 (word : UInt16) : (writeU16 word).length = 2 := length_beBytes 2 _

theorem Stub.ne_complete {stub : Bytes} (h : Stub stub) (tlv : Tlv) (rest : Bytes) :
    stub ≠ tlv.encoded ++ rest := by
  rw [encoded_append]
  intro heq
  cases h with
  | octet octet =>
      have hlength := congrArg List.length heq
      simp only [List.length_append, length_writeU16, List.length_singleton] at hlength
      omega
  | noLength hknown hshort =>
      obtain ⟨-, hrest⟩ := writeU16_append_inj heq
      rw [hrest, List.length_append, length_writeU16] at hshort
      omega
  | cut hknown hshort _ =>
      obtain ⟨-, hlength⟩ := writeU16_append_inj heq
      obtain ⟨rfl, hrest⟩ := writeU16_append_inj hlength
      rw [hrest, toNat_length, List.length_append] at hshort
      omega

theorem encoded_append_inj {tlv tlv' : Tlv} {rest rest' : Bytes}
    (h : tlv.encoded ++ rest = tlv'.encoded ++ rest') : rest = rest' := by
  rw [encoded_append, encoded_append] at h
  obtain ⟨-, hlength⟩ := writeU16_append_inj h
  obtain ⟨hword, hoctets⟩ := writeU16_append_inj hlength
  have hsame := congrArg UInt16.toNat hword
  rw [toNat_length, toNat_length] at hsame
  exact (List.append_inj hoctets hsame).2

theorem Stub.append_ne {stub : Bytes} (h : Stub stub) (tlvs tlvs' : List Tlv) :
    tlvsOctets tlvs ++ stub ≠ tlvsOctets tlvs' := by
  induction tlvs generalizing tlvs' with
  | nil =>
      cases tlvs' with
      | nil =>
          rintro rfl
          cases h
      | cons tlv' tlvs' => exact h.ne_complete tlv' (tlvsOctets tlvs')
  | cons tlv tlvs ih =>
      intro heq
      have hsplit : tlvsOctets (tlv :: tlvs) ++ stub =
          tlv.encoded ++ (tlvsOctets tlvs ++ stub) := List.append_assoc _ _ _
      rw [hsplit] at heq
      cases tlvs' with
      | nil =>
          rw [encoded_append] at heq
          have hlength := congrArg List.length heq
          simp only [List.length_append, length_writeU16, tlvsOctets, List.map_nil,
            List.flatten_nil, List.length_nil] at hlength
          omega
      | cons tlv' tlvs' => exact ih tlvs' (encoded_append_inj heq)

end Tlvs

section Splitting

/-- The PDU is a header, the fields of its command and complete TLVs, and the message has one entry
from each of these. -/
def SplitsInto (pdu : SMPPMessage) (message : Value) : Prop :=
  ∃ length commandId commandStatus sequenceNumber fields parts tlvs,
    messageCommandFields commandId = some fields ∧ HaveFormat fields parts ∧
      pdu = header length commandId commandStatus sequenceNumber ++
        (parts.flatten ++ tlvsOctets tlvs) ∧
      ∃ entries reported : Map, entries.map Prod.fst = fields.map Prod.fst ∧
        reported.map Prod.fst = tlvs.map Tlv.name ∧
        message = .object (insertAll
          (headerEntries commandId commandStatus sequenceNumber ++ entries ++ reported) [])

/-- Behind the last complete TLV of the PDU there are octets, and the loop reads them as well. -/
def Stubbed (pdu : SMPPMessage) : Prop :=
  ∃ length commandId commandStatus sequenceNumber fields parts tlvs stub,
    messageCommandFields commandId = some fields ∧ HaveFormat fields parts ∧ Stub stub ∧
      pdu = header length commandId commandStatus sequenceNumber ++
        (parts.flatten ++ (tlvsOctets tlvs ++ stub))

theorem header_append_inj {length length' commandId commandId' commandStatus commandStatus'
    sequenceNumber sequenceNumber' : UInt32} {body body' : Bytes}
    (h : header length commandId commandStatus sequenceNumber ++ body =
      header length' commandId' commandStatus' sequenceNumber' ++ body') :
    commandId = commandId' ∧ body = body' := by
  simp only [header, List.append_assoc] at h
  obtain ⟨-, hcommand⟩ := (consumes_readU32 _).append_inj (consumes_readU32 _) h
  obtain ⟨rfl, hstatus⟩ := (consumes_readU32 _).append_inj (consumes_readU32 _) hcommand
  obtain ⟨-, hsequence⟩ := (consumes_readU32 _).append_inj (consumes_readU32 _) hstatus
  exact ⟨rfl, ((consumes_readU32 _).append_inj (consumes_readU32 _) hsequence).2⟩

theorem toJson_body (length commandStatus sequenceNumber : UInt32) {commandId : UInt32}
    {fields : List CommandField} {entries : Map} {body rest : Bytes}
    (hfields : messageCommandFields commandId = some fields)
    (hmandatory : decodeMandatory fields body = (.ok entries, rest)) :
    toJson (header length commandId commandStatus sequenceNumber ++ body) =
      (readTlvs rest).map fun tlvs => .object (insertAll
        (headerEntries commandId commandStatus sequenceNumber ++ entries ++ tlvs) []) := by
  rw [toJson_header]
  simp only [decodeBody, hfields, hmandatory, readTlvs]

/-- A PDU that is read is made of its fields and octets that the TLV loop reads. -/
theorem exists_body_of_toJson {pdu : SMPPMessage} {message : Value}
    (h : toJson pdu = .ok message) :
    ∃ length commandId commandStatus sequenceNumber fields parts entries rest tlvs,
      messageCommandFields commandId = some fields ∧ HaveFormat fields parts ∧
        entries.map Prod.fst = fields.map Prod.fst ∧ readTlvs rest = .ok tlvs ∧
        pdu = header length commandId commandStatus sequenceNumber ++ (parts.flatten ++ rest) ∧
        message = .object (insertAll
          (headerEntries commandId commandStatus sequenceNumber ++ entries ++ tlvs) []) := by
  obtain ⟨length, commandId, commandStatus, sequenceNumber, body, rfl⟩ := exists_header_of_toJson h
  rw [toJson_header] at h
  unfold decodeBody at h
  split at h
  · simp at h
  · rename_i fields hfields
    split at h
    · simp at h
    · rename_i entries rest hmandatory
      obtain ⟨_, ⟨hnames, parts, hparts, rfl⟩, rfl⟩ := takes_decodeMandatory fields hmandatory
      cases htlvs : decodeTlvs rest.length rest with
      | error e => simp [htlvs, Except.map] at h
      | ok tlvs =>
          rw [htlvs] at h
          exact ⟨length, commandId, commandStatus, sequenceNumber, fields, parts, entries, rest,
            tlvs, hfields, hparts, hnames, htlvs, rfl, (Except.ok.inj h).symm⟩

theorem not_splitsInto_of_stubbed {pdu : SMPPMessage} (h : Stubbed pdu) (message : Value) :
    ¬ SplitsInto pdu message := by
  obtain ⟨length, commandId, commandStatus, sequenceNumber, fields, parts, tlvs, stub, hfields,
    hparts, hstub, rfl⟩ := h
  rintro ⟨length', commandId', commandStatus', sequenceNumber', fields', parts', tlvs', hfields',
    hparts', hsplit, -⟩
  obtain ⟨rfl, hbody⟩ := header_append_inj hsplit
  obtain rfl := Option.some.inj (hfields.symm.trans hfields')
  obtain ⟨entries, hentries⟩ := hparts.decode
  obtain ⟨entries', hentries'⟩ := hparts'.decode
  exact hstub.append_ne tlvs tlvs' (hentries.append_inj hentries' hbody).2

theorem toJson_of_stubbed {pdu : SMPPMessage} (h : Stubbed pdu) :
    ∃ message, toJson pdu = .ok message := by
  obtain ⟨length, commandId, commandStatus, sequenceNumber, fields, parts, tlvs, stub, hfields,
    hparts, hstub, rfl⟩ := h
  obtain ⟨entries, hentries⟩ := hparts.decode
  obtain ⟨reported, hreported⟩ := (skimmed_tlvsOctets tlvs hstub.skimmed).readTlvs
  rw [toJson_body length commandStatus sequenceNumber hfields (hentries _), hreported]
  exact ⟨_, rfl⟩

/-- Exactly the PDUs without a stub are accepted for what they are made of. -/
theorem accepted_splits_iff (pdu : SMPPMessage) :
    (∀ message, toJson pdu = .ok message → SplitsInto pdu message) ↔ ¬ Stubbed pdu := by
  constructor
  · intro h hstubbed
    obtain ⟨message, hmessage⟩ := toJson_of_stubbed hstubbed
    exact not_splitsInto_of_stubbed hstubbed message (h message hmessage)
  · intro h message hmessage
    obtain ⟨length, commandId, commandStatus, sequenceNumber, fields, parts, entries, rest,
      reported, hfields, hparts, hnames, hreported, rfl, rfl⟩ := exists_body_of_toJson hmessage
    obtain ⟨tlvs, rfl | ⟨stub, hstub, rfl⟩⟩ := (skimmed_of_readTlvs rest hreported).split
    · refine ⟨length, commandId, commandStatus, sequenceNumber, fields, parts, tlvs, hfields,
        hparts, rfl, entries, reported, hnames, ?_, rfl⟩
      rw [readTlvs_complete] at hreported
      obtain rfl := Except.ok.inj hreported
      rw [List.map_map]
      rfl
    · exact absurd ⟨length, commandId, commandStatus, sequenceNumber, fields, parts, tlvs, stub,
        hfields, hparts, hstub, rfl⟩ h

/-- A user_message_reference. -/
def referenceTlv : Tlv :=
  ⟨⟨0x0204, "user_message_reference", .u16⟩, writeU16 7, userMessageReference_mem, by decide⟩

/-- A message_payload of sixteen octets, of which only six are there. -/
def cutOffPayload : Bytes := writeU16 0x0424 ++ (writeU16 16 ++ referenceTlv.encoded)

/-- An enquire_link with that payload. -/
def cutOffPdu : SMPPMessage := header 26 0x15 0 1 ++ cutOffPayload

/-- The octets of the payload are read as the tag, the length and the value of a second TLV. -/
theorem not_splits_cutOffPdu :
    ∃ message, toJson cutOffPdu = .ok message ∧
      message.get "message_payload" = some .null ∧
      message.get "user_message_reference" = some (.ofNat 7) ∧ ¬ SplitsInto cutOffPdu message := by
  have hpayload : ⟨0x0424, "message_payload", .octet false 1⟩ ∈ createTlvFields := by
    simp [createTlvFields]
  have hshort : referenceTlv.encoded.length < (16 : UInt16).toNat := by decide
  have htlvs : readTlvs cutOffPayload =
      .ok [("message_payload", .null), referenceTlv.reported] := by
    obtain ⟨e, hdecode⟩ := decode_cut ⟨0x0424, "message_payload", .octet false 1⟩ hshort
    have hreference := readTlvs_complete [referenceTlv]
    rw [show tlvsOctets [referenceTlv] = referenceTlv.encoded from List.append_nil _] at hreference
    rw [cutOffPayload, readTlvs_decode hpayload (peekTlvTag_writeU16 _ _) hdecode, hreference]
    rfl
  have hmandatory : decodeMandatory [] cutOffPayload = (.ok [], cutOffPayload) := rfl
  have hjson := @toJson_body 26 0 1 0x15 [] [] _ _ rfl hmandatory
  rw [htlvs] at hjson
  have hskimmed : Skimmed referenceTlv.encoded :=
    by
    have hcomplete := @Skimmed.complete referenceTlv [] (.noTag (by decide))
    rwa [List.append_nil] at hcomplete
  have hstubbed : Stubbed cutOffPdu :=
    ⟨26, 0x15, 0, 1, [], [], [], _, rfl, .nil, .cut hpayload hshort hskimmed, rfl⟩
  exact ⟨_, hjson, rfl, rfl, not_splitsInto_of_stubbed hstubbed _⟩

end Splitting

section Reporting

/-- What the codec yields on the octets alone, and null where it fails. -/
def Tlv.ownValue (tlv : Tlv) : Value :=
  (tlv.codec.valueCodec.decode tlv.octets).1.toOption.getD .null

/-- The PDU is accepted, and each of the TLVs is reported as its codec reads its octets. -/
def ReportsTlvs (pdu : SMPPMessage) (tlvs : List Tlv) : Prop :=
  ∃ message, toJson pdu = .ok message ∧
    ∀ tlv ∈ tlvs, message.get tlv.name = some tlv.ownValue

/-- The codecs that read a value from no octets. -/
def readsNothing : FieldCodec → Bool
  | .optionalU8 _ => true
  | .varLengthInt => true
  | _ => false

theorem readOctets_nil (lengthIndicator : Bool) (lengthBytes : Nat) :
    readOctets lengthIndicator lengthBytes [] = (.error (), []) := by
  cases lengthIndicator with
  | false => rfl
  | true =>
      rw [readOctets, if_pos rfl, Parser.bind_apply]
      have hlength : readLength lengthBytes [] = (.error (), []) := by
        unfold readLength
        split <;> rfl
      rw [hlength]

theorem decode_nothing_iff {codec : FieldCodec} (h : flat codec = true) :
    (codec.decode []).1.toOption.getD .null = .null ↔ readsNothing codec = false := by
  cases codec with
  | u8 | u16 | u32 | cOctetStr =>
      rw [FieldCodec.decode]
      exact iff_of_true rfl rfl
  | octet lengthIndicator lengthBytes =>
      rw [FieldCodec.decode, decodeOctet, Parser.mapError, Parser.bind_apply, readOctets_nil]
      exact iff_of_true rfl rfl
  | optionalU8 defaultValue =>
      rw [FieldCodec.decode]
      exact iff_of_false (fun hnull => Value.noConfusion hnull) (by simp [readsNothing])
  | varLengthInt =>
      rw [FieldCodec.decode]
      exact iff_of_false (fun hnull => Value.noConfusion hnull) (by simp [readsNothing])
  | array | composite | destAddress | destAddresses => simp [flat] at h

theorem decode_nothing {codec : TLVFieldCodec} (h : codec ∈ createTlvFields) :
    (codec.valueCodec.decode []).1.toOption.getD .null = .null ↔
      codec.name ∉ ["alert_on_message_delivery", "dest_addr_np_country"] := by
  have htable : ∀ codec ∈ createTlvFields, readsNothing codec.valueCodec = false ↔
      codec.name ∉ ["alert_on_message_delivery", "dest_addr_np_country"] := by decide
  rw [decode_nothing_iff (flat_of_mem_createTlvFields h), htable codec h]

theorem reported_eq_ownValue_iff (tlv : Tlv) :
    readBack tlv.codec tlv.octets = tlv.ownValue ↔
      ¬ (tlv.octets = [] ∧ tlv.name ∈ ["alert_on_message_delivery", "dest_addr_np_country"]) := by
  unfold readBack Tlv.ownValue
  split
  · rename_i hempty
    rw [hempty, eq_comm, decode_nothing tlv.known]
    simp [Tlv.name]
  · rename_i hne
    simp [hne]

theorem get_reported {front : Map} {tlvs : List Tlv}
    (hdistinct : (tlvs.map fun tlv => tlv.codec.tag).Nodup) {tlv : Tlv} (h : tlv ∈ tlvs) :
    (Value.object (insertAll (front ++ tlvs.map Tlv.reported) [])).get tlv.name =
      some (readBack tlv.codec tlv.octets) := by
  have hagree : ∀ entry ∈ tlvs.map Tlv.reported, entry.1 = tlv.name →
      entry.2 = readBack tlv.codec tlv.octets := by
    intro entry hentry hname
    obtain ⟨other, hother, rfl⟩ := List.mem_map.mp hentry
    have htag : other.codec.tag = tlv.codec.tag :=
      congrArg TLVFieldCodec.tag (tlvName_injective other.known tlv.known hname)
    rw [List.inj_on_of_nodup_map hdistinct hother h htag]
    rfl
  have hlast := lookup_insertAll_of_agree hagree ⟨_, List.mem_map_of_mem h, rfl⟩
  rw [lookup_insertAll, List.lookup_nil, Option.or_none] at hlast
  change (insertAll (front ++ tlvs.map Tlv.reported) []).lookup tlv.name = _
  rw [lookup_insertAll, List.reverse_append, List.lookup_append, hlast]
  rfl

/-- The TLVs of an accepted PDU are all reported as their codecs read them, unless one without octets
has a codec that reads a value from no octets. -/
theorem tlvs_reported_iff (length commandStatus sequenceNumber : UInt32) {commandId : UInt32}
    {fields : List CommandField} {mandatory : Bytes} {entries : Map} {tlvs : List Tlv}
    (hfields : messageCommandFields commandId = some fields)
    (hmandatory : decodeMandatory fields (mandatory ++ tlvsOctets tlvs) =
      (.ok entries, tlvsOctets tlvs))
    (hdistinct : (tlvs.map fun tlv => tlv.codec.tag).Nodup) :
    ReportsTlvs (header length commandId commandStatus sequenceNumber ++
        (mandatory ++ tlvsOctets tlvs)) tlvs ↔
      ∀ tlv ∈ tlvs, ¬ (tlv.octets = [] ∧
        tlv.name ∈ ["alert_on_message_delivery", "dest_addr_np_country"]) := by
  have hjson := toJson_body length commandStatus sequenceNumber hfields hmandatory
  rw [readTlvs_complete] at hjson
  have hget := fun tlv htlv => @get_reported
    (headerEntries commandId commandStatus sequenceNumber ++ entries) tlvs hdistinct tlv htlv
  simp only [ReportsTlvs, hjson, Except.map, Except.ok.injEq, exists_eq_left',
    ← reported_eq_ownValue_iff]
  apply forall₂_congr
  intro tlv htlv
  rw [hget tlv htlv, Option.some.injEq]

/-- An alert_on_message_delivery without octets, and one of one octet. -/
def emptyAlert : Tlv :=
  ⟨⟨0x130C, "alert_on_message_delivery", .optionalU8 0⟩, [], by simp [createTlvFields], by decide⟩

def alertOf (octet : UInt8) : Tlv :=
  ⟨⟨0x130C, "alert_on_message_delivery", .optionalU8 0⟩, [octet], by simp [createTlvFields],
    by simp⟩

/-- The octets of a query_sm for the message "m". -/
def queryParts : List Bytes := [[109, 0], [0], [0], [0]]

theorem reports_querySm :
    ReportsTlvs (header 0 3 0 1 ++ (queryParts.flatten ++ tlvsOctets [alertOf 2, referenceTlv]))
      [alertOf 2, referenceTlv] := by
  have hparts : HaveFormat [("message_id", none), ("source_addr_ton", some (.ofNat 0)),
      ("source_addr_npi", some (.ofNat 0)), ("source_addr", some (.string ""))] queryParts :=
    .cons ⟨_, rfl, .cOctetStr 65 ⟨[109], by decide, rfl⟩⟩ (.cons ⟨_, rfl, .u8 0⟩
      (.cons ⟨_, rfl, .u8 0⟩ (.cons ⟨_, rfl, .cOctetStr 21 ⟨[], by simp, rfl⟩⟩ .nil)))
  obtain ⟨entries, hentries⟩ := hparts.decode
  apply (tlvs_reported_iff 0 0 1 rfl (hentries _) (by decide)).mpr
  simp [alertOf, referenceTlv, writeU16, beBytes]

/-- The codec reads the default from no octets, and the TLV is reported as null. -/
theorem not_reports_emptyAlert :
    emptyAlert.ownValue = .ofNat 0 ∧
      ¬ ReportsTlvs (header 20 0x15 0 1 ++ tlvsOctets [emptyAlert]) [emptyAlert] := by
  have hmandatory : decodeMandatory [] (tlvsOctets [emptyAlert]) =
      (.ok [], tlvsOctets [emptyAlert]) := rfl
  have hjson := @toJson_body 20 0 1 0x15 [] [] _ _ rfl hmandatory
  rw [readTlvs_complete] at hjson
  refine ⟨rfl, ?_⟩
  rintro ⟨message, hmessage, hreported⟩
  rw [hjson] at hmessage
  obtain rfl := Except.ok.inj hmessage
  have halert := hreported emptyAlert List.mem_cons_self
  exact Value.noConfusion (Option.some.inj halert)

end Reporting

end SmppHerald.AcceptedPdus
