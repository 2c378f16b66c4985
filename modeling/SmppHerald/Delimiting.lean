import SmppHerald.Narrowing

namespace SmppHerald.Delimiting

open SmppHerald.Buffer
open SmppHerald.ByteParser
open SmppHerald.CommandIds
open SmppHerald.Encodability
open SmppHerald.EncodedLayout
open SmppHerald.FieldCodecs
open SmppHerald.Io
open SmppHerald.Json
open SmppHerald.Message
open SmppHerald.Narrowing
open SmppHerald.PduFormat
open SmppHerald.Utf8
open SmppHerald.WireFormat

section Values

/-- The text that an address of `dest_addresses` is written with. -/
def addressText (value : Value) : Option String :=
  ((value.get "destination_addr").bind Value.asStr).or ((value.get "dl_name").bind Value.asStr)

mutual

/-- The octets of the value end where the decoder expects it: no text holds the terminator, and
counts and lengths fit their octet. -/
def Delimited : FieldCodec → Value → Prop
  | .u8, _ | .optionalU8 _, _ | .u16, _ | .u32, _ => True
  | .cOctetStr maxLength, value => ∀ s, value = .string s → (0 : UInt8) ∉ (bytes s).take maxLength
  | .octet lengthIndicator lengthBytes, value => lengthIndicator = true ∧ lengthBytes = 1 ∧
      ∀ s, value = .string s → octetsOf s ≠ [] ∧ (octetsOf s).length ≤ 255
  | .varLengthInt, _ => False
  | .array itemCodec, value => ∀ items, value = .array items →
      ∀ item ∈ items, Delimited itemCodec item
  | .composite fields, value => DelimitedFields fields value
  | .destAddress, value => ∀ s, addressText value = some s → (0 : UInt8) ∉ bytes s
  | .destAddresses, value => ∀ items, value = .array items → items.length ≤ 255 ∧
      ∀ item ∈ items, ∀ s, addressText item = some s → (0 : UInt8) ∉ bytes s

def DelimitedFields : List (String × FieldCodec) → Value → Prop
  | [], _ => True
  | (name, codec) :: fields, value =>
      (∀ fieldValue, value.get name = some fieldValue → Delimited codec fieldValue) ∧
        DelimitedFields fields value

end

theorem delimited_u8 (value : Value) : Delimited .u8 value := by
  rw [Delimited]
  trivial

theorem delimited_text {maxLength : Nat} {s : String} (h : (0 : UInt8) ∉ (bytes s).take maxLength) :
    Delimited (.cOctetStr maxLength) (.string s) := by
  rw [Delimited]
  rintro s hs
  obtain rfl := Value.string.inj hs
  exact h

theorem delimited_counted {s : String} (hne : octetsOf s ≠ []) (hlen : (octetsOf s).length ≤ 255) :
    Delimited (.octet true 1) (.string s) := by
  rw [Delimited]
  refine ⟨rfl, rfl, ?_⟩
  rintro s hs
  obtain rfl := Value.string.inj hs
  exact ⟨hne, hlen⟩

theorem consumes_address {value : Value} {octets : Bytes}
    (h : encodeDestAddress value = .ok octets)
    (hdelimited : ∀ s, addressText value = some s → (0 : UInt8) ∉ bytes s) :
    ∃ value', Consumes decodeDestAddress octets value' := by
  cases value with
  | object map =>
      simp only [encodeDestAddress] at h
      split at h
      · rename_i addr haddr
        obtain rfl := Outcome.ok.inj h
        have hnul := hdelimited addr (by simp [addressText, Value.get, haddr])
        exact ⟨_, (RepresentsAddress.sme _ _ addr hnul).decode⟩
      · rename_i hnone
        split at h
        · rename_i dlName hdlName
          obtain rfl := Outcome.ok.inj h
          have hnul := hdelimited dlName (by simp [addressText, Value.get, hnone, hdlName])
          exact ⟨_, (RepresentsAddress.distributionList dlName hnul).decode⟩
        · cases h
  | _ => cases h

theorem consumes_counted {α : Type} {decode : Parser IoError Value} {encode : α → Outcome Bytes}
    {items : List α} {octets : Bytes} (h : encodeAll encode items = .ok octets)
    (hitems : ∀ item ∈ items, ∀ part, encode item = .ok part →
      ∃ value, Consumes decode part value) :
    ∃ values, Consumes (Parser.times items.length decode) octets values := by
  induction items generalizing octets with
  | nil =>
      obtain rfl := Outcome.ok.inj h
      exact ⟨[], consumes_pure []⟩
  | cons item items ih =>
      obtain ⟨first, hfirst, h⟩ := Outcome.bind_eq_ok_iff.mp h
      obtain ⟨rest, hrest, h⟩ := Outcome.bind_eq_ok_iff.mp h
      obtain rfl := Outcome.ok.inj h
      obtain ⟨value, hvalue⟩ := hitems item List.mem_cons_self first hfirst
      obtain ⟨values, hvalues⟩ := ih hrest fun item hitem =>
        hitems item (List.mem_cons_of_mem _ hitem)
      exact ⟨value :: values, hvalue.bind (hvalues.bind_pure _)⟩

mutual

theorem exists_consumed (codec : FieldCodec) {value : Value} {octets : Bytes}
    (h : codec.encode value = .ok octets) (hdelimited : Delimited codec value) :
    ∃ value', Consumes codec.decode octets value' := by
  match codec with
  | .u8 =>
      rw [FieldCodec.encode] at h
      split at h
      · rename_i n _
        obtain rfl := Outcome.ok.inj h
        exact ⟨_, (Represents.u8 n.toUInt8).decode rfl⟩
      · cases h
  | .optionalU8 defaultValue =>
      rw [FieldCodec.encode] at h
      split at h <;> obtain rfl := Outcome.ok.inj h <;>
        exact ⟨_, (Represents.optionalU8 defaultValue _).decode rfl⟩
  | .u16 =>
      rw [FieldCodec.encode] at h
      split at h
      · rename_i n _
        obtain rfl := Outcome.ok.inj h
        exact ⟨_, (Represents.u16 n.toUInt16).decode rfl⟩
      · cases h
  | .u32 =>
      rw [FieldCodec.encode] at h
      split at h
      · rename_i n _
        obtain rfl := Outcome.ok.inj h
        exact ⟨_, (Represents.u32 n.toUInt32).decode rfl⟩
      · cases h
  | .cOctetStr maxLength =>
      rw [FieldCodec.encode] at h
      cases value with
      | string s =>
          obtain ⟨t, ht, h⟩ := Outcome.bind_eq_ok_iff.mp h
          obtain rfl := Outcome.ok.inj h
          have hcut := truncate_ok ht
          have hnul : (0 : UInt8) ∉ bytes t := by
            rw [hcut]
            rw [Delimited] at hdelimited
            exact hdelimited s rfl
          have hlen : (bytes t).length ≤ maxLength := by
            rw [hcut]
            exact List.length_take_le _ _
          exact ⟨_, (Represents.cOctetStr hnul hlen).decode rfl⟩
      | _ => cases h
  | .octet lengthIndicator lengthBytes =>
      rw [FieldCodec.encode] at h
      rw [Delimited] at hdelimited
      obtain ⟨rfl, rfl, htext⟩ := hdelimited
      cases value with
      | string s =>
          obtain rfl := Outcome.ok.inj h
          obtain ⟨hne, hlen⟩ := htext s rfl
          exact ⟨_, (Represents.counted hne (by omega)).decode rfl⟩
      | _ => cases h
  | .array itemCodec =>
      rw [Delimited] at hdelimited
      simp only [FieldCodec.encode] at h
      cases value with
      | array items =>
          simp only [Value.asArray] at h
          split at h
          · cases h
          · rename_i hle
            obtain ⟨whole, hwhole, h⟩ := Outcome.bind_eq_ok_iff.mp h
            obtain rfl := Outcome.ok.inj h
            obtain ⟨values, hvalues⟩ := consumes_counted hwhole fun item hitem part hpart =>
              exists_consumed itemCodec hpart (hdelimited items rfl item hitem)
            rw [FieldCodec.decode]
            refine ⟨.array values,
              Consumes.bind ((consumes_readU8 (UInt8.ofNat items.length)).mapError _) ?_⟩
            rw [toNat_ofNat_length (by omega)]
            exact hvalues.bind_pure Value.array
      | _ => cases h
  | .composite fields =>
      rw [Delimited] at hdelimited
      rw [FieldCodec.encode] at h
      obtain ⟨entries, hentries⟩ := exists_fields_consumed fields h hdelimited
      rw [FieldCodec.decode]
      exact ⟨_, hentries.bind_pure fun entries => Value.object (insertAll entries [])⟩
  | .destAddress =>
      rw [Delimited] at hdelimited
      rw [FieldCodec.encode] at h
      rw [FieldCodec.decode]
      exact consumes_address h hdelimited
  | .destAddresses =>
      rw [Delimited] at hdelimited
      simp only [FieldCodec.encode] at h
      cases value with
      | array items =>
          obtain ⟨hle, hitems⟩ := hdelimited items rfl
          obtain ⟨whole, hwhole, h⟩ := Outcome.bind_eq_ok_iff.mp h
          obtain rfl := Outcome.ok.inj h
          obtain ⟨values, hvalues⟩ := consumes_counted hwhole fun item hitem part hpart =>
            consumes_address hpart (hitems item hitem)
          rw [FieldCodec.decode]
          refine ⟨.array values,
            Consumes.bind ((consumes_readU8 (UInt8.ofNat items.length)).mapError _) ?_⟩
          rw [toNat_ofNat_length (by omega)]
          exact (hvalues.mapError _).bind_pure Value.array
      | _ => cases h
  | .varLengthInt => simp [Delimited] at hdelimited

theorem exists_fields_consumed (fields : List (String × FieldCodec)) {value : Value}
    {octets : Bytes} (h : encodeFields fields value = .ok octets)
    (hdelimited : DelimitedFields fields value) :
    ∃ entries, Consumes (decodeFields fields) octets entries := by
  match fields with
  | [] =>
      obtain rfl := Outcome.ok.inj h
      rw [decodeFields]
      exact ⟨[], consumes_pure []⟩
  | (name, codec) :: fields =>
      rw [DelimitedFields] at hdelimited
      obtain ⟨fieldValue, first, rest, hget, hfirst, hrest, rfl⟩ := encodeFields_cons_eq_ok h
      obtain ⟨value', hvalue'⟩ := exists_consumed codec hfirst (hdelimited.1 fieldValue hget)
      obtain ⟨entries, hentries⟩ := exists_fields_consumed fields hrest hdelimited.2
      rw [decodeFields]
      exact ⟨(name, value') :: entries, (hvalue'.mapError _).bind (hentries.bind_pure _)⟩

end

end Values

section Fields

variable {message : Value} {field : CommandField}

/-- The octets of a field end where the decoder expects it. -/
def FieldDelimited (message : Value) (field : CommandField) : Prop :=
  ∀ codec value, fieldCodecs field.1 = some codec →
    (message.get field.1).or field.2 = some value → Delimited codec value

/-- A text without octets, the length of which the decoder refuses. -/
def Blank (message : Value) (field : CommandField) : Prop :=
  fieldCodecs field.1 = some (.octet true 1) ∧
    ∃ s, (message.get field.1).or field.2 = some (.string s) ∧ octetsOf s = []

theorem exists_encoded {part : Bytes} (h : encodeField message field = .ok part) :
    ∃ codec value, fieldCodecs field.1 = some codec ∧
      (message.get field.1).or field.2 = some value ∧ codec.encode value = .ok part := by
  unfold encodeField at h
  split at h
  · rename_i codec hcodec
    split at h
    · rename_i value hvalue
      exact ⟨codec, value, hcodec, hvalue, Outcome.mapErr_eq_ok_iff.mp h⟩
    · cases h
  · cases h

theorem FieldDelimited.exists_consumed (hdelimited : FieldDelimited message field) {part : Bytes}
    (h : encodeField message field = .ok part) :
    ∃ value, Consumes (decodeField field) part (field.1, value) := by
  obtain ⟨codec, value, hcodec, hvalue, hencode⟩ := exists_encoded h
  obtain ⟨value', hconsumes⟩ :=
    Delimiting.exists_consumed codec hencode (hdelimited codec value hcodec hvalue)
  refine ⟨value', ?_⟩
  simp only [decodeField, hcodec]
  exact (hconsumes.mapError _).bind_pure fun value => (field.1, value)

theorem Blank.refused (hblank : Blank message field) {part : Bytes}
    (h : encodeField message field = .ok part) : ∃ e, Refuses (decodeField field) part e := by
  obtain ⟨hcodec, s, hvalue, hempty⟩ := hblank
  obtain ⟨codec, value, hcodec', hvalue', hencode⟩ := exists_encoded h
  obtain rfl := Option.some.inj (hcodec.symm.trans hcodec')
  obtain rfl := Option.some.inj (hvalue.symm.trans hvalue')
  have hpart : part = writeU8 0 := by
    rw [FieldCodec.encode] at hencode
    rw [← Outcome.ok.inj hencode, hempty]
    rfl
  have hlength : Consumes (readLength 1) (writeU8 0) 0 :=
    (consumes_readU8 0).bind_pure UInt8.toNat
  have hread : Refuses (read 0) [] () := fun rest => rfl
  have hdecode : Refuses (decodeOctet true 1) (writeU8 0) () := by
    have hoctets : Refuses (readOctets true 1) (writeU8 0 ++ []) () := hlength.bind_refuses hread
    have hwhole := hoctets.bind (fun octets =>
      (pure (Value.string (Base64.encode octets)) : Parser Unit Value)) []
    rw [List.append_nil, List.append_nil] at hwhole
    exact hwhole
  refine ⟨invalidInput ("Failed to decode field: " ++ field.1), ?_⟩
  simp only [decodeField, hcodec, hpart]
  have hfield := ((hdecode.mapError fun _ => invalidInput "Failed to decode OctetField").mapError
    fun _ => invalidInput ("Failed to decode field: " ++ field.1)).bind
      (fun value => (pure (field.1, value) : Parser IoError (String × Value))) []
  rwa [List.append_nil] at hfield

/-- The fields are read back one after another, up to an empty text. -/
theorem settled_fields {fields : List CommandField} {parts : List Bytes}
    (h : List.Forall₂ (fun field part => encodeField message field = .ok part) fields parts)
    (hfields : ∀ field ∈ fields, FieldDelimited message field ∨ Blank message field) :
    ((∀ field ∈ fields, ¬ Blank message field) ∧
        ∃ entries, Consumes (decodeMandatory fields) parts.flatten entries) ∨
      (∃ field ∈ fields, Blank message field) ∧
        ∃ e, Refuses (decodeMandatory fields) parts.flatten e := by
  induction h with
  | nil => exact .inl ⟨by simp, [], consumes_pure []⟩
  | @cons field part fields parts hfirst _ ih =>
      rw [List.forall_mem_cons] at hfields
      by_cases hblank : Blank message field
      · obtain ⟨e, he⟩ := hblank.refused hfirst
        exact .inr ⟨⟨field, List.mem_cons_self, hblank⟩, e, he.bind _ _⟩
      · obtain ⟨value, hvalue⟩ :=
          (hfields.1.resolve_right hblank).exists_consumed hfirst
        rcases ih hfields.2 with ⟨hnone, entries, hentries⟩ | ⟨⟨found, hfound, hempty⟩, e, he⟩
        · exact .inl ⟨List.forall_mem_cons.mpr ⟨hblank, hnone⟩, _,
            hvalue.bind (hentries.bind_pure _)⟩
        · refine .inr ⟨⟨found, List.mem_cons_of_mem _ hfound, hempty⟩, e, ?_⟩
          have hrest := he.bind (fun entries =>
            (pure ((field.1, value) :: entries) : Parser IoError Map)) []
          rw [List.append_nil] at hrest
          exact hvalue.bind_refuses hrest

end Fields

section Tlvs

def encodedTlv (codec : TLVFieldCodec) (part : Bytes) : Bytes :=
  writeU16 codec.tag ++ writeU16 (UInt16.ofNat part.length) ++ part

/-- What is read back from the octets of a TLV; no octets and octets that do not decode are
null. -/
def readBack (codec : TLVFieldCodec) (part : Bytes) : Value :=
  if part = [] then .null else (codec.valueCodec.decode part).1.toOption.getD .null

theorem decode_rest (codec : TLVFieldCodec) (buffer : Bytes) :
    (codec.decode buffer).2 = (readTlv buffer).2 := by
  rw [TLVFieldCodec.decode, Parser.bind_apply, Parser.mapError]
  cases hread : readTlv buffer with
  | mk result rest =>
      cases result with
      | error e => rfl
      | ok pair =>
          simp only
          split <;> rfl

theorem length_decode_rest {codec : TLVFieldCodec} {buffer : Bytes} {tag : UInt16}
    (h : peekTlvTag buffer = some tag) :
    (codec.decode buffer).2.length + 2 ≤ buffer.length := by
  have htwo : 2 ≤ buffer.length := by
    unfold peekTlvTag at h
    split at h
    · assumption
    · cases h
  obtain ⟨first, rest, hsplit, hfirst⟩ : ∃ first rest, buffer = first ++ rest ∧
      first.length = 2 :=
    ⟨buffer.take 2, buffer.drop 2, (List.take_append_drop 2 buffer).symm,
      List.length_take_of_le htwo⟩
  have htag : Consumes readU16 first (UInt16.ofNat (beNat first)) := by
    have hword := (consumes_word first).bind_pure UInt16.ofNat
    rw [hfirst] at hword
    exact hword
  have hgrows := (leavesSuffix_readU16.bind fun length =>
    (leavesSuffix_read length.toNat).bind fun octets =>
      leavesSuffix_pure (UInt16.ofNat (beNat first), octets)).neverGrows rest
  rw [decode_rest, hsplit, readTlv, Parser.bind_apply, htag, List.length_append, hfirst,
    Nat.add_comm 2]
  exact Nat.add_le_add_right hgrows 2

/-- One round for each octet is enough for the TLV loop, and more rounds change nothing. -/
theorem decodeTlvs_rounds {buffer : Bytes} {rounds rounds' : Nat} (h : buffer.length ≤ rounds)
    (h' : buffer.length ≤ rounds') : decodeTlvs rounds buffer = decodeTlvs rounds' buffer := by
  have hempty : ∀ rounds, decodeTlvs rounds [] = .ok [] := by
    intro rounds
    cases rounds <;> rfl
  induction rounds generalizing buffer rounds' with
  | zero =>
      obtain rfl := List.eq_nil_of_length_eq_zero (Nat.le_zero.mp h)
      rw [hempty, hempty]
  | succ rounds ih =>
      cases rounds' with
      | zero =>
          obtain rfl := List.eq_nil_of_length_eq_zero (Nat.le_zero.mp h')
          rw [hempty, hempty]
      | succ rounds' =>
          rw [decodeTlvs, decodeTlvs]
          cases hpeek : peekTlvTag buffer with
          | none => rfl
          | some tag =>
              cases htag : taggedTlvFields tag with
              | none => simp only [htag]
              | some codec =>
                  have hrest := @length_decode_rest codec buffer tag hpeek
                  have hsame : decodeTlvs rounds (codec.decode buffer).2 =
                      decodeTlvs rounds' (codec.decode buffer).2 := ih (by omega) (by omega)
                  simp only [htag, hsame]

/-- The TLV loop with as many rounds as it can need. -/
def readTlvs (buffer : Bytes) : Except IoError Map := decodeTlvs buffer.length buffer

theorem decode_encodedTlv (codec : TLVFieldCodec) {part : Bytes} (hfits : part.length ≤ 65535)
    (rest : Bytes) : ∃ result, codec.decode (encodedTlv codec part ++ rest) = (result, rest) ∧
      readBack codec part = result.toOption.getD .null := by
  have hlt : part.length < 65536 := Nat.lt_succ_of_le hfits
  have hlength : (UInt16.ofNat part.length).toNat = part.length := UInt16.toNat_ofNat_of_lt' hlt
  have htag := consumes_readU16 codec.tag
  have hword := consumes_readU16 (UInt16.ofNat part.length)
  rw [encodedTlv, List.append_assoc, List.append_assoc]
  by_cases hempty : part = []
  · subst hempty
    refine ⟨.error (invalidInput "Failed to read TLV from buffer"), ?_, rfl⟩
    rw [TLVFieldCodec.decode, Parser.bind_apply, Parser.mapError, readTlv, Parser.bind_apply, htag]
    simp only
    rw [Parser.bind_apply, hword]
    rfl
  · have hread : Consumes readTlv (writeU16 codec.tag ++ (writeU16 (UInt16.ofNat part.length) ++
        part)) (codec.tag, part) := by
      refine htag.bind (hword.bind ?_)
      rw [hlength]
      exact (consumes_read hempty).bind_pure fun octets => (codec.tag, octets)
    have hwhole := hread.mapError (fun _ => invalidInput "Failed to read TLV from buffer") rest
    rw [List.append_assoc, List.append_assoc] at hwhole
    refine ⟨(codec.valueCodec.decode part).1, ?_, by rw [readBack, if_neg hempty]⟩
    rw [TLVFieldCodec.decode, Parser.bind_apply, hwhole]
    simp only [if_true]
    rfl

theorem readTlvs_decode {codec : TLVFieldCodec} (hcodec : codec ∈ createTlvFields)
    {buffer rest : Bytes} {result : Except IoError Value}
    (hpeek : peekTlvTag buffer = some codec.tag) (hdecode : codec.decode buffer = (result, rest)) :
    readTlvs buffer =
      (readTlvs rest).map ((codec.name, result.toOption.getD .null) :: ·) := by
  have hlonger := @length_decode_rest codec _ _ hpeek
  rw [hdecode] at hlonger
  simp only at hlonger
  obtain ⟨rounds, hrounds⟩ : ∃ rounds, buffer.length = rounds + 1 :=
    ⟨buffer.length - 1, by omega⟩
  have hrest : decodeTlvs rounds rest = readTlvs rest :=
    decodeTlvs_rounds (by omega) (Nat.le_refl _)
  rw [readTlvs, hrounds, decodeTlvs, hpeek]
  simp only [taggedTlvFields_tag hcodec, hdecode, hrest]
  cases result <;> rfl

theorem readTlvs_encodedTlv {codec : TLVFieldCodec} (hcodec : codec ∈ createTlvFields)
    {part : Bytes} (hfits : part.length ≤ 65535) (rest : Bytes) :
    readTlvs (encodedTlv codec part ++ rest) =
      (readTlvs rest).map ((codec.name, readBack codec part) :: ·) := by
  obtain ⟨result, hdecode, hresult⟩ := decode_encodedTlv codec hfits rest
  have hpeek : peekTlvTag (encodedTlv codec part ++ rest) = some codec.tag := by
    rw [encodedTlv, List.append_assoc, List.append_assoc]
    exact peekTlvTag_writeU16 _ _
  rw [readTlvs_decode hcodec hpeek hdecode, hresult]

/-- The length of the TLV can say how many octets it has. -/
def TlvFits (message : Value) (codec : TLVFieldCodec) : Prop :=
  codec.valueCodec = .octet false 1 →
    ∀ s, message.get codec.name = some (.string s) → (octetsOf s).length ≤ 65535

theorem encodeTlvField_ok {message : Value} {codec : TLVFieldCodec} {octets : Bytes}
    (h : encodeTlvField message codec = .ok octets) :
    (message.get codec.name = none ∧ octets = []) ∨
      ∃ value part, message.get codec.name = some value ∧
        codec.valueCodec.encode value = .ok part ∧ octets = encodedTlv codec part := by
  unfold encodeTlvField at h
  split at h
  · rename_i value hget
    obtain ⟨part, hpart, hwhole⟩ := Outcome.bind_eq_ok_iff.mp (Outcome.mapErr_eq_ok_iff.mp h)
    exact .inr ⟨value, part, hget, Outcome.mapErr_eq_ok_iff.mp hpart,
      (Outcome.ok.inj hwhole).symm⟩
  · rename_i hget
    exact .inl ⟨hget, (Outcome.ok.inj h).symm⟩

theorem exists_tlvs {message : Value} {codecs : List TLVFieldCodec} {parts : List Bytes}
    (h : List.Forall₂ (fun codec part => encodeTlvField message codec = .ok part) codecs parts)
    (hcodecs : ∀ codec ∈ codecs, codec ∈ createTlvFields ∧ TlvFits message codec) :
    ∃ entries : Map, (∀ entry ∈ entries, ∃ codec ∈ codecs, codec.name = entry.1) ∧
      ∀ rest, readTlvs (parts.flatten ++ rest) = (readTlvs rest).map (entries ++ ·) := by
  induction h with
  | nil =>
      refine ⟨[], by simp, fun rest => ?_⟩
      cases hrest : readTlvs rest <;> simp [hrest, Except.map]
  | @cons codec part codecs parts hfirst _ ih =>
      rw [List.forall_mem_cons] at hcodecs
      obtain ⟨⟨hknown, hfits⟩, hothers⟩ := hcodecs
      obtain ⟨entries, hnames, hentries⟩ := ih hothers
      have hlater : ∀ entry ∈ entries, ∃ other ∈ codec :: codecs, other.name = entry.1 := by
        intro entry hentry
        obtain ⟨other, hother, hname⟩ := hnames entry hentry
        exact ⟨other, List.mem_cons_of_mem _ hother, hname⟩
      rcases encodeTlvField_ok hfirst with ⟨-, rfl⟩ | ⟨value, octets, hget, hencode, rfl⟩
      · exact ⟨entries, hlater, hentries⟩
      · have hlength : octets.length ≤ 65535 := by
          apply (length_tlv_iff hknown hencode).mpr
          rintro hoctet s rfl
          exact hfits hoctet s hget
        refine ⟨(codec.name, readBack codec octets) :: entries,
          List.forall_mem_cons.mpr ⟨⟨codec, List.mem_cons_self, rfl⟩, hlater⟩, fun rest => ?_⟩
        rw [List.flatten_cons, List.append_assoc, readTlvs_encodedTlv hknown hlength, hentries]
        cases readTlvs rest <;> rfl

end Tlvs

section Messages

variable {namedTlvFields : NamedTlvFields} {message : Value} {pdu : SMPPMessage}

def headerNumber (message : Value) (key : String) : UInt32 :=
  ((((message.get key).getD (.ofNat 0)).asU64).getD 0).toUInt32

/-- The status and the sequence number, where the message has them, are unsigned integers: both
words of the header are written. -/
def HeaderWritten (message : Value) : Prop :=
  ∀ key ∈ ["command_status", "sequence_number"],
    (((message.get key).getD (.ofNat 0)).asU64).isSome = true

theorem headerWritten_of_absent (hstatus : message.get "command_status" = none)
    (hnumber : message.get "sequence_number" = none) : HeaderWritten message := by
  intro key hkey
  simp only [List.mem_cons, List.not_mem_nil, or_false] at hkey
  rcases hkey with rfl | rfl
  · rw [hstatus]
    rfl
  · rw [hnumber]
    rfl

theorem headerWord_eq {key : String}
    (h : (((message.get key).getD (.ofNat 0)).asU64).isSome = true) :
    headerWord message key = writeU32 (headerNumber message key) := by
  obtain ⟨n, hn⟩ := Option.isSome_iff_exists.mp h
  simp [headerWord, headerNumber, hn]

theorem toJson_layout (layout : Layout namedTlvFields message pdu)
    (hheader : HeaderWritten message) :
    toJson pdu = decodeBody layout.commandId.asU32 (headerNumber message "command_status")
      (headerNumber message "sequence_number") (layout.fields.flatten ++ layout.tlvs.flatten) := by
  have hpdu := layout.octets
  rw [headerWord_eq (hheader _ (by simp)), headerWord_eq (hheader _ (by simp))] at hpdu
  rw [← toJson_header layout.length]
  apply congrArg toJson
  refine hpdu.trans ?_
  simp only [header, List.append_assoc]

/-- No octet of the message is taken for another one's: both header words are there, no text of a
field holds the terminator, and what is counted fits its count. -/
structure Framed (message : Value) : Prop where
  header : HeaderWritten message
  fields : ∀ field ∈ mandatoryFields message,
    FieldDelimited message field ∨ Blank message field
  tlvs : ∀ codec ∈ createTlvFields, TlvFits message codec

/-- What a framed message is encoded to is read back exactly when it has no empty text. -/
theorem decodable_iff (h : fromJson namedTlvFields message = .ok pdu) (hframed : Framed message) :
    (∃ value, toJson pdu = .ok value) ↔
      ∀ field ∈ mandatoryFields message, ¬ Blank message field := by
  obtain ⟨layout⟩ := exists_layout h
  have hentries : ∀ codec ∈ namedTlvFields.entries,
      codec ∈ createTlvFields ∧ TlvFits message codec := by
    intro codec hcodec
    have hknown := namedTlvFields.perm.mem_iff.mp hcodec
    exact ⟨hknown, hframed.tlvs codec hknown⟩
  obtain ⟨tlvs, -, htlvs⟩ := exists_tlvs layout.encodedTlvs hentries
  have hread : decodeTlvs layout.tlvs.flatten.length layout.tlvs.flatten = .ok tlvs := by
    have hnil := htlvs []
    rw [List.append_nil] at hnil
    exact hnil.trans (by simp [readTlvs, decodeTlvs, Except.map])
  rw [toJson_layout layout hframed.header, decodeBody, layout.table]
  simp only
  rcases settled_fields layout.encodedFields hframed.fields with ⟨hnone, entries, hconsumes⟩ |
    ⟨⟨field, hfield, hblank⟩, e, hrefuses⟩
  · rw [hconsumes]
    simp only [hread, Except.map]
    exact iff_of_true ⟨_, rfl⟩ hnone
  · have herror := hrefuses layout.tlvs.flatten
    cases hdecode : decodeMandatory (mandatoryFields message)
        (layout.fields.flatten ++ layout.tlvs.flatten) with
    | mk result rest =>
        rw [hdecode] at herror
        obtain rfl : result = .error e := herror
        refine iff_of_false ?_ fun hnone => hnone field hfield hblank
        rintro ⟨value, hvalue⟩
        cases hvalue

/-- A replace_sm with an empty text is accepted, and its encoding is not read back. -/
theorem not_decodable_replaceSm :
    fromJson declaredTlvFields (replaceSmWith 0) =
        .ok (encoded declaredTlvFields (replaceSmWith 0)) ∧
      ¬ ∃ value, toJson (encoded declaredTlvFields (replaceSmWith 0)) = .ok value := by
  refine ⟨fromJson_encoded (by decide +kernel), ?_⟩
  rintro ⟨value, hvalue⟩
  have hfails : (toJson (encoded declaredTlvFields (replaceSmWith 0))).isOk = false := by
    decide +kernel
  rw [hvalue] at hfails
  cases hfails

theorem framed_replaceSm : Framed (replaceSmWith 5) := by
  have htlvs : ∀ codec ∈ createTlvFields,
      ((replaceSmWith 5).get codec.name).isSome = false := by decide
  refine ⟨?_, ?_, ?_⟩
  · exact headerWritten_of_absent rfl rfl
  · intro field hfield
    refine .inl fun codec value hcodec hvalue => ?_
    rw [mandatoryFields_replaceSm] at hfield
    simp only [List.mem_cons, List.not_mem_nil, or_false] at hfield
    rcases hfield with rfl | rfl | rfl | rfl | rfl | rfl | rfl | rfl | rfl <;>
      obtain rfl := Option.some.inj hcodec <;> obtain rfl := Option.some.inj hvalue
    · exact delimited_text (by decide)
    · exact delimited_u8 _
    · exact delimited_u8 _
    · exact delimited_text (by decide)
    · exact delimited_text (by decide)
    · exact delimited_text (by decide)
    · exact delimited_u8 _
    · exact delimited_u8 _
    · exact delimited_counted (by decide) (by decide)
  · intro codec hcodec _ s hget
    simpa [hget] using htlvs codec hcodec

theorem decodable_replaceSm :
    ∃ value, toJson (encoded declaredTlvFields (replaceSmWith 5)) = .ok value := by
  apply (decodable_iff (fromJson_encoded (by decide +kernel)) framed_replaceSm).mpr
  rintro field hfield ⟨hcodec, s, hvalue, hempty⟩
  rw [mandatoryFields_replaceSm] at hfield
  simp only [List.mem_cons, List.not_mem_nil, or_false] at hfield
  rcases hfield with rfl | rfl | rfl | rfl | rfl | rfl | rfl | rfl | rfl
  case inr.inr.inr.inr.inr.inr.inr.inr =>
    obtain rfl := Value.string.inj (Option.some.inj hvalue)
    exact absurd hempty (by decide)
  all_goals cases Option.some.inj hcodec

end Messages

section Isolation

variable {namedTlvFields : NamedTlvFields} {message message' : Value} {pdu pdu' : SMPPMessage}
  {name : String}

def isText : FieldCodec → Bool
  | .cOctetStr _ => true
  | _ => false

/-- The name of a C-Octet string among the fields of the command or among the TLVs. -/
def TextField (message : Value) (name : String) : Prop :=
  (∃ field ∈ mandatoryFields message, field.1 = name ∧ (fieldCodecs name).map isText = some true) ∨
    ∃ codec ∈ createTlvFields, codec.name = name ∧ isText codec.valueCodec = true

/-- Two PDUs are read back alike but for one field. -/
inductive ReadAlike (name : String) : Except IoError Value → Except IoError Value → Prop
  | decoded {value value' : Value} : (∀ key, key ≠ name → value.get key = value'.get key) →
      ReadAlike name (.ok value) (.ok value')
  | failed (e : IoError) : ReadAlike name (.error e) (.error e)

/-- The fields up to the one of that name. -/
def upTo (name : String) : List CommandField → List CommandField
  | [] => []
  | field :: fields => if field.1 = name then [field] else field :: upTo name fields

/-- As `Framed`, but for what is written behind the field `name`. -/
structure FramedUpTo (namedTlvFields : NamedTlvFields) (message : Value) (name : String) :
    Prop where
  header : HeaderWritten message
  fields : ∀ field ∈ upTo name (mandatoryFields message),
    FieldDelimited message field ∨ Blank message field
  tlvs : (∀ field ∈ mandatoryFields message, field.1 ≠ name) →
    ∀ codec ∈ namedTlvFields.entries.takeWhile (fun codec => codec.name ≠ name),
      TlvFits message codec

theorem readAlike_map (front : Map) {own own' : Map} (hown : ∀ entry ∈ own, entry.1 = name)
    (hown' : ∀ entry ∈ own', entry.1 = name) (back : Except IoError Map) :
    ReadAlike name
      (back.map fun back => .object (insertAll (front ++ (own ++ back)) []))
      (back.map fun back => .object (insertAll (front ++ (own' ++ back)) [])) := by
  have hnone : ∀ {entries : Map}, (∀ entry ∈ entries, entry.1 = name) → ∀ key, key ≠ name →
      entries.reverse.lookup key = none := by
    intro entries hentries key hkey
    apply List.lookup_eq_none_iff.mpr
    intro entry hentry
    rw [hentries entry (List.mem_reverse.mp hentry)]
    exact bne_iff_ne.mpr hkey
  cases back with
  | error e => exact .failed e
  | ok back =>
      refine .decoded fun key hkey => ?_
      simp only [Value.get, lookup_insertAll, List.reverse_append, List.lookup_append,
        hnone hown key hkey, hnone hown' key hkey]

theorem exists_split {α β : Type} {R : α → β → Prop} {before after : List α} {a : α}
    {bs : List β} (h : List.Forall₂ R (before ++ a :: after) bs) :
    ∃ front b back, bs = front ++ b :: back ∧ List.Forall₂ R before front ∧ R a b ∧
      List.Forall₂ R after back := by
  induction before generalizing bs with
  | nil =>
      obtain ⟨b, back, hb, hback, rfl⟩ := List.forall₂_cons_left_iff.mp h
      exact ⟨[], b, back, rfl, .nil, hb, hback⟩
  | cons first before ih =>
      obtain ⟨b, rest, hb, hrest, rfl⟩ := List.forall₂_cons_left_iff.mp h
      obtain ⟨front, b', back, rfl, hfront, hb', hback⟩ := ih hrest
      exact ⟨b :: front, b', back, rfl, .cons hb hfront, hb', hback⟩

theorem ne_of_nodup {α β : Type} {f : α → β} {before after : List α} {a : α}
    (h : ((before ++ a :: after).map f).Nodup) :
    (∀ other ∈ before, f other ≠ f a) ∧ ∀ other ∈ after, f other ≠ f a := by
  rw [List.map_append, List.map_cons, List.nodup_middle, List.nodup_cons] at h
  constructor
  · intro other hother hsame
    apply h.1
    rw [← hsame]
    exact List.mem_append_left _ (List.mem_map_of_mem hother)
  · intro other hother hsame
    apply h.1
    rw [← hsame]
    exact List.mem_append_right _ (List.mem_map_of_mem hother)

theorem parts_congr {α : Type} {encode encode' : α → Outcome Bytes} {items : List α}
    {parts parts' : List Bytes}
    (h : List.Forall₂ (fun item part => encode item = .ok part) items parts)
    (h' : List.Forall₂ (fun item part => encode' item = .ok part) items parts')
    (hsame : ∀ item ∈ items, encode item = encode' item) : parts = parts' := by
  induction h generalizing parts' with
  | nil => exact (List.forall₂_nil_left_iff.mp h').symm
  | cons hfirst _ ih =>
      obtain ⟨part', rest, hfirst', hrest, rfl⟩ := List.forall₂_cons_left_iff.mp h'
      rw [List.forall_mem_cons] at hsame
      rw [hsame.1, hfirst'] at hfirst
      rw [Outcome.ok.inj hfirst, ih hrest hsame.2]

theorem decodeMandatory_append (before after : List CommandField) :
    decodeMandatory (before ++ after) = do
      let front ← decodeMandatory before
      let back ← decodeMandatory after
      return front ++ back := by
  induction before with
  | nil =>
      funext buffer
      rw [List.nil_append, decodeMandatory, Parser.pure_bind, Parser.bind_apply]
      rcases decodeMandatory after buffer with ⟨e | back, rest⟩ <;> rfl
  | cons field before ih =>
      simp only [List.cons_append, decodeMandatory, ih, Parser.bind_assoc, Parser.pure_bind]

/-- What is read behind a field: the fields after it, and the TLVs. -/
def readOn (after : List CommandField) (buffer : Bytes) : Except IoError Map :=
  match decodeMandatory after buffer with
  | (.error e, _) => .error e
  | (.ok entries, rest) => (readTlvs rest).map (entries ++ ·)

theorem decodeBody_field {before after : List CommandField} {field : CommandField}
    {first octets rest : Bytes} {entries : Map} {value : Value} {commandId : UInt32}
    (htable : messageCommandFields commandId = some (before ++ field :: after))
    (hbefore : Consumes (decodeMandatory before) first entries)
    (hfield : Consumes (decodeField field) octets (field.1, value)) (status number : UInt32) :
    decodeBody commandId status number (first ++ (octets ++ rest)) =
      (readOn after rest).map fun back => .object (insertAll
        (headerEntries commandId status number ++ entries ++ ([(field.1, value)] ++ back)) []) := by
  simp only [decodeBody, htable, decodeMandatory_append, Parser.bind_apply, hbefore _,
    decodeMandatory, hfield _, readOn]
  rcases decodeMandatory after rest with ⟨e | back, rest⟩
  · rfl
  · simp only [Parser.pure_apply]
    change (readTlvs rest).map _ = ((readTlvs rest).map _).map _
    cases readTlvs rest with
    | error e => rfl
    | ok tlvs => simp [Except.map]

theorem decodeBody_fields {fields : List CommandField} {first rest : Bytes} {entries : Map}
    {commandId : UInt32} (htable : messageCommandFields commandId = some fields)
    (hfields : Consumes (decodeMandatory fields) first entries) (status number : UInt32) :
    decodeBody commandId status number (first ++ rest) = (readTlvs rest).map fun tlvs =>
      .object (insertAll (headerEntries commandId status number ++ entries ++ tlvs) []) := by
  simp only [decodeBody, htable, hfields _]
  rfl

theorem decodeBody_refused {before after : List CommandField} {first rest : Bytes} {e : IoError}
    {commandId : UInt32} (htable : messageCommandFields commandId = some (before ++ after))
    (hbefore : Refuses (decodeMandatory before) first e) (status number : UInt32) :
    decodeBody commandId status number (first ++ rest) = .error e := by
  have hwhole := hbefore.bind (fun front => do
    let back ← decodeMandatory after
    return front ++ back) [] rest
  rw [← decodeMandatory_append, List.append_nil] at hwhole
  simp only [decodeBody, htable]
  cases hdecode : decodeMandatory (before ++ after) (first ++ rest) with
  | mk result remaining =>
      rw [hdecode] at hwhole
      obtain rfl : result = .error e := hwhole
      rfl

theorem upTo_split {before after : List CommandField} {field : CommandField}
    (hbefore : ∀ other ∈ before, other.1 ≠ field.1) :
    upTo field.1 (before ++ field :: after) = before ++ [field] := by
  induction before with
  | nil => simp [upTo]
  | cons first before ih =>
      rw [List.forall_mem_cons] at hbefore
      rw [List.cons_append, upTo, if_neg hbefore.1, ih hbefore.2]
      rfl

theorem upTo_of_notMem {fields : List CommandField} (h : ∀ field ∈ fields, field.1 ≠ name) :
    upTo name fields = fields := by
  induction fields with
  | nil => rfl
  | cons field fields ih =>
      rw [List.forall_mem_cons] at h
      rw [upTo, if_neg h.1, ih h.2]

/-- What two messages with the same entries but for one name have in common. -/
structure Common (message message' : Value) (name : String) : Prop where
  command : extractCommandId message' = extractCommandId message
  number : ∀ key ∈ ["command_status", "sequence_number"],
    headerNumber message' key = headerNumber message key
  field : ∀ field : CommandField, field.1 ≠ name →
    encodeField message field = encodeField message' field
  tlv : ∀ codec : TLVFieldCodec, codec.name ≠ name →
    encodeTlvField message codec = encodeTlvField message' codec

theorem Common.of_same (hname : name ∉ headerNames)
    (hsame : ∀ key, key ≠ name → message.get key = message'.get key) :
    Common message message' name := by
  have hheader : ∀ key ∈ headerNames, message'.get key = message.get key := by
    intro key hkey
    refine (hsame key ?_).symm
    rintro rfl
    exact hname hkey
  refine ⟨extractCommandId_congr (hheader _ (by simp [headerNames]))
    (hheader _ (by simp [headerNames])), ?_, ?_, ?_⟩
  · intro key hkey
    rw [headerNumber, headerNumber, hheader key (by simp [headerNames] at hkey ⊢; tauto)]
  · intro field hfield
    unfold encodeField
    rw [hsame field.1 hfield]
  · intro codec hcodec
    unfold encodeTlvField
    rw [hsame codec.name hcodec]

theorem Common.mandatoryFields_eq (hcommon : Common message message' name) :
    mandatoryFields message' = mandatoryFields message := by
  rw [mandatoryFields, mandatoryFields, hcommon.command]

/-- The second PDU is decoded like the first one, but for its fields and TLVs. -/
theorem Common.toJson_layout (hcommon : Common message message' name)
    (layout : Layout namedTlvFields message pdu) (layout' : Layout namedTlvFields message' pdu')
    (hheader : HeaderWritten message') :
    toJson pdu' = decodeBody layout.commandId.asU32 (headerNumber message "command_status")
      (headerNumber message "sequence_number")
      (layout'.fields.flatten ++ layout'.tlvs.flatten) := by
  have hid : layout'.commandId = layout.commandId :=
    Option.some.inj (layout'.command.symm.trans (hcommon.command.trans layout.command))
  rw [Delimiting.toJson_layout layout' hheader, hid, hcommon.number _ (by simp),
    hcommon.number _ (by simp)]

theorem tlvName_ne_of_text {commandId : UInt32} {fields : List CommandField}
    (hfields : messageCommandFields commandId = some fields) {field : CommandField}
    (hfield : field ∈ fields) (htext : (fieldCodecs field.1).map isText = some true)
    {codec : TLVFieldCodec} (hcodec : codec ∈ createTlvFields) : codec.name ≠ field.1 := by
  have htable : ∀ entry ∈ createCommandFields, ∀ field ∈ entry.2,
      (fieldCodecs field.1).map isText = some true → isValidTlvField field.1 = false := by decide
  obtain ⟨entry, hentry, rfl⟩ := mem_createCommandFields hfields
  have hinvalid := htable entry hentry field hfield htext
  rintro hname
  rw [isValidTlvField, List.any_eq_false] at hinvalid
  exact hinvalid codec hcodec (by simp [hname])

theorem fieldName_ne_of_text {commandId : UInt32} {fields : List CommandField}
    (hfields : messageCommandFields commandId = some fields) {field : CommandField}
    (hfield : field ∈ fields) {codec : TLVFieldCodec} (hcodec : codec ∈ createTlvFields)
    (htext : isText codec.valueCodec = true) : field.1 ≠ codec.name := by
  have htable : ∀ codec ∈ createTlvFields, isText codec.valueCodec = true →
      ∀ entry ∈ createCommandFields, ∀ field ∈ entry.2, field.1 ≠ codec.name := by decide
  obtain ⟨entry, hentry, rfl⟩ := mem_createCommandFields hfields
  exact htable codec hcodec htext entry hentry field hfield

theorem not_blank_of_text {field : CommandField}
    (htext : (fieldCodecs field.1).map isText = some true) : ¬ Blank message field := by
  rintro ⟨hcodec, -⟩
  rw [hcodec] at htext
  cases htext

theorem readAlike_field (layout : Layout namedTlvFields message pdu)
    (layout' : Layout namedTlvFields message' pdu')
    (hsame : ∀ key, key ≠ name → message.get key = message'.get key)
    (hframed : FramedUpTo namedTlvFields message name)
    (hframed' : FramedUpTo namedTlvFields message' name)
    (hname : ∃ field ∈ mandatoryFields message, field.1 = name ∧
      (fieldCodecs name).map isText = some true) : ReadAlike name (toJson pdu) (toJson pdu') := by
  obtain ⟨field, hfield, rfl, htext⟩ := hname
  have hcommon := Common.of_same (fieldName_notMem_headerNames layout.table hfield) hsame
  obtain ⟨before, after, hsplit⟩ := List.append_of_mem hfield
  have hnodup := nodup_fieldNames layout.table
  rw [hsplit] at hnodup
  obtain ⟨hbefore, hafter⟩ := ne_of_nodup hnodup
  have hupTo : upTo field.1 (mandatoryFields message) = before ++ [field] := by
    rw [hsplit, upTo_split hbefore]
  have hencoded := layout.encodedFields
  have hencoded' := layout'.encodedFields
  rw [hsplit] at hencoded
  rw [hcommon.mandatoryFields_eq, hsplit] at hencoded'
  obtain ⟨first, octets, rest, hparts, hfirst, hoctets, hrest⟩ := exists_split hencoded
  obtain ⟨first', octets', rest', hparts', hfirst', hoctets', hrest'⟩ := exists_split hencoded'
  obtain rfl : first = first' := parts_congr hfirst hfirst' fun other hother =>
    hcommon.field other (hbefore other hother)
  obtain rfl : rest = rest' := parts_congr hrest hrest' fun other hother =>
    hcommon.field other (hafter other hother)
  have htlvs : layout.tlvs = layout'.tlvs :=
    parts_congr layout.encodedTlvs layout'.encodedTlvs fun codec hcodec => hcommon.tlv codec
      (tlvName_ne_of_text layout.table hfield htext (namedTlvFields.perm.mem_iff.mp hcodec))
  have hdelimited : FieldDelimited message field :=
    (hframed.fields field (by simp [hupTo])).resolve_right (not_blank_of_text htext)
  have hdelimited' : FieldDelimited message' field := by
    refine (hframed'.fields field ?_).resolve_right (not_blank_of_text htext)
    simp [hcommon.mandatoryFields_eq, hupTo]
  obtain ⟨value, hvalue⟩ := hdelimited.exists_consumed hoctets
  obtain ⟨value', hvalue'⟩ := hdelimited'.exists_consumed hoctets'
  have htable := layout.table
  rw [hsplit] at htable
  rw [toJson_layout layout hframed.header, hcommon.toJson_layout layout layout' hframed'.header,
    hparts, hparts', ← htlvs]
  simp only [List.flatten_append, List.flatten_cons, List.append_assoc]
  rcases settled_fields hfirst fun other hother =>
      hframed.fields other (by simp [hupTo, hother]) with ⟨-, entries, hconsumes⟩ | ⟨-, e, hrefuses⟩
  · rw [decodeBody_field htable hconsumes hvalue, decodeBody_field htable hconsumes hvalue']
    exact readAlike_map _ (by simp) (by simp) _
  · rw [decodeBody_refused htable hrefuses, decodeBody_refused htable hrefuses]
    exact .failed e

theorem readAlike_tlv (layout : Layout namedTlvFields message pdu)
    (layout' : Layout namedTlvFields message' pdu')
    (hsame : ∀ key, key ≠ name → message.get key = message'.get key)
    (hframed : FramedUpTo namedTlvFields message name)
    (hframed' : FramedUpTo namedTlvFields message' name)
    (hname : ∃ codec ∈ createTlvFields, codec.name = name ∧ isText codec.valueCodec = true) :
    ReadAlike name (toJson pdu) (toJson pdu') := by
  obtain ⟨codec, hcodec, rfl, htext⟩ := hname
  have hcommon := Common.of_same (tlvName_notMem_headerNames hcodec) hsame
  have hnames : ∀ field ∈ mandatoryFields message, field.1 ≠ codec.name :=
    fun field hfield => fieldName_ne_of_text layout.table hfield hcodec htext
  have hentry : codec ∈ namedTlvFields.entries := namedTlvFields.perm.mem_iff.mpr hcodec
  obtain ⟨before, after, hsplit⟩ := List.append_of_mem hentry
  have hnodup : (namedTlvFields.entries.map TLVFieldCodec.name).Nodup :=
    (namedTlvFields.perm.map _).nodup_iff.mpr nodup_tlvNames
  rw [hsplit] at hnodup
  obtain ⟨hbefore, hafter⟩ := ne_of_nodup hnodup
  have htake : namedTlvFields.entries.takeWhile (fun other => other.name ≠ codec.name) =
      before := by
    rw [hsplit, List.takeWhile_append_of_pos fun other hother => by simpa using hbefore other hother,
      List.takeWhile_cons_of_neg (by simp), List.append_nil]
  have hencoded := layout.encodedTlvs
  have hencoded' := layout'.encodedTlvs
  rw [hsplit] at hencoded hencoded'
  obtain ⟨first, octets, rest, hparts, hfirst, hoctets, hrest⟩ := exists_split hencoded
  obtain ⟨first', octets', rest', hparts', hfirst', hoctets', hrest'⟩ := exists_split hencoded'
  obtain rfl : first = first' := parts_congr hfirst hfirst' fun other hother =>
    hcommon.tlv other (hbefore other hother)
  obtain rfl : rest = rest' := parts_congr hrest hrest' fun other hother =>
    hcommon.tlv other (hafter other hother)
  have hencodedFields' := layout'.encodedFields
  rw [hcommon.mandatoryFields_eq] at hencodedFields'
  have hfields : layout.fields = layout'.fields :=
    parts_congr layout.encodedFields hencodedFields' fun field hfield =>
      hcommon.field field (hnames field hfield)
  have hfits : ∀ other ∈ before, other ∈ createTlvFields ∧ TlvFits message other := by
    intro other hother
    have hmem : other ∈ namedTlvFields.entries := by
      rw [hsplit]
      exact List.mem_append_left _ hother
    exact ⟨namedTlvFields.perm.mem_iff.mp hmem, hframed.tlvs hnames other (by rwa [htake])⟩
  -- the length of a text is never more than two octets can say
  have hown : ∀ message : Value, ∀ other ∈ [codec],
      other ∈ createTlvFields ∧ TlvFits message other := by
    intro message other hother
    obtain rfl := List.mem_singleton.mp hother
    refine ⟨hcodec, fun hoctet => ?_⟩
    rw [hoctet] at htext
    cases htext
  obtain ⟨entries, -, hentries⟩ := exists_tlvs hfirst hfits
  obtain ⟨own, hownNames, hownEntries⟩ :=
    exists_tlvs (.cons hoctets .nil) (hown message)
  obtain ⟨own', hownNames', hownEntries'⟩ :=
    exists_tlvs (.cons hoctets' .nil) (hown message')
  have hall : ∀ field ∈ mandatoryFields message,
      FieldDelimited message field ∨ Blank message field := by
    intro field hfield
    exact hframed.fields field (by rwa [upTo_of_notMem hnames])
  rw [toJson_layout layout hframed.header, hcommon.toJson_layout layout layout' hframed'.header,
    ← hfields, hparts, hparts']
  rcases settled_fields layout.encodedFields hall with ⟨-, front, hconsumes⟩ | ⟨-, e, hrefuses⟩
  · have hread : ∀ {octets : Bytes} {own : Map},
        (∀ rest, readTlvs ([octets].flatten ++ rest) = (readTlvs rest).map (own ++ ·)) →
        decodeBody layout.commandId.asU32 (headerNumber message "command_status")
            (headerNumber message "sequence_number")
            (layout.fields.flatten ++ (first ++ octets :: rest).flatten) =
          (readTlvs rest.flatten).map fun back => .object (insertAll
            (headerEntries layout.commandId.asU32 (headerNumber message "command_status")
              (headerNumber message "sequence_number") ++ front ++ entries ++ (own ++ back)) []) := by
      intro octets own hown
      have hoctets := hown rest.flatten
      rw [List.flatten_cons, List.flatten_nil, List.append_nil] at hoctets
      rw [decodeBody_fields layout.table hconsumes, List.flatten_append, List.flatten_cons,
        hentries, hoctets]
      cases readTlvs rest.flatten with
      | error e => rfl
      | ok back => simp [Except.map]
    rw [hread hownEntries, hread hownEntries']
    have hname : ∀ {own : Map}, (∀ entry ∈ own, ∃ other ∈ [codec], other.name = entry.1) →
        ∀ entry ∈ own, entry.1 = codec.name := by
      intro own hnames entry hentry
      obtain ⟨other, hother, hname⟩ := hnames entry hentry
      rw [← hname, List.mem_singleton.mp hother]
    exact readAlike_map _ (hname hownNames) (hname hownNames') _
  · have htable : messageCommandFields layout.commandId.asU32 =
        some (mandatoryFields message ++ []) := by
      rw [List.append_nil]
      exact layout.table
    rw [decodeBody_refused htable hrefuses, decodeBody_refused htable hrefuses]
    exact .failed e

/-- Two accepted messages that differ in the text of one field are read back alike but for that
field, where no text up to it holds the terminator. -/
theorem text_isolated (h : fromJson namedTlvFields message = .ok pdu)
    (h' : fromJson namedTlvFields message' = .ok pdu') (hname : TextField message name)
    (hsame : ∀ key, key ≠ name → message.get key = message'.get key)
    (hframed : FramedUpTo namedTlvFields message name)
    (hframed' : FramedUpTo namedTlvFields message' name) :
    ReadAlike name (toJson pdu) (toJson pdu') := by
  obtain ⟨layout⟩ := exists_layout h
  obtain ⟨layout'⟩ := exists_layout h'
  rcases hname with hfield | htlv
  · exact readAlike_field layout layout' hsame hframed hframed' hfield
  · exact readAlike_tlv layout layout' hsame hframed hframed' htlv

theorem ReadAlike.get_eq {decoded decoded' : Except IoError Value}
    (h : ReadAlike name decoded decoded') {key : String} (hkey : key ≠ name) :
    (decoded.toOption.bind fun value => value.get key) =
      decoded'.toOption.bind fun value => value.get key := by
  cases h with
  | decoded hsame => exact hsame key hkey
  | failed e => rfl

/-- A query_sm for the message of that id. -/
def querySmFor (messageId : String) : Value :=
  .object [("command_id", .ofNat 3), ("message_id", .string messageId)]

/-- The NUL in a message id is taken for its end, and what follows for the next field. -/
theorem not_isolated_querySm :
    fromJson declaredTlvFields (querySmFor "m") =
        .ok (encoded declaredTlvFields (querySmFor "m")) ∧
      fromJson declaredTlvFields (querySmFor "m\x00\x07") =
          .ok (encoded declaredTlvFields (querySmFor "m\x00\x07")) ∧
        ¬ ReadAlike "message_id" (toJson (encoded declaredTlvFields (querySmFor "m")))
          (toJson (encoded declaredTlvFields (querySmFor "m\x00\x07"))) := by
  refine ⟨fromJson_encoded (by decide +kernel), fromJson_encoded (by decide +kernel), ?_⟩
  intro halike
  have hton := congrArg (Option.bind · Value.asU64)
    (halike.get_eq (show "source_addr_ton" ≠ "message_id" by decide))
  exact absurd hton (by decide +kernel)

theorem framedUpTo_querySm {messageId : String}
    (hnul : (0 : UInt8) ∉ (bytes messageId).take 65) :
    FramedUpTo declaredTlvFields (querySmFor messageId) "message_id" := by
  have hfields : upTo "message_id" (mandatoryFields (querySmFor messageId)) =
      [("message_id", none)] := rfl
  refine ⟨?_, ?_, ?_⟩
  · exact headerWritten_of_absent rfl rfl
  · rw [hfields]
    intro field hfield
    obtain rfl := List.mem_singleton.mp hfield
    refine .inl fun codec value hcodec hvalue => ?_
    obtain rfl := Option.some.inj hcodec
    obtain rfl := Option.some.inj hvalue
    exact delimited_text hnul
  · intro hnone
    exact absurd rfl (hnone ("message_id", none) (.head _))

theorem isolated_querySm :
    ReadAlike "message_id" (toJson (encoded declaredTlvFields (querySmFor "m")))
      (toJson (encoded declaredTlvFields (querySmFor "n"))) := by
  refine text_isolated (fromJson_encoded (by decide +kernel)) (fromJson_encoded (by decide +kernel))
    (.inl ⟨("message_id", none), .head _, rfl, rfl⟩) ?_ (framedUpTo_querySm (by decide))
    (framedUpTo_querySm (by decide))
  intro key hkey
  simp [querySmFor, Value.get, List.lookup_cons, beq_false_of_ne hkey]

end Isolation

end SmppHerald.Delimiting
