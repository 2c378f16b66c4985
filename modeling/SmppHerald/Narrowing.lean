import SmppHerald.EncodedLayout

namespace SmppHerald.Narrowing

open SmppHerald.Buffer
open SmppHerald.ByteParser
open SmppHerald.CommandIds
open SmppHerald.Encodability
open SmppHerald.EncodedLayout
open SmppHerald.FieldCodecs
open SmppHerald.Io
open SmppHerald.Json
open SmppHerald.Message
open SmppHerald.PduFormat
open SmppHerald.Utf8

variable {namedTlvFields : NamedTlvFields} {message : Value} {pdu : SMPPMessage}

section Integers

/-- The integer that a JSON value is, of either sign. -/
def asInteger : Value → Option Int
  | .number (.posInt n) => some n.toNat
  | .number (.negInt n) => some (.negSucc n)
  | _ => none

/-- The octets that a codec of integers writes. -/
def width : FieldCodec → Option Nat
  | .u8 => some 1
  | .optionalU8 _ => some 1
  | .u16 => some 2
  | .u32 => some 4
  | _ => none

def Fits (size : Nat) (n : Int) : Prop := ∃ m : Nat, n = m ∧ m < 256 ^ size

/-- The octets are those of the integer, unchanged. -/
def Writes (octets : Bytes) (size : Nat) (n : Int) : Prop :=
  octets.length = size ∧ n = beNat octets

theorem Writes.fits {octets : Bytes} {size : Nat} {n : Int} (h : Writes octets size n) :
    Fits size n := by
  obtain ⟨rfl, rfl⟩ := h
  exact ⟨beNat octets, rfl, beNat_lt octets⟩

theorem writes_beBytes_iff (size n : Nat) :
    Writes (beBytes size n) size (n : Int) ↔ Fits size (n : Int) := by
  constructor
  · exact Writes.fits
  · rintro ⟨m, heq, hlt⟩
    obtain rfl := Int.natCast_inj.mp heq
    exact ⟨length_beBytes size n, by rw [beNat_beBytes, Nat.mod_eq_of_lt hlt]⟩

/-- The octets that a codec writes for a value are its integer, and so are the two numbers of an
address. -/
def KeepsInteger : FieldCodec → Value → Bytes → Prop
  | .destAddress, value, octets =>
      ∀ addr, (value.get "destination_addr").bind Value.asStr = some addr →
        ∃ flag ton npi rest, octets = flag :: ton :: npi :: rest ∧
          (∀ n, (value.get "dest_addr_ton").bind asInteger = some n → Writes [ton] 1 n) ∧
          ∀ n, (value.get "dest_addr_npi").bind asInteger = some n → Writes [npi] 1 n
  | codec, value, octets =>
      ∀ size n, width codec = some size → asInteger value = some n → Writes octets size n

/-- The integer fits its codec, and so do the two numbers of an address. -/
def IntegerFits : FieldCodec → Value → Prop
  | .destAddress, value =>
      ∀ addr, (value.get "destination_addr").bind Value.asStr = some addr →
        (∀ n, (value.get "dest_addr_ton").bind asInteger = some n → Fits 1 n) ∧
          ∀ n, (value.get "dest_addr_npi").bind asInteger = some n → Fits 1 n
  | codec, value => ∀ size n, width codec = some size → asInteger value = some n → Fits size n

theorem asInteger_eq_some_iff {value : Value} {n : UInt64} (h : value.asU64 = some n) (z : Int) :
    asInteger value = some z ↔ z = n.toNat := by
  rw [(asU64_eq_some_iff value n).mp h]
  simp [asInteger, eq_comm]

theorem not_fits_of_asU64 {value : Value} (h : value.asU64 = none) {n : Int}
    (hn : asInteger value = some n) (size : Nat) : ¬ Fits size n := by
  cases value with
  | number number =>
      cases number with
      | posInt m => simp [Value.asU64, Number.asU64] at h
      | negInt m =>
          obtain rfl : Int.negSucc m = n := Option.some.inj hn
          rintro ⟨k, hk, -⟩
          cases hk
      | float bits => simp [asInteger] at hn
  | _ => simp [asInteger] at hn

theorem beBytes_mod (size n : Nat) : beBytes size (n % 256 ^ size) = beBytes size n := by
  have hback := beBytes_beNat (beBytes size n)
  rwa [length_beBytes, beNat_beBytes] at hback

theorem beBytes_one (n : UInt64) : beBytes 1 n.toNat = writeU8 n.toUInt8 := by
  have hdigit : UInt8.ofNat n.toNat = n.toUInt8 := by
    apply UInt8.toNat_inj.mp
    rw [UInt8.toNat_ofNat', UInt64.toNat_toUInt8]
  simp [beBytes, writeU8, hdigit]

theorem encode_integer {codec : FieldCodec} {size : Nat} (hwidth : width codec = some size)
    {value : Value} {n : UInt64} (hn : value.asU64 = some n) :
    codec.encode value = .ok (beBytes size n.toNat) := by
  cases codec with
  | u8 =>
      obtain rfl := Option.some.inj hwidth
      simp only [FieldCodec.encode, hn, beBytes_one]
  | optionalU8 defaultValue =>
      obtain rfl := Option.some.inj hwidth
      simp only [FieldCodec.encode, hn, beBytes_one]
      split
      · rfl
      · rename_i hdefault
        rw [not_not.mp hdefault, UInt8.toUInt8_toUInt64]
  | u16 =>
      obtain rfl := Option.some.inj hwidth
      simp only [FieldCodec.encode, hn, writeU16, Outcome.ok.injEq]
      exact beBytes_mod 2 n.toNat
  | u32 =>
      obtain rfl := Option.some.inj hwidth
      simp only [FieldCodec.encode, hn, writeU32, Outcome.ok.injEq]
      exact beBytes_mod 4 n.toNat
  | _ => cases hwidth

theorem writes_iff_of_encode {codec : FieldCodec} {value : Value} {octets : Bytes}
    (h : codec.encode value = .ok octets) {size : Nat} (hwidth : width codec = some size)
    {n : Int} (hn : asInteger value = some n) : Writes octets size n ↔ Fits size n := by
  cases hvalue : value.asU64 with
  | none =>
      have hnot := not_fits_of_asU64 hvalue hn size
      exact iff_of_false (fun hwrites => hnot hwrites.fits) hnot
  | some m =>
      rw [encode_integer hwidth hvalue] at h
      obtain rfl := Outcome.ok.inj h
      rw [(asInteger_eq_some_iff hvalue n).mp hn]
      exact writes_beBytes_iff size m.toNat

theorem writes_octet_iff {value : Option Value} {n : Int} (hn : value.bind asInteger = some n) :
    Writes [((value.bind Value.asU64).getD 0).toUInt8] 1 n ↔ Fits 1 n := by
  obtain ⟨value, rfl, hn⟩ := Option.bind_eq_some_iff.mp hn
  cases hvalue : value.asU64 with
  | none =>
      have hnot := not_fits_of_asU64 hvalue hn 1
      exact iff_of_false (fun hwrites => hnot hwrites.fits) hnot
  | some m =>
      have hoctet : [m.toUInt8] = beBytes 1 m.toNat := (beBytes_one m).symm
      rw [Option.bind_some, hvalue, Option.getD_some, hoctet,
        (asInteger_eq_some_iff hvalue n).mp hn]
      exact writes_beBytes_iff 1 m.toNat

theorem keepsInteger_iff {codec : FieldCodec} {value : Value} {octets : Bytes}
    (h : codec.encode value = .ok octets) :
    KeepsInteger codec value octets ↔ IntegerFits codec value := by
  have hplain : (∀ size n, width codec = some size → asInteger value = some n →
        Writes octets size n) ↔
      ∀ size n, width codec = some size → asInteger value = some n → Fits size n :=
    forall₄_congr fun size n hwidth hn => writes_iff_of_encode h hwidth hn
  cases codec with
  | destAddress =>
      unfold KeepsInteger IntegerFits
      refine forall₂_congr fun addr haddr => ?_
      rw [FieldCodec.encode] at h
      cases value with
      | object map =>
          simp only [encodeDestAddress, show map.lookup "destination_addr" =
            (Value.object map).get "destination_addr" from rfl, haddr] at h
          obtain rfl := Outcome.ok.inj h
          constructor
          · rintro ⟨flag, ton, npi, rest, hoctets, hton, hnpi⟩
            obtain ⟨-, rfl, rfl, -⟩ : flag = 1 ∧ _ = ton ∧ _ = npi ∧ _ = rest := by
              simpa [writeU8, eq_comm] using hoctets
            exact ⟨fun n hn => (writes_octet_iff hn).mp (hton n hn),
              fun n hn => (writes_octet_iff hn).mp (hnpi n hn)⟩
          · rintro ⟨hton, hnpi⟩
            exact ⟨_, _, _, _, rfl, fun n hn => (writes_octet_iff hn).mpr (hton n hn),
              fun n hn => (writes_octet_iff hn).mpr (hnpi n hn)⟩
      | _ => cases h
  | _ => exact hplain

end Integers

section Header

/-- A header word that is written is the integer of the message, at its place. -/
structure HeaderKept (message : Value) (pdu : SMPPMessage) : Prop where
  words : ∃ length commandId body, pdu = writeU32 length ++ (commandId ++
    (headerWord message "command_status" ++ (headerWord message "sequence_number" ++ body))) ∧
      commandId.length = 4 ∧
        ∀ n, (message.get "command_id").bind asInteger = some n → Writes commandId 4 n
  commandStatus : ∀ n, (message.get "command_status").bind asInteger = some n →
    Writes (headerWord message "command_status") 4 n
  sequenceNumber : ∀ n, (message.get "sequence_number").bind asInteger = some n →
    Writes (headerWord message "sequence_number") 4 n ∧
      (headerWord message "command_status").length = 4

/-- The integers of the header fit their words. A sequence number has its place only behind a
status, which is missing where the message supplies something else than an unsigned integer. -/
structure HeaderFits (message : Value) : Prop where
  commandId : ∀ n, (message.get "command_id").bind asInteger = some n → Fits 4 n
  commandStatus : ∀ n, (message.get "command_status").bind asInteger = some n → Fits 4 n
  sequenceNumber : ∀ n, (message.get "sequence_number").bind asInteger = some n →
    Fits 4 n ∧ (((message.get "command_status").getD (.ofNat 0)).asU64).isSome = true

theorem writeU32_toUInt32 (n : UInt64) : writeU32 n.toUInt32 = beBytes 4 n.toNat := by
  rw [writeU32, UInt64.toNat_toUInt32]
  exact beBytes_mod 4 n.toNat

theorem length_headerWord_iff (key : String) :
    (headerWord message key).length = 4 ↔
      (((message.get key).getD (.ofNat 0)).asU64).isSome = true := by
  rw [headerWord]
  split
  · rename_i n hn
    simp [hn, writeU32]
  · rename_i hn
    simp [hn]

theorem writes_writeU32_iff {value : Value} {m : UInt64} {n : Int} (hvalue : value.asU64 = some m)
    (hn : asInteger value = some n) : Writes (writeU32 m.toUInt32) 4 n ↔ Fits 4 n := by
  rw [writeU32_toUInt32, (asInteger_eq_some_iff hvalue n).mp hn]
  exact writes_beBytes_iff 4 m.toNat

theorem writes_headerWord_iff {key : String} {n : Int}
    (hn : (message.get key).bind asInteger = some n) :
    Writes (headerWord message key) 4 n ↔ Fits 4 n := by
  obtain ⟨value, hget, hn⟩ := Option.bind_eq_some_iff.mp hn
  rw [headerWord, hget, Option.getD_some]
  cases hvalue : value.asU64 with
  | none =>
      have hnot := not_fits_of_asU64 hvalue hn 4
      exact iff_of_false (fun hwrites => hnot hwrites.fits) hnot
  | some m => exact writes_writeU32_iff hvalue hn

/-- The command that a message gives by number is the low word of that number. -/
theorem writes_commandId_iff {commandId : CommandId}
    (hcommand : extractCommandId message = some commandId) {n : Int}
    (hn : (message.get "command_id").bind asInteger = some n) :
    Writes (writeU32 commandId.asU32) 4 n ↔ Fits 4 n := by
  obtain ⟨value, hget, hn⟩ := Option.bind_eq_some_iff.mp hn
  cases hvalue : value.asU64 with
  | none =>
      have hnot := not_fits_of_asU64 hvalue hn 4
      exact iff_of_false (fun hwrites => hnot hwrites.fits) hnot
  | some m =>
      obtain rfl := (asU64_eq_some_iff value m).mp hvalue
      have hfrom : CommandId.fromU32 m.toUInt32 = some commandId := by
        rw [← hcommand, extractCommandId, hget]
        rfl
      rw [CommandId.asU32_of_fromU32 hfrom]
      exact writes_writeU32_iff hvalue hn

theorem headerKept_iff (layout : Layout namedTlvFields message pdu) :
    HeaderKept message pdu ↔ HeaderFits message := by
  constructor
  · rintro ⟨⟨length, commandId, body, hpdu, hlength, hcommand⟩, hstatus, hsequence⟩
    refine ⟨fun n hn => (hcommand n hn).fits, fun n hn => (hstatus n hn).fits, fun n hn => ?_⟩
    obtain ⟨hwrites, hplace⟩ := hsequence n hn
    exact ⟨hwrites.fits, (length_headerWord_iff _).mp hplace⟩
  · rintro ⟨hcommand, hstatus, hsequence⟩
    refine ⟨⟨layout.length, writeU32 layout.commandId.asU32, _, layout.octets,
      length_beBytes 4 _, ?_⟩, ?_, ?_⟩
    · intro n hn
      exact (writes_commandId_iff layout.command hn).mpr (hcommand n hn)
    · intro n hn
      exact (writes_headerWord_iff hn).mpr (hstatus n hn)
    · intro n hn
      obtain ⟨hfits, hplace⟩ := hsequence n hn
      exact ⟨(writes_headerWord_iff hn).mpr hfits, (length_headerWord_iff _).mpr hplace⟩

end Header

section AllIntegers

/-- Every integer that the message supplies stands in the PDU as it is. -/
structure IntegersKept (message : Value) (pdu : SMPPMessage) : Prop where
  header : HeaderKept message pdu
  values : ∀ codec value, Supplied message codec value →
    ∃ octets, codec.encode value = .ok octets ∧ octets <:+: pdu ∧ KeepsInteger codec value octets

structure IntegersFit (message : Value) : Prop where
  header : HeaderFits message
  values : ∀ codec value, Supplied message codec value → IntegerFits codec value

/-- The integers of an accepted message are written unchanged exactly when all of them fit. -/
theorem integers_kept_iff (h : fromJson namedTlvFields message = .ok pdu) :
    IntegersKept message pdu ↔ IntegersFit message := by
  obtain ⟨layout⟩ := exists_layout h
  constructor
  · rintro ⟨hheader, hvalues⟩
    refine ⟨(headerKept_iff layout).mp hheader, fun codec value hsupplied => ?_⟩
    obtain ⟨octets, hencode, -, hkeeps⟩ := hvalues codec value hsupplied
    exact (keepsInteger_iff hencode).mp hkeeps
  · rintro ⟨hheader, hvalues⟩
    refine ⟨(headerKept_iff layout).mpr hheader, fun codec value hsupplied => ?_⟩
    obtain ⟨octets, hencode, hinfix⟩ := layout.exists_supplied hsupplied
    exact ⟨octets, hencode, hinfix, (keepsInteger_iff hencode).mpr (hvalues codec value hsupplied)⟩

/-- A query_sm for the message `m` with the given type of number. -/
def querySmWith (sourceAddrTon : Number) : Value :=
  .object [("command_id", .ofNat 3), ("message_id", .string "m"), ("sequence_number", .ofNat 7),
    ("source_addr_ton", .number sourceAddrTon)]

theorem supplied_querySm (ton : Number) :
    Supplied (querySmWith ton) .u8 (.number ton) := by
  have hfield : ("source_addr_ton", some (.ofNat 0)) ∈ mandatoryFields (querySmWith ton) :=
    .tail _ (.head _)
  exact .field hfield rfl rfl

/-- The type of number 256 is accepted and written as 0. -/
theorem not_integersKept_querySm :
    ∃ pdu, fromJson declaredTlvFields (querySmWith (.posInt 256)) = .ok pdu ∧
      ¬ IntegersKept (querySmWith (.posInt 256)) pdu := by
  have hpdu := fromJson_encoded
    (show accepted declaredTlvFields (querySmWith (.posInt 256)) = true by decide +kernel)
  refine ⟨_, hpdu, fun hkept => ?_⟩
  obtain ⟨octets, hencode, -, hkeeps⟩ := hkept.values _ _ (supplied_querySm _)
  obtain ⟨m, heq, hlt⟩ := (keepsInteger_iff hencode).mp hkeeps 1 256 rfl rfl
  omega

theorem integersFit_querySm : IntegersFit (querySmWith (.posInt 255)) := by
  have hfits : ∀ m : UInt64, m.toNat < 256 → IntegerFits .u8 (.number (.posInt m)) := by
    intro m hlt size n hwidth hn
    obtain rfl := Option.some.inj hwidth
    obtain rfl := Option.some.inj hn
    exact ⟨m.toNat, rfl, hlt⟩
  have hword : ∀ m : UInt64, m.toNat < 256 ^ 4 → ∀ n,
      (some (Value.number (.posInt m))).bind asInteger = some n → Fits 4 n := by
    intro m hlt n hn
    obtain rfl := Option.some.inj hn
    exact ⟨m.toNat, rfl, hlt⟩
  have hfields : mandatoryFields (querySmWith (.posInt 255)) = [("message_id", none),
      ("source_addr_ton", some (.ofNat 0)), ("source_addr_npi", some (.ofNat 0)),
      ("source_addr", some (.string ""))] := rfl
  have htlvs : ∀ codec ∈ createTlvFields,
      ((querySmWith (.posInt 255)).get codec.name).isSome = false := by decide
  -- the query_sm has flat fields only, so that nothing is nested in them
  have hvalues : ∀ codec value, Supplied (querySmWith (.posInt 255)) codec value →
      flat codec = true ∧ IntegerFits codec value := by
    intro codec value h
    induction h with
    | field hfield hcodec hvalue =>
        rw [hfields] at hfield
        simp only [List.mem_cons, List.not_mem_nil, or_false] at hfield
        rcases hfield with rfl | rfl | rfl | rfl <;> obtain rfl := Option.some.inj hcodec <;>
          obtain rfl := Option.some.inj hvalue
        · exact ⟨rfl, fun size n hwidth => by cases hwidth⟩
        · exact ⟨rfl, hfits 255 (by decide)⟩
        · exact ⟨rfl, hfits 0 (by decide)⟩
        · exact ⟨rfl, fun size n hwidth => by cases hwidth⟩
    | tlv hcodec hget => simpa [hget] using htlvs _ hcodec
    | item _ _ ih => cases ih.1
    | entry _ _ _ ih => cases ih.1
    | address _ _ ih => cases ih.1
  refine ⟨⟨hword 3 (by decide), ?_, fun n hn => ⟨hword 7 (by decide) n hn, rfl⟩⟩,
    fun codec value h => (hvalues codec value h).2⟩
  intro n hn
  cases hn

theorem integersKept_querySm :
    ∃ pdu, fromJson declaredTlvFields (querySmWith (.posInt 255)) = .ok pdu ∧
      IntegersKept (querySmWith (.posInt 255)) pdu := by
  have hpdu := fromJson_encoded
    (show accepted declaredTlvFields (querySmWith (.posInt 255)) = true by decide +kernel)
  exact ⟨_, hpdu, (integers_kept_iff hpdu).mpr integersFit_querySm⟩

end AllIntegers

section Prefixes

/-- The encoded items, one after another, behind a single octet that counts them. -/
def Counted (encode : Value → Outcome Bytes) (items : List Value) (octets : Bytes) : Prop :=
  ∃ count parts, octets = count :: parts.flatten ∧
    List.Forall₂ (fun item part => encode item = .ok part) items parts ∧
      count.toNat = parts.length

/-- Every count and every length of the PDU is the number of items or octets behind it. -/
structure PrefixesKept (message : Value) (pdu : SMPPMessage) : Prop where
  shortMessage : ∀ field ∈ mandatoryFields message, field.1 = "short_message" →
    ∃ length body, encodeField message field = .ok (length :: body) ∧ length :: body <:+: pdu ∧
      length.toNat = body.length
  destAddresses : ∀ field ∈ mandatoryFields message, field.1 = "dest_addresses" →
    ∃ items octets, message.get "dest_addresses" = some (.array items) ∧
      encodeField message field = .ok octets ∧ octets <:+: pdu ∧
        Counted encodeDestAddress items octets
  unsuccessSmes : ∀ field ∈ mandatoryFields message, field.1 = "unsuccess_smes" →
    ∃ items octets, message.get "unsuccess_smes" = some (.array items) ∧
      encodeField message field = .ok octets ∧ octets <:+: pdu ∧
        Counted unsuccessSmeCodec.encode items octets
  tlv : ∀ codec ∈ createTlvFields, ∀ value, message.get codec.name = some value →
    ∃ length body, encodeTlvField message codec = .ok (writeU16 codec.tag ++ length ++ body) ∧
      writeU16 codec.tag ++ length ++ body <:+: pdu ∧ length.length = 2 ∧
        beNat length = body.length

/-- The text, the addresses and the octets of TLVs are not more than their prefixes can say. -/
structure PrefixesFit (message : Value) : Prop where
  shortMessage : ∀ field ∈ mandatoryFields message, field.1 = "short_message" →
    ∀ s, message.get "short_message" = some (.string s) → (octetsOf s).length ≤ 255
  destAddresses : ∀ field ∈ mandatoryFields message, field.1 = "dest_addresses" →
    ∀ items, message.get "dest_addresses" = some (.array items) → items.length ≤ 255
  tlv : ∀ codec ∈ createTlvFields, codec.valueCodec = .octet false 1 →
    ∀ s, message.get codec.name = some (.string s) → (octetsOf s).length ≤ 65535

theorem default_of_prefixed (layout : Layout namedTlvFields message pdu) {field : CommandField}
    (hfield : field ∈ mandatoryFields message)
    (hname : field.1 ∈ ["short_message", "dest_addresses", "unsuccess_smes"]) :
    field.2 = none := by
  have htable : ∀ entry ∈ createCommandFields, ∀ field ∈ entry.2,
      field.1 ∈ ["short_message", "dest_addresses", "unsuccess_smes"] →
        field.2.isNone = true := by decide
  obtain ⟨entry, hentry, heq⟩ := mem_createCommandFields layout.table
  exact Option.isNone_iff_eq_none.mp (htable entry hentry field (heq ▸ hfield) hname)

theorem exists_prefixed (layout : Layout namedTlvFields message pdu) {field : CommandField}
    (hfield : field ∈ mandatoryFields message)
    (hname : field.1 ∈ ["short_message", "dest_addresses", "unsuccess_smes"])
    {codec : FieldCodec} (hcodec : fieldCodecs field.1 = some codec) :
    ∃ value part, message.get field.1 = some value ∧ codec.encode value = .ok part ∧
      encodeField message field = .ok part ∧ part <:+: pdu := by
  obtain ⟨codec', value, part, hcodec', hvalue, hpart, hinfix⟩ := layout.exists_field hfield
  obtain rfl := Option.some.inj (hcodec.symm.trans hcodec')
  rw [default_of_prefixed layout hfield hname, Option.or_none] at hvalue
  refine ⟨value, part, hvalue, hpart, ?_, hinfix⟩
  simp only [encodeField, hcodec, hvalue, Option.some_or]
  rw [hpart]
  rfl

theorem toNat_ofNat_iff (n : Nat) : (UInt8.ofNat n).toNat = n ↔ n ≤ 255 := by
  rw [UInt8.toNat_ofNat']
  omega

theorem counted_iff {encode : Value → Outcome Bytes} {items : List Value} {parts : List Bytes}
    (hparts : List.Forall₂ (fun item part => encode item = .ok part) items parts) :
    Counted encode items (UInt8.ofNat items.length :: parts.flatten) ↔ items.length ≤ 255 := by
  rw [← toNat_ofNat_iff]
  constructor
  · rintro ⟨count, parts', hoctets, hparts', hcount⟩
    obtain ⟨rfl, -⟩ := List.cons.inj hoctets
    rw [hcount, hparts'.length_eq]
  · intro h
    exact ⟨_, parts, rfl, hparts, h.trans hparts.length_eq⟩

/-- The codecs of TLVs that never write more than a length of two octets can say. -/
def short : FieldCodec → Bool
  | .u8 | .optionalU8 _ | .u16 | .u32 | .varLengthInt => true
  | .cOctetStr maxLength => maxLength < 65535
  | _ => false

theorem octet_or_short {codec : TLVFieldCodec} (h : codec ∈ createTlvFields) :
    codec.valueCodec = .octet false 1 ∨ short codec.valueCodec = true := by
  revert codec
  simp [createTlvFields, short]

theorem length_varLengthOctets_le (rounds : Nat) (temp : UInt64) :
    (varLengthOctets rounds temp).length ≤ rounds := by
  induction rounds generalizing temp with
  | zero => exact Nat.le_refl 0
  | succ rounds ih =>
      rw [varLengthOctets]
      split
      · exact Nat.zero_le _
      · exact Nat.succ_le_succ (ih _)

theorem length_le_of_short {codec : FieldCodec} (hshort : short codec = true) {value : Value}
    {octets : Bytes} (h : codec.encode value = .ok octets) : octets.length ≤ 65535 := by
  cases codec with
  | varLengthInt =>
      rw [FieldCodec.encode] at h
      split at h
      · rename_i n _
        obtain rfl := Outcome.ok.inj h
        exact Nat.le_trans (length_varLengthOctets_le 8 n) (by decide)
      · cases h
  | cOctetStr maxLength =>
      cases value with
      | string s =>
          rw [FieldCodec.encode] at h
          obtain ⟨t, ht, h⟩ := Outcome.bind_eq_ok_iff.mp h
          obtain rfl := Outcome.ok.inj h
          have hcut := List.length_take_le maxLength (bytes s)
          have hmax : maxLength < 65535 := by simpa [short] using hshort
          rw [writeCOctetStr, truncate_ok ht, List.length_append, List.length_singleton]
          omega
      | _ => cases h
  | u8 | optionalU8 _ | u16 | u32 =>
      rw [FieldCodec.encode] at h
      split at h <;> cases h <;> simp [writeU8, writeU16, writeU32]
  | _ => simp [short] at hshort

theorem beNat_writeU16_iff (n : Nat) : beNat (writeU16 (UInt16.ofNat n)) = n ↔ n ≤ 65535 := by
  have hsize : 2 ^ 16 = 256 ^ 2 := rfl
  rw [writeU16, UInt16.toNat_ofNat', hsize, beBytes_mod, beNat_beBytes]
  omega

theorem length_tlv_iff {codec : TLVFieldCodec} (hcodec : codec ∈ createTlvFields) {value : Value}
    {part : Bytes} (hpart : codec.valueCodec.encode value = .ok part) :
    part.length ≤ 65535 ↔ (codec.valueCodec = .octet false 1 → ∀ s, value = .string s →
      (octetsOf s).length ≤ 65535) := by
  constructor
  · rintro hfits hoctet s rfl
    rw [hoctet] at hpart
    obtain rfl := Outcome.ok.inj hpart
    exact hfits
  · intro hfits
    rcases octet_or_short hcodec with hoctet | hshort
    · rw [hoctet] at hpart
      cases value with
      | string s =>
          obtain rfl := Outcome.ok.inj hpart
          exact hfits hoctet s rfl
      | _ => cases hpart
    · exact length_le_of_short hshort hpart

theorem tlv_prefix_iff (layout : Layout namedTlvFields message pdu) {codec : TLVFieldCodec}
    (hcodec : codec ∈ createTlvFields) {value : Value}
    (hget : message.get codec.name = some value) :
    (∃ length body, encodeTlvField message codec = .ok (writeU16 codec.tag ++ length ++ body) ∧
        writeU16 codec.tag ++ length ++ body <:+: pdu ∧ length.length = 2 ∧
          beNat length = body.length) ↔
      (codec.valueCodec = .octet false 1 → ∀ s, value = .string s →
        (octetsOf s).length ≤ 65535) := by
  obtain ⟨part, hpart, hinfix⟩ := layout.exists_tlv hcodec hget
  have hencoded : encodeTlvField message codec =
      .ok (writeU16 codec.tag ++ writeU16 (UInt16.ofNat part.length) ++ part) := by
    simp only [encodeTlvField, hget, TLVFieldCodec.encode, hpart]
    rfl
  have hlength : (writeU16 (UInt16.ofNat part.length)).length = 2 := length_beBytes 2 _
  rw [← length_tlv_iff hcodec hpart, ← beNat_writeU16_iff]
  constructor
  · rintro ⟨length, body, hsame, -, htwo, hcount⟩
    rw [hencoded, Outcome.ok.injEq, List.append_assoc, List.append_assoc,
      List.append_cancel_left_eq] at hsame
    obtain ⟨rfl, rfl⟩ := List.append_inj hsame (hlength.trans htwo.symm)
    exact hcount
  · intro hcount
    exact ⟨_, part, hencoded, hinfix, hlength, hcount⟩

theorem shortMessage_prefix_iff (layout : Layout namedTlvFields message pdu)
    {field : CommandField} (hfield : field ∈ mandatoryFields message)
    (hname : field.1 = "short_message") :
    (∃ length body, encodeField message field = .ok (length :: body) ∧
        length :: body <:+: pdu ∧ length.toNat = body.length) ↔
      ∀ s, message.get "short_message" = some (.string s) → (octetsOf s).length ≤ 255 := by
  have hcodec : fieldCodecs field.1 = some (.octet true 1) := by rw [hname]; rfl
  obtain ⟨value, part, hget, hpart, hencoded, hinfix⟩ :=
    exists_prefixed layout hfield (by simp [hname]) hcodec
  rw [hname] at hget
  cases value with
  | string s =>
      obtain rfl := Outcome.ok.inj hpart
      simp only [hget, Option.some.injEq, Value.string.injEq, forall_eq', ← toNat_ofNat_iff]
      constructor
      · rintro ⟨length, body, hsame, -, hlength⟩
        obtain ⟨rfl, rfl⟩ := List.cons.inj (Outcome.ok.inj (hencoded.symm.trans hsame))
        exact hlength
      · intro hlength
        exact ⟨_, _, hencoded, hinfix, hlength⟩
  | _ => cases hpart

theorem destAddresses_prefix_iff (layout : Layout namedTlvFields message pdu)
    {field : CommandField} (hfield : field ∈ mandatoryFields message)
    (hname : field.1 = "dest_addresses") :
    (∃ items octets, message.get "dest_addresses" = some (.array items) ∧
        encodeField message field = .ok octets ∧ octets <:+: pdu ∧
          Counted encodeDestAddress items octets) ↔
      ∀ items, message.get "dest_addresses" = some (.array items) → items.length ≤ 255 := by
  have hcodec : fieldCodecs field.1 = some .destAddresses := by rw [hname]; rfl
  obtain ⟨value, part, hget, hpart, hencoded, hinfix⟩ :=
    exists_prefixed layout hfield (by simp [hname]) hcodec
  rw [hname] at hget
  cases value with
  | array items =>
      simp only [FieldCodec.encode, Value.asArray] at hpart
      obtain ⟨octets, hoctets, hpart⟩ := Outcome.bind_eq_ok_iff.mp hpart
      obtain rfl := Outcome.ok.inj hpart
      obtain ⟨parts, hparts, rfl⟩ := encodeAll_eq_ok hoctets
      simp only [hget, Option.some.injEq, Value.array.injEq, forall_eq', ← counted_iff hparts]
      constructor
      · rintro ⟨items', octets, rfl, hsame, -, hcounted⟩
        obtain rfl := Outcome.ok.inj (hencoded.symm.trans hsame)
        exact hcounted
      · intro hcounted
        exact ⟨items, _, rfl, hencoded, hinfix, hcounted⟩
  | _ => cases hpart

/-- The codec of arrays refuses more items than it can count. -/
theorem unsuccessSmes_prefix (layout : Layout namedTlvFields message pdu)
    {field : CommandField} (hfield : field ∈ mandatoryFields message)
    (hname : field.1 = "unsuccess_smes") :
    ∃ items octets, message.get "unsuccess_smes" = some (.array items) ∧
      encodeField message field = .ok octets ∧ octets <:+: pdu ∧
        Counted unsuccessSmeCodec.encode items octets := by
  have hcodec : fieldCodecs field.1 = some (.array unsuccessSmeCodec) := by rw [hname]; rfl
  obtain ⟨value, part, hget, hpart, hencoded, hinfix⟩ :=
    exists_prefixed layout hfield (by simp [hname]) hcodec
  rw [hname] at hget
  cases value with
  | array items =>
      simp only [FieldCodec.encode, Value.asArray] at hpart
      split at hpart
      · cases hpart
      · rename_i hle
        obtain ⟨octets, hoctets, hpart⟩ := Outcome.bind_eq_ok_iff.mp hpart
        obtain rfl := Outcome.ok.inj hpart
        obtain ⟨parts, hparts, rfl⟩ := encodeAll_eq_ok hoctets
        exact ⟨items, _, hget, hencoded, hinfix,
          (counted_iff hparts).mpr (Nat.not_lt.mp hle)⟩
  | _ => cases hpart

/-- The prefixes of an accepted message are right exactly when what is counted fits them. -/
theorem prefixes_kept_iff (h : fromJson namedTlvFields message = .ok pdu) :
    PrefixesKept message pdu ↔ PrefixesFit message := by
  obtain ⟨layout⟩ := exists_layout h
  constructor
  · rintro ⟨htext, haddresses, -, htlv⟩
    refine ⟨?_, ?_, ?_⟩
    · intro field hfield hname
      exact (shortMessage_prefix_iff layout hfield hname).mp (htext field hfield hname)
    · intro field hfield hname
      exact (destAddresses_prefix_iff layout hfield hname).mp (haddresses field hfield hname)
    · intro codec hcodec hoctet s hget
      exact (tlv_prefix_iff layout hcodec hget).mp (htlv codec hcodec _ hget) hoctet s rfl
  · rintro ⟨htext, haddresses, htlv⟩
    refine ⟨?_, ?_, ?_, ?_⟩
    · intro field hfield hname
      exact (shortMessage_prefix_iff layout hfield hname).mpr (htext field hfield hname)
    · intro field hfield hname
      exact (destAddresses_prefix_iff layout hfield hname).mpr (haddresses field hfield hname)
    · intro field hfield hname
      exact unsuccessSmes_prefix layout hfield hname
    · intro codec hcodec value hget
      apply (tlv_prefix_iff layout hcodec hget).mpr
      rintro hoctet s rfl
      exact htlv codec hcodec hoctet s hget

/-- A replace_sm for the message `m` with a text of so many asterisks. -/
def replaceSmWith (length : Nat) : Value :=
  .object [("command_id", .ofNat 7), ("message_id", .string "m"),
    ("short_message", .string (String.ofList (List.replicate length '*')))]

theorem mandatoryFields_replaceSm (length : Nat) :
    mandatoryFields (replaceSmWith length) = [("message_id", none),
      ("source_addr_ton", some (.ofNat 0)), ("source_addr_npi", some (.ofNat 0)),
      ("source_addr", some (.string "")), ("schedule_delivery_time", some (.string "")),
      ("validity_period", some (.string "")), ("registered_delivery", some (.ofNat 0)),
      ("sm_default_msg_id", some (.ofNat 0)), ("short_message", none)] := rfl

/-- A text of 256 octets is accepted and written with the length 0. -/
theorem not_prefixesKept_replaceSm :
    ∃ pdu, fromJson declaredTlvFields (replaceSmWith 256) = .ok pdu ∧
      ¬ PrefixesKept (replaceSmWith 256) pdu := by
  have hpdu := fromJson_encoded
    (show accepted declaredTlvFields (replaceSmWith 256) = true by decide +kernel)
  obtain ⟨layout⟩ := exists_layout hpdu
  have hfield : ("short_message", none) ∈ mandatoryFields (replaceSmWith 256) := by
    simp [mandatoryFields_replaceSm]
  have hlength : (octetsOf (String.ofList (List.replicate 256 '*'))).length = 256 := by
    decide +kernel
  refine ⟨_, hpdu, fun hkept => ?_⟩
  have hfits := (shortMessage_prefix_iff layout hfield rfl).mp
    (hkept.shortMessage _ hfield rfl) _ rfl
  omega

theorem prefixesKept_replaceSm :
    ∃ pdu, fromJson declaredTlvFields (replaceSmWith 5) = .ok pdu ∧
      PrefixesKept (replaceSmWith 5) pdu := by
  have hpdu := fromJson_encoded
    (show accepted declaredTlvFields (replaceSmWith 5) = true by decide +kernel)
  have hlength : (octetsOf (String.ofList (List.replicate 5 '*'))).length = 5 := by
    decide +kernel
  have hnames : ∀ field ∈ mandatoryFields (replaceSmWith 5), field.1 ≠ "dest_addresses" := by
    rw [mandatoryFields_replaceSm]
    decide
  have htlvs : ∀ codec ∈ createTlvFields,
      ((replaceSmWith 5).get codec.name).isSome = false := by decide
  refine ⟨_, hpdu, (prefixes_kept_iff hpdu).mpr ⟨?_, ?_, ?_⟩⟩
  · rintro field - - s hs
    obtain rfl := Value.string.inj (Option.some.inj hs)
    omega
  · intro field hfield hname
    exact absurd hname (hnames field hfield)
  · intro codec hcodec _ s hget
    simpa [hget] using htlvs codec hcodec

end Prefixes

end SmppHerald.Narrowing
