import Mathlib.Data.List.Nodup
import SmppHerald.Message

/-!
The format of a field on the wire, stated without reference to how it is encoded or decoded, and
that the codecs agree with it in both directions.
-/

namespace SmppHerald.WireFormat

open SmppHerald.Buffer
open SmppHerald.ByteParser
open SmppHerald.FieldCodecs
open SmppHerald.Io
open SmppHerald.Json
open SmppHerald.Utf8

/-- The codecs whose fields end where their own octets say, so that another field may follow. -/
def selfDelimiting : FieldCodec → Bool
  | .varLengthInt => false
  | .octet lengthIndicator _ => lengthIndicator
  | _ => true

/-- An address of `dest_addresses` and its octets. -/
inductive RepresentsAddress : Value → Bytes → Prop
  | sme (ton npi : UInt8) (addr : String) : (0 : UInt8) ∉ bytes addr →
      RepresentsAddress
        (.object [("dest_addr_npi", .ofNat npi.toNat), ("dest_addr_ton", .ofNat ton.toNat),
          ("destination_addr", .string addr)])
        (1 :: ton :: npi :: writeCOctetStr addr)
  | distributionList (dlName : String) : (0 : UInt8) ∉ bytes dlName →
      RepresentsAddress (.object [("dl_name", .string dlName)]) (2 :: writeCOctetStr dlName)

/-- A value in the range of a codec and the octets that represent it. Nothing is in the range of
`VarLengthIntFieldCodec`, which writes its octets in one order and reads them in the other. -/
inductive Represents : FieldCodec → Value → Bytes → Prop
  | u8 (n : UInt8) : Represents .u8 (.ofNat n.toNat) [n]
  | optionalU8 (defaultValue n : UInt8) :
      Represents (.optionalU8 defaultValue) (.ofNat n.toNat) [n]
  | u16 (n : UInt16) : Represents .u16 (.ofNat n.toNat) (beBytes 2 n.toNat)
  | u32 (n : UInt32) : Represents .u32 (.ofNat n.toNat) (beBytes 4 n.toNat)
  | cOctetStr {maxLength : Nat} {s : String} : (0 : UInt8) ∉ bytes s →
      (bytes s).length ≤ maxLength →
      Represents (.cOctetStr maxLength) (.string s) (bytes s ++ [0])
  | octets (lengthBytes : Nat) {octets : Bytes} : octets ≠ [] →
      Represents (.octet false lengthBytes) (.string (Base64.encode octets)) octets
  | counted {octets : Bytes} : octets ≠ [] → octets.length < 256 →
      Represents (.octet true 1) (.string (Base64.encode octets))
        (UInt8.ofNat octets.length :: octets)
  | array {itemCodec : FieldCodec} {items : List (Value × Bytes)} :
      selfDelimiting itemCodec = true → items.length < 256 →
      (∀ item ∈ items, Represents itemCodec item.1 item.2) →
      Represents (.array itemCodec) (.array (items.map Prod.fst))
        (UInt8.ofNat items.length :: (items.map Prod.snd).flatten)
  | composite {parts : List ((String × FieldCodec) × Value × Bytes)} :
      (parts.map fun part => part.1.1).Nodup →
      (∀ part ∈ parts, selfDelimiting part.1.2 = true) →
      (∀ part ∈ parts, Represents part.1.2 part.2.1 part.2.2) →
      Represents (.composite (parts.map Prod.fst))
        (.object (insertAll (parts.map fun part => (part.1.1, part.2.1)) []))
        (parts.map fun part => part.2.2).flatten
  | destAddress {value : Value} {octets : Bytes} : RepresentsAddress value octets →
      Represents .destAddress value octets
  | destAddresses {items : List (Value × Bytes)} : items.length < 256 →
      (∀ item ∈ items, RepresentsAddress item.1 item.2) →
      Represents .destAddresses (.array (items.map Prod.fst))
        (UInt8.ofNat items.length :: (items.map Prod.snd).flatten)

section Encoding

theorem encodeAll_map {α β : Type} {encode : α → Outcome Bytes} (value : β → α)
    (octets : β → Bytes) (items : List β)
    (h : ∀ item ∈ items, encode (value item) = .ok (octets item)) :
    encodeAll encode (items.map value) = .ok (items.map octets).flatten := by
  induction items with
  | nil => rfl
  | cons item items ih =>
      rw [List.map_cons, encodeAll, h item (by simp),
        ih fun item hitem => h item (List.mem_cons_of_mem _ hitem)]
      rfl

theorem RepresentsAddress.encode {value : Value} {octets : Bytes}
    (h : RepresentsAddress value octets) : encodeDestAddress value = .ok octets := by
  cases h with
  | sme ton npi addr _ =>
      simp [encodeDestAddress, List.lookup_cons, Value.asU64, Value.asStr, Value.ofNat, Number.asU64,
        writeU8]
  | distributionList dlName _ =>
      simp [encodeDestAddress, List.lookup_cons, Value.asStr, writeU8]

theorem get_object_of_nodup {entries : Map} (hnodup : (entries.map Prod.fst).Nodup)
    {name : String} {value : Value} (hmem : (name, value) ∈ entries) :
    (Value.object (insertAll entries [])).get name = some value := by
  refine lookup_insertAll_of_agree ?_ ⟨_, hmem, rfl⟩
  rintro entry hentry hname
  rw [List.inj_on_of_nodup_map hnodup hentry hmem hname]

theorem encodeFields_eq (value : Value) (parts : List ((String × FieldCodec) × Value × Bytes))
    (hget : ∀ part ∈ parts, value.get part.1.1 = some part.2.1)
    (hencode : ∀ part ∈ parts, part.1.2.encode part.2.1 = .ok part.2.2) :
    encodeFields (parts.map Prod.fst) value = .ok (parts.map fun part => part.2.2).flatten := by
  induction parts with
  | nil => simp [encodeFields]
  | cons part parts ih =>
      obtain ⟨⟨name, codec⟩, fieldValue, octets⟩ := part
      have hrest := ih (fun part hpart => hget part (List.mem_cons_of_mem _ hpart))
        fun part hpart => hencode part (List.mem_cons_of_mem _ hpart)
      have hgetFirst := hget _ List.mem_cons_self
      have hencodeFirst := hencode _ List.mem_cons_self
      simp only at hgetFirst hencodeFirst
      simp only [List.map_cons, encodeFields, hgetFirst, hencodeFirst, hrest]
      rfl

theorem Represents.encode {codec : FieldCodec} {value : Value} {octets : Bytes}
    (h : Represents codec value octets) : codec.encode value = .ok octets := by
  induction h with
  | u8 n => simp [FieldCodec.encode, Value.asU64, Value.ofNat, Number.asU64, writeU8]
  | optionalU8 defaultValue n =>
      by_cases hdefault : n = defaultValue
      · simp [FieldCodec.encode, Value.asU64, Value.ofNat, Number.asU64, writeU8, hdefault]
      · have hne : n.toUInt64 ≠ defaultValue.toUInt64 := by
          rwa [ne_eq, UInt8.toUInt64_inj]
        simp [FieldCodec.encode, Value.asU64, Value.ofNat, Number.asU64, writeU8, hne]
  | u16 n => simp [FieldCodec.encode, Value.asU64, Value.ofNat, Number.asU64, writeU16]
  | u32 n => simp [FieldCodec.encode, Value.asU64, Value.ofNat, Number.asU64, writeU32]
  | cOctetStr _ hlen =>
      rw [FieldCodec.encode, encodeCOctetStr, truncate, if_neg (by omega)]
      rfl
  | octets _ hne => simp [FieldCodec.encode, encodeOctet, octetsOf, Base64.decode_encode]
  | counted hne hlen =>
      simp [FieldCodec.encode, encodeOctet, octetsOf, Base64.decode_encode, writeLength, writeU8]
  | @array itemCodec items _ hlen _ ih =>
      have hall := encodeAll_map Prod.fst Prod.snd items ih
      simp only [FieldCodec.encode, Value.asArray, List.length_map]
      rw [if_neg (by omega), hall]
      rfl
  | @composite parts hnodup _ _ ih =>
      rw [FieldCodec.encode]
      refine encodeFields_eq _ parts ?_ ih
      intro part hpart
      refine get_object_of_nodup ?_ (List.mem_map.mpr ⟨part, hpart, rfl⟩)
      rw [List.map_map]
      exact hnodup
  | destAddress haddress => rw [FieldCodec.encode, haddress.encode]
  | @destAddresses items hlen haddress =>
      have hall : encodeAll encodeDestAddress (items.map Prod.fst) = _ :=
        encodeAll_map Prod.fst Prod.snd items fun item hitem => (haddress item hitem).encode
      simp only [FieldCodec.encode, Value.asArray, List.length_map]
      rw [hall]
      rfl

end Encoding

section Decoding

theorem insertAll_address (ton npi addr : Value) :
    insertAll [("dest_addr_ton", ton), ("dest_addr_npi", npi), ("destination_addr", addr)] [] =
      [("dest_addr_npi", npi), ("dest_addr_ton", ton), ("destination_addr", addr)] := by
  simp [insertAll, Json.insert, show "dest_addr_npi" < "dest_addr_ton" by decide,
    show ¬ "destination_addr" < "dest_addr_npi" by decide,
    show ¬ "destination_addr" < "dest_addr_ton" by decide]

theorem RepresentsAddress.decode {value : Value} {octets : Bytes}
    (h : RepresentsAddress value octets) : Consumes decodeDestAddress octets value := by
  unfold decodeDestAddress
  cases h with
  | sme ton npi addr hnul =>
      change Consumes _ (writeU8 1 ++ (writeU8 ton ++ (writeU8 npi ++ writeCOctetStr addr))) _
      refine ((consumes_readU8 1).mapError _).bind ?_
      rw [if_pos rfl]
      refine ((consumes_readU8 ton).mapError _).bind ?_
      refine ((consumes_readU8 npi).mapError _).bind ?_
      rw [← insertAll_address]
      exact ((consumes_readCOctetStr hnul).mapError _).bind_pure fun addr =>
        Value.object (insertAll [("dest_addr_ton", .ofNat ton.toNat),
          ("dest_addr_npi", .ofNat npi.toNat), ("destination_addr", .string addr)] [])
  | distributionList dlName hnul =>
      change Consumes _ (writeU8 2 ++ writeCOctetStr dlName) _
      refine ((consumes_readU8 2).mapError _).bind ?_
      rw [if_neg (by decide), if_pos rfl]
      exact ((consumes_readCOctetStr hnul).mapError _).bind_pure fun dlName =>
        Value.object (insertAll [("dl_name", .string dlName)] [])

theorem consumes_decodeFields (parts : List ((String × FieldCodec) × Value × Bytes))
    (h : ∀ part ∈ parts, Consumes part.1.2.decode part.2.2 part.2.1) :
    Consumes (decodeFields (parts.map Prod.fst)) (parts.map fun part => part.2.2).flatten
      (parts.map fun part => (part.1.1, part.2.1)) := by
  induction parts with
  | nil =>
      rw [List.map_nil, decodeFields]
      exact consumes_pure []
  | cons part parts ih =>
      have hfirst := h part List.mem_cons_self
      have hrest := ih fun part hpart => h part (List.mem_cons_of_mem _ hpart)
      rw [List.map_cons, decodeFields]
      exact (hfirst.mapError _).bind (hrest.bind_pure _)

theorem consumes_items {decode : Parser IoError Value} (items : List (Value × Bytes))
    (h : ∀ item ∈ items, Consumes decode item.2 item.1) :
    Consumes (Parser.times items.length decode) (items.map Prod.snd).flatten
      (items.map Prod.fst) := by
  have hall : List.Forall₂ (Consumes decode) (items.map Prod.snd) (items.map Prod.fst) := by
    rw [List.forall₂_map_left_iff, List.forall₂_map_right_iff, List.forall₂_same]
    exact h
  simpa using consumes_times hall

theorem toNat_ofNat_length {n : Nat} (h : n < 256) : (UInt8.ofNat n).toNat = n :=
  UInt8.toNat_ofNat_of_lt' h

/-- The decoder reads a value back from the octets that represent it, whatever follows them. -/
theorem Represents.decode {codec : FieldCodec} {value : Value} {octets : Bytes}
    (h : Represents codec value octets) (hself : selfDelimiting codec = true) :
    Consumes codec.decode octets value := by
  induction h with
  | u8 n =>
      rw [FieldCodec.decode]
      exact ((consumes_readU8 n).mapError _).bind_pure fun n => Value.ofNat n.toNat
  | optionalU8 defaultValue n =>
      intro rest
      simp only [FieldCodec.decode]
      rw [show [n] ++ rest = writeU8 n ++ rest from rfl, consumes_readU8 n rest]
  | u16 n =>
      rw [FieldCodec.decode]
      exact ((consumes_readU16 n).mapError _).bind_pure fun n => Value.ofNat n.toNat
  | u32 n =>
      rw [FieldCodec.decode]
      exact ((consumes_readU32 n).mapError _).bind_pure fun n => Value.ofNat n.toNat
  | cOctetStr hnul _ =>
      rw [FieldCodec.decode]
      exact ((consumes_readCOctetStr hnul).mapError _).bind_pure Value.string
  | octets => simp [selfDelimiting] at hself
  | @counted octets hne hlen =>
      have hlength : Consumes (readLength 1) [UInt8.ofNat octets.length] octets.length := by
        have h := (consumes_readU8 (UInt8.ofNat octets.length)).bind_pure UInt8.toNat
        rw [toNat_ofNat_length hlen] at h
        exact h
      rw [FieldCodec.decode, decodeOctet]
      exact ((hlength.bind (consumes_read hne)).bind_pure fun octets =>
        Value.string (Base64.encode octets)).mapError _
  | @array itemCodec items hitem hlen _ ih =>
      rw [FieldCodec.decode]
      refine Consumes.bind ((consumes_readU8 (UInt8.ofNat items.length)).mapError _) ?_
      rw [toNat_ofNat_length hlen]
      exact (consumes_items items fun item hmem => ih item hmem hitem).bind_pure Value.array
  | @composite parts _ hfields _ ih =>
      rw [FieldCodec.decode]
      exact (consumes_decodeFields parts fun part hpart =>
        ih part hpart (hfields part hpart)).bind_pure fun entries =>
          Value.object (insertAll entries [])
  | destAddress haddress =>
      rw [FieldCodec.decode]
      exact haddress.decode
  | @destAddresses items hlen haddress =>
      rw [FieldCodec.decode]
      refine Consumes.bind ((consumes_readU8 (UInt8.ofNat items.length)).mapError _) ?_
      rw [toNat_ofNat_length hlen]
      exact ((consumes_items items fun item hmem =>
        (haddress item hmem).decode).mapError _).bind_pure Value.array

theorem Represents.decode_whole {codec : FieldCodec} {value : Value} {octets : Bytes}
    (h : Represents codec value octets) : (codec.decode octets).1 = .ok value := by
  cases hself : selfDelimiting codec with
  | true => rw [(h.decode hself).exact]
  | false =>
      cases h with
      | octets lengthBytes hne =>
          simp only [FieldCodec.decode, decodeOctet, readOctets, Bool.false_eq_true, if_false]
          rw [Parser.mapError, Parser.bind_apply, readRemaining_apply hne]
          rfl
      | _ => simp [selfDelimiting] at hself

end Decoding

end SmppHerald.WireFormat
