import SmppHerald.Delimiting
import SmppHerald.Library.CursorProgram

/-!
`to_json` and the codecs it calls as programs on the buffer, with the operations of the buffer that
can panic and the loops as they stand: they end on every buffer, as `Message.toJson` says.
-/

namespace SmppHerald.DecodeRuns

open SmppHerald.Buffer
open SmppHerald.ByteParser
open SmppHerald.CursorProgram
open SmppHerald.CursorProgram.Reading
open SmppHerald.Delimiting
open SmppHerald.FieldCodecs
open SmppHerald.Io
open SmppHerald.Json
open SmppHerald.Message
open SmppHerald.Utf8

section Primitives

/-- `SMPPMessage::read`; `copy_to_bytes` panics as `split_to` does. -/
def read (length : Nat) : Reading (Except Unit Bytes) := do
  let buffer ← contents
  if 0 < length ∧ length ≤ buffer.length then return .ok (← splitTo length)
  else return .error ()

def readRemaining : Reading (Except Unit Bytes) := do
  let buffer ← contents
  read buffer.length

def peekTlvTag : Reading (Option UInt16) := do
  let buffer ← contents
  if 2 ≤ buffer.length then
    let tag ← slice buffer 2
    return some (UInt16.ofNat (beNat tag))
  else return none

/-- The octets are taken off with the terminator, which is popped then. -/
def readCOctetStr : Reading (Except Unit String) := do
  let buffer ← contents
  match buffer.findIdx? (· == 0) with
  | some pos =>
      let r ← splitTo (pos + 1)
      return .ok (fromUtf8Lossy r.dropLast)
  | none => return .error ()

def readTlv : Reading (Except Unit (UInt16 × Bytes)) :=
  attempt (lift readU16) id fun tag =>
    attempt (lift readU16) id fun length =>
      attempt (read length.toNat) id fun valueBytes => return .ok (tag, valueBytes)

end Primitives

section Codecs

/-- `U8FieldCodec` and `OptionalU8FieldCodec`, which differ where there is no octet. -/
def decodeU8 (otherwise : Except IoError Value) : Reading (Except IoError Value) := do
  let buffer ← contents
  if 1 ≤ buffer.length then
    let r ← splitTo 1
    let n ← index r 0
    return .ok (.ofNat n.toNat)
  else return otherwise

/-- The body of the loop of `VarLengthIntFieldCodec`. -/
def varLengthRound (result : UInt64) : Reading (UInt64 ⊕ UInt64) := do
  match ← lift readU8 with
  | .ok byte => return .inl (result <<< 8 ||| byte.toUInt64)
  | .error _ => return .inr result

def decodeVarLengthInt : Reading (Except IoError Value) := do
  let result ← loop varLengthRound 0
  return .ok (.number (.posInt result))

def readOctets (lengthIndicator : Bool) (lengthBytes : Nat) : Reading (Except Unit Bytes) :=
  if lengthIndicator then attempt (lift (readLength lengthBytes)) id read
  else readRemaining

def decodeOctet (lengthIndicator : Bool) (lengthBytes : Nat) : Reading (Except IoError Value) :=
  attempt (readOctets lengthIndicator lengthBytes)
    (fun _ => invalidInput "Failed to decode OctetField") fun octets =>
      return .ok (.string (Base64.encode octets))

def decodeDestAddress : Reading (Except IoError Value) :=
  let failed := fun (_ : Unit) => invalidInput "Failed to decode dest_addr from buffer"
  attempt (lift readU8) failed fun destFlag =>
    if destFlag = 1 then
      attempt (lift readU8) failed fun ton =>
        attempt (lift readU8) failed fun npi =>
          attempt readCOctetStr failed fun addr =>
            return .ok (.object (insertAll [("dest_addr_ton", .ofNat ton.toNat),
              ("dest_addr_npi", .ofNat npi.toNat), ("destination_addr", .string addr)] []))
    else if destFlag = 2 then
      attempt readCOctetStr failed fun addr =>
        return .ok (.object (insertAll [("dl_name", .string addr)] []))
    else return .error (invalidInput ("Unknown dest_flag value: " ++ toString destFlag.toNat))

mutual

/-- The methods `decode`. -/
def decode : FieldCodec → Reading (Except IoError Value)
  | .u8 => decodeU8 (.error (invalidInput "Failed to read u8 from buffer"))
  | .optionalU8 defaultValue => decodeU8 (.ok (.ofNat defaultValue.toNat))
  | .varLengthInt => decodeVarLengthInt
  | .cOctetStr _ =>
      attempt readCOctetStr (fun _ => invalidInput "Failed to read c_octet_str from buffer") fun s =>
        return .ok (.string s)
  | .octet lengthIndicator lengthBytes => decodeOctet lengthIndicator lengthBytes
  | .u16 =>
      attempt (lift readU16) (fun _ => invalidInput "Failed to read u16 from buffer") fun n =>
        return .ok (.ofNat n.toNat)
  | .u32 =>
      attempt (lift readU32) (fun _ => invalidInput "Failed to read u32 from buffer") fun n =>
        return .ok (.ofNat n.toNat)
  | .array itemCodec =>
      attempt (lift readU8) (fun _ => invalidInput "Failed to read array length from buffer")
        fun length => attempt (times length.toNat (decode itemCodec)) id fun items =>
          return .ok (.array items)
  | .composite fields => attempt (decodeFields fields []) id fun map => return .ok (.object map)
  | .destAddress => decodeDestAddress
  | .destAddresses =>
      attempt (lift readU8) (fun _ => invalidInput "Failed to decode dest_addresses") fun numDests =>
        attempt (times numDests.toNat decodeDestAddress)
          (fun _ => invalidInput "Failed to decode one of the dest_addresses") fun dests =>
            return .ok (.array dests)

def decodeFields : List (String × FieldCodec) → Map → Reading (Except IoError Map)
  | [], map => return .ok map
  | (name, codec) :: fields, map =>
      attempt (decode codec) (fun _ => invalidInput ("Failed to decode field '" ++ name ++ "'"))
        fun value => decodeFields fields (insert name value map)

end

def decodeTlv (codec : TLVFieldCodec) : Reading (Except IoError Value) :=
  attempt readTlv (fun _ => invalidInput "Failed to read TLV from buffer") fun tlv =>
    if tlv.1 = codec.tag then within tlv.2 (decode codec.valueCodec)
    else return .error (invalidInput ("Expected TLV tag " ++ upperHex 4 codec.tag.toNat ++
      " but found " ++ upperHex 4 tlv.1.toNat))

end Codecs

section ToJson

def decodeMandatory : List CommandField → Map → Reading (Except IoError Map)
  | [], map => return .ok map
  | field :: fields, map =>
      match fieldCodecs field.1 with
      | some codec =>
          attempt (decode codec) (fun _ => invalidInput ("Failed to decode field: " ++ field.1))
            fun value => decodeMandatory fields (insert field.1 value map)
      | none => return .error (invalidInput ("Unknown field: " ++ field.1))

/-- The body of the TLV loop. -/
def tlvRound (map : Map) : Reading (Map ⊕ Except IoError Value) := do
  match ← peekTlvTag with
  | some tag =>
      match taggedTlvFields tag with
      | some tlvCodec =>
          let value ← decodeTlv tlvCodec
          return .inl (insert tlvCodec.name (value.toOption.getD .null) map)
      | none =>
          return .inr (.error (invalidInput ("Unknown TLV tag: 0x" ++ upperHex 4 tag.toNat)))
  | none => return .inr (.ok (.object map))

def toJson : Reading (Except IoError Value) := do
  let _ ← lift readU32
  let commandId ← lift readU32
  let commandStatus ← lift readU32
  let sequenceNumber ← lift readU32
  match sequenceNumber with
  | .error _ => return .error (invalidInput "Failed to read sequence_number")
  | .ok sequenceNumber =>
      let commandId := commandId.toOption.getD 0
      match messageCommandFields commandId with
      | some fields =>
          attempt (decodeMandatory fields (insertAll (headerEntries commandId
            (commandStatus.toOption.getD 0) sequenceNumber) [])) id (loop tlvRound)
      | none =>
          return .error (invalidInput ("Unknown command_id: 0x" ++ upperHex 8 commandId.toNat))

end ToJson

section Agreement

theorem follows_read (length : Nat) : Follows (read length) (Buffer.read length) := by
  intro buffer
  apply ensures_contents_bind
  split
  · rename_i h
    apply ensures_splitTo_bind h.2
    apply ensures_pure
    rw [Buffer.read, if_pos h.1, exactly, if_pos h.2]
  · rename_i h
    apply ensures_pure
    rw [Buffer.read]
    split
    · rename_i hpos
      rw [exactly, if_neg fun hle => h ⟨hpos, hle⟩]
    · rfl

theorem follows_readRemaining : Follows readRemaining Buffer.readRemaining := by
  intro buffer
  apply ensures_contents_bind
  exact follows_read buffer.length buffer

theorem ensures_peekTlvTag (buffer : Bytes) :
    Ensures peekTlvTag buffer fun tag rest => tag = Buffer.peekTlvTag buffer ∧ rest = buffer := by
  apply ensures_contents_bind
  split
  · rename_i h
    apply ensures_slice_bind h
    apply ensures_pure
    rw [Buffer.peekTlvTag, if_pos h]
    exact ⟨rfl, rfl⟩
  · rename_i h
    apply ensures_pure
    rw [Buffer.peekTlvTag, if_neg h]
    exact ⟨rfl, rfl⟩

theorem follows_readCOctetStr : Follows readCOctetStr Buffer.readCOctetStr := by
  intro buffer
  apply ensures_contents_bind
  cases hfind : buffer.findIdx? (· == 0) with
  | none =>
      apply ensures_pure
      rw [Buffer.readCOctetStr, Parser.bind_apply, untilOctet_of_findIdx?_eq_none 0 hfind]
  | some pos =>
      obtain ⟨hlt, -⟩ := List.findIdx?_eq_some_iff_getElem.mp hfind
      apply ensures_splitTo_bind hlt
      apply ensures_pure
      have hpop : (buffer.take (pos + 1)).dropLast = buffer.take pos := by
        rw [List.dropLast_eq_take, List.length_take_of_le hlt, List.take_take]
        simp
      rw [Buffer.readCOctetStr, Parser.bind_apply, untilOctet_of_findIdx? 0 hfind, hpop]
      rfl

theorem follows_readTlv : Follows readTlv Buffer.readTlv :=
  (follows_lift readU16).attempt_id fun tag =>
    (follows_lift readU16).attempt_id fun length =>
      (follows_read length.toNat).attempt_id fun valueBytes => follows_pure (tag, valueBytes)

theorem ensures_decodeU8_nil {otherwise : Except IoError Value}
    {post : Except IoError Value → Bytes → Prop} (h : post otherwise []) :
    Ensures (decodeU8 otherwise) [] post := by
  apply ensures_contents_bind
  exact ensures_pure h

theorem ensures_decodeU8_cons {otherwise : Except IoError Value} {n : UInt8} {rest : Bytes}
    {post : Except IoError Value → Bytes → Prop} (h : post (.ok (.ofNat n.toNat)) rest) :
    Ensures (decodeU8 otherwise) (n :: rest) post := by
  apply ensures_contents_bind
  rw [if_pos (by simp)]
  apply ensures_splitTo_bind (by simp)
  apply ensures_index_bind (by simp)
  exact ensures_pure h

theorem follows_u8 : Follows (decode .u8) FieldCodec.u8.decode := by
  intro buffer
  rw [decode, FieldCodec.decode]
  cases buffer with
  | nil => exact ensures_decodeU8_nil rfl
  | cons n rest =>
      apply ensures_decodeU8_cons
      exact ((consumes_readU8 n).mapError _).bind_pure _ rest

theorem follows_optionalU8 (defaultValue : UInt8) :
    Follows (decode (.optionalU8 defaultValue)) (FieldCodec.optionalU8 defaultValue).decode := by
  intro buffer
  rw [decode, FieldCodec.decode]
  cases buffer with
  | nil => exact ensures_decodeU8_nil rfl
  | cons n rest =>
      apply ensures_decodeU8_cons
      have hread : readU8 (n :: rest) = (.ok n, rest) := consumes_readU8 n rest
      simp only [hread]

theorem follows_varLengthInt : Follows (decode .varLengthInt) FieldCodec.varLengthInt.decode := by
  intro buffer
  rw [decode, FieldCodec.decode]
  have hloop : Ensures (loop varLengthRound 0) buffer fun result rest =>
      buffer.foldl (fun (n : UInt64) b => n <<< 8 ||| b.toUInt64) 0 = result ∧ rest = [] := by
    refine @ensures_loop _ _ _ _ _ (fun result unread =>
      buffer.foldl (fun (n : UInt64) b => n <<< 8 ||| b.toUInt64) 0 =
        unread.foldl (fun (n : UInt64) b => n <<< 8 ||| b.toUInt64) result) ?_ 0 rfl
    intro result unread hinv
    apply ensures_lift_bind
    cases unread with
    | nil => exact ensures_pure ⟨hinv, rfl⟩
    | cons b unread =>
        have hread : readU8 (b :: unread) = (.ok b, unread) := consumes_readU8 b unread
        rw [hread]
        exact ensures_pure ⟨hinv, Nat.lt_succ_self _⟩
  refine hloop.bind ?_
  rintro result rest ⟨rfl, rfl⟩
  exact ensures_pure rfl

theorem follows_readOctets (lengthIndicator : Bool) (lengthBytes : Nat) :
    Follows (readOctets lengthIndicator lengthBytes)
      (FieldCodecs.readOctets lengthIndicator lengthBytes) := by
  cases lengthIndicator with
  | true => exact (follows_lift _).attempt_id follows_read
  | false => exact follows_readRemaining

theorem follows_decodeOctet (lengthIndicator : Bool) (lengthBytes : Nat) :
    Follows (decodeOctet lengthIndicator lengthBytes)
      ((FieldCodecs.decodeOctet lengthIndicator lengthBytes).mapError fun _ =>
        invalidInput "Failed to decode OctetField") := by
  rw [FieldCodecs.decodeOctet, mapError_bind_pure]
  exact (follows_readOctets lengthIndicator lengthBytes).attempt _ fun octets => follows_pure _

theorem follows_decodeDestAddress : Follows decodeDestAddress FieldCodecs.decodeDestAddress := by
  refine (follows_lift readU8).attempt _ fun destFlag => ?_
  split
  · refine (follows_lift readU8).attempt _ fun ton => (follows_lift readU8).attempt _ fun npi => ?_
    exact follows_readCOctetStr.attempt _ fun addr => follows_pure _
  · split
    · exact follows_readCOctetStr.attempt _ fun addr => follows_pure _
    · exact follows_error _

mutual

theorem follows_decode (codec : FieldCodec) : Follows (decode codec) codec.decode := by
  cases codec with
  | u8 => exact follows_u8
  | optionalU8 defaultValue => exact follows_optionalU8 defaultValue
  | varLengthInt => exact follows_varLengthInt
  | cOctetStr maxLength =>
      rw [decode, FieldCodec.decode]
      exact follows_readCOctetStr.attempt _ fun s => follows_pure _
  | octet lengthIndicator lengthBytes =>
      rw [decode, FieldCodec.decode]
      exact follows_decodeOctet lengthIndicator lengthBytes
  | u16 =>
      rw [decode, FieldCodec.decode]
      exact (follows_lift readU16).attempt _ fun n => follows_pure _
  | u32 =>
      rw [decode, FieldCodec.decode]
      exact (follows_lift readU32).attempt _ fun n => follows_pure _
  | array itemCodec =>
      rw [decode, FieldCodec.decode]
      refine (follows_lift readU8).attempt _ fun length => ?_
      exact (follows_times (follows_decode itemCodec) length.toNat).attempt_id fun items =>
        follows_pure _
  | composite fields =>
      rw [decode, FieldCodec.decode]
      have hfields := (follows_decodeFields fields []).attempt_id fun map =>
        @follows_pure IoError _ (Value.object map)
      rwa [Parser.bind_assoc] at hfields
  | destAddress =>
      rw [decode, FieldCodec.decode]
      exact follows_decodeDestAddress
  | destAddresses =>
      rw [decode, FieldCodec.decode]
      refine (follows_lift readU8).attempt _ fun numDests => ?_
      exact (follows_times follows_decodeDestAddress numDests.toNat).attempt _ fun dests =>
        follows_pure _

theorem follows_decodeFields (fields : List (String × FieldCodec)) (map : Map) :
    Follows (decodeFields fields map)
      (FieldCodecs.decodeFields fields >>= fun entries => pure (insertAll entries map)) := by
  cases fields with
  | nil =>
      rw [decodeFields, FieldCodecs.decodeFields]
      exact follows_pure map
  | cons field fields =>
      obtain ⟨name, codec⟩ := field
      rw [decodeFields, FieldCodecs.decodeFields, Parser.bind_assoc]
      refine (follows_decode codec).attempt _ fun value => ?_
      rw [Parser.bind_assoc]
      exact follows_decodeFields fields (insert name value map)

end

theorem follows_decodeTlv (codec : TLVFieldCodec) : Follows (decodeTlv codec) codec.decode := by
  refine follows_readTlv.attempt _ fun tlv => ?_
  obtain ⟨tag, octets⟩ := tlv
  simp only
  split
  · exact follows_within (follows_decode codec.valueCodec) octets
  · exact follows_error _

theorem follows_decodeMandatory (fields : List CommandField) (map : Map) :
    Follows (decodeMandatory fields map)
      (Message.decodeMandatory fields >>= fun entries => pure (insertAll entries map)) := by
  induction fields generalizing map with
  | nil => exact follows_pure map
  | cons field fields ih =>
      rw [decodeMandatory, Message.decodeMandatory, decodeField, Parser.bind_assoc]
      cases fieldCodecs field.1 with
      | none => exact follows_error _
      | some codec =>
          simp only [Parser.bind_assoc, Parser.pure_bind]
          exact (follows_decode codec).attempt _ fun value => ih (insert field.1 value map)

theorem ensures_tlvRound {map : Map} {buffer : Bytes}
    {post : Map ⊕ Except IoError Value → Bytes → Prop}
    (hend : Buffer.peekTlvTag buffer = none → post (.inr (.ok (.object map))) buffer)
    (hunknown : ∀ tag, Buffer.peekTlvTag buffer = some tag → taggedTlvFields tag = none →
      post (.inr (.error (invalidInput ("Unknown TLV tag: 0x" ++ upperHex 4 tag.toNat)))) buffer)
    (hknown : ∀ tag codec, Buffer.peekTlvTag buffer = some tag → taggedTlvFields tag = some codec →
      post (.inl (insert codec.name ((codec.decode buffer).1.toOption.getD .null) map))
        (codec.decode buffer).2) :
    Ensures (tlvRound map) buffer post := by
  refine (ensures_peekTlvTag buffer).bind ?_
  rintro peeked rest ⟨rfl, rfl⟩
  cases hpeek : Buffer.peekTlvTag rest with
  | none => exact ensures_pure (hend hpeek)
  | some tag =>
      simp only
      cases hcodec : taggedTlvFields tag with
      | none => exact ensures_pure (hunknown tag hpeek hcodec)
      | some codec =>
          refine (follows_decodeTlv codec rest).bind ?_
          intro value left hdecode
          have hpost := hknown tag codec hpeek hcodec
          rw [hdecode] at hpost
          exact ensures_pure hpost

theorem ensures_tlvLoop (map : Map) (buffer : Bytes) :
    Ensures (loop tlvRound map) buffer fun result _ =>
      result = (decodeTlvs buffer.length buffer).map fun tlvs => .object (insertAll tlvs map) := by
  refine @ensures_loop _ _ _ _ _ (fun map' unread =>
    ((decodeTlvs unread.length unread).map fun tlvs => Value.object (insertAll tlvs map')) =
      (decodeTlvs buffer.length buffer).map fun tlvs => .object (insertAll tlvs map)) ?_ map rfl
  intro map' unread hinv
  have hround : decodeTlvs unread.length unread = decodeTlvs (unread.length + 1) unread :=
    decodeTlvs_rounds (Nat.le_refl _) (Nat.le_succ _)
  rw [hround, decodeTlvs] at hinv
  apply ensures_tlvRound
  · intro hpeek
    simp only [hpeek] at hinv
    exact hinv
  · intro tag hpeek hcodec
    simp only [hpeek, hcodec] at hinv
    exact hinv
  · intro tag codec hpeek hcodec
    have hshorter := @length_decode_rest codec unread tag hpeek
    have hrest : decodeTlvs unread.length (codec.decode unread).2 =
        decodeTlvs (codec.decode unread).2.length (codec.decode unread).2 :=
      decodeTlvs_rounds (by omega) (Nat.le_refl _)
    simp only [hpeek, hcodec, hrest] at hinv
    refine ⟨?_, by omega⟩
    rw [← hinv]
    cases (codec.decode unread).1 <;>
      cases decodeTlvs (codec.decode unread).2.length (codec.decode unread).2 <;> rfl

theorem insertAll_append (first second : Map) (map : Map) :
    insertAll (first ++ second) map = insertAll second (insertAll first map) :=
  List.foldl_append

theorem ensures_toJson (message : SMPPMessage) :
    Ensures toJson message fun result _ => result = Message.toJson message := by
  rw [toJson]
  simp only [Message.toJson]
  apply ensures_lift_bind
  apply ensures_lift_bind
  apply ensures_lift_bind
  apply ensures_lift_bind
  rcases readU32 (readU32 (readU32 (readU32 message).2).2).2 with ⟨sequenceNumber, body⟩
  cases sequenceNumber with
  | error e => exact ensures_pure rfl
  | ok sequenceNumber =>
      simp only [decodeBody]
      cases messageCommandFields ((readU32 (readU32 message).2).1.toOption.getD 0) with
      | none => exact ensures_pure rfl
      | some fields =>
          refine (follows_decodeMandatory fields _ body).attempt ?_ ?_
          · intro map rest hrun
            obtain ⟨entries, middle, hentries, hmap⟩ := (Parser.bind_ok_iff _ _ _ _ _).mp hrun
            simp only [Parser.pure_apply, Prod.mk.injEq, Except.ok.injEq] at hmap
            obtain ⟨rfl, rfl⟩ := hmap
            simp only [hentries, insertAll_append]
            exact ensures_tlvLoop _ middle
          · intro e rest hrun
            rw [Parser.bind_apply] at hrun
            split at hrun
            · cases hrun
            · rename_i hfailed
              simp only [Prod.mk.injEq, Except.error.injEq] at hrun
              obtain ⟨rfl, -⟩ := hrun
              simp only [hfailed]
              rfl

end Agreement

section Suffixes

theorem leavesSuffix_readLength (lengthBytes : Nat) : LeavesSuffix (readLength lengthBytes) := by
  unfold readLength
  split
  · exact leavesSuffix_readU8.bind fun _ => leavesSuffix_pure _
  · exact leavesSuffix_readU16.bind fun _ => leavesSuffix_pure _
  · exact leavesSuffix_readU32.bind fun _ => leavesSuffix_pure _
  · exact leavesSuffix_fail ()

theorem leavesSuffix_decodeOctet (lengthIndicator : Bool) (lengthBytes : Nat) :
    LeavesSuffix (FieldCodecs.decodeOctet lengthIndicator lengthBytes) := by
  refine LeavesSuffix.bind ?_ fun _ => leavesSuffix_pure _
  cases lengthIndicator with
  | true => exact (leavesSuffix_readLength lengthBytes).bind leavesSuffix_read
  | false => exact leavesSuffix_readRemaining

theorem leavesSuffix_decodeDestAddress : LeavesSuffix FieldCodecs.decodeDestAddress := by
  refine (leavesSuffix_readU8.mapError _).bind fun destFlag => ?_
  split
  · exact (leavesSuffix_readU8.mapError _).bind fun _ => (leavesSuffix_readU8.mapError _).bind
      fun _ => (leavesSuffix_readCOctetStr.mapError _).bind fun _ => leavesSuffix_pure _
  · split
    · exact (leavesSuffix_readCOctetStr.mapError _).bind fun _ => leavesSuffix_pure _
    · exact leavesSuffix_fail _

mutual

theorem leavesSuffix_decode (codec : FieldCodec) : LeavesSuffix codec.decode := by
  cases codec with
  | u8 =>
      rw [FieldCodec.decode]
      exact (leavesSuffix_readU8.mapError _).bind fun _ => leavesSuffix_pure _
  | optionalU8 defaultValue =>
      rw [FieldCodec.decode]
      intro buffer
      have hsuffix := leavesSuffix_readU8 buffer
      simp only
      split <;> simp_all
  | varLengthInt =>
      rw [FieldCodec.decode]
      exact fun buffer => List.nil_suffix
  | cOctetStr maxLength =>
      rw [FieldCodec.decode]
      exact (leavesSuffix_readCOctetStr.mapError _).bind fun _ => leavesSuffix_pure _
  | octet lengthIndicator lengthBytes =>
      rw [FieldCodec.decode]
      exact (leavesSuffix_decodeOctet lengthIndicator lengthBytes).mapError _
  | u16 =>
      rw [FieldCodec.decode]
      exact (leavesSuffix_readU16.mapError _).bind fun _ => leavesSuffix_pure _
  | u32 =>
      rw [FieldCodec.decode]
      exact (leavesSuffix_readU32.mapError _).bind fun _ => leavesSuffix_pure _
  | array itemCodec =>
      rw [FieldCodec.decode]
      exact (leavesSuffix_readU8.mapError _).bind fun length =>
        (leavesSuffix_times (leavesSuffix_decode itemCodec) length.toNat).bind fun _ =>
          leavesSuffix_pure _
  | composite fields =>
      rw [FieldCodec.decode]
      exact (leavesSuffix_decodeFields fields).bind fun _ => leavesSuffix_pure _
  | destAddress =>
      rw [FieldCodec.decode]
      exact leavesSuffix_decodeDestAddress
  | destAddresses =>
      rw [FieldCodec.decode]
      exact (leavesSuffix_readU8.mapError _).bind fun numDests =>
        ((leavesSuffix_times leavesSuffix_decodeDestAddress numDests.toNat).mapError _).bind
          fun _ => leavesSuffix_pure _

theorem leavesSuffix_decodeFields (fields : List (String × FieldCodec)) :
    LeavesSuffix (FieldCodecs.decodeFields fields) := by
  cases fields with
  | nil =>
      rw [FieldCodecs.decodeFields]
      exact leavesSuffix_pure []
  | cons field fields =>
      obtain ⟨name, codec⟩ := field
      rw [FieldCodecs.decodeFields]
      exact ((leavesSuffix_decode codec).mapError _).bind fun _ =>
        (leavesSuffix_decodeFields fields).bind fun _ => leavesSuffix_pure _

end

theorem leavesSuffix_decodeTlv (codec : TLVFieldCodec) : LeavesSuffix codec.decode := by
  intro buffer
  rw [decode_rest]
  exact leavesSuffix_readTlv buffer

end Suffixes

section Total

/-- `to_json` ends on every message and does not panic, no more than a codec does on a buffer, and
each step of it leaves an end of the buffer. -/
structure ToJsonTotal : Prop where
  message : ∀ message, Ensures toJson message fun result _ => result = Message.toJson message
  field : ∀ codec buffer, Ensures (decode codec) buffer fun _ rest => rest <:+ buffer
  destAddress : ∀ buffer, Ensures decodeDestAddress buffer fun _ rest => rest <:+ buffer
  tlv : ∀ codec buffer, Ensures (decodeTlv codec) buffer fun _ rest => rest <:+ buffer
  /-- A round of the TLV loop is the last one or takes two octets at least. -/
  round : ∀ map buffer, Ensures (tlvRound map) buffer fun next rest =>
    rest <:+ buffer ∧ ∀ map', next = .inl map' → rest.length + 2 ≤ buffer.length

theorem suffix_of_tlvRound (map : Map) (buffer : Bytes) :
    Ensures (tlvRound map) buffer fun next rest =>
      rest <:+ buffer ∧ ∀ map', next = .inl map' → rest.length + 2 ≤ buffer.length := by
  apply ensures_tlvRound
  · exact fun _ => ⟨List.suffix_refl buffer, by simp⟩
  · exact fun tag _ _ => ⟨List.suffix_refl buffer, by simp⟩
  · intro tag codec hpeek _
    exact ⟨leavesSuffix_decodeTlv codec buffer, fun _ _ => length_decode_rest hpeek⟩

theorem toJson_total : ToJsonTotal where
  message := ensures_toJson
  field codec := (follows_decode codec).leavesSuffix (leavesSuffix_decode codec)
  destAddress := follows_decodeDestAddress.leavesSuffix leavesSuffix_decodeDestAddress
  tlv codec := (follows_decodeTlv codec).leavesSuffix (leavesSuffix_decodeTlv codec)
  round := suffix_of_tlvRound

end Total

end SmppHerald.DecodeRuns
