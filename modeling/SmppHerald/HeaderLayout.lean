import Mathlib.Algebra.GroupWithZero.Nat
import Mathlib.Data.Nat.Log
import SmppHerald.ClientConnection
import SmppHerald.Narrowing

namespace SmppHerald.HeaderLayout

open SmppHerald.Buffer
open SmppHerald.ByteParser
open SmppHerald.ClientConnection
open SmppHerald.CommandIds
open SmppHerald.Encodability
open SmppHerald.EncodedLayout
open SmppHerald.FieldCodecs
open SmppHerald.Io
open SmppHerald.Json
open SmppHerald.Message
open SmppHerald.Narrowing
open SmppHerald.Utf8

section Client

/-- The slice `[12..16]` panics where the message is too short. -/
def updateSequenceNumber (message : SMPPMessage) (seqNum : UInt32) : Outcome SMPPMessage :=
  if 16 ≤ message.length then .ok (message.take 12 ++ writeU32 seqNum ++ message.drop 16)
  else .panicked

def isClientRequest : CommandId → Bool
  | .bindReceiver | .bindTransmitter | .bindTransceiver | .unbind | .submitSm | .submitMulti
  | .dataSm | .querySm | .cancelSm | .replaceSm | .broadcastSm | .queryBroadcastSm
  | .cancelBroadcastSm => true
  | _ => false

/-- `smpp_api_handler` up to the message that it sends, or the error that it answers. -/
def smppApiHandler (namedTlvFields : NamedTlvFields) (payload : Value) (sequenceNumber : UInt32) :
    Outcome (Except String SMPPMessage) :=
  match fromJson namedTlvFields payload with
  | .panicked => .panicked
  | .err _ => .ok (.error "Failed to create message")
  | .ok message =>
      match CommandId.fromU32 ((getCommandId message).getD 0) with
      | none => .ok (.error "Unknown command_id")
      | some commandId =>
          if isClientRequest commandId = true then do
            let message ← updateSequenceNumber message sequenceNumber
            return .ok message
          else .ok (.error "Command_id is not a client request")

end Client

section Sizes

/-- The octets of a number without its leading zeros. -/
def digitCount (n : Nat) : Nat := if n = 0 then 0 else Nat.log 256 n + 1

def addressSize (value : Value) : Nat :=
  match (value.get "destination_addr").bind Value.asStr, (value.get "dl_name").bind Value.asStr with
  | some addr, _ => (bytes addr).length + 4
  | none, some name => (bytes name).length + 2
  | none, none => 0

mutual

/-- How many octets a value takes in a field of the codec. -/
def size : FieldCodec → Value → Nat
  | .u8, _ => 1
  | .optionalU8 _, _ => 1
  | .varLengthInt, value => digitCount ((value.asU64.getD 0).toNat)
  | .cOctetStr maxLength, value => min maxLength (bytes (value.asStr.getD "")).length + 1
  | .octet lengthIndicator lengthBytes, value =>
      (if lengthIndicator = true ∧ lengthBytes ∈ [1, 2, 4] then lengthBytes else 0) +
        (octetsOf (value.asStr.getD "")).length
  | .u16, _ => 2
  | .u32, _ => 4
  | .array itemCodec, value => 1 + ((value.asArray.getD []).map (size itemCodec)).sum
  | .composite fields, value => fieldsSize fields value
  | .destAddress, value => addressSize value
  | .destAddresses, value => 1 + ((value.asArray.getD []).map addressSize).sum

def fieldsSize : List (String × FieldCodec) → Value → Nat
  | [], _ => 0
  | (name, codec) :: fields, value => (value.get name).elim 0 (size codec) + fieldsSize fields value

end

def fieldSize (message : Value) (field : CommandField) : Nat :=
  match fieldCodecs field.1, (message.get field.1).or field.2 with
  | some codec, some value => size codec value
  | _, _ => 0

def tlvSize (message : Value) (codec : TLVFieldCodec) : Nat :=
  (message.get codec.name).elim 0 fun value => 4 + size codec.valueCodec value

/-- How many octets a message takes with its header. -/
def messageSize (message : Value) : Nat :=
  16 + ((mandatoryFields message).map (fieldSize message)).sum +
    (createTlvFields.map (tlvSize message)).sum

theorem length_varLengthOctets {rounds : Nat} {n : UInt64} (h : n.toNat < 256 ^ rounds) :
    (varLengthOctets rounds n).length = digitCount n.toNat := by
  induction rounds generalizing n with
  | zero =>
      have hzero : n.toNat = 0 := by omega
      simp [varLengthOctets, digitCount, hzero]
  | succ rounds ih =>
      rw [varLengthOctets]
      split
      · rename_i hzero
        simp [digitCount, hzero]
      · rename_i hne
        have hpos : n.toNat ≠ 0 := fun hzero => hne (UInt64.toNat_inj.mp (by simpa using hzero))
        rw [List.length_cons, ih (toNat_shiftRight_eight_lt h), toNat_shiftRight_eight, digitCount,
          digitCount, if_neg hpos]
        by_cases hsmall : n.toNat < 256
        · simp [Nat.div_eq_of_lt hsmall, Nat.log_of_lt hsmall]
        · have hquotient : n.toNat / 256 ≠ 0 := by omega
          have hdigit : 1 ≤ Nat.log 256 n.toNat :=
            Nat.log_pos (by decide) (Nat.not_lt.mp hsmall)
          rw [if_neg hquotient, Nat.log_div_base]
          omega

theorem length_encodeAll {α : Type} {encode : α → Outcome Bytes} {size : α → Nat} {items : List α}
    (hsize : ∀ item ∈ items, ∀ octets, encode item = .ok octets → octets.length = size item)
    {octets : Bytes} (h : encodeAll encode items = .ok octets) :
    octets.length = (items.map size).sum := by
  induction items generalizing octets with
  | nil =>
      obtain rfl := Outcome.ok.inj h
      rfl
  | cons item items ih =>
      obtain ⟨first, hfirst, h⟩ := Outcome.bind_eq_ok_iff.mp h
      obtain ⟨rest, hrest, h⟩ := Outcome.bind_eq_ok_iff.mp h
      obtain rfl := Outcome.ok.inj h
      rw [List.forall_mem_cons] at hsize
      rw [List.length_append, hsize.1 first hfirst, ih hsize.2 hrest, List.map_cons, List.sum_cons]

theorem length_encodeDestAddress {value : Value} {octets : Bytes}
    (h : encodeDestAddress value = .ok octets) : octets.length = addressSize value := by
  cases value with
  | object map =>
      simp only [encodeDestAddress] at h
      unfold addressSize
      change _ = match (map.lookup "destination_addr").bind Value.asStr,
        (map.lookup "dl_name").bind Value.asStr with
        | some addr, _ => (bytes addr).length + 4
        | none, some name => (bytes name).length + 2
        | none, none => 0
      split at h
      · rename_i addr haddr
        obtain rfl := Outcome.ok.inj h
        rw [haddr]
        simp [writeU8, writeCOctetStr]
      · rename_i haddr
        split at h
        · rename_i name hname
          obtain rfl := Outcome.ok.inj h
          rw [haddr, hname]
          simp [writeU8, writeCOctetStr]
        · cases h
  | _ => cases h

theorem length_truncate {maxLength : Nat} {s t : String} (h : truncate maxLength s = .ok t) :
    (bytes t).length = min maxLength (bytes s).length := by
  rw [Encodability.truncate_ok h, List.length_take]

theorem length_writeLength (lengthBytes length : Nat) :
    (writeLength lengthBytes length).length =
      if lengthBytes ∈ [1, 2, 4] then lengthBytes else 0 := by
  unfold writeLength
  split
  · rfl
  · simp [writeU16]
  · simp [writeU32]
  · rename_i h1 h2 h4
    have hother : lengthBytes ∉ [1, 2, 4] := by
      simp only [List.mem_cons, List.not_mem_nil, or_false]
      rintro (rfl | rfl | rfl)
      · exact h1 rfl
      · exact h2 rfl
      · exact h4 rfl
    simp [hother]

theorem length_integer {write : UInt64 → Bytes} {n : Nat} (hwrite : ∀ m, (write m).length = n)
    {value : Value} {e : IoError} {octets : Bytes}
    (h : (match value.asU64 with
      | some m => Outcome.ok (write m)
      | none => .err e) = .ok octets) : octets.length = n := by
  split at h
  · obtain rfl := Outcome.ok.inj h
    exact hwrite _
  · cases h

mutual

theorem length_of_encode : ∀ (codec : FieldCodec) {value : Value} {octets : Bytes},
    codec.encode value = .ok octets → octets.length = size codec value
  | .u8, value, octets, h => by
      rw [FieldCodec.encode] at h
      exact @length_integer (fun m => writeU8 m.toUInt8) 1 (fun m => rfl) _ _ _ h
  | .optionalU8 defaultValue, value, octets, h => by
      rw [FieldCodec.encode] at h
      split at h <;>
      · obtain rfl := Outcome.ok.inj h
        rfl
  | .varLengthInt, value, octets, h => by
      rw [FieldCodec.encode] at h
      split at h
      · rename_i n hn
        obtain rfl := Outcome.ok.inj h
        rw [size, hn, Option.getD_some]
        exact length_varLengthOctets n.toNat_lt
      · cases h
  | .cOctetStr maxLength, value, octets, h => by
      rw [FieldCodec.encode] at h
      cases value with
      | string s =>
          obtain ⟨t, ht, h⟩ := Outcome.bind_eq_ok_iff.mp h
          obtain rfl := Outcome.ok.inj h
          rw [writeCOctetStr, List.length_append, length_truncate ht]
          rfl
      | _ => cases h
  | .octet lengthIndicator lengthBytes, value, octets, h => by
      rw [FieldCodec.encode] at h
      cases value with
      | string s =>
          obtain rfl := Outcome.ok.inj h
          rw [size, List.length_append]
          cases lengthIndicator with
          | false => simp [Value.asStr]
          | true => simp [Value.asStr, length_writeLength]
      | _ => cases h
  | .u16, value, octets, h => by
      rw [FieldCodec.encode] at h
      exact @length_integer (fun m => writeU16 m.toUInt16) 2 (fun m => length_beBytes 2 _) _ _ _ h
  | .u32, value, octets, h => by
      rw [FieldCodec.encode] at h
      exact @length_integer (fun m => writeU32 m.toUInt32) 4 (fun m => length_beBytes 4 _) _ _ _ h
  | .array itemCodec, value, octets, h => by
      rw [FieldCodec.encode] at h
      split at h
      · rename_i items hitems
        split at h
        · cases h
        · obtain ⟨encoded, hencoded, h⟩ := Outcome.bind_eq_ok_iff.mp h
          obtain rfl := Outcome.ok.inj h
          have hlength := length_encodeAll (fun item _ _ => length_of_encode itemCodec) hencoded
          rw [List.length_append, hlength, size, hitems]
          rfl
      · cases h
  | .composite fields, value, octets, h => by
      rw [FieldCodec.encode] at h
      rw [size]
      exact length_of_encodeFields fields h
  | .destAddress, value, octets, h => by
      rw [FieldCodec.encode] at h
      exact length_encodeDestAddress h
  | .destAddresses, value, octets, h => by
      rw [FieldCodec.encode] at h
      split at h
      · rename_i items hitems
        obtain ⟨encoded, hencoded, h⟩ := Outcome.bind_eq_ok_iff.mp h
        obtain rfl := Outcome.ok.inj h
        have hlength := length_encodeAll (fun item _ _ => length_encodeDestAddress) hencoded
        rw [List.length_append, hlength, size, hitems]
        rfl
      · cases h

theorem length_of_encodeFields : ∀ (fields : List (String × FieldCodec)) {value : Value}
    {octets : Bytes}, encodeFields fields value = .ok octets →
      octets.length = fieldsSize fields value
  | [], value, octets, h => by
      obtain rfl := Outcome.ok.inj h
      rfl
  | (name, codec) :: fields, value, octets, h => by
      obtain ⟨fieldValue, first, rest, hget, hfirst, hrest, rfl⟩ := encodeFields_cons_eq_ok h
      rw [List.length_append, length_of_encode codec hfirst, length_of_encodeFields fields hrest,
        fieldsSize, hget]
      rfl

end

end Sizes

section Layout

variable {namedTlvFields : NamedTlvFields} {message : Value} {pdu : SMPPMessage}

/-- What a message gives for a header word: an integer, or zero where it gives nothing. -/
def GivesWord (message : Value) (key : String) (n : Int) : Prop :=
  (message.get key).elim (n = 0) fun value => asInteger value = some n

/-- The octets behind the header are the mandatory fields and the TLVs of the message. -/
def IsBody (namedTlvFields : NamedTlvFields) (message : Value) (body : Bytes) : Prop :=
  ∃ fields tlvs,
    List.Forall₂ (fun field part => encodeField message field = .ok part)
      (mandatoryFields message) fields ∧
    List.Forall₂ (fun codec part => encodeTlvField message codec = .ok part)
      namedTlvFields.entries tlvs ∧
    body = fields.flatten ++ tlvs.flatten

/-- The header has its four words, and a new sequence number takes the place of the old one. -/
structure HeaderRight (namedTlvFields : NamedTlvFields) (message : Value) (pdu : SMPPMessage) :
    Prop where
  long : 16 ≤ pdu.length
  length : beNat (pdu.take 4) = pdu.length
  commandId : ∃ commandId, extractCommandId message = some commandId ∧
    (pdu.drop 4).take 4 = writeU32 commandId.asU32
  commandStatus : ∀ n, GivesWord message "command_status" n →
    n = beNat ((pdu.drop 8).take 4)
  sequenceNumber : ∀ n, GivesWord message "sequence_number" n →
    n = beNat ((pdu.drop 12).take 4)
  body : IsBody namedTlvFields message (pdu.drop 16)
  updated : ∀ seqNum, updateSequenceNumber pdu seqNum =
    .ok (pdu.take 12 ++ writeU32 seqNum ++ pdu.drop 16)

/-- The value is absent or an unsigned integer of 32 bits. -/
def WordFits (message : Value) (key : String) : Prop :=
  ∀ value, message.get key = some value → ∃ n : UInt64, value = .number (.posInt n) ∧
    n.toNat < 2 ^ 32

structure HeaderSupplied (message : Value) : Prop where
  commandStatus : WordFits message "command_status"
  sequenceNumber : WordFits message "sequence_number"
  size : messageSize message < 2 ^ 32

theorem length_encodeField {field : CommandField} {part : Bytes}
    (h : encodeField message field = .ok part) : part.length = fieldSize message field := by
  unfold encodeField at h
  unfold fieldSize
  cases hcodec : fieldCodecs field.1 with
  | none => simp [hcodec] at h
  | some codec =>
      cases hvalue : (message.get field.1).or field.2 with
      | none => simp [hcodec, hvalue] at h
      | some value =>
          simp only [hcodec, hvalue, Outcome.mapErr_eq_ok_iff] at h
          exact length_of_encode codec h

theorem length_encodeTlvField {codec : TLVFieldCodec} {part : Bytes}
    (h : encodeTlvField message codec = .ok part) : part.length = tlvSize message codec := by
  unfold encodeTlvField at h
  unfold tlvSize
  cases hvalue : message.get codec.name with
  | none =>
      rw [hvalue] at h
      obtain rfl := Outcome.ok.inj h
      rfl
  | some value =>
      rw [hvalue] at h
      obtain ⟨octets, hoctets, h⟩ := Outcome.bind_eq_ok_iff.mp (Outcome.mapErr_eq_ok_iff.mp h)
      obtain rfl := Outcome.ok.inj h
      have hlength := length_of_encode codec.valueCodec (Outcome.mapErr_eq_ok_iff.mp hoctets)
      simp only [List.length_append, writeU16, length_beBytes, Option.elim_some, hlength]

theorem length_flatten_of_forall₂ {α : Type} {encode : α → Outcome Bytes} {size : α → Nat}
    {items : List α} {parts : List Bytes}
    (hsize : ∀ item part, encode item = .ok part → part.length = size item)
    (h : List.Forall₂ (fun item part => encode item = .ok part) items parts) :
    parts.flatten.length = (items.map size).sum := by
  induction h with
  | nil => rfl
  | cons hfirst _ ih =>
      rw [List.flatten_cons, List.length_append, hsize _ _ hfirst, ih, List.map_cons, List.sum_cons]

/-- The body of a message has the size that the values of the message say. -/
theorem length_of_isBody {body : Bytes} (h : IsBody namedTlvFields message body) :
    16 + body.length = messageSize message := by
  obtain ⟨fields, tlvs, hfields, htlvs, rfl⟩ := h
  have hperm : (namedTlvFields.entries.map (tlvSize message)).sum =
      (createTlvFields.map (tlvSize message)).sum := (namedTlvFields.perm.map _).sum_nat
  have hfieldSizes : fields.flatten.length = ((mandatoryFields message).map (fieldSize message)).sum :=
    length_flatten_of_forall₂ (fun _ _ => length_encodeField) hfields
  have htlvSizes : tlvs.flatten.length = (namedTlvFields.entries.map (tlvSize message)).sum :=
    length_flatten_of_forall₂ (fun _ _ => length_encodeTlvField) htlvs
  rw [List.length_append, hfieldSizes, htlvSizes, hperm, messageSize]
  omega

theorem isBody_layout (layout : Layout namedTlvFields message pdu) :
    IsBody namedTlvFields message (layout.fields.flatten ++ layout.tlvs.flatten) :=
  ⟨layout.fields, layout.tlvs, layout.encodedFields, layout.encodedTlvs, rfl⟩

theorem octets_of_words (layout : Layout namedTlvFields message pdu) {status sequence : UInt32}
    (hstatus : headerWord message "command_status" = writeU32 status)
    (hsequence : headerWord message "sequence_number" = writeU32 sequence) :
    pdu = writeU32 layout.length ++ (writeU32 layout.commandId.asU32 ++ (writeU32 status ++
      (writeU32 sequence ++ (layout.fields.flatten ++ layout.tlvs.flatten)))) := by
  rw [← hstatus, ← hsequence]
  exact layout.octets

theorem length_headerWord_le (message : Value) (key : String) :
    (headerWord message key).length ≤ 4 := by
  unfold headerWord
  split <;> simp [writeU32]

theorem length_words_of_body (layout : Layout namedTlvFields message pdu)
    (hlong : 16 ≤ pdu.length) (hbody : IsBody namedTlvFields message (pdu.drop 16)) :
    (headerWord message "command_status").length = 4 ∧
      (headerWord message "sequence_number").length = 4 := by
  have hsize := length_of_isBody hbody
  rw [← length_of_isBody (isBody_layout layout), List.length_drop] at hsize
  have hpdu := congrArg List.length layout.octets
  simp only [List.length_append, writeU32, length_beBytes] at hpdu hsize
  have hstatus := length_headerWord_le message "command_status"
  have hsequence := length_headerWord_le message "sequence_number"
  omega

theorem wordFits_of_gives {key : String} {octets : Bytes} (hfour : octets.length = 4)
    (hlength : (headerWord message key).length = 4)
    (hgives : ∀ n, GivesWord message key n → n = beNat octets) : WordFits message key := by
  intro value hget
  have hsome := (length_headerWord_iff key).mp hlength
  rw [hget, Option.getD_some] at hsome
  obtain ⟨n, hn⟩ := Option.isSome_iff_exists.mp hsome
  obtain rfl := (Encodability.asU64_eq_some_iff value n).mp hn
  have hword := hgives n.toNat (by simp [GivesWord, hget, asInteger])
  have hlt := beNat_lt octets
  rw [hfour] at hlt
  exact ⟨n, rfl, by omega⟩

theorem headerWord_of_fits {key : String} (h : WordFits message key) :
    ∃ word : UInt32, headerWord message key = writeU32 word ∧
      ∀ n, GivesWord message key n → n = word.toNat := by
  unfold headerWord GivesWord
  cases hget : message.get key with
  | none => exact ⟨0, rfl, fun n hn => hn⟩
  | some value =>
      obtain ⟨n, rfl, hlt⟩ := h value hget
      refine ⟨n.toUInt32, rfl, fun m hm => ?_⟩
      obtain rfl : (n.toNat : Int) = m := Option.some.inj hm
      rw [UInt64.toNat_toUInt32, Nat.mod_eq_of_lt hlt]

theorem beNat_writeU32 (word : UInt32) : beNat (writeU32 word) = word.toNat := by
  rw [writeU32, beNat_beBytes]
  exact Nat.mod_eq_of_lt word.toNat_lt

theorem take_four_of_fromJson (h : fromJson namedTlvFields message = .ok pdu) :
    pdu.take 4 = writeU32 (UInt32.ofNat pdu.length) := by
  obtain ⟨buffer, hlong, rfl⟩ : ∃ buffer : Bytes, 4 ≤ buffer.length ∧ pdu = updateLength buffer := by
    unfold fromJson at h
    split at h
    · unfold encodeMessageWithFields at h
      split at h
      · cases h
      · obtain ⟨mandatory, -, h⟩ := Outcome.bind_eq_ok_iff.mp h
        obtain ⟨tlvs, -, h⟩ := Outcome.bind_eq_ok_iff.mp h
        refine ⟨_, ?_, (Outcome.ok.inj h).symm⟩
        simp only [List.length_append, writeU32, length_beBytes]
        omega
    · cases h
  have hfour : (writeU32 (UInt32.ofNat buffer.length)).length = 4 := length_beBytes 4 _
  have hlength : (updateLength buffer).length = buffer.length := by
    rw [updateLength, List.length_append, hfour, List.length_drop]
    omega
  rw [hlength, updateLength, List.take_left' hfour]

/-- The header of an accepted message is right exactly when its words are unsigned integers of 32
bits and its length is. -/
theorem header_right_iff (h : fromJson namedTlvFields message = .ok pdu) :
    HeaderRight namedTlvFields message pdu ↔ HeaderSupplied message := by
  obtain ⟨layout⟩ := exists_layout h
  have hfour : ∀ word, (writeU32 word).length = 4 := fun word => length_beBytes 4 _
  constructor
  · intro hright
    obtain ⟨hstatus, hsequence⟩ := length_words_of_body layout hright.long hright.body
    have htake : ∀ k, k + 4 ≤ 16 → ((pdu.drop k).take 4).length = 4 := by
      intro k hk
      have hlong := hright.long
      rw [List.length_take, List.length_drop]
      omega
    refine ⟨wordFits_of_gives (htake 8 (by decide)) hstatus hright.commandStatus,
      wordFits_of_gives (htake 12 (by decide)) hsequence hright.sequenceNumber, ?_⟩
    have hlt := beNat_lt (pdu.take 4)
    rw [hright.length, show (pdu.take 4).length = 4 from htake 0 (by decide)] at hlt
    have hsize := length_of_isBody hright.body
    rw [List.length_drop] at hsize
    have hlong := hright.long
    omega
  · intro hsupplied
    obtain ⟨status, hstatus, hgivesStatus⟩ := headerWord_of_fits hsupplied.commandStatus
    obtain ⟨sequence, hsequence, hgivesSequence⟩ := headerWord_of_fits hsupplied.sequenceNumber
    have hpdu := octets_of_words layout hstatus hsequence
    have hbody := isBody_layout layout
    have hsize := length_of_isBody hbody
    have hlength : pdu.length = messageSize message := by
      rw [hpdu, ← hsize]
      simp only [List.length_append, hfour]
      omega
    have hdrop4 := congrArg (List.drop 4) hpdu
    rw [List.drop_left' (hfour _)] at hdrop4
    have hdrop8 := congrArg (List.drop 4) hdrop4
    rw [List.drop_left' (hfour _), List.drop_drop] at hdrop8
    have hdrop12 := congrArg (List.drop 4) hdrop8
    rw [List.drop_left' (hfour _), List.drop_drop] at hdrop12
    have hdrop16 := congrArg (List.drop 4) hdrop12
    rw [List.drop_left' (hfour _), List.drop_drop] at hdrop16
    have hlong : 16 ≤ pdu.length := by
      rw [hlength, ← hsize]
      exact Nat.le_add_right _ _
    refine ⟨hlong, ?_, ⟨layout.commandId, layout.command, ?_⟩, ?_, ?_, hdrop16 ▸ hbody, ?_⟩
    · rw [take_four_of_fromJson h, beNat_writeU32, UInt32.toNat_ofNat_of_lt']
      rw [hlength]
      exact hsupplied.size
    · rw [hdrop4, List.take_left' (hfour _)]
    · intro n hn
      rw [hdrop8, List.take_left' (hfour _), beNat_writeU32]
      exact hgivesStatus n hn
    · intro n hn
      rw [hdrop12, List.take_left' (hfour _), beNat_writeU32]
      exact hgivesSequence n hn
    · exact fun seqNum => if_pos hlong

/-- An unbind with the given status. -/
def unbindWith (commandStatus : Value) : Value :=
  .object [("command_id", .ofNat 6), ("command_status", commandStatus)]

theorem headerSupplied_unbind : HeaderSupplied (unbindWith (.ofNat 0)) := by
  refine ⟨?_, ?_, by decide +kernel⟩
  · intro value hget
    obtain rfl : Value.ofNat 0 = value := Option.some.inj hget
    exact ⟨0, rfl, by decide⟩
  · intro value hget
    cases hget

theorem header_right_unbind :
    ∃ pdu, fromJson declaredTlvFields (unbindWith (.ofNat 0)) = .ok pdu ∧
      HeaderRight declaredTlvFields (unbindWith (.ofNat 0)) pdu := by
  have hpdu := fromJson_encoded
    (show accepted declaredTlvFields (unbindWith (.ofNat 0)) = true by decide +kernel)
  exact ⟨_, hpdu, (header_right_iff hpdu).mpr headerSupplied_unbind⟩

/-- An unbind whose status is a text is accepted with a header of three words, and the client cannot
write its sequence number. -/
theorem not_headerRight_unbind :
    ∃ pdu, fromJson declaredTlvFields (unbindWith (.string "0")) = .ok pdu ∧
      ¬ HeaderRight declaredTlvFields (unbindWith (.string "0")) pdu ∧
        smppApiHandler declaredTlvFields (unbindWith (.string "0")) 1 = .panicked := by
  have hpdu := fromJson_encoded
    (show accepted declaredTlvFields (unbindWith (.string "0")) = true by decide +kernel)
  have hshort : (encoded declaredTlvFields (unbindWith (.string "0"))).length = 12 := by
    decide +kernel
  refine ⟨_, hpdu, fun hright => ?_, ?_⟩
  · have hlong := hright.long
    omega
  · have hcommand : CommandId.fromU32 ((getCommandId
        (encoded declaredTlvFields (unbindWith (.string "0")))).getD 0) = some .unbind := by
      decide +kernel
    rw [smppApiHandler, hpdu]
    simp only [hcommand, isClientRequest, if_true]
    simp [updateSequenceNumber, hshort, bind, Outcome.bind]

end Layout

end SmppHerald.HeaderLayout
