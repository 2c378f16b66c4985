import SmppHerald.PduFormat

namespace SmppHerald.Encodability

open SmppHerald.Buffer
open SmppHerald.ByteParser
open SmppHerald.FieldCodecs
open SmppHerald.Io
open SmppHerald.Json
open SmppHerald.Message
open SmppHerald.Utf8

section Truncation

/-- The text is within the limit, or one of its characters ends exactly there. -/
def Truncatable (maxLength : Nat) (s : String) : Prop :=
  (bytes s).length ≤ maxLength ∨
    ∃ cs rest, s.toList = cs ++ rest ∧ (charBytes cs).length = maxLength

theorem cutChars_eq_some_iff (cs ds : List Char) (n : Nat) :
    cutChars cs n = some ds ↔ ∃ rest, cs = ds ++ rest ∧ (charBytes ds).length = n := by
  induction cs generalizing n ds with
  | nil =>
      cases ds with
      | nil => cases n <;> simp [cutChars, charBytes]
      | cons d ds => cases n <;> simp [cutChars]
  | cons c cs ih =>
      have hsize := c.utf8Size_pos
      cases n with
      | zero =>
          constructor
          · intro h
            obtain rfl := Option.some.inj h
            exact ⟨c :: cs, rfl, rfl⟩
          · rintro ⟨rest, hsplit, hlen⟩
            cases ds with
            | nil => rfl
            | cons d ds =>
                obtain ⟨rfl, -⟩ := List.cons.inj hsplit
                rw [length_charBytes_cons] at hlen
                omega
      | succ n =>
          simp only [cutChars]
          constructor
          · intro h
            split at h
            · obtain ⟨tail, htail, rfl⟩ := Option.map_eq_some_iff.mp h
              obtain ⟨rest, rfl, hlen⟩ := (ih _ _).mp htail
              refine ⟨rest, rfl, ?_⟩
              rw [length_charBytes_cons, hlen]
              omega
            · cases h
          · rintro ⟨rest, hsplit, hlen⟩
            cases ds with
            | nil => simp [charBytes] at hlen
            | cons d ds =>
                obtain ⟨rfl, rfl⟩ := List.cons.inj hsplit
                rw [length_charBytes_cons] at hlen
                rw [if_pos (by omega), (ih ds _).mpr ⟨rest, rfl, by omega⟩]
                rfl

theorem truncate_ok {maxLength : Nat} {s t : String} (h : truncate maxLength s = .ok t) :
    bytes t = (bytes s).take maxLength := by
  unfold truncate at h
  split at h
  · split at h
    · rename_i cutText hcut
      obtain rfl := Outcome.ok.inj h
      obtain ⟨ds, hds, rfl⟩ := Option.map_eq_some_iff.mp hcut
      obtain ⟨rest, hsplit, hlen⟩ := (cutChars_eq_some_iff _ _ _).mp hds
      have hoctets : charBytes (ds ++ rest) = charBytes ds ++ charBytes rest :=
        List.flatMap_append
      rw [bytes_ofList, bytes, hsplit, hoctets, ← hlen, List.take_left]
    · cases h
  · rename_i hle
    obtain rfl := Outcome.ok.inj h
    rw [List.take_of_length_le (Nat.not_lt.mp hle)]

theorem truncate_ok_iff (maxLength : Nat) (s : String) :
    (∃ t, truncate maxLength s = .ok t) ↔ Truncatable maxLength s := by
  unfold truncate Truncatable
  split
  · rename_i hlt
    simp only [← cutChars_eq_some_iff, cut]
    cases hcut : cutChars s.toList maxLength with
    | none => simp [hlt]
    | some ds => simp
  · rename_i hle
    simp only [Outcome.ok.injEq, exists_eq', true_iff]
    exact .inl (by omega)

theorem truncate_cases (maxLength : Nat) (s : String) :
    (∃ t, truncate maxLength s = .ok t) ∨ truncate maxLength s = .panicked := by
  unfold truncate
  split
  · split
    · exact .inl ⟨_, rfl⟩
    · exact .inr rfl
  · exact .inl ⟨_, rfl⟩

end Truncation

section Values

/-- The codecs of single values; arrays, composites and addresses are not among them. -/
def flat : FieldCodec → Bool
  | .array _ | .composite _ | .destAddress | .destAddresses => false
  | _ => true

/-- What a decoder of single values produces. -/
def Shaped : FieldCodec → Value → Prop
  | .cOctetStr _, value | .octet _ _, value => ∃ s, value = .string s
  | _, value => ∃ n, value = .number (.posInt n)

/-- What an encoder of single values accepts. -/
def Encodable : FieldCodec → Value → Prop
  | .optionalU8 _, _ => True
  | .cOctetStr maxLength, value => ∃ s, value = .string s ∧ Truncatable maxLength s
  | .octet _ _, value => ∃ s, value = .string s
  | _, value => ∃ n, value = .number (.posInt n)

theorem asU64_eq_some_iff (value : Value) (n : UInt64) :
    value.asU64 = some n ↔ value = .number (.posInt n) := by
  cases value with
  | number m => cases m <;> simp [Value.asU64, Number.asU64]
  | _ => simp [Value.asU64]

theorem encode_number_iff {value : Value} (write : UInt64 → Bytes) (e : IoError) :
    (∃ octets, (match value.asU64 with
        | some n => Outcome.ok (write n)
        | none => .err e) = .ok octets) ↔ ∃ n, value = .number (.posInt n) := by
  cases hvalue : value.asU64 with
  | none =>
      simp only [reduceCtorEq, exists_false, false_iff, not_exists]
      intro n hn
      rw [(asU64_eq_some_iff value n).mpr hn] at hvalue
      simp at hvalue
  | some n => simp [(asU64_eq_some_iff value n).mp hvalue]

theorem encode_ok_iff {codec : FieldCodec} (hflat : flat codec = true) (value : Value) :
    (∃ octets, codec.encode value = .ok octets) ↔ Encodable codec value := by
  cases codec with
  | u8 =>
      simp only [FieldCodec.encode, Encodable]
      exact encode_number_iff (fun n => writeU8 n.toUInt8) _
  | optionalU8 defaultValue =>
      simp only [FieldCodec.encode, Encodable, iff_true]
      split <;> exact ⟨_, rfl⟩
  | varLengthInt =>
      simp only [FieldCodec.encode, Encodable]
      exact encode_number_iff (varLengthOctets 8) _
  | cOctetStr maxLength =>
      simp only [FieldCodec.encode, Encodable]
      cases value with
      | string s =>
          simp only [encodeCOctetStr, Value.string.injEq, exists_eq_left']
          rw [← truncate_ok_iff]
          rcases truncate_cases maxLength s with ⟨t, ht⟩ | hpanic
          · simp only [ht, Outcome.ok.injEq, exists_eq', iff_true]
            exact ⟨_, rfl⟩
          · simp only [hpanic, reduceCtorEq, exists_false, iff_false, not_exists]
            intro octets h
            cases h
      | _ => simp [encodeCOctetStr]
  | octet lengthIndicator lengthBytes =>
      simp only [FieldCodec.encode, Encodable]
      cases value <;> simp [encodeOctet]
  | u16 =>
      simp only [FieldCodec.encode, Encodable]
      exact encode_number_iff (fun n => writeU16 n.toUInt16) _
  | u32 =>
      simp only [FieldCodec.encode, Encodable]
      exact encode_number_iff (fun n => writeU32 n.toUInt32) _
  | array itemCodec => simp [flat] at hflat
  | composite fields => simp [flat] at hflat
  | destAddress => simp [flat] at hflat
  | destAddresses => simp [flat] at hflat

theorem encode_panicked_iff {codec : FieldCodec} (hflat : flat codec = true) (value : Value) :
    codec.encode value = .panicked ↔
      ∃ maxLength s, codec = .cOctetStr maxLength ∧ value = .string s ∧
        ¬ Truncatable maxLength s := by
  cases codec with
  | cOctetStr maxLength =>
      cases value with
      | string s =>
          have hcut := truncate_ok_iff maxLength s
          simp only [FieldCodec.encode, encodeCOctetStr, FieldCodec.cOctetStr.injEq,
            Value.string.injEq, exists_eq_left', exists_and_left]
          rcases truncate_cases maxLength s with ⟨t, ht⟩ | hpanic
          · have htruncatable := hcut.mp ⟨t, ht⟩
            simp [ht, htruncatable, bind, Outcome.bind, pure]
          · rw [hpanic] at hcut
            simp [hpanic, ← hcut, bind, Outcome.bind]
      | _ => simp [FieldCodec.encode, encodeCOctetStr]
  | octet lengthIndicator lengthBytes => cases value <;> simp [FieldCodec.encode, encodeOctet]
  | array itemCodec => simp [flat] at hflat
  | composite fields => simp [flat] at hflat
  | destAddress => simp [flat] at hflat
  | destAddresses => simp [flat] at hflat
  | _ =>
      simp only [FieldCodec.encode, reduceCtorEq, false_and, exists_false, iff_false]
      split <;> simp

/-- A decoded value can be encoded again unless it is a text that cannot be cut to its limit. -/
theorem encodable_of_shaped_iff {codec : FieldCodec} {value : Value} (h : Shaped codec value) :
    Encodable codec value ↔
      ∀ maxLength s, codec = .cOctetStr maxLength → value = .string s →
        Truncatable maxLength s := by
  cases codec with
  | cOctetStr maxLength =>
      obtain ⟨s, rfl⟩ := h
      simp [Encodable]
  | optionalU8 defaultValue => simp [Encodable]
  | _ =>
      obtain ⟨n, rfl⟩ := h
      simp [Encodable]

theorem mapError_word_shape {α : Type} {read : Parser Unit α} {f : Unit → IoError}
    {g : α → Value} {buffer rest : Bytes} {value : Value}
    (h : (do let n ← read.mapError f; return g n : Parser IoError Value) buffer =
      (.ok value, rest)) : ∃ n, value = g n := by
  obtain ⟨n, middle, -, hpure⟩ := (Parser.bind_ok_iff _ _ _ _ _).mp h
  simp only [Parser.pure_apply, Prod.mk.injEq, Except.ok.injEq] at hpure
  exact ⟨n, hpure.1.symm⟩

theorem decode_shaped {codec : FieldCodec} (hflat : flat codec = true) {buffer rest : Bytes}
    {value : Value} (h : codec.decode buffer = (.ok value, rest)) : Shaped codec value := by
  cases codec with
  | u8 =>
      rw [FieldCodec.decode] at h
      obtain ⟨n, rfl⟩ := mapError_word_shape h
      exact ⟨_, rfl⟩
  | optionalU8 defaultValue =>
      simp only [FieldCodec.decode] at h
      split at h <;>
        · simp only [Prod.mk.injEq, Except.ok.injEq] at h
          exact ⟨_, h.1.symm⟩
  | varLengthInt =>
      simp only [FieldCodec.decode, Prod.mk.injEq, Except.ok.injEq] at h
      exact ⟨_, h.1.symm⟩
  | cOctetStr maxLength =>
      rw [FieldCodec.decode] at h
      exact mapError_word_shape h
  | octet lengthIndicator lengthBytes =>
      rw [FieldCodec.decode, Parser.mapError_ok_iff, decodeOctet] at h
      obtain ⟨octets, middle, -, hpure⟩ := (Parser.bind_ok_iff _ _ _ _ _).mp h
      simp only [Parser.pure_apply, Prod.mk.injEq, Except.ok.injEq] at hpure
      exact ⟨_, hpure.1.symm⟩
  | u16 =>
      rw [FieldCodec.decode] at h
      obtain ⟨n, rfl⟩ := mapError_word_shape h
      exact ⟨_, rfl⟩
  | u32 =>
      rw [FieldCodec.decode] at h
      obtain ⟨n, rfl⟩ := mapError_word_shape h
      exact ⟨_, rfl⟩
  | array itemCodec => simp [flat] at hflat
  | composite fields => simp [flat] at hflat
  | destAddress => simp [flat] at hflat
  | destAddresses => simp [flat] at hflat

end Values

section Messages

theorem encodeAll_ok_iff {α : Type} (encode : α → Outcome Bytes) (as : List α) :
    (∃ octets, encodeAll encode as = .ok octets) ↔ ∀ a ∈ as, ∃ octets, encode a = .ok octets := by
  induction as with
  | nil => simp [encodeAll]
  | cons a as ih =>
      rw [List.forall_mem_cons, ← ih, encodeAll]
      exact Outcome.exists_bind_bind_ok_iff

theorem encodeAll_cons_panicked_iff {α : Type} (encode : α → Outcome Bytes) (a : α)
    (as : List α) :
    encodeAll encode (a :: as) = .panicked ↔
      encode a = .panicked ∨
        (∃ octets, encode a = .ok octets) ∧ encodeAll encode as = .panicked := by
  have hrest : ∀ first, (encodeAll encode as).bind (fun rest => .ok (first ++ rest)) = .panicked ↔
      encodeAll encode as = .panicked := by
    intro first
    simp [Outcome.bind_eq_panicked_iff]
  rw [encodeAll]
  refine Outcome.bind_eq_panicked_iff.trans ?_
  constructor
  · rintro (hpanic | ⟨first, hfirst, hpanic⟩)
    · exact .inl hpanic
    · exact .inr ⟨⟨first, hfirst⟩, (hrest first).mp hpanic⟩
  · rintro (hpanic | ⟨⟨first, hfirst⟩, hpanic⟩)
    · exact .inl hpanic
    · exact .inr ⟨first, hfirst, (hrest first).mpr hpanic⟩

theorem encodeFields_cons_eq_ok {name : String} {codec : FieldCodec}
    {fields : List (String × FieldCodec)} {value : Value} {octets : Bytes}
    (h : encodeFields ((name, codec) :: fields) value = .ok octets) :
    ∃ fieldValue first rest, value.get name = some fieldValue ∧
      codec.encode fieldValue = .ok first ∧ encodeFields fields value = .ok rest ∧
        octets = first ++ rest := by
  rw [encodeFields] at h
  split at h
  · rename_i fieldValue hget
    obtain ⟨first, hfirst, h⟩ := Outcome.bind_eq_ok_iff.mp h
    obtain ⟨rest, hrest, h⟩ := Outcome.bind_eq_ok_iff.mp h
    exact ⟨fieldValue, first, rest, hget, hfirst, hrest, (Outcome.ok.inj h).symm⟩
  · cases h

theorem encodeFields_ok_iff (fields : List (String × FieldCodec)) (value : Value) :
    (∃ octets, encodeFields fields value = .ok octets) ↔
      ∀ field ∈ fields, ∃ fieldValue, value.get field.1 = some fieldValue ∧
        ∃ octets, field.2.encode fieldValue = .ok octets := by
  induction fields with
  | nil => simp [encodeFields]
  | cons field fields ih =>
      obtain ⟨name, codec⟩ := field
      rw [List.forall_mem_cons, ← ih, encodeFields]
      cases value.get name with
      | none => simp
      | some fieldValue =>
          simp only [Option.some.injEq, exists_eq_left']
          exact Outcome.exists_bind_bind_ok_iff

theorem encode_array_ok_iff (itemCodec : FieldCodec) (items : List Value) :
    (∃ octets, (FieldCodec.array itemCodec).encode (.array items) = .ok octets) ↔
      items.length ≤ 255 ∧ ∀ item ∈ items, ∃ octets, itemCodec.encode item = .ok octets := by
  rw [← encodeAll_ok_iff]
  simp only [FieldCodec.encode, Value.asArray]
  split
  · rename_i hlength
    simp [Nat.not_le.mpr hlength]
  · rename_i hlength
    rw [and_iff_right (by omega)]
    exact Outcome.exists_bind_ok_iff

theorem encodeField_ok_iff {message : Value} {field : CommandField} {codec : FieldCodec}
    (hcodec : fieldCodecs field.1 = some codec) :
    (∃ octets, encodeField message field = .ok octets) ↔
      ∃ value, (message.get field.1).or field.2 = some value ∧
        ∃ octets, codec.encode value = .ok octets := by
  simp only [encodeField, hcodec]
  cases (message.get field.1).or field.2 with
  | none => simp
  | some value => simp

theorem TLVFieldCodec.encode_ok_iff (codec : TLVFieldCodec) (value : Value) :
    (∃ octets, codec.encode value = .ok octets) ↔
      ∃ octets, codec.valueCodec.encode value = .ok octets := by
  refine Outcome.exists_bind_ok_iff.trans ?_
  simp only [Outcome.mapErr_eq_ok_iff]

theorem encodeTlvField_ok_iff (message : Value) (codec : TLVFieldCodec) :
    (∃ octets, encodeTlvField message codec = .ok octets) ↔
      ∀ value, message.get codec.name = some value →
        ∃ octets, codec.valueCodec.encode value = .ok octets := by
  unfold encodeTlvField
  split
  · rename_i value hget
    simp only [Outcome.mapErr_eq_ok_iff, hget, Option.some.injEq, forall_eq']
    exact TLVFieldCodec.encode_ok_iff codec value
  · rename_i hget
    simp [hget]

theorem encodeTlvField_panicked_iff (message : Value) {codec : TLVFieldCodec}
    (hflat : flat codec.valueCodec = true) :
    encodeTlvField message codec = .panicked ↔
      ∃ maxLength s, codec.valueCodec = .cOctetStr maxLength ∧
        message.get codec.name = some (.string s) ∧ ¬ Truncatable maxLength s := by
  cases hget : message.get codec.name with
  | none => simp [encodeTlvField, hget]
  | some value =>
      simp only [encodeTlvField, hget, Outcome.mapErr_eq_panicked_iff, TLVFieldCodec.encode,
        Option.some.injEq]
      rw [← encode_panicked_iff hflat]
      refine Outcome.bind_eq_panicked_iff.trans ?_
      simp [Outcome.mapErr_eq_panicked_iff, pure]

theorem encodeMessageWithFields_ok_iff {namedTlvFields : NamedTlvFields} {commandId : UInt32}
    {message : Value} {fields : List CommandField}
    (hfields : messageCommandFields commandId = some fields) :
    (∃ pdu, encodeMessageWithFields namedTlvFields commandId message = .ok pdu) ↔
      (∀ field ∈ fields, ∃ octets, encodeField message field = .ok octets) ∧
        ∀ codec ∈ createTlvFields, ∃ octets, encodeTlvField message codec = .ok octets := by
  have hperm : (∀ codec ∈ createTlvFields, ∃ octets, encodeTlvField message codec = .ok octets) ↔
      ∀ codec ∈ namedTlvFields.entries, ∃ octets, encodeTlvField message codec = .ok octets := by
    simp only [namedTlvFields.perm.mem_iff]
  rw [hperm, ← encodeAll_ok_iff, ← encodeAll_ok_iff]
  simp only [encodeMessageWithFields, hfields]
  constructor
  · rintro ⟨pdu, h⟩
    obtain ⟨mandatory, hmandatory, h⟩ := Outcome.bind_eq_ok_iff.mp h
    obtain ⟨tlvs, htlvs, -⟩ := Outcome.bind_eq_ok_iff.mp h
    exact ⟨⟨mandatory, hmandatory⟩, tlvs, htlvs⟩
  · rintro ⟨⟨mandatory, hmandatory⟩, tlvs, htlvs⟩
    rw [hmandatory, htlvs]
    exact ⟨_, rfl⟩

end Messages

end SmppHerald.Encodability
