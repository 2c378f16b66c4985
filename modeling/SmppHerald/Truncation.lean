import SmppHerald.EncodedLayout
import SmppHerald.ServerMessage

namespace SmppHerald.Truncation

open SmppHerald.Buffer
open SmppHerald.ByteParser
open SmppHerald.CommandIds
open SmppHerald.Encodability
open SmppHerald.EncodedLayout
open SmppHerald.FieldCodecs
open SmppHerald.Io
open SmppHerald.Json
open SmppHerald.Message
open SmppHerald.ServerMessage

section Items

variable {α : Type} {good good' bad bad' : α → Prop}

/-- An item is bad, and all before it are good. -/
def FirstBad (good bad : α → Prop) : List α → Prop
  | [] => False
  | item :: items => bad item ∨ (good item ∧ FirstBad good bad items)

theorem firstBad_congr {items : List α} (hgood : ∀ item ∈ items, good item ↔ good' item)
    (hbad : ∀ item ∈ items, bad item ↔ bad' item) :
    FirstBad good bad items ↔ FirstBad good' bad' items := by
  induction items with
  | nil => rfl
  | cons item items ih =>
      rw [List.forall_mem_cons] at hgood hbad
      rw [FirstBad, FirstBad, hgood.1, hbad.1, ih hgood.2 hbad.2]

theorem encodeAll_panicked_iff (encode : α → Outcome Bytes) (items : List α) :
    encodeAll encode items = .panicked ↔
      FirstBad (fun item => ∃ octets, encode item = .ok octets)
        (fun item => encode item = .panicked) items := by
  induction items with
  | nil => simp [encodeAll, FirstBad]
  | cons item items ih => rw [encodeAll_cons_panicked_iff, FirstBad, ih]

end Items

section Values

/-- An entry of `dest_addresses` that is an address or the name of a list. -/
def AddressGiven (value : Value) : Prop :=
  ((value.get "destination_addr").bind Value.asStr).isSome = true ∨
    ((value.get "dl_name").bind Value.asStr).isSome = true

mutual

/-- The values that a codec writes. -/
def Accepts : FieldCodec → Value → Prop
  | .array itemCodec, value => ∃ items, value = .array items ∧ items.length ≤ 255 ∧
      ∀ item ∈ items, Accepts itemCodec item
  | .composite fields, value => AcceptsFields fields value
  | .destAddress, value => AddressGiven value
  | .destAddresses, value => ∃ items, value = .array items ∧ ∀ item ∈ items, AddressGiven item
  | codec, value => Encodability.Encodable codec value

def AcceptsFields : List (String × FieldCodec) → Value → Prop
  | [], _ => True
  | (name, codec) :: fields, value =>
      (∃ fieldValue, value.get name = some fieldValue ∧ Accepts codec fieldValue) ∧
        AcceptsFields fields value

end

mutual

/-- The values of which a codec cuts a text inside a character. -/
def Cuts : FieldCodec → Value → Prop
  | .cOctetStr maxLength, value => ∃ s, value = .string s ∧ ¬ Truncatable maxLength s
  | .array itemCodec, value => ∃ items, value = .array items ∧ items.length ≤ 255 ∧
      FirstBad (Accepts itemCodec) (Cuts itemCodec) items
  | .composite fields, value => CutsFields fields value
  | _, _ => False

def CutsFields : List (String × FieldCodec) → Value → Prop
  | [], _ => False
  | (name, codec) :: fields, value => ∃ fieldValue, value.get name = some fieldValue ∧
      (Cuts codec fieldValue ∨ (Accepts codec fieldValue ∧ CutsFields fields value))

end

theorem encodeDestAddress_ok_iff (value : Value) :
    (∃ octets, encodeDestAddress value = .ok octets) ↔ AddressGiven value := by
  cases value with
  | object map =>
      simp only [AddressGiven, Value.get, encodeDestAddress]
      split
      · rename_i haddr
        simp [haddr]
      · rename_i haddr
        split
        · rename_i hname
          simp [hname]
        · rename_i hname
          simp [haddr, hname]
  | _ => simp [encodeDestAddress, AddressGiven, Value.get]

theorem encodeDestAddress_ne_panicked (value : Value) : encodeDestAddress value ≠ .panicked := by
  intro h
  cases value with
  | object map =>
      simp only [encodeDestAddress] at h
      split at h
      · cases h
      · split at h <;> cases h
  | _ => cases h

theorem encodeAll_ne_panicked {α : Type} {encode : α → Outcome Bytes}
    (h : ∀ item, encode item ≠ .panicked) (items : List α) :
    encodeAll encode items ≠ .panicked := by
  rw [Ne, encodeAll_panicked_iff]
  induction items with
  | nil => exact id
  | cons item items ih =>
      rintro (hbad | ⟨-, hrest⟩)
      · exact h item hbad
      · exact ih hrest

mutual

theorem encode_ok_iff_accepts : ∀ (codec : FieldCodec) (value : Value),
    (∃ octets, codec.encode value = .ok octets) ↔ Accepts codec value
  | .array itemCodec, value => by
      rw [Accepts]
      cases value with
      | array items =>
          simp only [encode_array_ok_iff, encode_ok_iff_accepts itemCodec, Value.array.injEq,
            exists_eq_left']
      | _ => simp [FieldCodec.encode, Value.asArray]
  | .composite fields, value => by
      rw [Accepts, FieldCodec.encode]
      exact encodeFields_ok_iff_accepts fields value
  | .destAddress, value => by
      rw [Accepts, FieldCodec.encode]
      exact encodeDestAddress_ok_iff value
  | .destAddresses, value => by
      rw [Accepts, FieldCodec.encode]
      cases value with
      | array items =>
          simp only [Value.asArray, Value.array.injEq, exists_eq_left', ← encodeDestAddress_ok_iff,
            ← encodeAll_ok_iff]
          exact Outcome.exists_bind_ok_iff
      | _ => simp [Value.asArray]
  | .u8, value => encode_ok_iff rfl value
  | .optionalU8 _, value => encode_ok_iff rfl value
  | .varLengthInt, value => encode_ok_iff rfl value
  | .cOctetStr _, value => encode_ok_iff rfl value
  | .octet _ _, value => encode_ok_iff rfl value
  | .u16, value => encode_ok_iff rfl value
  | .u32, value => encode_ok_iff rfl value

theorem encodeFields_ok_iff_accepts : ∀ (fields : List (String × FieldCodec)) (value : Value),
    (∃ octets, encodeFields fields value = .ok octets) ↔ AcceptsFields fields value
  | [], value => by simp [encodeFields, AcceptsFields]
  | (name, codec) :: fields, value => by
      rw [AcceptsFields, ← encodeFields_ok_iff_accepts fields value, encodeFields_ok_iff,
        List.forall_mem_cons, ← encodeFields_ok_iff]
      simp only [encode_ok_iff_accepts codec]

end

mutual

theorem encode_panicked_iff_cuts : ∀ (codec : FieldCodec) (value : Value),
    codec.encode value = .panicked ↔ Cuts codec value
  | .array itemCodec, value => by
      rw [Cuts, FieldCodec.encode]
      cases value with
      | array items =>
          simp only [Value.asArray, Value.array.injEq, exists_eq_left']
          split
          · rename_i hlength
            simp [Nat.not_le.mpr hlength]
          · rename_i hlength
            have hitems := firstBad_congr
              (fun item (_ : item ∈ items) => encode_ok_iff_accepts itemCodec item)
              (fun item (_ : item ∈ items) => encode_panicked_iff_cuts itemCodec item)
            rw [and_iff_right (Nat.not_lt.mp hlength), ← hitems, ← encodeAll_panicked_iff]
            refine Outcome.bind_eq_panicked_iff.trans ⟨?_, .inl⟩
            rintro (hpanicked | ⟨octets, -, hreturned⟩)
            · exact hpanicked
            · cases hreturned
      | _ => simp [Value.asArray]
  | .composite fields, value => by
      rw [Cuts, FieldCodec.encode]
      exact encodeFields_panicked_iff_cuts fields value
  | .destAddress, value => by
      rw [FieldCodec.encode]
      exact iff_of_false (encodeDestAddress_ne_panicked value) (by simp [Cuts])
  | .destAddresses, value => by
      rw [FieldCodec.encode]
      refine iff_of_false ?_ (by simp [Cuts])
      cases value with
      | array items =>
          intro h
          rcases Outcome.bind_eq_panicked_iff.mp h with hpanicked | ⟨octets, -, hreturned⟩
          · exact encodeAll_ne_panicked encodeDestAddress_ne_panicked items hpanicked
          · cases hreturned
      | _ => simp [Value.asArray]
  | .cOctetStr maxLength, value => by
      rw [encode_panicked_iff rfl, Cuts]
      simp
  | .u8, value => by
      rw [encode_panicked_iff rfl]
      simp [Cuts]
  | .optionalU8 _, value => by
      rw [encode_panicked_iff rfl]
      simp [Cuts]
  | .varLengthInt, value => by
      rw [encode_panicked_iff rfl]
      simp [Cuts]
  | .octet _ _, value => by
      rw [encode_panicked_iff rfl]
      simp [Cuts]
  | .u16, value => by
      rw [encode_panicked_iff rfl]
      simp [Cuts]
  | .u32, value => by
      rw [encode_panicked_iff rfl]
      simp [Cuts]

theorem encodeFields_panicked_iff_cuts : ∀ (fields : List (String × FieldCodec)) (value : Value),
    encodeFields fields value = .panicked ↔ CutsFields fields value
  | [], value => by simp [encodeFields, CutsFields]
  | (name, codec) :: fields, value => by
      rw [encodeFields, CutsFields, ← encodeFields_panicked_iff_cuts fields value]
      cases hget : value.get name with
      | none => simp
      | some fieldValue =>
          simp only [Option.some.injEq, exists_eq_left', ← encode_ok_iff_accepts codec,
            ← encode_panicked_iff_cuts codec]
          refine Outcome.bind_eq_panicked_iff.trans (or_congr Iff.rfl ?_)
          constructor
          · rintro ⟨first, hfirst, h⟩
            rcases Outcome.bind_eq_panicked_iff.mp h with hpanicked | ⟨rest, -, hreturned⟩
            · exact ⟨⟨first, hfirst⟩, hpanicked⟩
            · cases hreturned
          · rintro ⟨⟨first, hfirst⟩, hpanicked⟩
            exact ⟨first, hfirst, Outcome.bind_eq_panicked_iff.mpr (.inl hpanicked)⟩

end

end Values

section Messages

variable {namedTlvFields : NamedTlvFields} {message : Value}

/-- The value of a mandatory field, or its default, is one that its codec writes. -/
def FieldAccepted (message : Value) (field : CommandField) : Prop :=
  ∃ codec value, fieldCodecs field.1 = some codec ∧
    (message.get field.1).or field.2 = some value ∧ Accepts codec value

def FieldCuts (message : Value) (field : CommandField) : Prop :=
  ∃ codec value, fieldCodecs field.1 = some codec ∧
    (message.get field.1).or field.2 = some value ∧ Cuts codec value

def TlvAccepted (message : Value) (codec : TLVFieldCodec) : Prop :=
  ∀ value, message.get codec.name = some value → Accepts codec.valueCodec value

def TlvCuts (message : Value) (codec : TLVFieldCodec) : Prop :=
  ∃ value, message.get codec.name = some value ∧ Cuts codec.valueCodec value

/-- The first value of a message that is not written is a text that is cut inside a character. The
mandatory fields come first, and then the TLVs. -/
def MessageCuts (namedTlvFields : NamedTlvFields) (message : Value) : Prop :=
  ∃ commandId fields, extractCommandId message = some commandId ∧
    messageCommandFields commandId.asU32 = some fields ∧
      (FirstBad (FieldAccepted message) (FieldCuts message) fields ∨
        (∀ field ∈ fields, FieldAccepted message field) ∧
          FirstBad (TlvAccepted message) (TlvCuts message) namedTlvFields.entries)

theorem encodeField_ok_iff_accepted (message : Value) (field : CommandField) :
    (∃ octets, encodeField message field = .ok octets) ↔ FieldAccepted message field := by
  unfold FieldAccepted
  cases hcodec : fieldCodecs field.1 with
  | none => simp [encodeField, hcodec]
  | some codec => simp [encodeField_ok_iff hcodec, encode_ok_iff_accepts]

theorem encodeField_panicked_iff_cuts (message : Value) (field : CommandField) :
    encodeField message field = .panicked ↔ FieldCuts message field := by
  unfold FieldCuts
  cases hcodec : fieldCodecs field.1 with
  | none => simp [encodeField, hcodec]
  | some codec =>
      cases hvalue : (message.get field.1).or field.2 with
      | none => simp [encodeField, hcodec, hvalue]
      | some value =>
          simp [encodeField, hcodec, hvalue, Outcome.mapErr_eq_panicked_iff,
            encode_panicked_iff_cuts]

theorem encodeTlvField_ok_iff_accepted (message : Value) (codec : TLVFieldCodec) :
    (∃ octets, encodeTlvField message codec = .ok octets) ↔ TlvAccepted message codec := by
  simp only [encodeTlvField_ok_iff, encode_ok_iff_accepts, TlvAccepted]

theorem encodeTlvField_panicked_iff_cuts (message : Value) (codec : TLVFieldCodec) :
    encodeTlvField message codec = .panicked ↔ TlvCuts message codec := by
  unfold TlvCuts
  cases hget : message.get codec.name with
  | none => simp [encodeTlvField, hget]
  | some value =>
      simp only [encodeTlvField, hget, Outcome.mapErr_eq_panicked_iff, Option.some.injEq,
        exists_eq_left', ← encode_panicked_iff_cuts]
      refine Outcome.bind_eq_panicked_iff.trans ?_
      simp [Outcome.mapErr_eq_panicked_iff, pure]

theorem encodeFields_panicked_iff (message : Value) (fields : List CommandField) :
    encodeAll (encodeField message) fields = .panicked ↔
      FirstBad (FieldAccepted message) (FieldCuts message) fields := by
  rw [encodeAll_panicked_iff]
  exact firstBad_congr (fun field _ => encodeField_ok_iff_accepted message field)
    fun field _ => encodeField_panicked_iff_cuts message field

theorem encodeTlvs_panicked_iff (message : Value) (codecs : List TLVFieldCodec) :
    encodeAll (encodeTlvField message) codecs = .panicked ↔
      FirstBad (TlvAccepted message) (TlvCuts message) codecs := by
  rw [encodeAll_panicked_iff]
  exact firstBad_congr (fun codec _ => encodeTlvField_ok_iff_accepted message codec)
    fun codec _ => encodeTlvField_panicked_iff_cuts message codec

theorem encodeMessageWithFields_panicked_iff {commandId : UInt32} {fields : List CommandField}
    (hfields : messageCommandFields commandId = some fields) :
    encodeMessageWithFields namedTlvFields commandId message = .panicked ↔
      (FirstBad (FieldAccepted message) (FieldCuts message) fields ∨
        (∀ field ∈ fields, FieldAccepted message field) ∧
          FirstBad (TlvAccepted message) (TlvCuts message) namedTlvFields.entries) := by
  simp only [encodeMessageWithFields, hfields, ← encodeFields_panicked_iff,
    ← encodeTlvs_panicked_iff, ← encodeField_ok_iff_accepted, ← encodeAll_ok_iff]
  refine Outcome.bind_eq_panicked_iff.trans (or_congr Iff.rfl ?_)
  constructor
  · rintro ⟨mandatory, hmandatory, h⟩
    rcases Outcome.bind_eq_panicked_iff.mp h with hpanicked | ⟨tlvs, -, hreturned⟩
    · exact ⟨⟨mandatory, hmandatory⟩, hpanicked⟩
    · cases hreturned
  · rintro ⟨⟨mandatory, hmandatory⟩, hpanicked⟩
    exact ⟨mandatory, hmandatory, Outcome.bind_eq_panicked_iff.mpr (.inl hpanicked)⟩

/-- `from_json` returns exactly when the first value that it does not write, if there is one, is
refused and not cut. -/
theorem fromJson_returns_iff (namedTlvFields : NamedTlvFields) (message : Value) :
    fromJson namedTlvFields message ≠ .panicked ↔ ¬ MessageCuts namedTlvFields message := by
  refine not_congr ?_
  unfold fromJson MessageCuts
  cases hcommand : extractCommandId message with
  | none => simp
  | some commandId =>
      simp only [Option.some.injEq]
      cases hfields : messageCommandFields commandId.asU32 with
      | none => simp [encodeMessageWithFields, hfields]
      | some fields =>
          simp only [encodeMessageWithFields_panicked_iff hfields]
          constructor
          · exact fun h => ⟨commandId, fields, rfl, hfields, h⟩
          · rintro ⟨_, found, rfl, hfound, h⟩
            obtain rfl := Option.some.inj (hfields.symm.trans hfound)
            exact h

/-- The bind of a peer whose system_id has 17 octets, of which the last two are one character. -/
def longBindPdu : SMPPMessage :=
  [0, 0, 0, 40, 0, 0, 0, 2, 0, 0, 0, 0, 0, 0, 0, 1] ++ List.replicate 15 97 ++ [0xC3, 0xA9, 0] ++
    [0, 0, 0x34, 0, 0, 0]

/-- The answer to a bind whose password is not accepted. -/
def rejectedBind (message : Value) : Value :=
  createJsonResponse 2 1 CommandStatus.esmeRBindFail.asU32
    [("system_id", .string (message.strField "system_id")), ("sc_interface_version", .ofNat 0x34)]

/-- The server decodes the bind, and panics on the response with the system_id of the bind. -/
theorem fromJson_panics_bindResp :
    ∃ message, toJson longBindPdu = .ok message ∧
      fromJson declaredTlvFields (rejectedBind message) = .panicked := by
  have h : ((toJson longBindPdu).toOption.any fun message =>
      fromJson declaredTlvFields (rejectedBind message) = .panicked) = true := by
    decide +kernel
  cases hdecoded : toJson longBindPdu with
  | error e =>
      rw [hdecoded] at h
      exact absurd h Bool.false_ne_true
  | ok message =>
      rw [hdecoded] at h
      exact ⟨message, rfl, of_decide_eq_true h⟩

end Messages

end SmppHerald.Truncation
