import SmppHerald.EncodedLayout

namespace SmppHerald.FieldSizes

open SmppHerald.Buffer
open SmppHerald.ByteParser
open SmppHerald.Encodability
open SmppHerald.EncodedLayout
open SmppHerald.FieldCodecs
open SmppHerald.Io
open SmppHerald.Json
open SmppHerald.Message
open SmppHerald.Utf8

section Sizes

/-- The sizes in the table of submit_sm, the terminating zero among the octets. -/
def documentedSizes : List (String × Nat) :=
  [("service_type", 6), ("source_addr", 21), ("destination_addr", 21),
   ("schedule_delivery_time", 17), ("validity_period", 17)]

/-- The limits of the codecs are the documented sizes. -/
theorem fieldCodecs_documented :
    ∀ entry ∈ documentedSizes, fieldCodecs entry.1 = some (.cOctetStr entry.2) := by
  simp only [documentedSizes, List.forall_mem_cons]
  exact ⟨rfl, rfl, rfl, rfl, rfl, List.forall_mem_nil _⟩

/-- The C-Octet Strings in a PDU with their documented sizes: those that a codec writes for a field,
a TLV or what is nested in one, and the addresses and list names of `dest_addresses`, which stand
behind a flag and, for an address, its type and plan. -/
inductive Written (message : Value) : Nat → Bytes → Prop
  | text {maxLength : Nat} {value : Value} {octets : Bytes} :
      Supplied message (.cOctetStr maxLength) value →
      (FieldCodec.cOctetStr maxLength).encode value = .ok octets → Written message maxLength octets
  | smeAddress {item : Value} {ton npi : UInt8} {octets : Bytes} :
      Supplied message .destAddress item →
      FieldCodec.destAddress.encode item = .ok (1 :: ton :: npi :: octets) →
      Written message 21 octets
  | listName {item : Value} {octets : Bytes} : Supplied message .destAddress item →
      FieldCodec.destAddress.encode item = .ok (2 :: octets) → Written message 21 octets

/-- The texts that a message, or its table, gives for the C-Octet Strings. -/
inductive Given (message : Value) : Nat → String → Prop
  | text {maxLength : Nat} {text : String} :
      Supplied message (.cOctetStr maxLength) (.string text) → Given message maxLength text
  | smeAddress {item : Value} {text : String} : Supplied message .destAddress item →
      (item.get "destination_addr").bind Value.asStr = some text → Given message 21 text
  | listName {item : Value} {text : String} : Supplied message .destAddress item →
      (item.get "destination_addr").bind Value.asStr = none →
      (item.get "dl_name").bind Value.asStr = some text → Given message 21 text

variable {namedTlvFields : NamedTlvFields} {message : Value}

theorem length_writeCOctetStr (s : String) : (writeCOctetStr s).length = (bytes s).length + 1 := by
  rw [writeCOctetStr, List.length_append]
  rfl

/-- The limit is one for the content; the zero comes on top of it. -/
theorem length_encodeCOctetStr {maxLength : Nat} {text : String} {octets : Bytes}
    (h : (FieldCodec.cOctetStr maxLength).encode (.string text) = .ok octets) :
    octets.length = min maxLength (bytes text).length + 1 := by
  obtain ⟨kept, hkept, hoctets⟩ := Outcome.bind_eq_ok_iff.mp h
  obtain rfl := Outcome.ok.inj hoctets
  rw [length_writeCOctetStr, truncate_ok hkept, List.length_take]

theorem encode_smeAddress {item : Value} {text : String}
    (h : (item.get "destination_addr").bind Value.asStr = some text) :
    ∃ ton npi, FieldCodec.destAddress.encode item =
      .ok (1 :: ton :: npi :: writeCOctetStr text) := by
  cases item with
  | object map =>
      rw [FieldCodec.encode, encodeDestAddress]
      simp only [Value.get] at h
      rw [h]
      exact ⟨_, _, rfl⟩
  | _ => cases h

theorem encode_listName {item : Value} {text : String}
    (haddress : (item.get "destination_addr").bind Value.asStr = none)
    (h : (item.get "dl_name").bind Value.asStr = some text) :
    FieldCodec.destAddress.encode item = .ok (2 :: writeCOctetStr text) := by
  cases item with
  | object map =>
      rw [FieldCodec.encode, encodeDestAddress]
      simp only [Value.get] at h haddress
      rw [haddress, h]
      rfl
  | _ => cases h

theorem addressText_cases {item : Value} {octets : Bytes}
    (h : FieldCodec.destAddress.encode item = .ok octets) :
    (∃ text, (item.get "destination_addr").bind Value.asStr = some text) ∨
      (item.get "destination_addr").bind Value.asStr = none ∧
        ∃ text, (item.get "dl_name").bind Value.asStr = some text := by
  cases haddress : (item.get "destination_addr").bind Value.asStr with
  | some text => exact .inl ⟨text, rfl⟩
  | none =>
      refine .inr ⟨rfl, ?_⟩
      cases hname : (item.get "dl_name").bind Value.asStr with
      | some text => exact ⟨text, rfl⟩
      | none =>
          cases item with
          | object map =>
              simp only [Value.get] at haddress hname
              rw [FieldCodec.encode, encodeDestAddress, haddress, hname] at h
              cases h
          | _ => cases h

theorem given_of_written {size : Nat} {octets : Bytes} (h : Written message size octets) :
    ∃ text, Given message size text ∧ octets.length ≤ (bytes text).length + 1 := by
  cases h with
  | @text _ value _ hsupplied hencode =>
      cases value with
      | string text =>
          refine ⟨text, .text hsupplied, ?_⟩
          rw [length_encodeCOctetStr hencode]
          omega
      | _ => cases hencode
  | @smeAddress item ton npi _ hsupplied hencode =>
      rcases addressText_cases hencode with ⟨text, htext⟩ | ⟨hnone, text, htext⟩
      · obtain ⟨_, _, hwritten⟩ := encode_smeAddress htext
        have hoctets := Outcome.ok.inj (hencode.symm.trans hwritten)
        simp only [List.cons.injEq] at hoctets
        refine ⟨text, .smeAddress hsupplied htext, ?_⟩
        exact Nat.le_of_eq ((congrArg List.length hoctets.2.2.2).trans (length_writeCOctetStr text))
      · have hoctets := Outcome.ok.inj (hencode.symm.trans (encode_listName hnone htext))
        cases hoctets
  | @listName item _ hsupplied hencode =>
      rcases addressText_cases hencode with ⟨text, htext⟩ | ⟨hnone, text, htext⟩
      · obtain ⟨_, _, hwritten⟩ := encode_smeAddress htext
        have hoctets := Outcome.ok.inj (hencode.symm.trans hwritten)
        cases hoctets
      · have hoctets := Outcome.ok.inj (hencode.symm.trans (encode_listName hnone htext))
        simp only [List.cons.injEq] at hoctets
        refine ⟨text, .listName hsupplied hnone htext, ?_⟩
        exact Nat.le_of_eq ((congrArg List.length hoctets.2).trans (length_writeCOctetStr text))

theorem written_of_given (h : accepted namedTlvFields message = true) {size : Nat} {text : String}
    (hgiven : Given message size text) :
    ∃ octets, Written message size octets ∧ min size (bytes text).length < octets.length := by
  obtain ⟨layout⟩ := exists_layout (fromJson_encoded h)
  cases hgiven with
  | text hsupplied =>
      obtain ⟨octets, hencode, -⟩ := layout.exists_supplied hsupplied
      refine ⟨octets, .text hsupplied hencode, ?_⟩
      rw [length_encodeCOctetStr hencode]
      omega
  | smeAddress hsupplied htext =>
      obtain ⟨_, _, hencode⟩ := encode_smeAddress htext
      refine ⟨_, .smeAddress hsupplied hencode, ?_⟩
      rw [length_writeCOctetStr]
      omega
  | listName hsupplied hnone htext =>
      refine ⟨_, .listName hsupplied (encode_listName hnone htext), ?_⟩
      rw [length_writeCOctetStr]
      omega

theorem infix_of_written (h : accepted namedTlvFields message = true) {size : Nat} {octets : Bytes}
    (hwritten : Written message size octets) : octets <:+: encoded namedTlvFields message := by
  obtain ⟨layout⟩ := exists_layout (fromJson_encoded h)
  cases hwritten with
  | text hsupplied hencode =>
      obtain ⟨part, hpart, hinfix⟩ := layout.exists_supplied hsupplied
      obtain rfl := Outcome.ok.inj (hencode.symm.trans hpart)
      exact hinfix
  | @smeAddress _ ton npi _ hsupplied hencode =>
      obtain ⟨part, hpart, hinfix⟩ := layout.exists_supplied hsupplied
      obtain rfl := Outcome.ok.inj (hencode.symm.trans hpart)
      exact (List.suffix_append [1, ton, npi] octets).isInfix.trans hinfix
  | listName hsupplied hencode =>
      obtain ⟨part, hpart, hinfix⟩ := layout.exists_supplied hsupplied
      obtain rfl := Outcome.ok.inj (hencode.symm.trans hpart)
      exact (List.suffix_cons 2 octets).isInfix.trans hinfix

/-- The documented sizes are kept exactly when every text leaves room for the zero. -/
theorem written_le_iff (namedTlvFields : NamedTlvFields) (message : Value)
    (h : accepted namedTlvFields message = true) :
    (∀ size octets, Written message size octets →
        octets <:+: encoded namedTlvFields message ∧ octets.length ≤ size) ↔
      ∀ size text, Given message size text → (bytes text).length < size := by
  constructor
  · intro hsized size text hgiven
    obtain ⟨octets, hwritten, hlength⟩ := written_of_given h hgiven
    have hle := (hsized size octets hwritten).2
    omega
  · intro hshort size octets hwritten
    obtain ⟨text, hgiven, hlength⟩ := given_of_written hwritten
    have hlt := hshort size text hgiven
    exact ⟨infix_of_written h hwritten, by omega⟩

end Sizes

section Example

/-- A submit_sm from an address. -/
def submitSmFrom (sourceAddr : String) : Value :=
  .object [("command_id", .ofNat 4), ("source_addr", .string sourceAddr),
    ("destination_addr", .string "49"), ("short_message", .string "hi")]

theorem written_le_twentyDigits :
    (∀ size octets, Written (submitSmFrom "12345678901234567890") size octets →
        octets <:+: encoded declaredTlvFields (submitSmFrom "12345678901234567890") ∧
          octets.length ≤ size) ↔
      ∀ size text, Given (submitSmFrom "12345678901234567890") size text →
        (bytes text).length < size :=
  written_le_iff declaredTlvFields (submitSmFrom "12345678901234567890") (by decide +kernel)

/-- An address of 21 digits occupies 22 octets. -/
theorem not_written_le_digits :
    accepted declaredTlvFields (submitSmFrom "123456789012345678901") = true ∧
      ¬ ∀ size octets, Written (submitSmFrom "123456789012345678901") size octets →
        octets <:+: encoded declaredTlvFields (submitSmFrom "123456789012345678901") ∧
          octets.length ≤ size := by
  refine ⟨by decide +kernel, ?_⟩
  intro hsized
  have hfield : ("source_addr", some (.string "")) ∈
      mandatoryFields (submitSmFrom "123456789012345678901") :=
    .tail _ (.tail _ (.tail _ (.head _)))
  have hencode : (FieldCodec.cOctetStr 21).encode (.string "123456789012345678901") =
      .ok (writeCOctetStr "123456789012345678901") := by rfl
  have hle := (hsized 21 _ (.text (.field hfield rfl rfl) hencode)).2
  revert hle
  decide +kernel

end Example

end SmppHerald.FieldSizes
