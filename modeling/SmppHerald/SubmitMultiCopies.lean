import SmppHerald.Relay
import SmppHerald.ServerMessage

namespace SmppHerald.SubmitMultiCopies

open SmppHerald.Buffer
open SmppHerald.ByteParser
open SmppHerald.CommandIds
open SmppHerald.FieldCodecs
open SmppHerald.Json
open SmppHerald.Message
open SmppHerald.PduFormat
open SmppHerald.Relay (decodedValue toJson_of_isOk)
open SmppHerald.ServerMessage

section Copies

/-- The mandatory fields of a submit_multi that it has in common with a submit_sm. -/
def commonFields : List String :=
  (((messageCommandFields CommandId.submitMulti.asU32).getD []).map Prod.fst).filter
    fun name => name ≠ "dest_addresses"

/-- The fields that say what is sent, and not where it goes or how it is numbered. -/
def isContent (name : String) : Bool := name ∈ commonFields || isValidTlvField name

/-- What a submit_sm has of its own. -/
def replacedFields : List String :=
  ["command_id", "sequence_number", "command_status", "dest_addr_ton", "dest_addr_npi",
   "destination_addr"]

/-- The copy has the content of the message, and besides it only fields of its own. -/
structure Carries (message copy : Value) : Prop where
  content : ∀ name, isContent name = true → copy.get name = message.get name
  others : ∀ name, isContent name = false → name ∉ replacedFields → copy.get name = none

variable {message : Value} {destAddr : Address}

theorem commonFields_eq : commonFields = submitMultiFields := by decide

theorem tlvName_notMem_replacedFields {codec : TLVFieldCodec} (h : codec ∈ createTlvFields) :
    codec.name ∉ replacedFields ∧ codec.name ∉ submitMultiFields := by
  revert codec
  decide

theorem isContent_iff {name : String} :
    isContent name = true ↔
      name ∈ submitMultiFields ∨ ∃ codec ∈ createTlvFields, codec.name = name := by
  rw [isContent, Bool.or_eq_true, decide_eq_true_eq, commonFields_eq, isValidTlvField,
    List.any_eq_true]
  simp only [decide_eq_true_eq]

theorem isContent_tlv {codec : TLVFieldCodec} (h : codec ∈ createTlvFields) :
    isContent codec.name = true := isContent_iff.mpr (.inr ⟨codec, h, rfl⟩)

/-- Where an entry of a copy comes from. -/
theorem mem_of_get_copy {name : String} {value : Value}
    (h : (createSubmitSmFromSubmitMulti message destAddr).get name = some value) :
    name ∈ replacedFields ∨ name ∈ submitMultiFields ∧ message.get name = some value := by
  rcases List.mem_append.mp (mem_of_lookup_insertAll h) with hown | htaken
  · exact .inl (@List.mem_map_of_mem _ _ _ _ Prod.fst hown)
  · right
    obtain ⟨field, hfield, hentry⟩ := List.mem_filterMap.mp htaken
    obtain ⟨found, hget, hpair⟩ := Option.map_eq_some_iff.mp hentry
    obtain ⟨rfl, rfl⟩ := Prod.mk.inj hpair
    exact ⟨hfield, hget⟩

theorem get_copy_of_mem {name : String} (hname : name ∈ submitMultiFields) :
    (createSubmitSmFromSubmitMulti message destAddr).get name = message.get name := by
  have hother : name ∉ replacedFields := by
    revert name
    decide
  cases hget : message.get name with
  | none =>
      cases hcopy : (createSubmitSmFromSubmitMulti message destAddr).get name with
      | none => rfl
      | some value =>
          rcases mem_of_get_copy hcopy with hreplaced | ⟨-, htaken⟩
          · exact absurd hreplaced hother
          · rw [hget] at htaken
            cases htaken
  | some value =>
      have htaken : (name, value) ∈ submitMultiFields.filterMap fun field =>
          (message.get field).map fun value => (field, value) :=
        List.mem_filterMap.mpr ⟨name, hname, by rw [hget]; rfl⟩
      refine lookup_insertAll_of_agree ?_ ⟨_, List.mem_append_right _ htaken, rfl⟩
      intro entry hentry hkey
      rcases List.mem_append.mp hentry with hown | hmem
      · exact absurd (hkey ▸ @List.mem_map_of_mem _ _ _ _ Prod.fst hown) hother
      · obtain ⟨field, -, hfield⟩ := List.mem_filterMap.mp hmem
        obtain ⟨found, hfound, rfl⟩ := Option.map_eq_some_iff.mp hfield
        obtain rfl : field = name := hkey
        exact Option.some.inj (hfound.symm.trans hget)

/-- The copies have everything but the TLVs. -/
theorem carries_iff (message : Value) (destAddr : Address) :
    Carries message (createSubmitSmFromSubmitMulti message destAddr) ↔
      ∀ codec ∈ createTlvFields, message.get codec.name = none := by
  have htlv : ∀ codec ∈ createTlvFields,
      (createSubmitSmFromSubmitMulti message destAddr).get codec.name = none := by
    intro codec hcodec
    obtain ⟨hreplaced, hcommon⟩ := tlvName_notMem_replacedFields hcodec
    cases hcopy : (createSubmitSmFromSubmitMulti message destAddr).get codec.name with
    | none => rfl
    | some value =>
        rcases mem_of_get_copy hcopy with hmem | ⟨hmem, -⟩
        · exact absurd hmem hreplaced
        · exact absurd hmem hcommon
  constructor
  · intro hcarries codec hcodec
    rw [← hcarries.content codec.name (isContent_tlv hcodec), htlv codec hcodec]
  · intro hnone
    constructor
    · intro name hname
      rcases isContent_iff.mp hname with hcommon | ⟨codec, hcodec, rfl⟩
      · exact get_copy_of_mem hcommon
      · rw [htlv codec hcodec, hnone codec hcodec]
    · intro name hname hother
      cases hcopy : (createSubmitSmFromSubmitMulti message destAddr).get name with
      | none => rfl
      | some value =>
          rcases mem_of_get_copy hcopy with hmem | ⟨hmem, -⟩
          · exact absurd hmem hother
          · rw [isContent_iff.mpr (.inl hmem)] at hname
            cases hname

end Copies

section Example

/-- A submit_multi to the address 49 with the text `hi` and another one in `message_payload`. -/
def payloadPdu : SMPPMessage :=
  header 45 0x21 0 1 ++ [0, 0, 0, 0, 1, 1, 1, 1, 0x34, 0x39, 0, 0, 0, 0, 0, 0, 0, 0, 0, 0, 2,
    0x68, 0x69, 0x04, 0x24, 0, 2, 0x68, 0x6f]

/-- The submit_multi is decoded, and the submit_sm to its only destination has no payload. -/
theorem not_carries_payload :
    toJson payloadPdu = .ok (decodedValue payloadPdu) ∧
      extractDestionationAddresses (decodedValue payloadPdu) [] = [⟨1, 1, "49"⟩] ∧
      ¬ Carries (decodedValue payloadPdu)
        (createSubmitSmFromSubmitMulti (decodedValue payloadPdu) ⟨1, 1, "49"⟩) := by
  refine ⟨toJson_of_isOk (by decide +kernel), by decide +kernel, ?_⟩
  intro hcarries
  have hpayload : isContent "message_payload" = true := by decide
  have hpresent := congrArg Option.isSome (hcarries.content "message_payload" hpayload)
  revert hpresent
  decide +kernel

end Example

end SmppHerald.SubmitMultiCopies
