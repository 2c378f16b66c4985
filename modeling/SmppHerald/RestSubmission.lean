import SmppHerald.FairTurns
import SmppHerald.HeaderLayout
import SmppHerald.RoundTrip

namespace SmppHerald.RestSubmission

open SmppHerald.Buffer
open SmppHerald.ByteParser
open SmppHerald.ClientConnection (getCommandId getCommandId_of_length)
open SmppHerald.CommandIds
open SmppHerald.ConnectionManager
open SmppHerald.ConnectionManager.SmscConnectionManager
open SmppHerald.EncodedLayout (declaredTlvFields)
open SmppHerald.FairTurns (smscAt)
open SmppHerald.FieldCodecs
open SmppHerald.HeaderLayout
open SmppHerald.Interaction
open SmppHerald.Io
open SmppHerald.Json
open SmppHerald.LoadBalancing
open SmppHerald.Message
open SmppHerald.PduFormat
open SmppHerald.ResponseEncoding
open SmppHerald.RoundTrip

section Handler

def errorReply (text : String) : Value := .object [("error", .string text)]

def replyOf : Except IoError Value → Value
  | .ok response => response
  | .error _ => errorReply "Failed to send message"

/-- `smpp_api_handler` with the number that it is given and the pool that it finds. -/
def smppApi (namedTlvFields : NamedTlvFields) (manager : SmscConnectionManager) (payload : Value)
    (sequenceNumber : UInt32) : Sending Value :=
  match smppApiHandler namedTlvFields payload sequenceNumber with
  | .ok (.ok message) => do
      let result ← (manager.sendMessage message).1
      return replyOf result
  | .ok (.error text) => return errorReply text
  | _ => .panic

end Handler

section Request

variable {namedTlvFields : NamedTlvFields} {payload : Value} {commandId : CommandId}
  {fields : List CommandField}

theorem updateSequenceNumber_header (length command status number n : UInt32) (body : Bytes) :
    updateSequenceNumber (header length command status number ++ body) n =
      .ok (header length command status n ++ body) := by
  have hlong : 16 ≤ (header length command status number ++ body).length := by
    rw [List.length_append, length_header]
    omega
  have hfront : (writeU32 length ++ writeU32 command ++ writeU32 status).length = 12 := by
    simp [writeU32]
  have htake : (header length command status number ++ body).take 12 =
      writeU32 length ++ writeU32 command ++ writeU32 status := by
    rw [header, List.append_assoc (_ ++ _ ++ _), ← hfront, List.take_left]
  have hdrop : (header length command status number ++ body).drop 16 = body := by
    rw [← length_header length command status number, List.drop_left]
  rw [updateSequenceNumber, if_pos hlong, htake, hdrop]
  rfl

/-- The payload as it is sent. -/
def numbered (payload : Value) (n : UInt32) : Value :=
  payload.insertKey "sequence_number" (.ofNat n.toNat)

/-- The decoded message says what the payload says, with this number, with the defaults in the
place of the fields that it leaves out, and nothing more. -/
structure Says (payload decoded : Value) (fields : List CommandField) (n : UInt32) : Prop where
  returns : Returns (numbered payload n) decoded fields
  tlv : ∀ codec ∈ createTlvFields, (∀ field ∈ fields, field.1 ≠ codec.name) →
    decoded.get codec.name = payload.get codec.name
  nothingElse : ∀ name, name ∉ headerNames → (∀ field ∈ fields, field.1 ≠ name) →
    (∀ codec ∈ createTlvFields, codec.name ≠ name) → decoded.get name = none

/-- Whoever receives the octets decodes the payload with this number. -/
def Carries (payload : Value) (commandId : CommandId) (fields : List CommandField) (n : UInt32)
    (octets : Bytes) : Prop :=
  ∃ decoded, toJson octets = .ok decoded ∧ extractCommandId decoded = some commandId ∧
    Says payload decoded fields n

theorem returns_numbered {decoded : Value} {n : UInt32} {fields : List CommandField}
    (htable : messageCommandFields commandId.asU32 = some fields)
    (hobject : ∃ map, payload = .object map)
    (hfield : ∀ field ∈ fields, decoded.get field.1 = (payload.get field.1).or field.2)
    (htlv : ∀ codec ∈ createTlvFields, ∀ value, payload.get codec.name = some value →
      decoded.get codec.name = some value)
    (hstatus : decoded.get "command_status" =
      some ((payload.get "command_status").getD (.ofNat 0)))
    (hnumber : decoded.get "sequence_number" = some (.ofNat n.toNat)) :
    Returns (numbered payload n) decoded fields := by
  have hother : ∀ {name}, name ∉ headerNames →
      (numbered payload n).get name = payload.get name := by
    intro name hname
    simp only [headerNames, List.mem_cons, not_or] at hname
    exact Value.get_insertKey_of_ne hname.2.2.2.1 _ _
  refine ⟨fun field hmem => ?_, fun codec hcodec value hvalue => ?_, ?_, ?_⟩
  · rw [hother (fieldName_notMem_headerNames htable hmem)]
    exact hfield field hmem
  · rw [hother (tlvName_notMem_headerNames hcodec)] at hvalue
    exact htlv codec hcodec value hvalue
  · rw [numbered, Value.get_insertKey_of_ne (by decide)]
    exact hstatus
  · obtain ⟨map, rfl⟩ := hobject
    rw [numbered, Value.get_insertKey_self]
    exact hnumber

theorem ne_unknown (h : isClientRequest commandId = true) : commandId ≠ .unknown := by
  rintro rfl
  exact absurd h (by decide)

theorem smppApiHandler_eq {pdu numberedPdu : SMPPMessage}
    (hrequest : isClientRequest commandId = true)
    (hfromJson : fromJson namedTlvFields payload = .ok pdu)
    (hcommand : CommandId.fromU32 ((getCommandId pdu).getD 0) = some commandId) {n : UInt32}
    (hupdate : updateSequenceNumber pdu n = .ok numberedPdu) :
    smppApiHandler namedTlvFields payload n = .ok (.ok numberedPdu) := by
  rw [smppApiHandler, hfromJson]
  simp only [hcommand, hrequest, if_true, hupdate]
  rfl

theorem command_header (length status number : UInt32) (body : Bytes)
    (hknown : commandId ≠ .unknown) :
    CommandId.fromU32 ((getCommandId
      (header length commandId.asU32 status number ++ body)).getD 0) = some commandId := by
  have hlong : 16 ≤ (header length commandId.asU32 status number ++ body).length := by
    rw [List.length_append, length_header]
    omega
  rw [getCommandId_of_length hlong, commandIdOf_header, Option.getD_some,
    CommandId.fromU32_asU32 hknown]

theorem exists_object (h : extractCommandId payload = some commandId) :
    ∃ map, payload = .object map := by
  cases payload with
  | object map => exact ⟨map, rfl⟩
  | _ => cases h

theorem exists_sent (namedTlvFields : NamedTlvFields) (hrange : InRange payload commandId fields)
    (hrequest : isClientRequest commandId = true) (n : UInt32) :
    ∃ octets, smppApiHandler namedTlvFields payload n = .ok (.ok octets) ∧
      Carries payload commandId fields n octets := by
  obtain ⟨parts, hparts⟩ := hrange.exists_fieldParts
  have hentries : ∀ codec ∈ namedTlvFields.entries, codec ∈ createTlvFields :=
    fun codec hcodec => namedTlvFields.perm.mem_iff.mp hcodec
  obtain ⟨tlvs, htlvs⟩ := hrange.exists_tlvParts namedTlvFields.entries hentries
  obtain ⟨status, hstatus⟩ := hrange.commandStatus
  obtain ⟨number, hnumber⟩ := hrange.sequenceNumber
  obtain ⟨length, hencode⟩ := encodeMessageWithFields_eq hrange.table hparts htlvs hstatus hnumber
  have hfromJson : fromJson namedTlvFields payload = .ok
      (header length commandId.asU32 status number ++ (fieldOctets parts ++ tlvOctets tlvs)) := by
    rw [fromJson, hrange.command]
    exact hencode
  have hknown := ne_unknown hrequest
  have hdecode := toJson_pdu length status n tlvs hrange.table hparts.partsOf
  have hgiven : ∀ codec ∈ createTlvFields, ∀ value, payload.get codec.name = some value →
      (Value.object (insertAll (decodedEntries commandId.asU32 status n parts tlvs) [])).get
        codec.name = some value :=
    fun codec hcodec value hget => get_decoded_tlv hparts htlvs hcodec
      (namedTlvFields.perm.mem_iff.mpr hcodec) hget
  refine ⟨_, smppApiHandler_eq hrequest hfromJson (command_header _ _ _ _ hknown)
    (updateSequenceNumber_header _ _ _ _ _ _), _, hdecode, ?_, ?_, ?_, ?_⟩
  · obtain ⟨decoded, hvalue, hid, -⟩ := exists_decoded_words hdecode
    rw [← hvalue, decoded.extractCommandId_value, hid, commandIdOf_header,
      CommandId.fromU32_asU32 hknown]
  · apply returns_numbered hrange.table
    · exact exists_object hrange.command
    · exact fun field hfield => get_decoded_field hrange.table hparts htlvs hfield
    · exact hgiven
    · rw [show (payload.get "command_status").getD (.ofNat 0) = _ from hstatus]
      exact get_decoded_header hrange.table hparts (by simp [headerEntries])
    · exact get_decoded_header hrange.table hparts (by simp [headerEntries])
  · intro codec hcodec hfield
    cases hget : payload.get codec.name with
    | some value => exact hgiven codec hcodec value hget
    | none =>
        exact get_decoded_none hparts htlvs (tlvName_notMem_headerNames hcodec) hfield
          fun _ _ _ => hget
  · intro name hheader hfield htlv
    exact get_decoded_none hparts htlvs hheader hfield fun codec hcodec hname =>
      absurd hname (htlv codec hcodec)

end Request

section Submission

variable {namedTlvFields : NamedTlvFields} {payload : Value} {commandId : CommandId}
  {fields : List CommandField} {manager : SmscConnectionManager} {n : UInt32} {octets : Bytes}
  {order : List SmscConnection}
  {log : List (Event fun _ : SendMessage => Except IoError (Option Value))} {answer : Option Value}

/-- The octets go to one connection after another until one has a response, which is the answer. -/
structure Submitted (order : List SmscConnection) (octets : Bytes)
    (log : List (Event fun _ : SendMessage => Except IoError (Option Value)))
    (answer : Option Value) : Prop where
  inOrder : log.map Sigma.fst <+: order.map (SendMessage.mk · octets)
  answered : (∃ response front event, answer = some response ∧ log = front ++ [event] ∧
      (∀ e ∈ front, responseOf e.2 = none) ∧ responseOf event.2 = some response) ∨
    answer = some (errorReply "Failed to send message") ∧
      log.map Sigma.fst = order.map (SendMessage.mk · octets) ∧ ∀ e ∈ log, responseOf e.2 = none

theorem submitted_of_delivers {result : Option (Except IoError Value)}
    (h : Delivers order octets log result) : Submitted order octets log (result.map replyOf) := by
  refine ⟨h.inOrder, ?_⟩
  cases result with
  | none => exact absurd h.returns (by simp)
  | some result =>
      cases result with
      | ok response =>
          obtain ⟨front, event, hlog, hfront, hevent⟩ := (h.responds response).mp rfl
          exact .inl ⟨response, front, event, rfl, hlog, hfront, hevent⟩
      | error error =>
          obtain ⟨htried, hnone⟩ := h.fails.mp ⟨error, rfl⟩
          exact .inr ⟨rfl, htried, hnone⟩

theorem submitted_of_run (hpool : manager.connections ≠ [] ∨ manager.algorithm = .failOver)
    (hmessage : smppApiHandler namedTlvFields payload n = .ok (.ok octets))
    (hrun : Run (smppApi namedTlvFields manager payload n) log answer) :
    Submitted (candidateOrder manager.algorithm manager.index.toNat manager.connections) octets log
      answer := by
  simp only [smppApi, hmessage] at hrun
  rcases (run_bind_iff _ _ _ _).mp hrun with
    ⟨hpanic, rfl⟩ | ⟨result, first, second, rfl, hfirst, hsecond⟩
  · exact submitted_of_delivers (delivers_of_run hpool hpanic)
  · obtain ⟨rfl, rfl⟩ := (run_pure_iff _ _ _).mp hsecond
    rw [List.append_nil]
    exact submitted_of_delivers (delivers_of_run hpool hfirst)

/-- Whatever the connections reply, each that is tried is given the same octets, and these say what
was posted. -/
theorem submission_carried (namedTlvFields : NamedTlvFields) (manager : SmscConnectionManager)
    (hrange : InRange payload commandId fields) (hrequest : isClientRequest commandId = true)
    (hpool : manager.connections ≠ [] ∨ manager.algorithm = .failOver) (n : UInt32) :
    ∃ octets, Carries payload commandId fields n octets ∧ ∀ log answer,
      Run (smppApi namedTlvFields manager payload n) log answer →
        Submitted (candidateOrder manager.algorithm manager.index.toNat manager.connections) octets
          log answer := by
  obtain ⟨octets, hmessage, hcarries⟩ := exists_sent namedTlvFields hrange hrequest n
  exact ⟨octets, hcarries, fun log answer => submitted_of_run hpool hmessage⟩

/-- Its second connection is the next. -/
def pool : SmscConnectionManager := ⟨[smscAt "smsc1:2775" 0, smscAt "smsc2:2775" 1], .roundRobin, 1⟩

theorem submission_carried_payloadMessage :
    ∃ octets, Carries payloadMessage .submitSm submitSmFields 7 octets ∧ ∀ log answer,
      Run (smppApi declaredTlvFields pool payloadMessage 7) log answer →
        Submitted [smscAt "smsc2:2775" 1, smscAt "smsc1:2775" 0] octets log answer :=
  submission_carried declaredTlvFields pool inRange_payloadMessage rfl (.inl (by simp [pool])) 7

end Submission

end SmppHerald.RestSubmission
