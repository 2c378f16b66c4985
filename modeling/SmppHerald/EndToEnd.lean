import SmppHerald.AcknowledgedSubmissions
import SmppHerald.RoundTrip

namespace SmppHerald.EndToEnd

open SmppHerald.AcknowledgedSubmissions (Settled passesOn settled_handleDataSubmitSm)
open SmppHerald.CommandIds
open SmppHerald.ConnectionRun (agreeing)
open SmppHerald.DecodedMessage
open SmppHerald.FieldCodecs
open SmppHerald.HandlerCalls
open SmppHerald.Interaction
open SmppHerald.Io
open SmppHerald.Json
open SmppHerald.Message
open SmppHerald.PduFormat
open SmppHerald.Relay
open SmppHerald.RoundTrip
open SmppHerald.ServerConnection
open SmppHerald.ServerMessage
open SmppHerald.WireFormat

section Values

/-- The names of the mandatory fields of submit_sm and deliver_sm, and those of the TLVs. -/
def carriedNames : List String :=
  submitSmFields.map Prod.fst ++ createTlvFields.map TLVFieldCodec.name

/-- What the message says under the name, or the table in its place. -/
def given (message : Value) (name : String) : Option Value :=
  (message.get name).or (submitSmFields.lookup name).join

/-- The server puts its own service type in the place of an empty one. -/
def delivered (config : ServerConfig) (message : Value) (name : String) : Option Value :=
  if name = "service_type" ∧ (given message name).bind Value.asStr = some "" ∧
      config.getDefaultServiceType ≠ "" then
    some (.string config.getDefaultServiceType)
  else given message name

/-- Values that can be written, none of which is missing. -/
structure Writable (values : String → Option Value) : Prop where
  field : ∀ field ∈ submitSmFields, ∃ codec value octets, fieldCodecs field.1 = some codec ∧
    values field.1 = some value ∧ Represents codec value octets
  tlv : ∀ codec ∈ createTlvFields, ∀ value, values codec.name = some value →
    ∃ octets, Represents codec.valueCodec value octets ∧ octets ≠ [] ∧ octets.length < 65536

variable {message : Value} {values : String → Option Value}

theorem mem_carriedNames {name : String} : name ∈ carriedNames ↔
    (∃ field ∈ submitSmFields, field.1 = name) ∨ ∃ codec ∈ createTlvFields, codec.name = name := by
  rw [carriedNames, List.mem_append, List.mem_map, List.mem_map]

theorem notMem_headerNames {name : String} (h : name ∈ carriedNames) : name ∉ headerNames := by
  rcases mem_carriedNames.mp h with ⟨field, hfield, rfl⟩ | ⟨codec, hcodec, rfl⟩
  · have hfields : messageCommandFields CommandId.submitSm.asU32 = some submitSmFields := rfl
    exact fieldName_notMem_headerNames hfields hfield
  · exact tlvName_notMem_headerNames hcodec

theorem tlvName_ne_fieldName {codec : TLVFieldCodec} (hcodec : codec ∈ createTlvFields)
    {field : CommandField} (hfield : field ∈ submitSmFields) : field.1 ≠ codec.name := by
  intro hname
  have hvalid : isValidTlvField field.1 = true := by
    rw [isValidTlvField, List.any_eq_true]
    exact ⟨codec, hcodec, by simpa using hname.symm⟩
  simp [(plainFields_submitSm field hfield).1] at hvalid

theorem given_field {field : CommandField} (h : field ∈ submitSmFields) :
    given message field.1 = (message.get field.1).or field.2 := by
  have hnodup : (submitSmFields.map Prod.fst).Nodup := by decide
  have hlookup : submitSmFields.lookup field.1 = some field.2 := by
    rw [List.lookup_eq_some_iff]
    obtain ⟨before, after, hsplit⟩ := List.append_of_mem h
    refine ⟨before, after, hsplit, fun other hother => ?_⟩
    rw [hsplit, List.map_append, List.map_cons] at hnodup
    have hne : other.1 ≠ field.1 := by
      intro heq
      refine (List.nodup_append.mp hnodup).2.2 other.1 (List.mem_map_of_mem hother) field.1
        List.mem_cons_self heq
    simpa using hne.symm
  rw [given, hlookup]
  rfl

theorem given_tlv {codec : TLVFieldCodec} (h : codec ∈ createTlvFields) :
    given message codec.name = message.get codec.name := by
  have hlookup : submitSmFields.lookup codec.name = none := by
    rw [List.lookup_eq_none_iff]
    intro field hfield
    simpa using (tlvName_ne_fieldName h hfield).symm
  rw [given, hlookup]
  exact Option.or_none

theorem writable_given {commandId : CommandId} (h : InRange message commandId submitSmFields) :
    Writable (given message) where
  field := by
    intro field hfield
    obtain ⟨codec, hcodec⟩ := fieldCodecs_isSome h.table hfield
    obtain ⟨parts, hparts⟩ := h.exists_fieldParts
    obtain ⟨part, hpart, hname, hvalue⟩ := hparts.exists_part hfield
    refine ⟨part.codec, part.value, part.octets, hname ▸ part.known, ?_, part.represents⟩
    rw [given_field hfield, hvalue]
  tlv := by
    intro codec hcodec value hvalue
    rw [given_tlv hcodec] at hvalue
    exact h.tlv codec hcodec value hvalue

/-- The service type of the server can be written. -/
def ServiceTypeFits (config : ServerConfig) : Prop :=
  (0 : UInt8) ∉ Utf8.bytes config.getDefaultServiceType ∧
    (Utf8.bytes config.getDefaultServiceType).length ≤ 6

theorem Writable.delivered {config : ServerConfig} (h : Writable (given message))
    (hservice : ServiceTypeFits config) : Writable (delivered config message) where
  field := by
    intro field hfield
    unfold EndToEnd.delivered
    split
    · rename_i hempty
      refine ⟨.cOctetStr 6, _, _, ?_, rfl, .cOctetStr hservice.1 hservice.2⟩
      rw [hempty.1]
      rfl
    · exact h.field field hfield
  tlv := by
    intro codec hcodec value hvalue
    have hname : codec.name ≠ "service_type" := by
      intro hname
      exact tlvName_ne_fieldName hcodec (by simp [submitSmFields] :
        ("service_type", some (.string "")) ∈ submitSmFields) hname.symm
    rw [EndToEnd.delivered, if_neg fun hempty => hname hempty.1] at hvalue
    exact h.tlv codec hcodec value hvalue

end Values

section Hops

/-- A decoded message of the command with these values. -/
structure Received (commandId : CommandId) (values : String → Option Value) (message : Value) :
    Prop where
  object : ∃ map, message = .object map
  commandId : message.get "command_id" = some (.string ("0x" ++ upperHex 8 commandId.asU32.toNat))
  commandStatus : ∃ n, Supplies message "command_status" n
  sequenceNumber : (message.get "sequence_number").isSome = true
  carries : ∀ name ∈ carriedNames, message.get name = values name

variable {message : Value} {values : String → Option Value} {commandId : CommandId}

/-- What one side encodes, the other side decodes: the same values, with the defaults in the place
of what was left out, and no TLV more. -/
theorem exists_received (h : InRange message commandId submitSmFields)
    (namedTlvFields : NamedTlvFields) {n : UInt32} (hnumber : Supplies message "sequence_number" n) :
    ∃ pdu decoded, fromJson namedTlvFields message = .ok pdu ∧ toJson pdu = .ok decoded ∧
      Received commandId (given message) decoded ∧
      decoded.get "sequence_number" = some (.ofNat n.toNat) := by
  obtain ⟨parts, hparts⟩ := h.exists_fieldParts
  obtain ⟨tlvs, htlvs⟩ := h.exists_tlvParts namedTlvFields.entries
    fun codec hcodec => namedTlvFields.perm.mem_iff.mp hcodec
  obtain ⟨commandStatus, hstatus⟩ := h.commandStatus
  obtain ⟨length, hencode⟩ := encodeMessageWithFields_eq h.table hparts htlvs hstatus hnumber
  refine ⟨_, _, ?_, toJson_pdu length commandStatus n tlvs h.table hparts.partsOf, ?_, ?_⟩
  · rw [fromJson, h.command]
    exact hencode
  · refine ⟨⟨_, rfl⟩, get_decoded_header h.table hparts (by simp [headerEntries]),
      ⟨commandStatus, ?_⟩, ?_, ?_⟩
    · rw [Supplies, get_decoded_header h.table hparts (by simp [headerEntries] :
        ("command_status", .ofNat commandStatus.toNat) ∈ headerEntries _ commandStatus n)]
      rfl
    · rw [get_decoded_header h.table hparts (by simp [headerEntries] :
        ("sequence_number", .ofNat n.toNat) ∈ headerEntries _ commandStatus n)]
      rfl
    · intro name hname
      rcases mem_carriedNames.mp hname with ⟨field, hfield, rfl⟩ | ⟨codec, hcodec, rfl⟩
      · rw [given_field hfield]
        exact get_decoded_field h.table hparts htlvs hfield
      · rw [given_tlv hcodec]
        cases hget : message.get codec.name with
        | some value =>
            exact get_decoded_tlv hparts htlvs hcodec (namedTlvFields.perm.mem_iff.mpr hcodec) hget
        | none =>
            exact get_decoded_none hparts htlvs (tlvName_notMem_headerNames hcodec)
              (fun field hfield => tlvName_ne_fieldName hcodec hfield) fun _ _ _ => hget
  · exact get_decoded_header h.table hparts (by simp [headerEntries])

theorem Received.of_get (h : Received commandId values message) {values' : String → Option Value}
    {message' : Value} (hobject : ∃ map, message' = .object map)
    (hid : message'.get "command_id" = message.get "command_id")
    (hstatus : message'.get "command_status" = message.get "command_status")
    (hnumber : (message'.get "sequence_number").isSome = true)
    (hcarries : ∀ name ∈ carriedNames, message'.get name = values' name) :
    Received commandId values' message' := by
  obtain ⟨status, hsupplies⟩ := h.commandStatus
  refine ⟨hobject, hid.trans h.commandId, ⟨status, ?_⟩, hnumber, hcarries⟩
  rw [Supplies, hstatus]
  exact hsupplies

theorem Received.insertSequenceNumber (h : Received commandId values message) (value : Value) :
    Received commandId values (message.insertKey "sequence_number" value) := by
  obtain ⟨map, rfl⟩ := h.object
  apply h.of_get
  · exact ⟨_, rfl⟩
  · exact Value.get_insertKey_of_ne (by decide) _ _
  · exact Value.get_insertKey_of_ne (by decide) _ _
  · rw [Value.get_insertKey_self, Option.isSome_some]
  · intro name hname
    have hheader := notMem_headerNames hname
    simp only [headerNames, List.mem_cons, not_or] at hheader
    rw [Value.get_insertKey_of_ne hheader.2.2.2.1]
    exact h.carries name hname

theorem serviceType_mem : "service_type" ∈ carriedNames := by
  rw [carriedNames, List.mem_append]
  exact .inl (by decide)

theorem Received.setServiceType {original : Value}
    (h : Received commandId (given original) message) (hwritable : Writable (given original))
    (config : ServerConfig) :
    Received commandId (delivered config original) (setServiceType config message) := by
  have htext : ∃ text, given original "service_type" = some (.string text) := by
    obtain ⟨codec, value, octets, hcodec, hvalue, hrepresents⟩ :=
      hwritable.field ("service_type", some (.string "")) (by simp [submitSmFields])
    obtain rfl : FieldCodec.cOctetStr 6 = codec := Option.some.inj hcodec
    cases hrepresents with
    | cOctetStr _ _ => exact ⟨_, hvalue⟩
  have hget := h.carries _ serviceType_mem
  have hempty : message.strField "service_type" = "" ↔
      (given original "service_type").bind Value.asStr = some "" := by
    obtain ⟨text, htext⟩ := htext
    rw [Value.strField, hget, htext]
    simp [Value.asStr]
  obtain ⟨map, rfl⟩ := h.object
  unfold ServerMessage.setServiceType
  split
  · rename_i hset
    apply h.of_get
    · exact ⟨_, rfl⟩
    · exact Value.get_assignKey_of_ne (by decide) _ _
    · exact Value.get_assignKey_of_ne (by decide) _ _
    · rw [Value.get_assignKey_of_ne (by decide)]
      exact h.sequenceNumber
    · intro name hname
      rw [delivered]
      split
      · rename_i hservice
        obtain ⟨rfl, -, -⟩ := hservice
        obtain ⟨text, htext⟩ := htext
        rw [Value.get_assignKey_self, hget, htext]
        rfl
      · rename_i hkept
        have hne : name ≠ "service_type" := by
          rintro rfl
          exact hkept ⟨rfl, hempty.mp hset.1, hset.2⟩
        rw [Value.get_assignKey_of_ne hne]
        exact h.carries name hname
  · rename_i hset
    apply h.of_get ⟨map, rfl⟩ rfl rfl h.sequenceNumber
    intro name hname
    have hkept : ¬ (name = "service_type" ∧ (given original name).bind Value.asStr = some "" ∧
        config.getDefaultServiceType ≠ "") := by
      rintro ⟨rfl, hgiven, hdefault⟩
      exact hset ⟨hempty.mpr hgiven, hdefault⟩
    rw [delivered, if_neg hkept]
    exact h.carries name hname

/-- The deliver_sm that is made of a received submit_sm is in range again. -/
theorem Received.inRange_asDeliverSm (h : Received commandId values message)
    (hwritable : Writable values) (n : UInt32) :
    InRange (asDeliverSm n message) .deliverSm submitSmFields ∧
      Supplies (asDeliverSm n message) "sequence_number" n ∧
      ∀ name ∈ carriedNames, given (asDeliverSm n message) name = values name := by
  have hget : ∀ name ∈ carriedNames, (asDeliverSm n message).get name = values name := by
    intro name hname
    have hheader := notMem_headerNames hname
    simp only [headerNames, List.mem_cons, not_or] at hheader
    rw [get_asDeliverSm_of_ne hheader.2.1 hheader.2.2.2.1]
    exact h.carries name hname
  have hfield : ∀ field ∈ submitSmFields, (asDeliverSm n message).get field.1 = values field.1 :=
    fun field hfield => hget _ (mem_carriedNames.mpr (.inl ⟨field, hfield, rfl⟩))
  have htlv : ∀ codec ∈ createTlvFields,
      (asDeliverSm n message).get codec.name = values codec.name :=
    fun codec hcodec => hget _ (mem_carriedNames.mpr (.inr ⟨codec, hcodec, rfl⟩))
  have hnumber : Supplies (asDeliverSm n message) "sequence_number" n := by
    obtain ⟨number, hnumber⟩ := Option.isSome_iff_exists.mp h.sequenceNumber
    rw [Supplies, asDeliverSm, Value.get_assignKey_self, Value.get_assignKey_of_ne (by decide),
      hnumber]
    rfl
  refine ⟨⟨extractCommandId_asDeliverSm h.commandId n, rfl, ?_, ⟨n, hnumber⟩, ?_, ?_, ?_⟩, hnumber,
    ?_⟩
  · obtain ⟨status, hsupplies⟩ := h.commandStatus
    refine ⟨status, ?_⟩
    rw [Supplies, get_asDeliverSm_of_ne (by decide) (by decide)]
    exact hsupplies
  · intro field hmem codec value hcodec hvalue
    obtain ⟨codec', value', octets, hcodec', hvalue', hrepresents⟩ := hwritable.field field hmem
    rw [hfield field hmem, hvalue', Option.some.injEq] at hvalue
    rw [hcodec, Option.some.injEq] at hcodec'
    rw [hcodec', ← hvalue]
    exact ⟨octets, hrepresents⟩
  · intro field hmem _ hnone
    obtain ⟨codec, value, octets, -, hvalue, -⟩ := hwritable.field field hmem
    rw [hfield field hmem, hvalue] at hnone
    cases hnone
  · intro codec hcodec value hvalue
    rw [htlv codec hcodec] at hvalue
    exact hwritable.tlv codec hcodec value hvalue
  · intro name hname
    rcases mem_carriedNames.mp hname with ⟨field, hmem, rfl⟩ | ⟨codec, hcodec, rfl⟩
    · obtain ⟨codec, value, octets, -, hvalue, -⟩ := hwritable.field field hmem
      rw [given_field hmem, hfield field hmem, hvalue]
      rfl
    · rw [given_tlv hcodec, htlv codec hcodec]

end Hops

section Ways

variable {server : ServerContext} {message prepared : Value} {values : String → Option Value}
  {commandId : CommandId}

/-- Whoever receives the octets decodes a deliver_sm with these values, and this number. -/
def Arrives (values : String → Option Value) (n : UInt32) (octets : ByteParser.Bytes) : Prop :=
  ∃ decoded, toJson octets = .ok decoded ∧ Received .deliverSm values decoded ∧
    decoded.get "sequence_number" = some (.ofNat n.toNat)

/-- The program sends one such deliver_sm to the destination, and does nothing else. -/
def Sends (values : String → Option Value) (n : UInt32) (p : Action Unit) : Prop :=
  ∃ address octets, values "destination_addr" = some (.string address) ∧ Arrives values n octets ∧
    p = (perform (.sendMessage address octets) >>= fun _ => pure ())

/-- What each way out of the server does with a message that has these values. -/
def HandsOver (server : ServerContext) (values : String → Option Value) : ServerCall → Prop
  | .sendMessage address octets =>
      values "destination_addr" = some (.string address) ∧ ∃ n, Arrives values n octets
  | .spawnForward relayed => ∃ n, Sends values n (forwardMessageToClient server relayed)
  | .save _ stored => ∃ forward, (∀ n, Sends values n (forward n)) ∧
      handleScheduleDeliveryMessage server stored = perform .nextSequenceNumber >>= forward
  | .handleRequest request => Received .submitSm values request
  | _ => True

theorem exists_address (hwritable : Writable values) :
    ∃ address, values "destination_addr" = some (.string address) := by
  obtain ⟨codec, value, octets, hcodec, hvalue, hrepresents⟩ :=
    hwritable.field ("destination_addr", none) (by simp [submitSmFields])
  obtain rfl : FieldCodec.cOctetStr 21 = codec := Option.some.inj hcodec
  cases hrepresents with
  | cOctetStr _ _ => exact ⟨_, hvalue⟩

theorem Received.address (h : Received commandId values message) :
    message.get "destination_addr" = values "destination_addr" :=
  h.carries _ (mem_carriedNames.mpr
    (.inl ⟨("destination_addr", none), by simp [submitSmFields], rfl⟩))

theorem sends_forward (h : Received .submitSm values prepared) (hwritable : Writable values)
    (n : UInt32) : Sends values n (forwardMessageToClient server (asDeliverSm n prepared)) := by
  obtain ⟨hrange, hnumber, hgiven⟩ := h.inRange_asDeliverSm hwritable n
  obtain ⟨pdu, decoded, hencode, hdecode, hreceived, hsequence⟩ :=
    exists_received hrange server.namedTlvFields hnumber
  obtain ⟨address, haddress⟩ := exists_address hwritable
  have hget : (asDeliverSm n prepared).get "destination_addr" = some (.string address) := by
    rw [get_asDeliverSm_of_ne (by decide) (by decide), h.address, haddress]
  refine ⟨address, pdu, haddress, ⟨decoded, hdecode, ?_, hsequence⟩, ?_⟩
  · exact ⟨hreceived.object, hreceived.commandId, hreceived.commandStatus,
      hreceived.sequenceNumber, fun name hname =>
        (hreceived.carries name hname).trans (hgiven name hname)⟩
  · rw [forwardMessageToClient, hget]
    simp only [Option.bind_some, Value.asStr, hencode]

theorem extractCommandId_received (h : Received .submitSm values message) :
    extractCommandId message = some .submitSm := by
  rw [extractCommandId, h.commandId]
  rfl

/-- The calls that may be made for the prepared message, and no other one, are permitted. -/
structure Permits (server : ServerContext) (permitted : ServerCall → Prop) (prepared : Value) :
    Prop where
  generateId : permitted .generateId
  nextSequenceNumber : permitted .nextSequenceNumber
  now : permitted .now
  waitResponse n : permitted (.waitResponse n)
  write octets : permitted (.write octets)
  handleRequest : permitted (.handleRequest prepared)
  save messageId : permitted (.save messageId prepared)
  spawnForward n : permitted (.spawnForward (asDeliverSm n prepared))
  forward n : Calls permitted (forwardMessageToClient server (asDeliverSm n prepared))

variable {permitted : ServerCall → Prop} {commandId sequenceNumber : UInt32} {messageId : String}

theorem Permits.processLocal (h : Permits server permitted prepared) :
    Calls permitted
      (processLocalDataSubmitMessage server commandId sequenceNumber prepared) := by
  unfold processLocalDataSubmitMessage localResponse
  apply Calls.bind
  · refine Calls.bind (calls_perform.mpr h.handleRequest) fun reply => ?_
    rcases reply with e | value
    · exact Calls.bind (calls_perform.mpr h.generateId) fun _ => by simp
    · simp
  · intro response
    split
    · simp
    · simp
    · exact Calls.bind (calls_perform.mpr h.generateId) fun _ =>
        (calls_encodeOrEmpty _).bind fun _ => by simp

theorem Permits.transaction (h : Permits server permitted prepared) :
    Calls permitted (sendMessageInTransactionMode server commandId sequenceNumber messageId
      prepared) := by
  unfold sendMessageInTransactionMode
  refine Calls.bind (calls_perform.mpr h.nextSequenceNumber) fun n => (h.forward n).bind fun _ => ?_
  refine Calls.bind (calls_perform.mpr (h.waitResponse n)) fun reply => ?_
  rcases reply with - | response
  · simp
  · simp only
    split <;> simp

theorem Permits.storeAndForward (h : Permits server permitted prepared) :
    Calls permitted (storeAndForwardMessage server commandId sequenceNumber messageId
      prepared) := by
  have hclock : Calls permitted (perform .now) := calls_perform.mpr h.now
  unfold storeAndForwardMessage
  refine hclock.bind fun _ => (calls_timeOrNone _).bind fun _ => hclock.bind fun _ => ?_
  split
  · simp
  · refine hclock.bind fun _ => (calls_timeOrNone _).bind fun _ => hclock.bind fun _ => ?_
    split
    · simp
    · split
      · simp
      · refine Calls.bind (calls_perform.mpr (h.save messageId)) fun reply => ?_
        rcases reply with - | - | - <;> simp

theorem Permits.submitInMode (h : Permits server permitted prepared) (mode : MessageMode) :
    Calls permitted (submitInMode server mode commandId sequenceNumber messageId prepared) := by
  cases mode with
  | datagram =>
      refine Calls.bind ?_ fun _ => by simp
      exact Calls.bind (calls_perform.mpr h.nextSequenceNumber) fun n =>
        Calls.bind (calls_perform.mpr (h.spawnForward n)) fun _ => by simp
  | transaction => exact h.transaction.bind fun _ => by simp
  | storeAndForward => exact h.storeAndForward.bind fun _ => by simp
  | default => simp [ServerConnection.submitInMode]

theorem calls_handleDataSubmitSm_of
    (hreplaced : replaceSmDefaultMsgIdWithPredefinedMessage server.config message = .ok message)
    (h : ∀ n, Permits server permitted ((setServiceType server.config message).insertKey
      "sequence_number" n)) :
    Calls permitted (handleDataSubmitSm server commandId sequenceNumber message) := by
  have hpermits := h .null
  unfold handleDataSubmitSm
  refine Calls.bind (calls_perform.mpr hpermits.generateId) fun messageId => ?_
  rw [hreplaced]
  refine Calls.bind (calls_perform.mpr hpermits.nextSequenceNumber) fun n => ?_
  simp only
  split
  · refine (h _).processLocal.bind fun response => ?_
    rcases response with e | octets
    · simp
    · exact calls_send hpermits.write _ _
  · refine ((h _).submitInMode _).bind fun response => ?_
    exact (calls_encodeOrEmpty _).bind fun data => calls_send hpermits.write _ _

theorem permits_handsOver (h : Received .submitSm values prepared) (hwritable : Writable values) :
    Permits server (HandsOver server values) prepared where
  generateId := trivial
  nextSequenceNumber := trivial
  now := trivial
  waitResponse _ := trivial
  write _ := trivial
  handleRequest := h
  save _ := by
    refine ⟨fun n => forwardMessageToClient server (asDeliverSm n prepared),
      sends_forward h hwritable, ?_⟩
    rw [handleScheduleDeliveryMessage, extractCommandId_received h]
  spawnForward n := ⟨n, sends_forward h hwritable n⟩
  forward n := by
    obtain ⟨address, octets, haddress, harrives, hforward⟩ :=
      sends_forward h hwritable n
    rw [hforward]
    refine Calls.bind (calls_perform.mpr ⟨haddress, n, harrives⟩) fun _ => by simp

end Ways

section Deliveries

variable {server : ServerContext} {message : Value}

/-- The message asks for no predefined text that the server has. -/
def Unreplaced (config : ServerConfig) (message : Value) : Prop :=
  ∀ n, (given message "sm_default_msg_id").bind Value.asU64 = some n → n ≠ 0 →
    config.getPredefinedMessage n.toNat = none

theorem replaceSmDefaultMsgId_received {commandId : CommandId} {config : ServerConfig}
    {decoded : Value} (h : Received commandId (given message) decoded)
    (hunreplaced : Unreplaced config message) :
    replaceSmDefaultMsgIdWithPredefinedMessage config decoded = .ok decoded := by
  have hget := h.carries "sm_default_msg_id" (mem_carriedNames.mpr
    (.inl ⟨("sm_default_msg_id", some (.ofNat 0)), by simp [submitSmFields], rfl⟩))
  unfold replaceSmDefaultMsgIdWithPredefinedMessage
  simp only [Value.u64Field, hget]
  cases hnumber : (given message "sm_default_msg_id").bind Value.asU64 with
  | none => rfl
  | some n =>
      simp only [Option.getD_some]
      split
      · rename_i hne
        rw [hunreplaced n hnumber hne]
      · rfl

/-- However a submit_sm that was given in JSON passes through the server, at once or later, it is
passed on once, and each deliver_sm that is made of it is sent to its destination, where it is
decoded to the values that were given. -/
theorem submit_sm_delivered (server : ServerContext)
    (hrange : InRange message .submitSm submitSmFields)
    (hunreplaced : Unreplaced server.config message)
    (hservice : ServiceTypeFits server.config) (namedTlvFields : NamedTlvFields) :
    ∃ pdu decoded, fromJson namedTlvFields message = .ok pdu ∧ toJson pdu = .ok decoded ∧
      ∀ log result, Run (handleMessage server decoded) log result →
        (∀ event ∈ log, HandsOver server (delivered server.config message) event.1) ∧
        ∃ n, Settled server
          ((setServiceType server.config decoded).insertKey "sequence_number" n) log result := by
  obtain ⟨n, hnumber⟩ := hrange.sequenceNumber
  obtain ⟨pdu, decoded, hencode, hdecode, hreceived, -⟩ :=
    exists_received hrange namedTlvFields hnumber
  refine ⟨pdu, decoded, hencode, hdecode, ?_⟩
  have hgiven := writable_given hrange
  have hwritable := hgiven.delivered hservice
  have hreplaced := replaceSmDefaultMsgId_received hreceived hunreplaced
  have hprepared : ∀ number, Received .submitSm (delivered server.config message)
      ((setServiceType server.config decoded).insertKey "sequence_number" number) := fun number =>
    (hreceived.setServiceType hgiven server.config).insertSequenceNumber number
  have hcalls : Calls (HandsOver server (delivered server.config message))
      (handleMessage server decoded) := by
    unfold handleMessage
    rw [extractCommandId_received hreceived]
    exact calls_handleDataSubmitSm_of hreplaced fun number =>
      permits_handsOver (hprepared number) hwritable
  intro log result hrun
  refine ⟨hcalls.run hrun, ?_⟩
  obtain ⟨address, haddress⟩ := exists_address hwritable
  have hdest : ∀ number, (((setServiceType server.config decoded).insertKey "sequence_number"
      number).get "destination_addr").bind Value.asStr = some address := by
    intro number
    rw [(hprepared number).address, haddress]
    rfl
  unfold handleMessage at hrun
  rw [extractCommandId_received hreceived] at hrun
  exact settled_handleDataSubmitSm rfl hreplaced hdest hrun

/-- A server with a service type of its own. -/
def typedServer : ServerContext :=
  { plainServer with config := { plainServer.config with defaultServiceType := some "CMT" } }

def isSave : ServerCall → Bool
  | .save _ _ => true
  | _ => false

/-- The message without a service type is stored with the one of the server. -/
theorem submit_sm_delivered_payload :
    delivered typedServer.config payloadMessage "service_type" = some (.string "CMT") ∧
    ∃ pdu decoded, fromJson plainServer.namedTlvFields payloadMessage = .ok pdu ∧
      toJson pdu = .ok decoded ∧
      (∃ log result, Run (handleMessage typedServer decoded) log result ∧
        ∃ event ∈ log, isSave event.1 = true) ∧
      ∀ log result, Run (handleMessage typedServer decoded) log result →
        (∀ event ∈ log, HandsOver typedServer (delivered typedServer.config payloadMessage)
          event.1) ∧
        ∃ n, Settled typedServer
          ((setServiceType typedServer.config decoded).insertKey "sequence_number" n) log
          result := by
  refine ⟨rfl, ?_⟩
  obtain ⟨pdu, decoded, hencode, hdecode, hhands⟩ := submit_sm_delivered typedServer
    inRange_payloadMessage (fun n hn hne => absurd hn (by
      intro hn
      exact hne (Option.some.inj hn).symm)) ⟨by decide, by decide⟩ plainServer.namedTlvFields
  refine ⟨pdu, decoded, hencode, hdecode, ?_, hhands⟩
  have hsaves : (fromJson plainServer.namedTlvFields payloadMessage).bind (fun pdu =>
      .ok ((execute (agreeing true) (handleMessage typedServer (decodedValue pdu))).1.any
        fun event => isSave event.1)) = .ok true := by decide +kernel
  rw [hencode] at hsaves
  have hdecoded : decodedValue pdu = decoded := by
    rw [decodedValue, hdecode]
    rfl
  have hany := Outcome.ok.inj hsaves
  rw [hdecoded, List.any_eq_true] at hany
  exact ⟨_, _, run_execute (agreeing true) _, hany⟩

end Deliveries

end SmppHerald.EndToEnd
