import SmppHerald.ClientRun
import SmppHerald.Delimiting
import SmppHerald.HandlerResponses
import SmppHerald.Relay

namespace SmppHerald.BindHandshake

open SmppHerald.Buffer
open SmppHerald.ByteParser
open SmppHerald.ClientConnection
open SmppHerald.CommandIds
open SmppHerald.DecodedMessage
open SmppHerald.Encodability
open SmppHerald.EncodedLayout
open SmppHerald.FieldCodecs
open SmppHerald.Interaction
open SmppHerald.Io
open SmppHerald.Json
open SmppHerald.Message
open SmppHerald.PduFormat
open SmppHerald.ResponseEncoding
open SmppHerald.ServerConnection (ServerContext handleMessage)
open SmppHerald.ServerMessage
open SmppHerald.Utf8
open SmppHerald.WireFormat

section Request

/-- No text ends before its end. -/
structure Sendable (config : ClientConnection.SmscConnectionConfig) : Prop where
  systemId : (0 : UInt8) ∉ bytes config.systemId
  password : (0 : UInt8) ∉ bytes config.password
  systemType : (0 : UInt8) ∉ bytes config.systemType
  addressRange : (0 : UInt8) ∉ bytes config.addressRange

def bindFields : List CommandField :=
  [("system_id", none), ("password", none), ("system_type", none),
   ("interface_version", some (.ofNat 0x34)), ("addr_ton", some (.ofNat 0)),
   ("addr_npi", some (.ofNat 0)), ("address_range", none)]

/-- What the fields of a bind say. -/
def presented (config : ClientConnection.SmscConnectionConfig) : Map :=
  [("system_id", .string config.systemId), ("password", .string config.password),
   ("system_type", .string config.systemType),
   ("interface_version", .ofNat config.interfaceVersion.toNat),
   ("addr_ton", .ofNat config.addrTon.toNat), ("addr_npi", .ofNat config.addrNpi.toNat),
   ("address_range", .string config.addressRange)]

def bindBody (config : ClientConnection.SmscConnectionConfig) : Bytes :=
  writeCOctetStr config.systemId ++ (writeCOctetStr config.password ++
    (writeCOctetStr config.systemType ++ (writeU8 config.interfaceVersion ++
      (writeU8 config.addrTon ++ (writeU8 config.addrNpi ++
        (writeCOctetStr config.addressRange ++ []))))))

/-- A decoded bind of the client. -/
structure Presents (connection : ClientConnection.SmscConnection) (n : UInt32)
    (message : Value) : Prop where
  command : extractCommandId message = some (bindCommand connection.bindType)
  sequenceNumber : (message.u64Field "sequence_number").toUInt32 = n
  fields : ∀ entry ∈ presented connection.config, message.get entry.1 = some entry.2

variable {connection : ClientConnection.SmscConnection} {n : UInt32}

theorem bindCommand_cases (bindType : String) : bindCommand bindType = .bindTransmitter ∨
    bindCommand bindType = .bindReceiver ∨ bindCommand bindType = .bindTransceiver := by
  unfold bindCommand
  split
  · exact .inl rfl
  · split
    · exact .inr (.inl rfl)
    · split <;> exact .inr (.inr rfl)

theorem bindTable (bindType : String) :
    messageCommandFields (bindCommand bindType).asU32 = some bindFields := by
  rcases bindCommand_cases bindType with h | h | h <;> rw [h] <;> rfl

theorem consumes_text {name : String} {default : Option Value} {s : String} (maxLength : Nat)
    (hcodec : fieldCodecs name = some (.cOctetStr maxLength)) (hnul : (0 : UInt8) ∉ bytes s) :
    Consumes (decodeField (name, default)) (writeCOctetStr s) (name, .string s) := by
  have hdecode : Consumes (FieldCodec.decode (.cOctetStr maxLength)) (writeCOctetStr s)
      (.string s) := by
    rw [FieldCodec.decode]
    exact ((consumes_readCOctetStr hnul).mapError _).bind_pure Value.string
  simp only [decodeField, hcodec]
  exact (hdecode.mapError _).bind_pure fun value => (name, value)

theorem consumes_octet {name : String} {default : Option Value}
    (hcodec : fieldCodecs name = some .u8) (octet : UInt8) :
    Consumes (decodeField (name, default)) (writeU8 octet) (name, .ofNat octet.toNat) := by
  have hdecode := (Represents.u8 octet).decode rfl
  simp only [decodeField, hcodec]
  exact (hdecode.mapError _).bind_pure fun value => (name, value)

theorem consumes_cons {field : CommandField} {fields : List CommandField} {octets rest : Bytes}
    {entry : String × Value} {entries : Map} (hfield : Consumes (decodeField field) octets entry)
    (hfields : Consumes (decodeMandatory fields) rest entries) :
    Consumes (decodeMandatory (field :: fields)) (octets ++ rest) (entry :: entries) :=
  hfield.bind (hfields.bind_pure _)

theorem consumes_bindBody {config : ClientConnection.SmscConnectionConfig}
    (h : Sendable config) :
    Consumes (decodeMandatory bindFields) (bindBody config) (presented config) := by
  apply consumes_cons (consumes_text 16 rfl h.systemId)
  apply consumes_cons (consumes_text 9 rfl h.password)
  apply consumes_cons (consumes_text 13 rfl h.systemType)
  apply consumes_cons (consumes_octet rfl config.interfaceVersion)
  apply consumes_cons (consumes_octet rfl config.addrTon)
  apply consumes_cons (consumes_octet rfl config.addrNpi)
  apply consumes_cons (consumes_text 41 rfl h.addressRange)
  exact consumes_pure []

theorem exists_bindMessage (connection : ClientConnection.SmscConnection) (n : UInt32) :
    ∃ length, bindMessage connection n =
      header length (bindCommand connection.bindType).asU32 0 n ++ bindBody connection.config := by
  refine ⟨_, Eq.trans ?_ (updateLength_header 0 _ 0 n (bindBody connection.config))⟩
  simp only [bindMessage, header, bindBody, List.append_assoc, List.append_nil]

theorem presented_notMem_headerNames {config : ClientConnection.SmscConnectionConfig}
    {entry : String × Value} (h : entry ∈ presented config) : entry.1 ∉ headerNames := by
  have hnames : ∀ name ∈ (presented config).map Prod.fst, name ∉ headerNames := by
    simp [presented, headerNames]
  exact hnames entry.1 (List.mem_map_of_mem h)

theorem exists_presented (h : Sendable connection.config) (n : UInt32) :
    ∃ message, toJson (bindMessage connection n) = .ok message ∧ Presents connection n message := by
  obtain ⟨length, hbind⟩ := exists_bindMessage connection n
  have hread : decodeBody (bindCommand connection.bindType).asU32 0 n
      (bindBody connection.config ++ []) = _ :=
    Delimiting.decodeBody_fields (bindTable connection.bindType) (consumes_bindBody h) 0 n
  rw [List.append_nil] at hread
  have hdecode : toJson (bindMessage connection n) = .ok (.object (insertAll
      (headerEntries (bindCommand connection.bindType).asU32 0 n ++
        presented connection.config ++ []) [])) := by
    rw [hbind, toJson_header, hread]
    rfl
  obtain ⟨decoded, hvalue, hid, -⟩ := exists_decoded_words hdecode
  refine ⟨_, hdecode, ?_, ?_, ?_⟩
  · rw [← hvalue, decoded.extractCommandId_value, hid, hbind, commandIdOf_header]
    rcases bindCommand_cases connection.bindType with h | h | h <;> rw [h] <;> rfl
  · rw [sequenceField_of_toJson hdecode, hbind, sequenceNumberOf_header]
  · intro entry hentry
    refine lookup_insertAll_of_agree ?_ ⟨entry, by simp [hentry], rfl⟩
    intro other hother hsame
    rw [List.append_nil] at hother
    rcases List.mem_append.mp hother with hheader | hfield
    · have hname := headerEntries_names hheader
      rw [hsame] at hname
      exact absurd hname (presented_notMem_headerNames hentry)
    · have hnodup : ((presented connection.config).map Prod.fst).Nodup := by
        simp [presented]
      rw [List.inj_on_of_nodup_map hnodup hfield hentry hsame]

end Request

section Answer

open SmppHerald.Delimiting
open SmppHerald.HandlerResponses

variable {namedTlvFields : NamedTlvFields} {message : Value} {pdu : SMPPMessage}

theorem exists_toJson_of_framed (h : fromJson namedTlvFields message = .ok pdu)
    (hframed : Framed message) (hfilled : ∀ field ∈ mandatoryFields message, ¬ Blank message field) :
    ∃ value, toJson pdu = .ok value := by
  obtain ⟨layout⟩ := exists_layout h
  have hentries : ∀ codec ∈ namedTlvFields.entries,
      codec ∈ createTlvFields ∧ TlvFits message codec := by
    intro codec hcodec
    have hknown := namedTlvFields.perm.mem_iff.mp hcodec
    exact ⟨hknown, hframed.tlvs codec hknown⟩
  obtain ⟨tlvs, -, htlvs⟩ := exists_tlvs layout.encodedTlvs hentries
  have hread : readTlvs layout.tlvs.flatten = .ok tlvs := by
    have hnil := htlvs []
    rw [List.append_nil] at hnil
    exact hnil.trans (by simp [readTlvs, decodeTlvs, Except.map])
  rcases settled_fields layout.encodedFields hframed.fields with ⟨-, entries, hconsumes⟩ |
    ⟨⟨field, hfield, hblank⟩, -⟩
  · rw [toJson_layout layout hframed.header,
      decodeBody_fields layout.table hconsumes, hread]
    exact ⟨_, rfl⟩
  · exact absurd hblank (hfilled field hfield)

variable {commandId : CommandId} {n status : UInt32} {systemId : String} {version : UInt8}

theorem keepsHeader_bindResponse : KeepsHeader status
    [("system_id", .string systemId), ("sc_interface_version", .ofNat version.toNat)] := by
  simp [KeepsHeader]

theorem get_bindResponse_tlv {codec : TLVFieldCodec} (hcodec : codec ∈ createTlvFields)
    {s : String} : (bindResponse commandId.asU32 n status systemId version).get codec.name ≠
      some (.string s) := by
  have hname : codec.name ≠ "system_id" := by
    revert codec
    decide
  rw [bindResponse, get_response_field (tlvName_notMem_headerNames hcodec)]
  simp only [List.reverse_cons, List.reverse_nil, List.nil_append, List.singleton_append,
    List.lookup_cons, List.lookup_nil, beq_false_of_ne hname]
  split
  · simp [Value.ofNat]
  · simp

theorem mandatoryFields_response {command : UInt32} {fields : Map}
    {responseFields : List CommandField}
    (hresponse : messageCommandFields (0x80000000 ||| command) = some responseFields)
    (h : KeepsHeader status fields) :
    mandatoryFields (createJsonResponse command n status fields) = responseFields := by
  obtain ⟨found, hid, hstr⟩ := exists_command hresponse
  have hextract : extractCommandId (createJsonResponse command n status fields) = some found := by
    rw [extractCommandId, get_response_commandId h]
    exact hstr
  rw [mandatoryFields, hextract, Option.bind_some, hid, hresponse, Option.getD_some]

theorem headerWritten_of_supplies {statusWord number : UInt32}
    (hstatus : Supplies message "command_status" statusWord)
    (hnumber : Supplies message "sequence_number" number) : HeaderWritten message := by
  intro key hkey
  simp only [List.mem_cons, List.not_mem_nil, or_false] at hkey
  rcases hkey with rfl | rfl
  · rw [show (message.get "command_status").getD (.ofNat 0) = _ from hstatus]
    rfl
  · rw [show (message.get "sequence_number").getD (.ofNat 0) = _ from hnumber]
    rfl

theorem framed_bindResponse
    (hresponse : messageCommandFields (0x80000000 ||| commandId.asU32) = some [("system_id", none)])
    (hnul : (0 : UInt8) ∉ bytes systemId) :
    Framed (bindResponse commandId.asU32 n status systemId version) ∧
      ∀ field ∈ mandatoryFields (bindResponse commandId.asU32 n status systemId version),
        ¬ Blank (bindResponse commandId.asU32 n status systemId version) field := by
  have hkeeps : KeepsHeader status
      [("system_id", .string systemId), ("sc_interface_version", .ofNat version.toNat)] :=
    keepsHeader_bindResponse
  have hmandatory : mandatoryFields (bindResponse commandId.asU32 n status systemId version) =
      [("system_id", none)] := mandatoryFields_response hresponse hkeeps
  have hget : (bindResponse commandId.asU32 n status systemId version).get "system_id" =
      some (.string systemId) := get_response_field (by decide)
  refine ⟨⟨headerWritten_of_supplies (supplies_status hkeeps) (supplies_sequenceNumber hkeeps),
    ?_, ?_⟩, ?_⟩
  · rw [hmandatory, List.forall_mem_singleton]
    left
    intro codec value hcodec hvalue
    obtain rfl : FieldCodec.cOctetStr 16 = codec := Option.some.inj hcodec
    rw [hget] at hvalue
    obtain rfl := Option.some.inj hvalue
    exact delimited_text fun hmem => hnul (List.mem_of_mem_take hmem)
  · intro codec hcodec _ s hs
    exact absurd hs (get_bindResponse_tlv hcodec)
  · rw [hmandatory, List.forall_mem_singleton]
    rintro ⟨hcodec, -⟩
    cases Option.some.inj hcodec

theorem exists_decoded_response {command : UInt32} {fields : Map}
    {responseFields : List CommandField}
    (hresponse : messageCommandFields (0x80000000 ||| command) = some responseFields)
    (h : KeepsHeader status fields) {octets : SMPPMessage} {value : Value}
    (hencode : fromJson namedTlvFields (createJsonResponse command n status fields) = .ok octets)
    (hvalue : toJson octets = .ok value) :
    ∃ decoded : Decoded, decoded.value = value ∧ decoded.commandId = 0x80000000 ||| command ∧
      decoded.commandStatus = status ∧ decoded.sequenceNumber = n := by
  rw [fromJson_response hresponse h] at hencode
  obtain ⟨length, body, rfl⟩ :=
    exists_header_of_encode hencode (supplies_status h) (supplies_sequenceNumber h)
  rw [toJson_header] at hvalue
  exact exists_decoded_of_decodeBody hvalue

/-- The answer to a bind is sent, and the client takes it for what it is. -/
theorem exists_bindAnswer
    (hresponse : messageCommandFields (0x80000000 ||| commandId.asU32) = some [("system_id", none)])
    (hextract : CommandId.fromU32 (0x80000000 ||| commandId.asU32) = some .bindTransmitterResp ∨
      CommandId.fromU32 (0x80000000 ||| commandId.asU32) = some .bindReceiverResp ∨
        CommandId.fromU32 (0x80000000 ||| commandId.asU32) = some .bindTransceiverResp)
    (hnul : (0 : UInt8) ∉ bytes systemId) (hcut : Truncatable 16 systemId) :
    ∃ octets, fromJson namedTlvFields (bindResponse commandId.asU32 n status systemId version) =
        .ok octets ∧
      (bindResult (some octets) = .ok () ↔ status = CommandStatus.esmeRok.asU32) := by
  have hencodes : ∃ octets, fromJson namedTlvFields
      (bindResponse commandId.asU32 n status systemId version) = .ok octets :=
    (encodes_bind_iff hresponse systemId version).mpr hcut
  obtain ⟨octets, hencode⟩ := hencodes
  refine ⟨octets, hencode, ?_⟩
  obtain ⟨hframed, hfilled⟩ : Framed (bindResponse commandId.asU32 n status systemId version) ∧ _ :=
    framed_bindResponse hresponse hnul
  obtain ⟨value, hvalue⟩ := exists_toJson_of_framed hencode hframed hfilled
  obtain ⟨decoded, rfl, hid, hstatus, -⟩ :=
    exists_decoded_response hresponse keepsHeader_bindResponse hencode hvalue
  have hget : decoded.value.get "command_status" = some (.ofNat status.toNat) :=
    hstatus ▸ decoded.get_header (by simp [headerEntries])
  have hok : isBindOk decoded.value = true ↔ status = CommandStatus.esmeRok.asU32 := by
    have hword : isBindOk decoded.value =
        decide (status.toUInt64 = CommandStatus.esmeRok.asU32.toUInt64) := by
      rw [isBindOk, decoded.extractCommandId_value, hid, hget]
      rcases hextract with h | h | h <;> rw [h] <;> simp [Value.asU64, Value.ofNat, Number.asU64]
    rw [hword, decide_eq_true_iff, UInt32.toUInt64_inj]
  rw [bindResult, hvalue]
  simp only
  rw [← hok]
  split
  · rename_i h
    exact iff_of_true rfl h
  · rename_i h
    exact iff_of_false (by simp) h

end Answer

section Conversation

open SmppHerald.HandlerResponses

variable {server : ServerContext} {connection : ClientConnection.SmscConnection}
  {clientLog : List (Event ClientConnection.Reply)} {clientResult : Except IoError Unit}

/-- What the server does about a bind, and what the client makes of the answer if that is what it
receives. -/
structure Agrees (connection : ClientConnection.SmscConnection)
    (clientLog : List (Event ClientConnection.Reply)) (clientResult : Except IoError Unit)
    (serverLog : List (Event ServerConnection.Reply)) (accepted : Bool) : Prop where
  asked : serverLog.head? = some
    ⟨.authenticate connection.config.systemId connection.config.password, accepted⟩
  answered : ∃ octets, written serverLog = [octets] ∧
    (⟨.receive, some octets⟩ ∈ clientLog → (clientResult = .ok () ↔ accepted = true))
  keepsAlive : ⟨.startEnquireLinkTask, ()⟩ ∈ serverLog ↔ accepted = true
  registers : ⟨.addClient connection.config.addressRange, ()⟩ ∈ serverLog ↔
    ∃ octets, ⟨.write octets, .ok ()⟩ ∈ serverLog

theorem bound_of_run (h : Run (doBind connection) clientLog (some clientResult)) {pdu : SMPPMessage}
    (hsent : ⟨.writeAll pdu, .ok ()⟩ ∈ clientLog) :
    ∃ n, pdu = bindMessage connection n ∧
      ∀ octets, ⟨.receive, some octets⟩ ∈ clientLog → clientResult = bindResult (some octets) := by
  obtain ⟨n, log, rfl, hlock⟩ := (run_act_iff _ _ _ _).mp h
  obtain ⟨connected, log, rfl, hsend⟩ := (run_act_iff _ _ _ _).mp hlock
  cases connected with
  | false =>
      obtain ⟨u, log, rfl, hfailed⟩ := (run_act_iff _ _ _ _).mp hsend
      obtain ⟨rfl, -⟩ := (run_ret_iff _ _ _).mp hfailed
      simp at hsent
  | true =>
      obtain ⟨sent, log, rfl, hunlock⟩ := (run_act_iff _ _ _ _).mp hsend
      obtain ⟨u, log, rfl, hreceive⟩ := (run_act_iff _ _ _ _).mp hunlock
      cases sent with
      | error e =>
          obtain ⟨rfl, -⟩ := (run_ret_iff _ _ _).mp hreceive
          simp at hsent
      | ok v =>
          obtain ⟨received, log, rfl, hreturn⟩ := (run_act_iff _ _ _ _).mp hreceive
          obtain ⟨rfl, hresult⟩ := (run_ret_iff _ _ _).mp hreturn
          refine ⟨n, by simpa using hsent, fun octets hoctets => ?_⟩
          obtain rfl : some octets = received := by simpa using hoctets
          exact Option.some.inj hresult

theorem run_send {octets : Bytes} {text : String}
    {log : List (Event ServerConnection.Reply)} {result : Option (Except IoError Unit)}
    (h : Run (ServerConnection.send octets text) log result) :
    ∃ sent, log = [⟨.write octets, sent⟩] ∧
      result = some (ServerConnection.mapIoError text sent) := by
  obtain ⟨sent, rest, rfl, hreturn⟩ := (run_act_iff _ _ _ _).mp h
  obtain ⟨rfl, rfl⟩ := (run_ret_iff _ _ _).mp hreturn
  exact ⟨sent, rfl, rfl⟩

theorem run_answerBind {commandId n : UInt32} {systemId : String} {status : CommandStatus}
    {octets : Bytes} (hencode : fromJson server.namedTlvFields
      (bindResponse commandId n status.asU32 systemId server.config.interfaceVersion) = .ok octets)
    {log : List (Event ServerConnection.Reply)} {result : Option (Except IoError Unit)}
    (h : Run (ServerConnection.answerBind server commandId n systemId status) log result) :
    ∃ sent, log = (if status = .esmeRok then [⟨.startEnquireLinkTask, ()⟩] else []) ++
        [⟨.write octets, sent⟩] ∧
      result = some (ServerConnection.mapIoError "Failed to send bind response: " sent) := by
  unfold ServerConnection.answerBind ServerConnection.encodeOrEmpty at h
  rw [← bindResponse, hencode] at h
  change Run (if status = .esmeRok then _ else _) log result at h
  split at h
  · rename_i hok
    obtain ⟨u, rest, rfl, hsend⟩ := (run_act_iff _ _ _ _).mp h
    obtain ⟨sent, rfl, rfl⟩ := run_send hsend
    exact ⟨sent, by rw [if_pos hok]; rfl, rfl⟩
  · rename_i hok
    obtain ⟨sent, rfl, rfl⟩ := run_send h
    exact ⟨sent, by rw [if_neg hok]; rfl, rfl⟩

theorem responseTable (bindType : String) :
    messageCommandFields (0x80000000 ||| (bindCommand bindType).asU32) =
        some [("system_id", none)] ∧
      (CommandId.fromU32 (0x80000000 ||| (bindCommand bindType).asU32) = some .bindTransmitterResp ∨
        CommandId.fromU32 (0x80000000 ||| (bindCommand bindType).asU32) = some .bindReceiverResp ∨
          CommandId.fromU32 (0x80000000 ||| (bindCommand bindType).asU32) =
            some .bindTransceiverResp) := by
  rcases bindCommand_cases bindType with h | h | h
  · rw [h]
    exact ⟨rfl, .inl rfl⟩
  · rw [h]
    exact ⟨rfl, .inr (.inl rfl)⟩
  · rw [h]
    exact ⟨rfl, .inr (.inr rfl)⟩

theorem handleMessage_bind {message : Value} {n : UInt32} (h : Presents connection n message) :
    handleMessage server message = ServerConnection.handleBindRequest server
      (bindCommand connection.bindType).asU32 n message := by
  unfold handleMessage
  rw [h.command, h.sequenceNumber]
  rcases bindCommand_cases connection.bindType with h | h | h <;> rw [h]

theorem strField_presented {message : Value} {n : UInt32} (h : Presents connection n message)
    {name text : String} (hentry : (name, .string text) ∈ presented connection.config) :
    message.strField name = text := by
  rw [Value.strField, h.fields _ hentry]
  rfl

theorem accepted_status (accepted : Bool) :
    (if accepted = true then CommandStatus.esmeRok else .esmeRBindFail) = .esmeRok ↔
      accepted = true := by
  cases accepted <;> simp

theorem run_handleBindRequest {commandId n : UInt32} {message : Value} {octets : Bool → Bytes}
    (hencode : ∀ accepted : Bool, fromJson server.namedTlvFields (bindResponse commandId n
      (if accepted = true then CommandStatus.esmeRok else .esmeRBindFail).asU32
      (message.strField "system_id") server.config.interfaceVersion) = .ok (octets accepted))
    {log : List (Event ServerConnection.Reply)} {result : Option (Except IoError Unit)}
    (h : Run (ServerConnection.handleBindRequest server commandId n message) log result) :
    ∃ accepted sent, result = some (.ok ()) ∧
      log = ⟨.authenticate (message.strField "system_id") (message.strField "password"),
          accepted⟩ ::
        ((if accepted = true then [⟨.startEnquireLinkTask, ()⟩] else []) ++
          ⟨.write (octets accepted), sent⟩ ::
            if sent.isOk = true then [⟨.addClient (message.strField "address_range"), ()⟩]
            else []) := by
  unfold ServerConnection.handleBindRequest at h
  rcases (run_bind_iff _ _ _ _).mp h with ⟨hbind, -⟩ | ⟨outcome, first, second, rfl, hbind, hnext⟩
  · obtain ⟨accepted, rest, rfl, hanswer⟩ := (run_act_iff _ _ _ _).mp hbind
    obtain ⟨sent, -, hresult⟩ := run_answerBind (hencode accepted) hanswer
    cases hresult
  · obtain ⟨accepted, rest, rfl, hanswer⟩ := (run_act_iff _ _ _ _).mp hbind
    obtain ⟨sent, rfl, hresult⟩ := run_answerBind (hencode accepted) hanswer
    obtain rfl := Option.some.inj hresult
    refine ⟨accepted, sent, ?_⟩
    simp only [accepted_status, List.cons_append, List.append_assoc, List.nil_append]
    cases sent with
    | ok v =>
        obtain ⟨u, last, rfl, hreturn⟩ := (run_act_iff _ _ _ _).mp hnext
        obtain ⟨rfl, rfl⟩ := (run_ret_iff _ _ _).mp hreturn
        exact ⟨rfl, rfl⟩
    | error e =>
        obtain ⟨rfl, rfl⟩ := (run_ret_iff _ _ _).mp hnext
        exact ⟨rfl, rfl⟩

/-- The client takes itself to be bound exactly when the server has accepted the system id and the
password that the client is configured with. -/
theorem bind_agreed (server : ServerContext) (hsendable : Sendable connection.config)
    (hcut : Truncatable 16 connection.config.systemId)
    (hclient : Run (doBind connection) clientLog (some clientResult)) {pdu : SMPPMessage}
    (hsent : ⟨.writeAll pdu, .ok ()⟩ ∈ clientLog) :
    ∃ message, toJson pdu = .ok message ∧ ∀ serverLog serverResult,
      Run (handleMessage server message) serverLog serverResult →
        serverResult = some (.ok ()) ∧
          ∃ accepted, Agrees connection clientLog clientResult serverLog accepted := by
  obtain ⟨n, rfl, hbound⟩ := bound_of_run hclient hsent
  obtain ⟨message, hdecode, hpresents⟩ := exists_presented hsendable n
  refine ⟨message, hdecode, fun serverLog serverResult hserver => ?_⟩
  have hsystemId : message.strField "system_id" = connection.config.systemId :=
    strField_presented hpresents (by simp [presented])
  have hpassword : message.strField "password" = connection.config.password :=
    strField_presented hpresents (by simp [presented])
  have haddressRange : message.strField "address_range" = connection.config.addressRange :=
    strField_presented hpresents (by simp [presented])
  obtain ⟨hresponse, hextract⟩ := responseTable connection.bindType
  rw [handleMessage_bind hpresents] at hserver
  have hanswers : ∀ accepted : Bool, ∃ octets, fromJson server.namedTlvFields
      (bindResponse (bindCommand connection.bindType).asU32 n
        (if accepted = true then CommandStatus.esmeRok else .esmeRBindFail).asU32
        (message.strField "system_id") server.config.interfaceVersion) = .ok octets ∧
      (bindResult (some octets) = .ok () ↔ accepted = true) := by
    intro accepted
    rw [hsystemId]
    obtain ⟨octets, hencode, hresult⟩ := exists_bindAnswer hresponse hextract hsendable.systemId hcut
    refine ⟨octets, hencode, hresult.trans ?_⟩
    cases accepted <;> decide
  choose octets hencode hresult using hanswers
  obtain ⟨accepted, sent, rfl, rfl⟩ := run_handleBindRequest hencode hserver
  rw [hsystemId, hpassword, haddressRange]
  refine ⟨rfl, accepted, rfl, ⟨octets accepted, ?_, fun hreceived => ?_⟩, ?_, ?_⟩
  · cases accepted <;> cases sent <;> rfl
  · rw [hbound _ hreceived]
    exact hresult accepted
  · cases accepted <;> cases sent <;> simp [Except.isOk, Except.toBool]
  · cases accepted <;> cases sent <;> simp [Except.isOk, Except.toBool]

def boundConnection : ClientConnection.SmscConnection :=
  { ClientRun.exampleConnection with config := ⟨"esme", "secret", "", 0, 0, "49", 0x34⟩ }

/-- The client receives that answer. -/
def receiving (answer : SMPPMessage) : (c : ClientCall) → ClientConnection.Reply c
  | .receive => some answer
  | c => ClientRun.willing c

/-- The client is told that its bind was accepted. -/
def boundRun : List (Event ClientConnection.Reply) × Option (Except IoError Unit) :=
  execute (receiving ClientRun.bindTransceiverRespPdu) (doBind boundConnection)

theorem bind_agreed_boundRun :
    ∃ message, toJson (bindMessage boundConnection 1) = .ok message ∧ ∀ serverLog serverResult,
      Run (handleMessage Relay.plainServer message) serverLog serverResult →
        serverResult = some (.ok ()) ∧
          ∃ accepted, Agrees boundConnection boundRun.1 (.ok ()) serverLog accepted := by
  have hsendable : Sendable boundConnection.config := by
    constructor <;> decide
  have hcut : Truncatable 16 boundConnection.config.systemId := .inl (by decide)
  have hlog : boundRun.1 = [⟨.nextSequenceNumber, 1⟩, ⟨.lockWriter, true⟩,
      ⟨.writeAll (bindMessage boundConnection 1), .ok ()⟩, ⟨.unlockWriter, ()⟩,
      ⟨.receive, some ClientRun.bindTransceiverRespPdu⟩] := rfl
  have hresult : boundRun.2 = some (bindResult (some ClientRun.bindTransceiverRespPdu)) := rfl
  have hok : bindResult (some ClientRun.bindTransceiverRespPdu) = .ok () := by decide +kernel
  have hrun : Run (doBind boundConnection) boundRun.1 (some (.ok ())) := by
    rw [← hok, ← hresult]
    exact run_execute _ _
  exact bind_agreed Relay.plainServer hsendable hcut hrun (by simp [hlog])

end Conversation

end SmppHerald.BindHandshake
