import SmppHerald.ClientRun
import SmppHerald.Library.SharedWriter
import SmppHerald.ReceiveBuffer
import SmppHerald.ServerAnswers

namespace SmppHerald.WireStreams

open SmppHerald.Buffer
open SmppHerald.ByteParser
open SmppHerald.CommandIds
open SmppHerald.EncodedLayout
open SmppHerald.FieldCodecs
open SmppHerald.HeaderLayout
open SmppHerald.Interaction
open SmppHerald.Io
open SmppHerald.Json
open SmppHerald.Message
open SmppHerald.PduFormat
open SmppHerald.ReceiveBuffer
open SmppHerald.ResponseEncoding
open SmppHerald.ServerAnswers
open SmppHerald.ServerMessage
open SmppHerald.SharedWriter
open SmppHerald.StreamFraming
open SmppHerald.TransitionSystem

section ServerFrames

open SmppHerald.HandlerCalls
open SmppHerald.ServerConnection
open SmppHerald.TransactionMode

variable {server : ServerContext} {message : Value} {octets : Bytes}

theorem framed_handleScheduleDeliveryMessage (message : Value) :
    Calls WritesFramed (handleScheduleDeliveryMessage server message) := by
  have hsend : ∀ {commandId}, extractCommandId message = some commandId →
      isForwarded commandId = true → ∀ number,
      Calls WritesFramed (forwardMessageToClient server (asDeliverSm number message)) := by
    intro commandId hcommand his number
    refine framed_forwardMessageToClient (Forwarded.asDeliverSm ?_ number)
    intro commandId' hcommand'
    rw [hcommand] at hcommand'
    obtain rfl := Option.some.inj hcommand'
    exact his
  unfold handleScheduleDeliveryMessage
  split
  · exact Calls.bind (calls_perform.mpr trivial) fun number => hsend ‹_› rfl number
  · exact Calls.bind (calls_perform.mpr trivial) fun number => hsend ‹_› rfl number
  · simp

theorem framed_handleRestRequest (payload : Value) :
    Calls WritesFramed (handleRestRequest server payload) := by
  unfold handleRestRequest
  split
  · rename_i octets hencode
    simp only
    split
    · rename_i hdeliver
      obtain ⟨layout⟩ := exists_layout hencode
      have hid : commandIdOf octets = layout.commandId.asU32 :=
        (congrArg commandIdOf layout.octets).trans (wordAt_append (length_beBytes 4 _) _ _)
      have hcommand : layout.commandId = .deliverSm := by
        obtain ⟨word, hword, hfrom⟩ := Option.bind_eq_some_iff.mp hdeliver
        rw [ClientConnection.getCommandId] at hword
        split at hword
        · obtain rfl := Option.some.inj hword
          rw [hid] at hfrom
          generalize layout.commandId = commandId at hfrom
          revert hfrom
          cases commandId <;> decide
        · cases hword
      refine Calls.bind (calls_perform.mpr ?_) fun _ => by simp
      refine framed_of_forwarded ?_ hencode
      intro commandId hcommand'
      rw [layout.command, hcommand] at hcommand'
      obtain rfl := Option.some.inj hcommand'
      rfl
    · simp
  · simp
  · simp

theorem framed_enquireLinkRound : Calls WritesFramed (enquireLinkRound server) := by
  unfold enquireLinkRound
  refine Calls.bind (calls_perform.mpr trivial) fun number => ?_
  refine (returns_encodeOrEmpty (.inl rfl) fun octets hencode => ?_).bindCalls fun octets hoctets =>
    calls_perform.mpr hoctets
  have hstatus : Supplies (createJsonRequest CommandId.enquireLink.asU32 number [])
      "command_status" 0 := by
    rw [Supplies, createJsonRequest, Value.get, lookup_insertAll]
    rfl
  have hsequence : Supplies (createJsonRequest CommandId.enquireLink.asU32 number [])
      "sequence_number" number := by
    rw [Supplies, createJsonRequest, Value.get, lookup_insertAll]
    rfl
  exact framed_of_supplies hencode hstatus hsequence

theorem framed_startEnquireLinkTask (ticks : Nat) :
    Calls WritesFramed (startEnquireLinkTask server ticks) := by
  induction ticks with
  | zero => simp [startEnquireLinkTask]
  | succ ticks ih =>
      refine framed_enquireLinkRound.bind fun written => ?_
      cases written with
      | ok value => exact ih
      | error e => simp

/-- The octets that some task of the server puts on a socket while it has the mutex of its writer. -/
inductive ServerFrame (server : ServerContext) : Bytes → Prop
  | answer {message : Value} {octets : Bytes} : Makes (handleMessage server message) (.write octets) →
      ServerFrame server octets
  | forward {message : Value} {address : String} {octets : Bytes} :
      Makes (handleMessage server message) (.sendMessage address octets) →
      ServerFrame server octets
  -- the task that a message in datagram mode is left to
  | forwardLater {message deliverSm : Value} {address : String} {octets : Bytes} :
      Makes (handleMessage server message) (.spawnForward deliverSm) →
      Makes (forwardMessageToClient server deliverSm) (.sendMessage address octets) →
      ServerFrame server octets
  | schedule {message : Value} {address : String} {octets : Bytes} :
      Makes (handleScheduleDeliveryMessage server message) (.sendMessage address octets) →
      ServerFrame server octets
  | inject {payload : Value} {address : String} {octets : Bytes} :
      Makes (handleRestRequest server payload) (.sendMessage address octets) →
      ServerFrame server octets
  | enquire {ticks : Nat} {octets : Bytes} :
      Makes (startEnquireLinkTask server ticks) (.write octets) → ServerFrame server octets
  | shutdown {message : Value} : Makes (handleMessage server message) .shutdown → ServerFrame server []

theorem ServerFrame.framed (h : ServerFrame server octets) : Framed octets := by
  cases h with
  | answer hmakes => exact (framed_handleMessage _).makes hmakes
  | forward hmakes => exact (framed_handleMessage _).makes hmakes
  | forwardLater hspawns hmakes =>
      have hforwarded := (framed_handleMessage _).makes hspawns
      exact (framed_forwardMessageToClient hforwarded).makes hmakes
  | schedule hmakes => exact (framed_handleScheduleDeliveryMessage _).makes hmakes
  | inject hmakes => exact (framed_handleRestRequest _).makes hmakes
  | enquire hmakes => exact (framed_startEnquireLinkTask _).makes hmakes
  | shutdown _ => exact .inl rfl

end ServerFrames

section ClientFrames

open SmppHerald.ClientConnection

variable {connection : SmscConnection} {message octets : SMPPMessage}

def SendsFramed : ClientCall → Prop
  | .writeAll octets => Framed octets
  | _ => True

theorem framed_sendMessage (h : Framed message) : Calls SendsFramed (sendMessage message) := by
  have hlocked : Calls SendsFramed (sendLocked message) := by
    refine ⟨h, fun written => ?_⟩
    cases written with
    | error e => trivial
    | ok value =>
        change Calls SendsFramed (ite _ _ _)
        split
        · refine ⟨trivial, fun awaited => ?_⟩
          cases awaited <;> trivial
        · trivial
  have hunlock : ∀ connected, Calls SendsFramed (sendAndUnlock message connected) := by
    intro connected
    cases connected with
    | true => exact hlocked.bind fun result => ⟨trivial, fun _ => trivial⟩
    | false => exact ⟨trivial, fun _ => trivial⟩
  rw [sendMessage_eq]
  split
  · exact ⟨trivial, fun _ => ⟨trivial, hunlock⟩⟩
  · exact ⟨trivial, hunlock⟩

theorem framed_sent (h : Framed message) :
    Calls SendsFramed (do
      match ← sendMessage message with
      | .ok _ => return (.ok () : Except IoError Unit)
      | .error e => return .error e) := by
  refine (framed_sendMessage h).bind fun result => ?_
  cases result <;> trivial

theorem framed_processEnquireLink :
    Calls SendsFramed (processEnquireLink connection message) := by
  unfold processEnquireLink
  split
  · trivial
  · trivial
  · rename_i hencode
    exact framed_sent (framed_of_supplies hencode
      (show Supplies _ "command_status" 0 from rfl) (show Supplies _ "sequence_number" _ from rfl))

theorem framed_handleDeliverSm (decodedMessage : Value) :
    Calls SendsFramed (handleDeliverSm connection message decodedMessage) := by
  have hfind : Calls SendsFramed (findReceiptUrl decodedMessage) := by
    unfold findReceiptUrl
    simp only
    split
    · exact calls_perform.mpr trivial
    · trivial
  refine hfind.bind fun receiptUrl => ?_
  cases receiptUrl with
  | some receiptUrl => exact ⟨trivial, fun _ => trivial⟩
  | none =>
      refine ⟨trivial, fun handled => ?_⟩
      change Calls SendsFramed (sendDeliverSmResp connection _ _ _)
      unfold sendDeliverSmResp
      split
      · trivial
      · trivial
      · rename_i encoded hencode
        refine framed_sent (framed_response ?_ hencode)
        simp [KeepsHeader]

theorem framed_processInMessage :
    Calls SendsFramed (processInMessage connection message) := by
  unfold processInMessage
  simp only
  split
  · trivial
  · split
    · exact framed_processEnquireLink
    · trivial
    · exact framed_handleDeliverSm _
    · exact framed_handleDeliverSm _
    · trivial
    · trivial
    · split
      · exact ⟨trivial, fun _ => trivial⟩
      · trivial

theorem framed_sendEnquireLink : Calls SendsFramed (sendEnquireLink connection) := by
  refine Calls.bind (calls_perform.mpr trivial) fun number => ?_
  split
  · trivial
  · refine framed_sent ?_
    split
    · rename_i hencode
      exact framed_of_supplies hencode (show Supplies _ "command_status" 0 from rfl)
        (show Supplies _ "sequence_number" number from rfl)
    · exact .inl rfl

theorem framed_updateLength {buffer : SMPPMessage} (h : 16 ≤ buffer.length) :
    Framed (updateLength buffer) := by
  have hfour : (writeU32 (UInt32.ofNat buffer.length)).length = 4 := length_beBytes 4 _
  have hlength : (updateLength buffer).length = buffer.length := by
    rw [updateLength, List.length_append, hfour, List.length_drop]
    omega
  refine .inr ⟨by omega, ?_⟩
  rw [hlength, updateLength, List.take_left' hfour]

theorem framed_bindMessage (sequenceNumber : UInt32) :
    Framed (bindMessage connection sequenceNumber) := by
  apply framed_updateLength
  simp only [List.length_append, writeU32, length_beBytes]
  omega

theorem framed_establish (alarmActive : Bool) :
    Calls SendsFramed (establish connection alarmActive) := by
  have hsend : Calls SendsFramed (sendBindMessage connection) := by
    refine ⟨trivial, fun number => ⟨trivial, fun connected => ?_⟩⟩
    cases connected with
    | true =>
        exact ⟨framed_bindMessage number, fun sent => ⟨trivial, fun _ => trivial⟩⟩
    | false => exact ⟨trivial, fun _ => trivial⟩
  have hbind : Calls SendsFramed (doBind connection) := by
    refine hsend.bind fun sent => ?_
    cases sent with
    | error e => trivial
    | ok value => exact ⟨trivial, fun received => trivial⟩
  refine ⟨trivial, fun connected => ?_⟩
  cases connected with
  | error e => trivial
  | ok value =>
      refine ⟨trivial, fun _ => ⟨trivial, fun _ => ⟨trivial, fun _ => ?_⟩⟩⟩
      refine hbind.bind fun bound => ?_
      cases bound with
      | error e => trivial
      | ok value =>
          refine ⟨trivial, fun _ => ?_⟩
          change Calls SendsFramed (ite _ _ _)
          split
          · exact ⟨trivial, fun _ => trivial⟩
          · trivial

/-- The number that is written over the one of an encoded request leaves the frame whole. -/
theorem framed_smppApiHandler {namedTlvFields : NamedTlvFields} {payload : Value} {number : UInt32}
    (h : smppApiHandler namedTlvFields payload number = .ok (.ok message)) : Framed message := by
  unfold smppApiHandler at h
  split at h
  · cases h
  · cases h
  · rename_i encoded hencode
    split at h
    · cases h
    · split at h
      · obtain ⟨patched, hpatched, h⟩ := Outcome.bind_eq_ok_iff.mp h
        obtain rfl : patched = message := Except.ok.inj (Outcome.ok.inj h)
        rw [updateSequenceNumber] at hpatched
        split at hpatched
        · rename_i hlong
          obtain rfl := Outcome.ok.inj hpatched
          have htwelve : (encoded.take 12).length = 12 := List.length_take_of_le (by omega)
          have hlength : (encoded.take 12 ++ writeU32 number ++ encoded.drop 16).length =
              encoded.length := by
            simp only [List.length_append, htwelve, writeU32, length_beBytes, List.length_drop]
            omega
          refine .inr ⟨by omega, ?_⟩
          rw [hlength, ← take_four_of_fromJson hencode, List.append_assoc,
            List.take_append_of_le_length (by omega), List.take_take]
          rfl
        · cases hpatched
      · cases h

/-- The octets that some task of the client puts on its socket while it has the mutex of the
writer; who only replaces the writer puts nothing. -/
inductive ClientFrame (connection : SmscConnection) : Bytes → Prop
  | nothing : ClientFrame connection []
  | bind {alarmActive : Bool} {octets : Bytes} :
      Makes (establish connection alarmActive) (.writeAll octets) → ClientFrame connection octets
  | enquire {octets : Bytes} : Makes (sendEnquireLink connection) (.writeAll octets) →
      ClientFrame connection octets
  | incoming {message : SMPPMessage} {octets : Bytes} :
      Makes (processInMessage connection message) (.writeAll octets) → ClientFrame connection octets
  | submit {payload : Value} {number : UInt32} {message : SMPPMessage} {octets : Bytes} :
      smppApiHandler connection.namedTlvFields payload number = .ok (.ok message) →
      Makes (sendMessage message) (.writeAll octets) → ClientFrame connection octets

theorem ClientFrame.framed (h : ClientFrame connection octets) : Framed octets := by
  cases h with
  | nothing => exact .inl rfl
  | bind hmakes => exact (framed_establish _).makes hmakes
  | enquire hmakes => exact framed_sendEnquireLink.makes hmakes
  | incoming hmakes => exact framed_processInMessage.makes hmakes
  | submit hmessage hmakes =>
      exact (framed_sendMessage (framed_smppApiHandler hmessage)).makes hmakes

end ClientFrames

section Reading

variable {IsFrame : Bytes → Prop} {τ : Type} [DecidableEq τ] {s : WriterState τ UInt8}

theorem exists_pdu {frame : Bytes} (h : Framed frame) (hlt : frame.length < 2 ^ 32)
    (hne : frame ≠ []) : ∃ pdu : Pdu, pdu.octets = frame := by
  obtain hnil | ⟨hheader, hlength⟩ := h
  · exact absurd hnil hne
  · refine ⟨⟨frame, hheader, ?_⟩, rfl⟩
    rw [lengthField, hlength, beNat_writeU32, UInt32.toNat_ofNat_of_lt' hlt]

theorem exists_pdus {frames : List Bytes}
    (h : ∀ frame ∈ frames, ∃ pdu : Pdu, pdu.octets = frame) :
    ∃ pdus : List Pdu, pdus.map Pdu.octets = frames := by
  induction frames with
  | nil => exact ⟨[], rfl⟩
  | cons frame frames ih =>
      obtain ⟨⟨pdu, rfl⟩, hrest⟩ := List.forall_mem_cons.mp h
      obtain ⟨pdus, rfl⟩ := ih hrest
      exact ⟨pdu :: pdus, rfl⟩

/-- However much of the stream has arrived, and however it was cut into chunks, the peer takes the
first of the sent frames off its buffer and nothing else, and all of them when all has arrived. -/
def ReadsSent (s : WriterState τ UInt8) : Prop :=
  ∀ chunks : List Bytes, chunks.flatten <+: s.stream →
    (∃ received left, Feeds extractMessage [] chunks received left) ∧
      ∀ received left, Feeds extractMessage [] chunks received left →
        received <+: s.sent ∧ (chunks.flatten = s.stream → received = s.sent)

theorem readsSent_of_reaches
    (hframe : ∀ frame, IsFrame frame → Framed frame ∧ frame.length < 2 ^ 32)
    (h : (writerSystem τ UInt8).Reaches (Allowed IsFrame) s) : ReadsSent s := by
  obtain ⟨⟨cut, hstream, hcut⟩, hsent, -⟩ := stream_of_reaches h
  obtain ⟨pdus, hpdus⟩ := exists_pdus fun frame hmem =>
    exists_pdu (hframe frame (hsent frame hmem).1).1 (hframe frame (hsent frame hmem).1).2
      (hsent frame hmem).2
  have hstop : extractMessage cut = none := by
    rcases hcut with rfl | ⟨missing, hmissing, hwhole⟩
    · rfl
    · obtain ⟨pdu, hpdu⟩ := exists_pdu (hframe _ hwhole).1 (hframe _ hwhole).2
        (List.append_ne_nil_of_right_ne_nil cut hmissing)
      exact extractMessage_incomplete ⟨pdu, missing, hmissing, hpdu⟩
  have hdrains : Drains extractMessage never 0 s.stream s.sent cut := by
    rw [hstream, ← hpdus]
    exact drains_pdus hstop pdus 0
  rintro chunks ⟨late, hlate⟩
  obtain ⟨first, second, middle, hfirst, hsecond, hsplit⟩ :=
    hdrains.split stable_extractMessage chunks.flatten late hlate.symm
  have hfeeds : Feeds extractMessage [] chunks first middle :=
    feeds_of_drains stable_extractMessage chunks rfl hfirst
  refine ⟨⟨first, middle, hfeeds⟩, fun received left hreceived => ?_⟩
  obtain ⟨rfl, rfl⟩ := hfeeds.deterministic hreceived
  refine ⟨⟨second, hsplit.symm⟩, fun hall => ?_⟩
  rw [hall] at hfirst
  exact (hdrains.deterministic hfirst).1

end Reading

section Sockets

open SmppHerald.ClientConnection
open SmppHerald.ServerConnection

variable {τ : Type} [DecidableEq τ] {s : WriterState τ UInt8} {IsFrame : Bytes → Prop}

/-- Whatever tasks of the server share a socket, and however they take turns, the peer reads the
frames that were sent, in the order in which they were asked for. -/
theorem server_stream_read (server : ServerContext)
    (h : (writerSystem τ UInt8).Reaches
      (Allowed fun frame => ServerFrame server frame ∧ frame.length < 2 ^ 32) s) :
    ReadsSent s ∧ s.sent.Sublist s.asked ∧ ∀ frame ∈ s.sent, ServerFrame server frame := by
  obtain ⟨-, hsent, hasked⟩ := stream_of_reaches h
  refine ⟨?_, hasked, fun frame hmem => (hsent frame hmem).1.1⟩
  exact readsSent_of_reaches (fun frame hframe => ⟨hframe.1.framed, hframe.2⟩) h

/-- The enquire_link with the number, as the server of these runs and their client send it. -/
def enquireLinkFrame (n : UInt8) : Bytes := (enquireLink n).octets

theorem serverFrame_enquireLink {server : ServerContext} (number : UInt32) {octets : Bytes}
    (h : fromJson server.namedTlvFields
      (createJsonRequest CommandId.enquireLink.asU32 number []) = .ok octets) :
    ServerFrame server octets := by
  have hround : Makes (enquireLinkRound server) (.write octets) := by
    refine .later number ?_
    change Makes (encodeOrEmpty server _ >>= fun octets => perform (.write octets)) _
    rw [encodeOrEmpty, h]
    exact .here
  exact .enquire (show Makes (startEnquireLinkTask server 1) _ from hround.bind _)

/-- Two tasks ask for the socket, and the second is in the middle of its frame. -/
def sharing (first second : Bytes) : List (WriterEvent Nat UInt8) :=
  [.ask 0 first, .ask 1 second, .grant 0, .put 0 7, .put 0 9, .finish 0, .release 0, .grant 1,
    .put 1 3]

theorem allowed_sharing {first second : Bytes} (hfirst : IsFrame first)
    (hsecond : IsFrame second) :
    ∀ event ∈ sharing first second, ∀ s, Allowed IsFrame s event := by
  simp only [sharing, List.forall_mem_cons]
  exact ⟨fun _ => hfirst, fun _ => hsecond, fun _ => trivial, fun _ => trivial, fun _ => trivial,
    fun _ => trivial, fun _ => trivial, fun _ => trivial, fun _ => trivial, by simp⟩

theorem server_stream_read_sharing :
    ∃ s, (writerSystem Nat UInt8).run (sharing (enquireLinkFrame 1) (enquireLinkFrame 2)) = some s ∧
      s.stream = enquireLinkFrame 1 ++ [0, 0, 0] ∧ ReadsSent s ∧ s.sent.Sublist s.asked ∧
        ∀ frame ∈ s.sent, ServerFrame Relay.plainServer frame := by
  have hfirst : ServerFrame Relay.plainServer (enquireLinkFrame 1) :=
    serverFrame_enquireLink 1 (by decide +kernel)
  have hsecond : ServerFrame Relay.plainServer (enquireLinkFrame 2) :=
    serverFrame_enquireLink 2 (by decide +kernel)
  have hrun : ((writerSystem Nat UInt8).run
      (sharing (enquireLinkFrame 1) (enquireLinkFrame 2))).map WriterState.stream =
        some (enquireLinkFrame 1 ++ [0, 0, 0]) := rfl
  obtain ⟨s, hs, hstream⟩ := Option.map_eq_some_iff.mp hrun
  refine ⟨s, hs, hstream, server_stream_read Relay.plainServer (System.reaches_of_run ?_ hs)⟩
  exact allowed_sharing ⟨hfirst, by decide⟩ ⟨hsecond, by decide⟩

/-- The same holds of the socket of a client. -/
theorem client_stream_read (connection : SmscConnection)
    (h : (writerSystem τ UInt8).Reaches
      (Allowed fun frame => ClientFrame connection frame ∧ frame.length < 2 ^ 32) s) :
    ReadsSent s ∧ s.sent.Sublist s.asked ∧ ∀ frame ∈ s.sent, ClientFrame connection frame := by
  obtain ⟨-, hsent, hasked⟩ := stream_of_reaches h
  refine ⟨?_, hasked, fun frame hmem => (hsent frame hmem).1.1⟩
  exact readsSent_of_reaches (fun frame hframe => ⟨hframe.1.framed, hframe.2⟩) h

theorem clientFrame_enquireLink {connection : SmscConnection} (number : UInt32) {octets : Bytes}
    (h : fromJson connection.namedTlvFields
      (.object [("command_id", .string "0x00000015"), ("command_status", .ofNat 0),
        ("sequence_number", .ofNat number.toNat)]) = .ok octets) :
    ClientFrame connection octets := by
  have hsend : Makes (sendMessage octets) (.writeAll octets) := by
    rw [sendMessage_eq]
    split
    · exact .later () (.later true .here)
    · exact .later true .here
  apply ClientFrame.enquire
  unfold sendEnquireLink
  refine .later number ?_
  simp only [Prog.bind]
  rw [h]
  exact hsend.bind _

/-- The connection loop sets a new writer before two of its tasks send. -/
def reconnecting (first second : Bytes) : List (WriterEvent Nat UInt8) :=
  [.ask 0 [], .grant 0, .finish 0, .renew 0, .release 0] ++ sharing first second

theorem client_stream_read_reconnecting :
    ∃ s, (writerSystem Nat UInt8).run (reconnecting (enquireLinkFrame 1) (enquireLinkFrame 2)) =
        some s ∧
      s.stream = enquireLinkFrame 1 ++ [0, 0, 0] ∧ ReadsSent s ∧ s.sent.Sublist s.asked ∧
        ∀ frame ∈ s.sent, ClientFrame ClientRun.exampleConnection frame := by
  have hfirst : ClientFrame ClientRun.exampleConnection (enquireLinkFrame 1) :=
    clientFrame_enquireLink 1 (by decide +kernel)
  have hsecond : ClientFrame ClientRun.exampleConnection (enquireLinkFrame 2) :=
    clientFrame_enquireLink 2 (by decide +kernel)
  have hrun : ((writerSystem Nat UInt8).run
      (reconnecting (enquireLinkFrame 1) (enquireLinkFrame 2))).map WriterState.stream =
        some (enquireLinkFrame 1 ++ [0, 0, 0]) := rfl
  obtain ⟨s, hs, hstream⟩ := Option.map_eq_some_iff.mp hrun
  refine ⟨s, hs, hstream,
    client_stream_read ClientRun.exampleConnection (System.reaches_of_run ?_ hs)⟩
  refine List.forall_mem_append.mpr ⟨?_, allowed_sharing ⟨hfirst, by decide⟩ ⟨hsecond, by decide⟩⟩
  simp only [List.forall_mem_cons]
  exact ⟨fun _ => ⟨.nothing, by decide⟩, fun _ => trivial, fun _ => trivial, fun _ => trivial,
    fun _ => trivial, by simp⟩

end Sockets

end SmppHerald.WireStreams
