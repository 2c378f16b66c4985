import SmppHerald.CallbackOwners

namespace SmppHerald.OwnResponses

open SmppHerald.Buffer
open SmppHerald.CallbackOwners
open SmppHerald.Callbacks
open SmppHerald.ClientConnection
open SmppHerald.ClientRun
open SmppHerald.CommandIds
open SmppHerald.FieldCodecs
open SmppHerald.Interaction
open SmppHerald.Io
open SmppHerald.Json
open SmppHerald.Message
open SmppHerald.ResponseEncoding
open SmppHerald.ResponseManagers
open SmppHerald.TransitionSystem
open SmppHerald.WriterLock

section Specification

/-- The response comes from a PDU that has arrived, with this sequence number and the response bit. -/
def IsResponse (arrived : SMPPMessage → Prop) (sequenceNumber : UInt32) (response : Value) : Prop :=
  ∃ pdu, arrived pdu ∧ toJson pdu = .ok response ∧
    (getSequenceNumber pdu).getD 0 = sequenceNumber ∧
      ((CommandId.fromU32 ((getCommandId pdu).getD 0)).getD .unknown).isResponse = true

/-- The sequence number of the message that a sender has sent last. -/
def numberOf (s : ClientState) (i : Nat) : UInt32 := (getSequenceNumber (s.messages i)).getD 0

/-- A sender's wait has ended with what its callback was called with. -/
def Takes (s : ClientState) (i : Nat) (d : Delivery UInt32 Value) : Prop :=
  ∃ wait w, s.session.waits (.sender i) = some wait ∧
    s.session.manager.table.waits wait = some w ∧ w.status = .completed ∧ w.sent = some d ∧
      w.key = numberOf s i

end Specification

section Relaying

variable {arrived : SMPPMessage → Prop} {connection : SmscConnection} {α : Type}

/-- Only what has arrived is passed to the response manager. -/
def Relays (arrived : SMPPMessage → Prop) : ClientCall → Prop
  | .responseReceived sequenceNumber response => IsResponse arrived sequenceNumber response
  | _ => True

/-- Programs that call nothing else. -/
def RelaysOnly (arrived : SMPPMessage → Prop) (p : Action α) : Prop := Calls (Relays arrived) p

theorem relays_sendMessage (message : SMPPMessage) :
    Calls (Relays arrived) (sendMessage message) := by
  have hlocked : Calls (Relays arrived) (sendLocked message) := by
    refine Calls.bind (calls_perform.mpr trivial) fun written => ?_
    cases written with
    | error e => simp
    | ok =>
        simp only
        split
        · refine Calls.bind (Calls.bind (calls_perform.mpr trivial) fun result => ?_) fun result => ?_
          · cases result <;> simp
          · cases result <;> simp
        · simp
  have hrest : Calls (Relays arrived)
      (.act .lockWriter (sendAndUnlock message) : Action (Except IoError (Option Value))) := by
    refine ⟨trivial, fun connected => ?_⟩
    cases connected with
    | true => exact hlocked.bind fun result => ⟨trivial, fun _ => trivial⟩
    | false => exact ⟨trivial, fun _ => trivial⟩
  rw [sendMessage_eq]
  split
  · exact ⟨trivial, fun _ => hrest⟩
  · exact hrest

theorem relays_sent (message : SMPPMessage) :
    Calls (Relays arrived) (do
      match ← sendMessage message with
      | .ok _ => return (.ok () : Except IoError Unit)
      | .error e => return .error e) := by
  refine (relays_sendMessage message).bind fun result => ?_
  cases result <;> simp

theorem relays_handleDeliverSm (message : SMPPMessage) (decodedMessage : Value) :
    Calls (Relays arrived) (handleDeliverSm connection message decodedMessage) := by
  have hfind : Calls (Relays arrived) (findReceiptUrl decodedMessage) := by
    unfold findReceiptUrl
    simp only
    split
    · exact calls_perform.mpr trivial
    · simp
  refine hfind.bind fun receiptUrl => ?_
  cases receiptUrl with
  | some receiptUrl => exact Calls.bind (calls_perform.mpr trivial) fun _ => by simp
  | none =>
      refine Calls.bind (calls_perform.mpr trivial) fun handled => ?_
      unfold sendDeliverSmResp
      split
      · simp
      · simp
      · exact relays_sent _

theorem relays_processInMessage {message : SMPPMessage} (harrived : arrived message) :
    RelaysOnly arrived (processInMessage connection message) := by
  unfold RelaysOnly processInMessage
  simp only
  split
  · simp
  · rename_i response hdecode
    split
    · unfold processEnquireLink
      split
      · simp
      · simp
      · exact relays_sent _
    · simp
    · exact relays_handleDeliverSm message response
    · exact relays_handleDeliverSm message response
    · simp
    · simp
    · split
      · rename_i hresponse
        refine Calls.bind (calls_perform.mpr ?_) fun _ => by simp
        exact ⟨message, harrived, hdecode, rfl, hresponse⟩
      · simp

theorem relays_sendEnquireLink : RelaysOnly arrived (sendEnquireLink connection) := by
  refine Calls.bind (calls_perform.mpr trivial) fun sequenceNumber => ?_
  split
  · simp
  · exact relays_sent _

theorem relays_establish (alarmActive : Bool) :
    RelaysOnly arrived (establish connection alarmActive) := by
  have hcall : ∀ c, (∀ n response, c ≠ .responseReceived n response) →
      Calls (Relays arrived) (perform c) := by
    intro c hc
    refine calls_perform.mpr ?_
    cases c <;> first | trivial | exact absurd rfl (hc _ _)
  have hbind : Calls (Relays arrived) (sendBindMessage connection) := by
    refine Calls.bind (Calls.bind (hcall _ (by simp)) fun _ => by simp) fun bindMessage => ?_
    refine Calls.bind (hcall .lockWriter (by simp)) fun connected => ?_
    simp only
    split
    · exact Calls.bind (hcall (.writeAll bindMessage) (by simp)) fun sent =>
        Calls.bind (hcall .unlockWriter (by simp)) fun _ => by simp
    · exact Calls.bind (by simp) fun sent =>
        Calls.bind (hcall .unlockWriter (by simp)) fun _ => by simp
  refine Calls.bind (hcall _ (by simp)) fun connected => ?_
  cases connected with
  | error e => simp
  | ok =>
      refine Calls.bind (hcall _ (by simp)) fun _ => Calls.bind (hcall _ (by simp)) fun _ =>
        Calls.bind (hcall _ (by simp)) fun _ => Calls.bind (hbind.bind fun sent => ?_)
          fun bound => ?_
      · cases sent with
        | error e => simp
        | ok => exact Calls.bind (hcall _ (by simp)) fun _ => by simp
      · cases bound with
        | error e => simp
        | ok =>
            refine Calls.bind (hcall _ (by simp)) fun _ => ?_
            split
            · exact Calls.bind (hcall _ (by simp)) fun _ => by simp
            · simp

theorem relays_map {program : Action (Except IoError Unit)} (h : RelaysOnly arrived program) :
    RelaysOnly arrived (Except.map (fun _ => none) <$> program : Program) :=
  Calls.bind h fun _ => by simp

theorem relays_act {c : ClientCall} {next : Reply c → Action α} :
    RelaysOnly arrived (.act c next) ↔ Relays arrived c ∧
      ∀ reply, RelaysOnly arrived (next reply) := Iff.rfl

theorem relays_sender (message : SMPPMessage) : RelaysOnly arrived (sendMessage message) :=
  relays_sendMessage message

-- from here on programs are not run any more
attribute [irreducible] RelaysOnly

end Relaying

section Answering

/-- The state is what the response manager has answered; a sender registers for the number of its
message and waits for that. -/
def answerProtocol (sequenceNumber : UInt32) : Protocol ClientCall Reply (Option Value) where
  allows _
    | .registerCallback n => n = sequenceNumber
    | .awaitResponse n => n = sequenceNumber
    | _ => True
  next answered
    | .awaitResponse _, .response response => some response
    | .registerCallback _, _ => none
    | _, _ => answered

/-- A program that returns no response but the one it was answered. -/
def Answers (sequenceNumber : UInt32) (answered : Option Value) (p : Program) : Prop :=
  Conforms (answerProtocol sequenceNumber)
    (fun answered value => ∀ response, value = some (.ok (some response)) →
      answered = some response) answered p

theorem answers_sendMessage (message : SMPPMessage) :
    Answers ((getSequenceNumber message).getD 0) none (sendMessage message) := by
  have hlocked : Answers ((getSequenceNumber message).getD 0) none (sendLocked message) := by
    refine ⟨trivial, fun written => ?_⟩
    cases written with
    | error e => exact fun _ hvalue => by cases hvalue
    | ok =>
        change Answers _ none (ite _ _ _)
        split
        · refine ⟨rfl, fun result => ?_⟩
          cases result with
          | response response =>
              rintro _ ⟨⟩
              rfl
          | closed => exact fun _ hvalue => by cases hvalue
          | elapsed => exact fun _ hvalue => by cases hvalue
        · exact fun _ hvalue => by cases hvalue
  have hrest : Answers ((getSequenceNumber message).getD 0) none
      (.act .lockWriter (sendAndUnlock message)) := by
    refine ⟨trivial, fun connected => ?_⟩
    cases connected with
    | true =>
        refine conforms_bind.mpr (hlocked.mono ?_)
        intro answered value hvalue
        cases value with
        | none => exact fun _ hnone => by cases hnone
        | some value => exact ⟨trivial, fun _ => hvalue⟩
    | false => exact ⟨trivial, fun _ => fun _ hvalue => by cases hvalue⟩
  rw [sendMessage_eq]
  split
  · exact ⟨rfl, fun _ => hrest⟩
  · exact hrest

attribute [irreducible] Answers

theorem answers_act {n : UInt32} {answered : Option Value} {c : ClientCall}
    {next : Reply c → Program} :
    Answers n answered (.act c next) ↔ (answerProtocol n).allows answered c ∧
      ∀ reply, Answers n ((answerProtocol n).next answered c reply) (next reply) := by
  unfold Answers
  exact conforms_act c next

theorem eq_of_answers {n : UInt32} {answered : Option Value} {response : Value}
    (h : Answers n answered (.ret (.ok (some response)))) : answered = some response := by
  unfold Answers at h
  exact h response rfl

end Answering

section Invariant

variable {arrived : SMPPMessage → Prop} {connection : SmscConnection} {s s' : ClientState} {t : Task}
  {i : Nat} {d : Delivery UInt32 Value}

/-- What has been delivered has arrived, and what a sender was answered was delivered to it. -/
structure ResponseInv (arrived : SMPPMessage → Prop) (s : ClientState) : Prop where
  owners : OwnerInv s
  incoming : ∀ pdu ∈ s.session.incoming, arrived pdu
  reading : ∀ messages, s.mode = .processing messages → ∀ message ∈ messages, arrived message
  relays : ∀ t p, s.programs t = some p → RelaysOnly arrived p
  deliveries : ∀ d ∈ s.session.manager.table.deliveries, IsResponse arrived d.key d.value
  answers : ∀ i p, s.programs (.sender i) = some p → ∃ answered, Answers (numberOf s i) answered p ∧
    ∀ response, answered = some response → ∃ d, Takes s i d ∧ d.value = response

theorem Takes.evolve (h : Takes s i d) (hnumber : numberOf s' i = numberOf s i)
    (hwaits : s'.session.waits (.sender i) = s.session.waits (.sender i))
    (hevolves : ∀ wait w, s.session.manager.table.waits wait = some w →
      ∃ w', s'.session.manager.table.waits wait = some w' ∧ Evolves w w') : Takes s' i d := by
  obtain ⟨wait, w, hwait, hw, hcompleted, hsent, hkey⟩ := h
  obtain ⟨w', hw', hevolved⟩ := hevolves wait w hw
  obtain ⟨hstatus, hsent', -⟩ := hevolved.ended (by simp [Wait.Open, hcompleted])
  exact ⟨wait, w', hwaits.trans hwait, hw', hstatus.trans hcompleted, hsent'.trans hsent,
    (hevolved.key.trans hkey).trans hnumber.symm⟩

theorem Takes.same (h : Takes s i d) (hsession : s'.session = s.session)
    (hnumber : numberOf s' i = numberOf s i) : Takes s' i d := by
  refine h.evolve hnumber (by rw [hsession]) fun wait w hw => ?_
  rw [hsession]
  exact ⟨w, hw, evolves_self w⟩

theorem ResponseInv.loop (h : ResponseInv arrived s) (howners : OwnerInv s')
    (hmoves : LoopMoves s s')
    (hreading : ∀ messages, s'.mode = .processing messages → ∀ message ∈ messages, arrived message)
    (hrelays : ∀ p, s'.programs .connection = some p → RelaysOnly arrived p) :
    ResponseInv arrived s' := by
  have hnumber : ∀ i, numberOf s' i = numberOf s i := fun i => by
    rw [numberOf, hmoves.messages, numberOf]
  refine ⟨howners, ?_, hreading, fun u p hp => ?_, ?_, fun i p hp => ?_⟩
  · rw [hmoves.session]
    exact h.incoming
  · cases u with
    | connection => exact hrelays p hp
    | sender i => exact h.relays _ p ((hmoves.senders i).symm.trans hp)
  · rw [hmoves.session]
    exact h.deliveries
  · rw [hmoves.senders] at hp
    obtain ⟨answered, hanswers, htakes⟩ := h.answers i p hp
    refine ⟨answered, hnumber i ▸ hanswers, fun response hresponse => ?_⟩
    obtain ⟨d, htaken, hvalue⟩ := htakes response hresponse
    exact ⟨d, htaken.same hmoves.session (hnumber i), hvalue⟩

theorem ResponseInv.start (h : ResponseInv arrived s) {mode : Mode}
    {program : Action (Except IoError Unit)} (howners : OwnerInv (s.start mode program))
    (hreading : ∀ messages, mode = .processing messages → ∀ message ∈ messages, arrived message)
    (hprogram : RelaysOnly arrived program) : ResponseInv arrived (s.start mode program) := by
  refine h.loop howners (loopMoves_start s mode program) hreading fun p hp => ?_
  simp only [ClientState.start, Function.update_self, Option.some.injEq] at hp
  rw [← hp]
  exact relays_map hprogram

theorem ResponseInv.stop (h : ResponseInv arrived s) {mode : Mode} (howners : OwnerInv (s.stop mode))
    (hreading : ∀ messages, mode ≠ .processing messages) :
    ResponseInv arrived (s.stop mode) := by
  refine h.loop howners (loopMoves_stop s mode) (fun messages hmode => ?_) fun p hp => ?_
  · exact absurd hmode (hreading messages)
  · simp [ClientState.stop] at hp

theorem ResponseInv.process (h : ResponseInv arrived s) {messages : List SMPPMessage}
    (harrived : ∀ message ∈ messages, arrived message)
    (howners : OwnerInv (s.process connection messages)) :
    ResponseInv arrived (s.process connection messages) := by
  cases messages with
  | nil => exact h.stop howners (by simp)
  | cons message messages =>
      obtain ⟨hmessage, hrest⟩ := List.forall_mem_cons.mp harrived
      have hprogram : RelaysOnly arrived (processInMessage connection message) :=
        relays_processInMessage hmessage
      have hreading : ∀ messages', Mode.processing messages = .processing messages' →
          ∀ message ∈ messages', arrived message := by
        rintro _ ⟨⟩
        exact hrest
      change OwnerInv (s.start (.processing messages) (processInMessage connection message))
        at howners
      exact h.start howners hreading hprogram

theorem ResponseInv.finish (h : ResponseInv arrived s) {result : Except IoError (Option Value)}
    (hfinish : s.finish connection result = some s') (howners : OwnerInv s') :
    ResponseInv arrived s' := by
  unfold ClientState.finish at hfinish
  split at hfinish
  · obtain rfl := Option.some.inj hfinish
    exact h.stop howners (by simp)
  · obtain rfl := Option.some.inj hfinish
    exact h.stop howners (by simp)
  · rename_i messages hmode
    obtain rfl := Option.some.inj hfinish
    exact h.process (h.reading messages hmode) howners
  · obtain rfl := Option.some.inj hfinish
    exact h.stop howners (by simp)
  · obtain rfl := Option.some.inj hfinish
    exact h.stop howners (by simp)
  · cases hfinish

theorem ResponseInv.beside (h : ResponseInv arrived s) {session : Session}
    (howners : OwnerInv { s with session := session })
    (hincoming : ∀ pdu ∈ session.incoming, arrived pdu) (hwaits : session.waits = s.session.waits)
    (hdeliveries : session.manager.table.deliveries = s.session.manager.table.deliveries)
    (hevolves : ∀ wait w, s.session.manager.table.waits wait = some w →
      ∃ w', session.manager.table.waits wait = some w' ∧ Evolves w w') :
    ResponseInv arrived { s with session := session } := by
  refine ⟨howners, hincoming, h.reading, h.relays, ?_, fun i p hp => ?_⟩
  · exact hdeliveries ▸ h.deliveries
  · obtain ⟨answered, hanswers, htakes⟩ := h.answers i p hp
    refine ⟨answered, hanswers, fun response hresponse => ?_⟩
    obtain ⟨d, htaken, hvalue⟩ := htakes response hresponse
    exact ⟨d, htaken.evolve rfl (congrFun hwaits _) hevolves, hvalue⟩

/-- A sender that is answered has taken a delivery under the number of its message. -/
theorem takes_of_answered (h : ResponseInv arrived s) {n : UInt32}
    {next : Reply (.awaitResponse n) → Program} {oracle : (c : ClientCall) → Reply c}
    {response : Value} {session : Session}
    (hprogram : s.programs (.sender i) = some (.act (.awaitResponse n) next))
    (hn : n = numberOf s i)
    (hreply : s.session.reply (.sender i) (.awaitResponse n) oracle =
      some (.response response, session)) :
    session = s.session ∧ ∃ d, Takes s i d ∧ d.value = response := by
  obtain ⟨wait, w, hwait, hw, hkey⟩ := h.owners.numbers _ n _ hprogram .now
  simp only [Session.reply, hwait, hw, Option.bind_eq_bind, Option.bind_some,
    Option.bind_eq_some_iff] at hreply
  obtain ⟨result, hresult, hsame⟩ := hreply
  obtain ⟨rfl, rfl⟩ := Prod.mk.inj (Option.some.inj hsame)
  refine ⟨rfl, ?_⟩
  unfold awaited at hresult
  split at hresult
  · rename_i hcompleted
    obtain ⟨value, hvalue, hresponse⟩ := Option.map_eq_some_iff.mp hresult
    obtain rfl := Awaited.response.inj hresponse
    rw [Wait.outcome, if_pos hcompleted] at hvalue
    obtain ⟨d, hsent, rfl⟩ := Option.map_eq_some_iff.mp hvalue
    exact ⟨d, ⟨wait, w, hwait, hw, hcompleted, hsent, hkey.trans hn⟩, rfl⟩
  · cases hresult
  · cases hresult
  · cases hresult

theorem CallbackMoves.evolves {session session' : Session} {c : ClientCall}
    (h : CallbackMoves session t c session') (hkeyed : Keyed session.manager.table) (wait : Nat)
    (w : Wait UInt32 Value) (hw : session.manager.table.waits wait = some w) :
    ∃ w', session'.manager.table.waits wait = some w' ∧ Evolves w w' := by
  cases h with
  | register n _ _ htable =>
      rw [htable]
      exact evolves_register hkeyed n hw
  | deliver n v _ _ htable =>
      rw [htable]
      exact evolves_remove (evolves_accept _) hw
  | same _ _ hmanager =>
      rw [hmanager]
      exact ⟨w, hw, evolves_self w⟩

theorem CallbackMoves.waits_of_ne {session session' : Session} {c : ClientCall}
    (h : CallbackMoves session t c session') {u : Task}
    (hu : u ≠ t ∨ ∀ n, c ≠ .registerCallback n) : session'.waits u = session.waits u := by
  cases h with
  | register n hc hwaits _ =>
      have hne : u ≠ t := hu.resolve_right fun hother => hother n hc
      rw [hwaits, Function.update_of_ne hne]
  | deliver n v _ hwaits _ => rw [hwaits]
  | same _ hwaits _ => rw [hwaits]

theorem ResponseInv.replied (h : ResponseInv arrived s) {c : ClientCall} {next : Reply c → Program}
    {oracle : (c : ClientCall) → Reply c} {reply : Reply c} {session : Session}
    (hprogram : s.programs t = some (.act c next))
    (hreply : s.session.reply t c oracle = some (reply, session))
    (howners : OwnerInv { s with
      session := session
      programs := Function.update s.programs t (some (next reply)) }) :
    ResponseInv arrived { s with
      session := session
      programs := Function.update s.programs t (some (next reply)) } := by
  obtain ⟨hrelayed, hrelays⟩ := relays_act.mp (h.relays t _ hprogram)
  have hcallbacks := callbackMoves_of_reply hreply
  have hevolves := CallbackMoves.evolves hcallbacks h.owners.keyed
  have htakes : ∀ j d, (Task.sender j ≠ t ∨ ∀ n, c ≠ .registerCallback n) → Takes s j d →
      Takes { s with
        session := session
        programs := Function.update s.programs t (some (next reply)) } j d :=
    fun j d hj htaken => htaken.evolve rfl (CallbackMoves.waits_of_ne hcallbacks hj) hevolves
  refine ⟨howners, ?_, h.reading, fun u p hp => ?_, ?_, fun j p hp => ?_⟩
  · cases sessionMoves_of_reply hreply with
    | connect => exact fun pdu hpdu => by cases hpdu
    | @receive pdu rest hincoming =>
        intro pdu' hpdu'
        refine h.incoming pdu' ?_
        rw [hincoming]
        exact List.mem_cons_of_mem pdu hpdu'
    | _ => exact h.incoming
  · by_cases hu : u = t
    · subst hu
      simp only [Function.update_self, Option.some.injEq] at hp
      exact hp ▸ hrelays reply
    · simp only [Function.update_of_ne hu] at hp
      exact h.relays u p hp
  · cases sessionMoves_of_reply hreply with
    | registerCallback =>
        change ∀ d ∈ (s.session.manager.table.register _).deliveries, _
        rw [Table.register]
        change ∀ d ∈ (s.session.manager.table.remove _ Wait.orphan).deliveries, _
        rw [deliveries_remove]
        exact h.deliveries
    | responseReceived =>
        refine List.forall_mem_append.mpr ⟨h.deliveries, ?_⟩
        exact List.forall_mem_singleton.mpr hrelayed
    | _ => exact h.deliveries
  · by_cases hj : Task.sender j = t
    · subst hj
      simp only [Function.update_self, Option.some.injEq] at hp
      subst hp
      obtain ⟨answered, hanswers, htaken⟩ := h.answers j _ hprogram
      obtain ⟨hallows, hnext⟩ := answers_act.mp hanswers
      refine ⟨_, hnext reply, fun response hresponse => ?_⟩
      by_cases hregister : ∃ n, c = .registerCallback n
      · obtain ⟨n, rfl⟩ := hregister
        cases hresponse
      have hother : ∀ n, c ≠ .registerCallback n := fun n hc => hregister ⟨n, hc⟩
      have hkept : ∀ response, answered = some response → ∃ d, Takes { s with
          session := session
          programs := Function.update s.programs (.sender j) (some (next reply)) } j d ∧
            d.value = response := by
        intro response hresponse
        obtain ⟨d, htaken, hvalue⟩ := htaken response hresponse
        exact ⟨d, htakes j d (.inr hother) htaken, hvalue⟩
      cases c with
      | awaitResponse n =>
          cases reply with
          | response value =>
              obtain rfl := Option.some.inj hresponse
              obtain ⟨rfl, d, htaken, hvalue⟩ := takes_of_answered h hprogram hallows hreply
              exact ⟨d, htaken.same rfl rfl, hvalue⟩
          | closed => exact hkept response hresponse
          | elapsed => exact hkept response hresponse
      | registerCallback n => exact absurd rfl (hother n)
      | _ => exact hkept response hresponse
    · simp only [Function.update_of_ne hj] at hp
      obtain ⟨answered, hanswers, htaken⟩ := h.answers j p hp
      refine ⟨answered, hanswers, fun response hresponse => ?_⟩
      obtain ⟨d, htaken, hvalue⟩ := htaken response hresponse
      exact ⟨d, htakes j d (.inl hj) htaken, hvalue⟩

theorem ResponseInv.send (h : ResponseInv arrived s) {message : SMPPMessage}
    (howners : OwnerInv { s with
      programs := Function.update s.programs (.sender i) (some (sendMessage message))
      messages := Function.update s.messages i message }) :
    ResponseInv arrived { s with
      programs := Function.update s.programs (.sender i) (some (sendMessage message))
      messages := Function.update s.messages i message } := by
  refine ⟨howners, h.incoming, h.reading, fun u p hp => ?_, h.deliveries, fun j p hp => ?_⟩
  · by_cases hu : u = .sender i
    · simp only [hu, Function.update_self, Option.some.injEq] at hp
      exact hp ▸ relays_sender message
    · simp only [Function.update_of_ne hu] at hp
      exact h.relays u p hp
  · by_cases hj : j = i
    · subst hj
      simp only [Function.update_self, Option.some.injEq] at hp
      refine ⟨none, ?_, fun _ hnone => by cases hnone⟩
      simp only [numberOf, Function.update_self]
      exact hp ▸ answers_sendMessage message
    · simp only [Function.update_of_ne (show Task.sender j ≠ .sender i by simpa using hj)] at hp
      obtain ⟨answered, hanswers, htaken⟩ := h.answers j p hp
      have hnumber : numberOf { s with
          programs := Function.update s.programs (.sender i) (some (sendMessage message))
          messages := Function.update s.messages i message } j = numberOf s j := by
        simp only [numberOf, Function.update_of_ne hj]
      refine ⟨answered, hnumber ▸ hanswers, fun response hresponse => ?_⟩
      obtain ⟨d, htaken, hvalue⟩ := htaken response hresponse
      exact ⟨d, htaken.same rfl hnumber, hvalue⟩

theorem ResponseInv.ended (h : ResponseInv arrived s) {session : Session}
    (hincoming : session.incoming = s.session.incoming) (hwaits : session.waits = s.session.waits)
    (hmanager : session.manager = s.session.manager)
    (howners : OwnerInv { s with
      session := session
      programs := Function.update s.programs (.sender i) none }) :
    ResponseInv arrived { s with
      session := session
      programs := Function.update s.programs (.sender i) none } := by
  have hprograms : ∀ u p, Function.update s.programs (.sender i) none u = some p →
      s.programs u = some p := by
    intro u p hp
    by_cases hu : u = .sender i
    · simp [hu] at hp
    · rwa [Function.update_of_ne hu] at hp
  refine ⟨howners, hincoming ▸ h.incoming, h.reading,
    fun u p hp => h.relays u p (hprograms u p hp), hmanager ▸ h.deliveries, fun j p hp => ?_⟩
  obtain ⟨answered, hanswers, htakes⟩ := h.answers j p (hprograms _ p hp)
  refine ⟨answered, hanswers, fun response hresponse => ?_⟩
  obtain ⟨d, htaken, hvalue⟩ := htakes response hresponse
  refine ⟨d, htaken.evolve rfl (congrFun hwaits _) fun wait w hw => ⟨w, ?_, evolves_self w⟩, hvalue⟩
  rw [hmanager]
  exact hw

theorem ResponseInv.step (h : ResponseInv arrived s) {e : ClientEvent}
    (harrived : ∀ pdu, e = .arrived pdu → arrived pdu)
    (hstep : s.step connection e = some s') : ResponseInv arrived s' := by
  have howners : OwnerInv s' := (h.owners.step hstep).1
  cases clientMoves_of_step hstep with
  | attempt _ => exact h.start howners (by simp) (relays_establish _)
  | @arrived pdu incoming =>
      refine h.beside howners ?_ rfl rfl fun wait w hw => ⟨w, hw, evolves_self w⟩
      obtain rfl : s.session.incoming ++ [pdu] = incoming :=
        congrArg (fun s => s.session.incoming) (Option.some.inj hstep)
      exact List.forall_mem_append.mpr
        ⟨h.incoming, List.forall_mem_singleton.mpr (harrived pdu rfl)⟩
  | @polled task poll wait manager hmanager =>
      have hmove := tableMove_of_step hmanager
      refine h.beside howners h.incoming rfl ?_ fun _ _ hw => hmove.evolves h.owners.keyed hw
      apply hmove.deliveries
      cases poll <;> simp [Poll.event]
  | @read count hmode =>
      have howners' : OwnerInv { s with
          session := { s.session with incoming := s.session.incoming.drop count } } :=
        h.owners.beside (h.owners.sends.beside _ (Nat.le_refl _)) rfl rfl
      refine ResponseInv.process (h.beside howners' ?_ rfl rfl fun wait w hw =>
        ⟨w, hw, evolves_self w⟩) ?_ howners
      · exact fun pdu hpdu => h.incoming pdu (List.mem_of_mem_drop hpdu)
      · exact fun pdu hpdu => h.incoming pdu (List.mem_of_mem_take hpdu)
  | tick _ => exact h.start howners (by simp) relays_sendEnquireLink
  | leave _ => exact h.stop howners (by simp)
  | send _ => exact h.send howners
  | ask _ _ =>
      exact h.beside howners h.incoming rfl rfl fun wait w hw => ⟨w, hw, evolves_self w⟩
  | replied hprogram hreply => exact h.replied hprogram hreply howners
  | finished _ hfinish => exact h.finish hfinish howners
  | ended _ => exact h.ended rfl rfl rfl howners
  | @dropped i written c _ _ =>
      have hkeeps := dropKeeps s.session (.sender i) written c
      exact h.ended hkeeps.incoming hkeeps.waits hkeeps.manager howners

end Invariant

section Main

variable {arrived : SMPPMessage → Prop} {connection : SmscConnection} {s : ClientState}

theorem responseInv_initial : ResponseInv arrived (clientSystem connection).initial := by
  refine ⟨ownerInv_initial, ?_, ?_, ?_, ?_, ?_⟩ <;>
    simp [clientSystem, ClientState.new, Session.new, ManagerState.new, Table.empty]

theorem responseInv_of_reaches
    (h : (clientSystem connection).Reaches (fun _ e => ∀ pdu, e = .arrived pdu → arrived pdu) s) :
    ResponseInv arrived s :=
  h.invariant responseInv_initial fun _ _ _ ih harrived hstep => ih.step harrived hstep

/-- Whatever the tasks do and in whatever order, a caller of `send_message` is only ever given a
response that has arrived with the sequence number of its own request, and no response is given to
two callers. -/
theorem responses_own {events : List ClientEvent}
    (h : (clientSystem connection).run events = some s) :
    (∀ i response, s.programs (.sender i) = some (.ret (.ok (some response))) →
      ∃ d, Takes s i d ∧ d.value = response ∧
        IsResponse (fun pdu => .arrived pdu ∈ events) (numberOf s i) response) ∧
    ∀ i j d, Takes s i d → Takes s j d → i = j := by
  have hinv : ResponseInv (fun pdu => .arrived pdu ∈ events) s := by
    refine responseInv_of_reaches (System.reaches_of_run ?_ h)
    rintro e he _ pdu rfl
    exact he
  constructor
  · intro i response hprogram
    obtain ⟨answered, hanswers, htakes⟩ := hinv.answers i _ hprogram
    obtain ⟨d, htaken, rfl⟩ := htakes response (eq_of_answers hanswers)
    refine ⟨d, htaken, rfl, ?_⟩
    obtain ⟨wait, w, -, hw, -, hsent, hkey⟩ := htaken
    obtain ⟨hdelivered, hsame, -⟩ := hinv.owners.keyed.sent wait w d hw hsent
    rw [← hkey, ← hsame]
    exact hinv.deliveries d (List.mem_of_getElem? hdelivered)
  · rintro i j d ⟨wait, w, hwait, hw, -, hsent, -⟩ ⟨wait', w', hwait', hw', -, hsent', -⟩
    obtain rfl := hinv.owners.keyed.unique wait wait' w w' d hw hw' hsent hsent'
    exact Task.sender.inj (hinv.owners.distinct _ _ wait hwait hwait')

/-- A submit_sm whose response has been taken. -/
def takenEvents : List ClientEvent :=
  connectEvents ++ bindEvents ++ submitEvents 0 ++ [.arrived submitSmRespPdu, .read 1] ++
    replies 1 .connection ++ .polled (.sender 0) .receiver :: replies 2 (.sender 0)

def returned (s : ClientState) (i : Nat) : Option Value :=
  match s.programs (.sender i) with
  | some (.ret (.ok response)) => response
  | _ => none

theorem responses_own_taken :
    ∃ s, (clientSystem exampleConnection).run takenEvents = some s ∧
      (returned s 0).map (Value.u64Field · "sequence_number") = some 7 ∧
      (∀ i response, s.programs (.sender i) = some (.ret (.ok (some response))) →
        ∃ d, Takes s i d ∧ d.value = response ∧
          IsResponse (fun pdu => .arrived pdu ∈ takenEvents) (numberOf s i) response) ∧
      ∀ i j d, Takes s i d → Takes s j d → i = j := by
  have hrun : ((clientSystem exampleConnection).run takenEvents).map
      (fun s => (returned s 0).map (Value.u64Field · "sequence_number")) = some (some 7) := by
    decide +kernel
  obtain ⟨s, hs, hreturned⟩ := Option.map_eq_some_iff.mp hrun
  exact ⟨s, hs, hreturned, responses_own hs⟩

end Main

end SmppHerald.OwnResponses
