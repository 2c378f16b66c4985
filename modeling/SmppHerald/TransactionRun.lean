import SmppHerald.ResponseManagers
import SmppHerald.ServerRun
import SmppHerald.TransactionMode

/-!
The server with the submits that wait for their receivers. What a submit forwards is on its way
before its wait is registered, and the wait is found by its sequence number only.
-/

namespace SmppHerald.TransactionRun

open SmppHerald.Buffer
open SmppHerald.ByteParser
open SmppHerald.Callbacks
open SmppHerald.ClientManager
open SmppHerald.CommandIds
open SmppHerald.ConnectionRun
open SmppHerald.Interaction
open SmppHerald.Json
open SmppHerald.Message
open SmppHerald.PduFormat
open SmppHerald.ResponseEncoding
open SmppHerald.ResponseManagers
open SmppHerald.ServerConnection
open SmppHerald.ServerRun
open SmppHerald.TransactionMode
open SmppHerald.TransitionSystem

section Model

/-- What a submit has forwarded: the connection it was written to, if any took it, and how many
responses the server had received by then. -/
structure Forwarded (Connection : Type) where
  octets : SMPPMessage
  writer : Option Connection
  before : Nat

/-- A submit whose wait has returned. -/
structure Submission (Connection : Type) where
  connection : Connection
  sequenceNumber : UInt32
  wait : Nat
  forwarded : Option (Forwarded Connection)
  response : Option Value

variable {engine : RegexEngine} {Connection : Type} [DecidableEq Connection]

/-- The server with its `TransactionResponseManager` and its allocator. `waits` and `forwarded` have
the submits in progress, `sources` the connection of each response that was received, and `injected`
what came through the REST endpoint. -/
structure TransactionState (engine : RegexEngine) (Connection : Type) where
  server : ServerState engine Connection
  manager : ManagerState
  allocator : SequenceNumberAllocator
  waits : Connection → Option Nat
  forwarded : Connection → Option (Forwarded Connection)
  sources : List Connection
  submissions : List (Submission Connection)
  injected : List (Connection × SMPPMessage)

/-- What happens to the server: a connection takes a step, registers the wait of its submit, or goes
on after it; something happens to a wait; another task takes a sequence number; or there is a
request at the REST endpoint. -/
inductive TransactionEvent (Connection : Type)
  | server (e : ServerEvent Connection)
  | register (connection : Connection)
  | wait (e : ManagerEvent)
  | returned (connection : Connection)
  | next
  | rest (payload : Value) (accepts : Connection → Bool)

/-- The call that a connection is at. -/
def pendingCall (conn : ConnectionState) : Option ServerCall :=
  match conn.phase with
  | .handling _ _ (.act c _) => some c
  | _ => none

/-- The number of the response that a connection waits for. -/
def waitingFor (conn : ConnectionState) : Option UInt32 :=
  match pendingCall conn with
  | some (.waitResponse sequenceNumber) => some sequenceNumber
  | _ => none

/-- The allocator replies to a call for a number. -/
def numbered (number : UInt32) : ConnectionEvent → ConnectionEvent
  | .replied oracle => .replied fun
      | .nextSequenceNumber => number
      | c => oracle c
  | event => event

/-- The reply to a wait. -/
def waited (response : Option Value) : (c : ServerCall) → Reply c
  | .waitResponse _ => response
  | c => agreeing true c

/-- The first writer for an address that accepts what is sent to it. -/
def receiver (accepts : Connection → Bool) (clients : Connections engine Connection)
    (address : String) : Option Connection :=
  (getWriter clients address).find? accepts

/-- The events of a wait that is registered. -/
def ofWait : ManagerEvent → Bool
  | .register _ => false
  | .responseReceived _ _ => false
  | _ => true

namespace TransactionState

/-- What a connection has forwarded, if that is its call. -/
def forward (s : TransactionState engine Connection) (accepts : Connection → Bool) :
    Option ServerCall → Option (Forwarded Connection)
  | some (.sendMessage address octets) =>
      some ⟨octets, receiver accepts s.server.clients address, s.manager.table.deliveries.length⟩
  | _ => none

/-- What a call does besides its reply. -/
def called (s : TransactionState engine Connection) (connection : Connection) :
    Option ServerCall → TransactionState engine Connection
  | some .nextSequenceNumber => { s with allocator := s.allocator.next.2 }
  | some (.responseReceived sequenceNumber response) =>
      { s with
        manager := { s.manager with
          table := s.manager.table.deliver sequenceNumber response }
        sources := s.sources ++ [connection] }
  | _ => s

/-- What a REST request writes, and to which connections. -/
def writes (s : TransactionState engine Connection) (accepts : Connection → Bool)
    (log : List (Event Reply)) : List (Connection × SMPPMessage) :=
  log.filterMap fun
    | ⟨.sendMessage address octets, _⟩ =>
        (receiver accepts s.server.clients address).map fun connection => (connection, octets)
    | _ => none

def step (server : ServerContext) (peerAddress : Connection → String)
    (s : TransactionState engine Connection) :
    TransactionEvent Connection → Option (TransactionState engine Connection)
  | .server e => do
      let conn := s.server.connections e.connection
      if (waitingFor conn).isSome = true then none
      else do
        let next ← s.server.step server peerAddress
          { e with event := numbered s.allocator.current e.event }
        return { s.called e.connection (pendingCall conn) with
          server := next
          forwarded := Function.update s.forwarded e.connection
            (s.forward e.accepts (pendingCall conn)) }
  | .register connection => do
      let sequenceNumber ← waitingFor (s.server.connections connection)
      if (s.waits connection).isSome = true then none
      else do
        let manager ← s.manager.step .transactionResponseManager (.register sequenceNumber)
        return { s with
          manager := manager
          waits := Function.update s.waits connection (some s.manager.table.size) }
  | .wait e =>
      if ofWait e = true then do
        let manager ← s.manager.step .transactionResponseManager e
        return { s with manager := manager }
      else none
  | .returned connection => do
      let sequenceNumber ← waitingFor (s.server.connections connection)
      let wait ← s.waits connection
      let w ← s.manager.table.waits wait
      if w.Open then none
      else do
        let next ← s.server.step server peerAddress
          ⟨connection, .replied (waited w.outcome), fun _ => false⟩
        return { s with
          server := next
          waits := Function.update s.waits connection none
          forwarded := Function.update s.forwarded connection none
          submissions := s.submissions ++
            [⟨connection, sequenceNumber, wait, s.forwarded connection, w.outcome⟩] }
  | .next => some { s with allocator := s.allocator.next.2 }
  | .rest payload accepts =>
      let (log, _) := execute (routed accepts s.server.clients (agreeing true))
        (handleRestRequest server payload)
      some { s with injected := s.injected ++ s.writes accepts log }

end TransactionState

/-- The server before any connection has received anything. -/
def transactionSystem (engine : RegexEngine) (server : ServerContext)
    (peerAddress : Connection → String) :
    System (TransactionState engine Connection) (TransactionEvent Connection) where
  initial := ⟨(serverSystem engine server peerAddress).initial, .new, .new, fun _ => none,
    fun _ => none, [], [], []⟩
  step := TransactionState.step server peerAddress

end Model

section Moves

variable {engine : RegexEngine} {Connection : Type} [DecidableEq Connection]
  {server : ServerContext} {peerAddress : Connection → String}

/-- The steps of the server. -/
inductive TransactionMoves (server : ServerContext) (peerAddress : Connection → String)
    (s : TransactionState engine Connection) :
    TransactionEvent Connection → TransactionState engine Connection → Prop
  | received {e : ServerEvent Connection} {next sequenceNumber response} :
      pendingCall (s.server.connections e.connection) =
        some (.responseReceived sequenceNumber response) →
      s.server.step server peerAddress
        { e with event := numbered s.allocator.current e.event } = some next →
      TransactionMoves server peerAddress s (.server e) { s with
        server := next
        manager := { s.manager with table := s.manager.table.deliver sequenceNumber response }
        sources := s.sources ++ [e.connection]
        forwarded := Function.update s.forwarded e.connection none }
  | served {e : ServerEvent Connection} {call next allocator} :
      pendingCall (s.server.connections e.connection) = call →
      waitingFor (s.server.connections e.connection) = none →
      (∀ sequenceNumber response, call ≠ some (.responseReceived sequenceNumber response)) →
      s.server.step server peerAddress
        { e with event := numbered s.allocator.current e.event } = some next →
      TransactionMoves server peerAddress s (.server e) { s with
        server := next
        allocator := allocator
        forwarded := Function.update s.forwarded e.connection (s.forward e.accepts call) }
  | registered {connection sequenceNumber manager} :
      waitingFor (s.server.connections connection) = some sequenceNumber →
      s.waits connection = none →
      s.manager.step .transactionResponseManager (.register sequenceNumber) = some manager →
      TransactionMoves server peerAddress s (.register connection) { s with
        manager := manager
        waits := Function.update s.waits connection (some s.manager.table.size) }
  | waited {e manager} : ofWait e = true →
      s.manager.step .transactionResponseManager e = some manager →
      TransactionMoves server peerAddress s (.wait e) { s with manager := manager }
  | returned {connection sequenceNumber wait w next} :
      waitingFor (s.server.connections connection) = some sequenceNumber →
      s.waits connection = some wait → s.manager.table.waits wait = some w → ¬ w.Open →
      s.server.step server peerAddress
        ⟨connection, .replied (TransactionRun.waited w.outcome), fun _ => false⟩ = some next →
      TransactionMoves server peerAddress s (.returned connection) { s with
        server := next
        waits := Function.update s.waits connection none
        forwarded := Function.update s.forwarded connection none
        submissions := s.submissions ++
          [⟨connection, sequenceNumber, wait, s.forwarded connection, w.outcome⟩] }
  | beside {e : TransactionEvent Connection} {allocator injected} : (∀ e', e ≠ .server e') →
      TransactionMoves server peerAddress s e { s with
        allocator := allocator
        injected := injected }

theorem transactionMoves_of_step {s s' : TransactionState engine Connection}
    {e : TransactionEvent Connection} (h : s.step server peerAddress e = some s') :
    TransactionMoves server peerAddress s e s' := by
  cases e with
  | server e =>
      simp only [TransactionState.step, Option.bind_eq_bind, Option.ite_none_left_eq_some,
        Option.bind_eq_some_iff, Bool.not_eq_true, Option.isSome_eq_false_iff,
        Option.isNone_iff_eq_none] at h
      obtain ⟨hwaiting, next, hnext, hs'⟩ := h
      obtain rfl := Option.some.inj hs'
      generalize hcall : pendingCall (s.server.connections e.connection) = call
      rcases call with - | c
      · exact .served hcall hwaiting (by simp) hnext
      · cases c with
        | responseReceived sequenceNumber response => exact .received hcall hnext
        | _ => exact .served hcall hwaiting (by simp) hnext
  | register connection =>
      simp only [TransactionState.step, Option.bind_eq_bind, Option.ite_none_left_eq_some,
        Option.bind_eq_some_iff, Bool.not_eq_true, Option.isSome_eq_false_iff,
        Option.isNone_iff_eq_none] at h
      obtain ⟨sequenceNumber, hwaiting, hnone, manager, hmanager, hs'⟩ := h
      obtain rfl := Option.some.inj hs'
      exact .registered hwaiting hnone hmanager
  | wait e =>
      simp only [TransactionState.step, Option.bind_eq_bind, Option.ite_none_right_eq_some,
        Option.bind_eq_some_iff] at h
      obtain ⟨hwait, manager, hmanager, hs'⟩ := h
      obtain rfl := Option.some.inj hs'
      exact .waited hwait hmanager
  | returned connection =>
      simp only [TransactionState.step, Option.bind_eq_bind, Option.ite_none_left_eq_some,
        Option.bind_eq_some_iff] at h
      obtain ⟨sequenceNumber, hwaiting, wait, hwait, w, hw, hopen, next, hnext, hs'⟩ := h
      obtain rfl := Option.some.inj hs'
      exact .returned hwaiting hwait hw hopen hnext
  | next =>
      obtain rfl := Option.some.inj h
      exact .beside (by simp)
  | rest payload accepts =>
      obtain rfl := Option.some.inj h
      exact .beside (by simp)

theorem exists_moves_of_serverStep {s s' : ServerState engine Connection}
    {e : ServerEvent Connection} (h : s.step server peerAddress e = some s') :
    ∃ conn event, Moves server (s.connections e.connection) event conn ∧
      s'.connections = Function.update s.connections e.connection conn := by
  unfold ServerState.step at h
  simp only [Option.bind_eq_bind, Option.bind_eq_some_iff] at h
  obtain ⟨conn, hconn, hs'⟩ := h
  obtain rfl := Option.some.inj hs'
  exact ⟨conn, _, moves_of_step _ hconn, rfl⟩

end Moves

section Connections

variable {server : ServerContext} {conn conn' : ConnectionState}

theorem pendingCall_eq_some_iff {c : ServerCall} :
    pendingCall conn = some c ↔
      ∃ message log next, conn.phase = .handling message log (.act c next) := by
  unfold pendingCall
  split
  · rename_i message log c' next hphase
    rw [hphase]
    constructor
    · rintro hc
      obtain rfl := Option.some.inj hc
      exact ⟨message, log, next, rfl⟩
    · rintro ⟨_, _, _, hhandling⟩
      obtain ⟨-, -, hact⟩ := Phase.handling.inj hhandling
      exact congrArg some (Prog.act.inj hact).1
  · rename_i hother
    constructor
    · intro hnone
      simp at hnone
    · rintro ⟨message, log, next, hphase⟩
      exact absurd hphase (hother message log c next)

theorem waitingFor_eq_some_iff {n : UInt32} :
    waitingFor conn = some n ↔ pendingCall conn = some (.waitResponse n) := by
  unfold waitingFor
  split
  · rename_i hcall
    simp [hcall]
  · rename_i hother
    exact ⟨fun hnone => by simp at hnone, fun hcall => absurd hcall (hother n)⟩

/-- What a call sends to a client. -/
def sentBy : Option ServerCall → Option SMPPMessage
  | some (.sendMessage _ octets) => some octets
  | _ => none

theorem octets_forward {engine : RegexEngine} {Connection : Type}
    (s : TransactionState engine Connection) (accepts : Connection → Bool)
    (call : Option ServerCall) : (s.forward accepts call).map Forwarded.octets = sentBy call := by
  rcases call with - | c
  · rfl
  · cases c <;> rfl

theorem before_of_forward {engine : RegexEngine} {Connection : Type}
    {s : TransactionState engine Connection} {accepts : Connection → Bool}
    {call : Option ServerCall} {f : Forwarded Connection} (h : s.forward accepts call = some f) :
    f.before = s.manager.table.deliveries.length := by
  unfold TransactionState.forward at h
  split at h
  · obtain rfl := Option.some.inj h
    rfl
  · simp at h

theorem map_sentBy (c : ServerCall) :
    ((sentBy (some c)).map fun octets => .waitResponse (sequenceNumberOf octets)) = followUp c := by
  cases c <;> rfl

/-- While a connection handles a message, it waits next for the response to what it has forwarded
last, and passes on only the message itself. -/
def Underway (conn : ConnectionState) (forwarded : Option SMPPMessage) : Prop :=
  ∀ message log rest, conn.phase = .handling message log rest →
    (∃ pdu, toJson pdu = .ok message) ∧ Calls (PassesOn message) rest ∧
      Follows followUp (forwarded.map fun octets => .waitResponse (sequenceNumberOf octets)) rest

theorem Underway.moves {forwarded : Option SMPPMessage} (h : Underway conn forwarded)
    {event : ConnectionEvent} (hmoves : Moves server conn event conn') :
    Underway conn' (sentBy (pendingCall conn)) := by
  intro message log rest hphase
  cases hmoves with
  | decoded _ hdecode =>
      obtain ⟨rfl, -, rfl⟩ := Phase.handling.inj hphase
      exact ⟨⟨_, hdecode⟩, passesOn_handleMessage _, follows_handleMessage hdecode⟩
  | @replied _ _ _ _ c =>
      obtain ⟨rfl, -, rfl⟩ := Phase.handling.inj hphase
      obtain ⟨hpdu, hpasses, hfollows⟩ := h _ _ _ rfl
      refine ⟨hpdu, hpasses.2 _, ?_⟩
      change Follows followUp ((sentBy (some c)).map _) _
      rw [map_sentBy]
      exact hfollows.2 _
  | _ => cases hphase

/-- The number that is waited for is that of the deliver_sm that was forwarded. -/
theorem Underway.sequenceNumber {octets : SMPPMessage} (h : Underway conn (some octets))
    {n : UInt32} (hwaiting : waitingFor conn = some n) : sequenceNumberOf octets = n := by
  obtain ⟨message, log, next, hphase⟩ :=
    pendingCall_eq_some_iff.mp (waitingFor_eq_some_iff.mp hwaiting)
  obtain ⟨-, -, hfollows⟩ := h _ _ _ hphase
  have hnext : ServerCall.waitResponse n = .waitResponse (sequenceNumberOf octets) :=
    hfollows.1 _ rfl
  exact (ServerCall.waitResponse.inj hnext).symm

/-- A deliver_sm_resp with the number. -/
structure IsResponse (sequenceNumber : UInt32) (response : Value) : Prop where
  decoded : ∃ pdu, toJson pdu = .ok response
  command : extractCommandId response = some .deliverSmResp
  number : (response.u64Field "sequence_number").toUInt32 = sequenceNumber

theorem Underway.response {forwarded : Option SMPPMessage} (h : Underway conn forwarded)
    {sequenceNumber : UInt32} {response : Value}
    (hcall : pendingCall conn = some (.responseReceived sequenceNumber response)) :
    IsResponse sequenceNumber response := by
  obtain ⟨message, log, next, hphase⟩ := pendingCall_eq_some_iff.mp hcall
  obtain ⟨hpdu, hpasses, -⟩ := h _ _ _ hphase
  obtain ⟨rfl, rfl, hcommand⟩ := hpasses.1
  exact ⟨hpdu, hcommand, rfl⟩

end Connections

section Invariant

variable {engine : RegexEngine} {Connection : Type} [DecidableEq Connection]
  {server : ServerContext} {peerAddress : Connection → String}
  {s s' : TransactionState engine Connection}

/-- The wait of a submit has returned what the submit got, and was for the number of what the submit
forwarded. -/
def Settled (table : Table UInt32 Value) (x : Submission Connection) : Prop :=
  ∃ w, table.waits x.wait = some w ∧ ¬ w.Open ∧ w.key = x.sequenceNumber ∧
    x.response = w.outcome ∧
      ∀ f, x.forwarded = some f → sequenceNumberOf f.octets = x.sequenceNumber

/-- The waits go on from where they were. -/
def Onward (table table' : Table UInt32 Value) : Prop :=
  ∀ i w, table.waits i = some w → ∃ w', table'.waits i = some w' ∧ Evolves w w'

omit [DecidableEq Connection] in
theorem Settled.onward {table table' : Table UInt32 Value} {x : Submission Connection}
    (h : Settled table x) (honward : Onward table table') : Settled table' x := by
  obtain ⟨w, hw, hopen, hkey, hresponse, hforwarded⟩ := h
  obtain ⟨w', hw', hevolves⟩ := honward _ w hw
  obtain ⟨hstatus, hsent, -⟩ := hevolves.ended hopen
  refine ⟨w', hw', ?_, hevolves.key.trans hkey, ?_, hforwarded⟩
  · rwa [Wait.Open, hstatus]
  · rw [hresponse, Wait.outcome, Wait.outcome, hstatus, hsent]

/-- Every submit has a wait of its own, and responses are what was received. -/
structure Inv (s : TransactionState engine Connection) : Prop where
  keyed : Keyed s.manager.table
  present : Present s.manager.table
  sources : s.sources.length = s.manager.table.deliveries.length
  responses : ∀ d ∈ s.manager.table.deliveries, IsResponse d.key d.value
  underway : ∀ c, Underway (s.server.connections c) ((s.forwarded c).map Forwarded.octets)
  waits : ∀ c i, s.waits c = some i → ∃ w, s.manager.table.waits i = some w ∧
    waitingFor (s.server.connections c) = some w.key
  settled : ∀ x ∈ s.submissions, Settled s.manager.table x
  own : ∀ c c' i, s.waits c = some i → s.waits c' = some i → c = c'
  undecided : ∀ c i, s.waits c = some i → ∀ x ∈ s.submissions, x.wait ≠ i
  once : (s.submissions.map Submission.wait).Nodup

omit [DecidableEq Connection] in
theorem Inv.waits_eq_none (h : Inv s) {c : Connection}
    (hcall : waitingFor (s.server.connections c) = none) : s.waits c = none := by
  cases hwait : s.waits c with
  | none => rfl
  | some i =>
      obtain ⟨w, -, hwaiting⟩ := h.waits c i hwait
      simp [hcall] at hwaiting

theorem Inv.connect (h : Inv s) {e : ServerEvent Connection} {next : ServerState engine Connection}
    (hnext : s.server.step server peerAddress e = some next)
    (hwait : s.waits e.connection = none) {call : Option ServerCall}
    (hcall : pendingCall (s.server.connections e.connection) = call)
    {forwarded : Option (Forwarded Connection)}
    (hforwarded : forwarded.map Forwarded.octets = sentBy call) :
    Inv { s with
      server := next
      forwarded := Function.update s.forwarded e.connection forwarded } := by
  obtain ⟨conn, event, hmoves, hconnections⟩ := exists_moves_of_serverStep hnext
  refine ⟨h.keyed, h.present, h.sources, h.responses, ?_, ?_, h.settled, h.own, h.undecided,
    h.once⟩
  · intro c
    simp only [hconnections]
    by_cases hc : c = e.connection
    · subst hc
      rw [Function.update_self, Function.update_self, hforwarded, ← hcall]
      exact (h.underway _).moves hmoves
    · rw [Function.update_of_ne hc, Function.update_of_ne hc]
      exact h.underway c
  · intro c i hi
    have hc : c ≠ e.connection := by
      rintro rfl
      simp [hwait] at hi
    simp only [hconnections, Function.update_of_ne hc]
    exact h.waits c i hi

omit [DecidableEq Connection] in
theorem Inv.onward (h : Inv s) {manager : ManagerState} {sources : List Connection}
    (hkeyed : Keyed manager.table) (hpresent : Present manager.table)
    (honward : Onward s.manager.table manager.table)
    (hsources : sources.length = manager.table.deliveries.length)
    (hresponses : ∀ d ∈ manager.table.deliveries, IsResponse d.key d.value) :
    Inv { s with manager := manager, sources := sources } := by
  refine ⟨hkeyed, hpresent, hsources, hresponses, h.underway, ?_, ?_, h.own, h.undecided, h.once⟩
  · intro c i hi
    obtain ⟨w, hw, hwaiting⟩ := h.waits c i hi
    obtain ⟨w', hw', hevolves⟩ := honward i w hw
    exact ⟨w', hw', by rw [hwaiting, hevolves.key]⟩
  · exact fun x hx => (h.settled x hx).onward honward

omit [DecidableEq Connection] in
theorem Inv.deliver (h : Inv s) {c : Connection} {sequenceNumber : UInt32} {response : Value}
    (hcall : pendingCall (s.server.connections c) =
      some (.responseReceived sequenceNumber response)) :
    Inv { s with
      manager := { s.manager with table := s.manager.table.deliver sequenceNumber response }
      sources := s.sources ++ [c] } := by
  apply h.onward
  · exact h.keyed.deliver sequenceNumber response
  · exact h.present.deliver sequenceNumber response
  · exact fun i w hw => evolves_remove (evolves_accept _) hw
  · change (s.sources ++ [c]).length = (s.manager.table.deliveries ++ [_]).length
    rw [List.length_append, List.length_append, h.sources]
    rfl
  · intro d hd
    rcases List.mem_append.mp hd with hd | hd
    · exact h.responses d hd
    · obtain rfl := List.mem_singleton.mp hd
      exact (h.underway c).response hcall

omit [DecidableEq Connection] in
theorem Inv.manage (h : Inv s) {e : ManagerEvent} {manager : ManagerState}
    (hstep : s.manager.step .transactionResponseManager e = some manager)
    (hresponse : ∀ sequenceNumber response, e ≠ .responseReceived sequenceNumber response) :
    Inv { s with manager := manager } := by
  have hmove := tableMove_of_step hstep
  have hdeliveries : manager.table.deliveries = s.manager.table.deliveries :=
    hmove.deliveries hresponse
  apply h.onward
  · exact hmove.keyed h.keyed
  · exact hmove.present h.present
  · exact fun i w hw => hmove.evolves h.keyed hw
  · rw [hdeliveries]
    exact h.sources
  · rw [hdeliveries]
    exact h.responses

theorem Inv.register (h : Inv s) {c : Connection} {manager : ManagerState} {sequenceNumber : UInt32}
    (hwaiting : waitingFor (s.server.connections c) = some sequenceNumber)
    (hstep : s.manager.step .transactionResponseManager (.register sequenceNumber) =
      some manager) :
    Inv { s with
      manager := manager
      waits := Function.update s.waits c (some s.manager.table.size) } := by
  have hmanage : Inv { s with manager := manager } := h.manage hstep (by simp)
  obtain rfl := Option.some.inj hstep
  have hsize : ∀ c' i, s.waits c' = some i → i ≠ s.manager.table.size := by
    intro c' i hi
    obtain ⟨w, hw, -⟩ := h.waits c' i hi
    exact Nat.ne_of_lt (h.keyed.bounded i w hw)
  refine ⟨hmanage.keyed, hmanage.present, hmanage.sources, hmanage.responses, h.underway, ?_,
    hmanage.settled, ?_, ?_, h.once⟩
  · intro c' i hi
    change Function.update s.waits c _ c' = some i at hi
    by_cases hc : c' = c
    · subst hc
      rw [Function.update_self] at hi
      obtain rfl := Option.some.inj hi
      refine ⟨_, waits_add_eq_some_iff.mpr (.inl ⟨?_, rfl⟩), hwaiting⟩
      rw [size_remove]
    · rw [Function.update_of_ne hc] at hi
      exact hmanage.waits c' i hi
  · intro c₁ c₂ i hi₁ hi₂
    change Function.update s.waits c _ c₁ = some i at hi₁
    change Function.update s.waits c _ c₂ = some i at hi₂
    rw [Function.update_apply] at hi₁ hi₂
    split_ifs at hi₁ hi₂ with hc₁ hc₂ hc₂
    · rw [hc₁, hc₂]
    · exact absurd (Option.some.inj hi₁).symm (hsize c₂ i hi₂)
    · exact absurd (Option.some.inj hi₂).symm (hsize c₁ i hi₁)
    · exact h.own c₁ c₂ i hi₁ hi₂
  · intro c' i hi x hx
    change Function.update s.waits c _ c' = some i at hi
    rw [Function.update_apply] at hi
    split_ifs at hi
    · obtain rfl := Option.some.inj hi
      obtain ⟨w, hw, -⟩ := h.settled x hx
      exact Nat.ne_of_lt (h.keyed.bounded _ w hw)
    · exact h.undecided c' i hi x hx

theorem Inv.settle (h : Inv s) {c : Connection} {sequenceNumber : UInt32} {i : Nat}
    {w : Wait UInt32 Value} (hwaiting : waitingFor (s.server.connections c) = some sequenceNumber)
    (hi : s.waits c = some i) (hw : s.manager.table.waits i = some w) (hopen : ¬ w.Open) :
    Inv { s with
      waits := Function.update s.waits c none
      submissions := s.submissions ++
        [⟨c, sequenceNumber, i, s.forwarded c, w.outcome⟩] } := by
  have hupdate : ∀ c' i', Function.update s.waits c none c' = some i' →
      c' ≠ c ∧ s.waits c' = some i' := by
    intro c' i' hi'
    rw [Function.update_apply] at hi'
    split_ifs at hi' with hc
    exact ⟨hc, hi'⟩
  refine ⟨h.keyed, h.present, h.sources, h.responses, h.underway, ?_, ?_, ?_, ?_, ?_⟩
  · exact fun c' i' hi' => h.waits c' i' (hupdate c' i' hi').2
  · intro x hx
    rcases List.mem_append.mp hx with hx | hx
    · exact h.settled x hx
    · obtain rfl := List.mem_singleton.mp hx
      obtain ⟨w', hw', hwaiting'⟩ := h.waits c i hi
      obtain rfl : w = w' := Option.some.inj (hw.symm.trans hw')
      refine ⟨w, hw, hopen, Option.some.inj (hwaiting'.symm.trans hwaiting), rfl, fun f hf => ?_⟩
      have hforwarded : s.forwarded c = some f := hf
      have hunderway := h.underway c
      rw [hforwarded] at hunderway
      exact hunderway.sequenceNumber hwaiting
  · exact fun c₁ c₂ i' hi₁ hi₂ => h.own c₁ c₂ i' (hupdate c₁ i' hi₁).2 (hupdate c₂ i' hi₂).2
  · intro c' i' hi' x hx
    obtain ⟨hc, hi'⟩ := hupdate c' i' hi'
    rcases List.mem_append.mp hx with hx | hx
    · exact h.undecided c' i' hi' x hx
    · obtain rfl := List.mem_singleton.mp hx
      rintro rfl
      exact hc (h.own c' c i hi' hi)
  · rw [List.map_append]
    refine List.nodup_append.mpr ⟨h.once, List.nodup_singleton _, ?_⟩
    intro a ha b hb
    obtain ⟨x, hx, rfl⟩ := List.mem_map.mp ha
    obtain ⟨y, hy, rfl⟩ := List.mem_map.mp hb
    obtain rfl := List.mem_singleton.mp hy
    exact h.undecided c i hi x hx

omit [DecidableEq Connection] in
theorem Inv.beside (h : Inv s) (allocator : SequenceNumberAllocator)
    (injected : List (Connection × SMPPMessage)) :
    Inv { s with allocator := allocator, injected := injected } :=
  ⟨h.keyed, h.present, h.sources, h.responses, h.underway, h.waits, h.settled, h.own, h.undecided,
    h.once⟩

theorem Inv.step (h : Inv s) {e : TransactionEvent Connection}
    (hstep : s.step server peerAddress e = some s') : Inv s' := by
  cases transactionMoves_of_step hstep with
  | @received e next n response hcall hnext =>
      have hwaiting : waitingFor (s.server.connections e.connection) = none := by
        simp [waitingFor, hcall]
      exact (h.deliver hcall).connect hnext (h.waits_eq_none hwaiting) hcall rfl
  | served hcall hwaiting _ hnext =>
      have hwait := h.waits_eq_none hwaiting
      exact (h.connect hnext hwait hcall (octets_forward _ _ _)).beside _ _
  | registered hwaiting _ hmanager => exact h.register hwaiting hmanager
  | waited hwait hmanager =>
      apply h.manage hmanager
      rintro sequenceNumber response rfl
      simp [ofWait] at hwait
  | returned hwaiting hi hw hopen hnext =>
      exact (h.settle hwaiting hi hw hopen).connect hnext (Function.update_self ..)
        (waitingFor_eq_some_iff.mp hwaiting) rfl
  | beside => exact h.beside _ _

theorem inv_initial :
    Inv (transactionSystem engine server peerAddress).initial := by
  refine ⟨keyed_empty, present_empty, rfl, ?_, ?_, ?_, ?_, ?_, ?_, ?_⟩ <;>
    simp [transactionSystem, serverSystem, ManagerState.new, Table.empty, Underway, newConnection]

end Invariant

section Deciding

variable {engine : RegexEngine} {Connection : Type} [DecidableEq Connection]
  {server : ServerContext} {peerAddress : Connection → String}
  {s : TransactionState engine Connection}

/-- The response that completed a submit. -/
def TransactionState.decision (s : TransactionState engine Connection) (x : Submission Connection) :
    Option (Delivery UInt32 Value) :=
  (s.manager.table.waits x.wait).bind fun w => if w.status = .completed then w.sent else none

/-- A submit is completed by a deliver_sm_resp with the number of the deliver_sm it forwarded, which
was received from any connection after the wait was registered. -/
structure DecidedBy (s : TransactionState engine Connection) (x : Submission Connection)
    (d : Delivery UInt32 Value) : Prop where
  received : s.manager.table.deliveries[d.index]? = some d
  source : ∃ c, s.sources[d.index]? = some c
  response : IsResponse x.sequenceNumber d.value
  own : ∀ f, x.forwarded = some f → sequenceNumberOf f.octets = x.sequenceNumber
  registered : ∀ w, s.manager.table.waits x.wait = some w → w.since ≤ d.index

/-- A submit gets its response from what completed it, and no two are completed by the same. -/
structure Decided (s : TransactionState engine Connection) : Prop where
  response : ∀ x ∈ s.submissions, x.response = (s.decision x).map Delivery.value
  decided : ∀ x ∈ s.submissions, ∀ d, s.decision x = some d → DecidedBy s x d
  once : ∀ (j k : Nat) x y d, s.submissions[j]? = some x → s.submissions[k]? = some y →
    s.decision x = some d → s.decision y = some d → j = k

/-- A deliver_sm_resp is passed on whatever connection it is handled on. A wait that has its number
and may still be sent something is sent it, and takes it the next time it looks. -/
structure AnySource (server : ServerContext) (peerAddress : Connection → String)
    (s : TransactionState engine Connection) : Prop where
  passedOn : ∀ c message, extractCommandId message = some .deliverSmResp →
    (s.server.connections c).phase = .handling message [] (handleMessage server message) →
      pendingCall (s.server.connections c) =
        some (.responseReceived (message.u64Field "sequence_number").toUInt32 message)
  taken : ∀ (e : ServerEvent Connection) s' n response i w,
    pendingCall (s.server.connections e.connection) = some (.responseReceived n response) →
    s.step server peerAddress (.server e) = some s' →
    s.manager.table.waits i = some w → w.pending = true → w.key = n →
      ∃ d manager w', d.value = response ∧ s'.manager.table.deliveries[d.index]? = some d ∧
        s'.sources[d.index]? = some e.connection ∧
        s'.manager.step .transactionResponseManager (.pollReceiver i) = some manager ∧
        manager.table.waits i = some w' ∧ w'.status = .completed ∧ w'.sent = some d

/-- Every submit is completed from the connection that its message was written to. -/
def OwnDecision (s : TransactionState engine Connection) : Prop :=
  ∀ x ∈ s.submissions, ∀ f d, x.forwarded = some f → s.decision x = some d →
    s.sources[d.index]? = f.writer

omit [DecidableEq Connection] in
theorem decision_eq_some_iff {x : Submission Connection} {d : Delivery UInt32 Value} :
    s.decision x = some d ↔ ∃ w, s.manager.table.waits x.wait = some w ∧
      w.status = .completed ∧ w.sent = some d := by
  simp [TransactionState.decision, Option.bind_eq_some_iff]

omit [DecidableEq Connection] in
theorem Inv.decided (h : Inv s) : Decided s := by
  constructor
  · intro x hx
    obtain ⟨w, hw, -, -, hresponse, -⟩ := h.settled x hx
    rw [hresponse, TransactionState.decision, hw, Wait.outcome]
    by_cases hcompleted : w.status = .completed <;> simp [hcompleted]
  · intro x hx d hd
    obtain ⟨w, hw, hcompleted, hsent⟩ := decision_eq_some_iff.mp hd
    obtain ⟨hreceived, hkey, hsince⟩ := h.keyed.sent x.wait w d hw hsent
    obtain ⟨w', hw', -, hnumber, -, hown⟩ := h.settled x hx
    obtain rfl : w = w' := Option.some.inj (hw.symm.trans hw')
    obtain ⟨hlt, -⟩ := List.getElem?_eq_some_iff.mp hreceived
    have hresponse := h.responses d (List.mem_of_getElem? hreceived)
    rw [hkey, hnumber] at hresponse
    refine ⟨hreceived, ?_, hresponse, hown, ?_⟩
    · rw [← h.sources] at hlt
      exact ⟨_, List.getElem?_eq_getElem hlt⟩
    · intro w' hw'
      obtain rfl : w = w' := Option.some.inj (hw.symm.trans hw')
      exact hsince
  · intro j k x y d hx hy hdx hdy
    obtain ⟨w, hw, -, hsent⟩ := decision_eq_some_iff.mp hdx
    obtain ⟨w', hw', -, hsent'⟩ := decision_eq_some_iff.mp hdy
    have hwait : x.wait = y.wait := h.keyed.unique _ _ w w' d hw hw' hsent hsent'
    have hj : (s.submissions.map Submission.wait)[j]? = some x.wait := by
      rw [List.getElem?_map, hx, Option.map_some]
    have hk : (s.submissions.map Submission.wait)[k]? = some x.wait := by
      rw [List.getElem?_map, hy, Option.map_some, hwait]
    obtain ⟨hjlt, -⟩ := List.getElem?_eq_some_iff.mp hj
    exact (List.getElem?_inj hjlt h.once).mp (hj.trans hk.symm)

theorem pendingCall_of_deliverSmResp {conn : ConnectionState} {message : Value}
    (hcommand : extractCommandId message = some .deliverSmResp)
    (hphase : conn.phase = .handling message [] (handleMessage server message)) :
    pendingCall conn =
      some (.responseReceived (message.u64Field "sequence_number").toUInt32 message) := by
  have hhandle : ∃ next, handleMessage server message =
      .act (.responseReceived (message.u64Field "sequence_number").toUInt32 message) next := by
    unfold handleMessage
    simp only [hcommand]
    exact ⟨_, rfl⟩
  obtain ⟨next, hhandle⟩ := hhandle
  exact pendingCall_eq_some_iff.mpr ⟨message, [], next, hhandle ▸ hphase⟩

theorem Inv.anySource (h : Inv s) : AnySource server peerAddress s := by
  refine ⟨fun c message => pendingCall_of_deliverSmResp, ?_⟩
  rintro e s' n response i w hcall hstep hw hpending rfl
  have hmanager : s'.manager = { s.manager with
        table := s.manager.table.deliver w.key response } ∧
      s'.sources = s.sources ++ [e.connection] := by
    cases transactionMoves_of_step hstep with
    | received hcall' =>
        obtain ⟨rfl, rfl⟩ := ServerCall.responseReceived.inj
          (Option.some.inj (hcall.symm.trans hcall'))
        exact ⟨rfl, rfl⟩
    | served hcall' _ hother => exact absurd (hcall'.symm.trans hcall) (hother _ _)
    | beside hother => exact absurd rfl (hother e)
  obtain ⟨hmanager, hsources⟩ := hmanager
  obtain ⟨w', hw', hstatus, hsent⟩ := h.present.deliver_take hw hpending response
  have hdelivered := (@waits_deliver_eq_some_iff _ _ _ _ _ _ w.key response).mpr ⟨w, hw, rfl⟩
  have hpolled : s'.manager.waitIs i .waiting = true := by
    rw [hmanager, ManagerState.waitIs, hdelivered, Option.any_some, apply_ite Wait.status,
      accept_status, ite_self]
    simpa using (pending_eq_true_iff.mp hpending).1
  refine ⟨⟨s.manager.table.deliveries.length, w.key, response⟩, s'.manager.pollReceiver i, w', rfl,
    ?_, ?_, ?_, ?_, hstatus, hsent⟩
  · rw [hmanager]
    exact List.getElem?_concat_length ..
  · rw [hsources, ← h.sources]
    exact List.getElem?_concat_length ..
  · exact if_pos hpolled
  · rw [hmanager]
    exact hw'

/-- In every run a submit is completed only by a deliver_sm_resp with the number of what it
forwarded, and each such response completes at most one submit; whoever sends one, it completes a
wait for its number. -/
theorem submissions_decided (h : (transactionSystem engine server peerAddress).Reachable s) :
    Decided s ∧ AnySource server peerAddress s := by
  have hinv : Inv s := h.invariant inv_initial fun _ _ _ hinv _ hstep => hinv.step hstep
  exact ⟨hinv.decided, hinv.anySource⟩

end Deciding

section Losing

variable {engine : RegexEngine} {Connection : Type} [DecidableEq Connection]
  {server : ServerContext} {peerAddress : Connection → String}
  {s s' : TransactionState engine Connection}

/-- The number of the response that a call passes on. -/
def receivedNumber : Option ServerCall → Option UInt32
  | some (.responseReceived sequenceNumber _) => some sequenceNumber
  | _ => none

/-- Another connection than the one that a message was written to sends no response for which the
wait is registered, and that one only when the wait is. A number is given to a wait only if no other
waits for it, and no wait looks at its timer when it has a response to take. -/
def Timely (s : TransactionState engine Connection) : TransactionEvent Connection → Prop
  | .server e =>
      ∀ n ∈ receivedNumber (pendingCall (s.server.connections e.connection)),
        ∀ c, waitingFor (s.server.connections c) = some n →
          ∀ f ∈ s.forwarded c, ∀ writer ∈ f.writer,
            if e.connection = writer then (s.waits c).isSome = true
            else ∀ i ∈ s.waits c, s.manager.table.callbacks n ≠ some i
  | .register c =>
      ∀ sequenceNumber ∈ waitingFor (s.server.connections c),
        s.manager.distinct (.register sequenceNumber) = true
  | .wait e => s.manager.patient e = true
  | _ => True

/-- A response with the number of what was forwarded, from the connection that it was written to. -/
def answers (sources : List Connection) (f : Forwarded Connection) (d : Delivery UInt32 Value) :
    Bool :=
  decide (d.key = sequenceNumberOf f.octets) && decide (sources[d.index]? = f.writer)

/-- The first answer to what a submit forwarded, if it is received after that and before the wait
gives up, is what the wait returns. -/
def NoResponseLost (s : TransactionState engine Connection) : Prop :=
  ∀ x ∈ s.submissions, ∀ f, x.forwarded = some f →
    ∃ w, s.manager.table.waits x.wait = some w ∧ w.key = sequenceNumberOf f.octets ∧
      ∀ d, w.firstFrom f.before (answers s.sources f) s.manager.table.deliveries = some d →
        x.response = some d.value

/-- No answer came before the wait was registered, and the wait has been sent nothing else. -/
structure Answerable (deliveries : List (Delivery UInt32 Value)) (sources : List Connection)
    (f : Forwarded Connection) (w : Wait UInt32 Value) : Prop where
  skipped : Skipped deliveries (answers sources f) f.before w.since
  sent : f.writer.isSome = true → ∀ d, w.sent = some d → sources[d.index]? = f.writer

/-- Every submit may still be answered. -/
structure Unlost (s : TransactionState engine Connection) : Prop where
  sound : Sound s.manager.table
  patient : Patient s.manager.table
  unregistered : ∀ c f n, s.forwarded c = some f → s.waits c = none →
    waitingFor (s.server.connections c) = some n →
      Skipped s.manager.table.deliveries (answers s.sources f) f.before
        s.manager.table.deliveries.length
  registered : ∀ c f i w, s.forwarded c = some f → s.waits c = some i →
    s.manager.table.waits i = some w → Answerable s.manager.table.deliveries s.sources f w
  settled : ∀ x ∈ s.submissions, ∀ f w, x.forwarded = some f →
    s.manager.table.waits x.wait = some w → Answerable s.manager.table.deliveries s.sources f w

/-- The first response that the wait of a submit could be sent is an answer, if there is one. -/
theorem Unlost.noResponseLost (h : Unlost s) (hinv : Inv s) : NoResponseLost s := by
  intro x hx f hf
  obtain ⟨w, hw, hopen, hkey, hresponse, hown⟩ := hinv.settled x hx
  have hnumber : w.key = sequenceNumberOf f.octets := by rw [hkey, hown f hf]
  refine ⟨w, hw, hnumber, fun d hd => ?_⟩
  obtain ⟨hskipped, hsent⟩ := h.settled x hx f w hf hw
  rw [hskipped.firstFrom] at hd
  have hanswer : answers s.sources f d = true := List.find?_some hd
  simp only [answers, Bool.and_eq_true, decide_eq_true_eq] at hanswer
  obtain ⟨hdkey, hsource⟩ := hanswer
  obtain ⟨first, hfirst⟩ : ∃ first, w.first s.manager.table.deliveries = some first := by
    rw [← Option.isSome_iff_exists, Wait.first, List.find?_isSome]
    exact ⟨d, List.mem_of_find?_eq_some hd, by simp [hnumber, hdkey]⟩
  have hwriter : f.writer.isSome = true := by
    have hlt : d.index < s.sources.length := by
      rw [hinv.sources]
      exact hinv.keyed.index_lt (w.mem_of_firstFrom hd)
    rw [← hsource, List.getElem?_eq_getElem hlt, Option.isSome_some]
  have hfirstSource : s.sources[first.index]? = f.writer := by
    apply hsent hwriter
    rw [(h.sound.intact _ _ hw).sent, hfirst]
  have hboth : w.firstFrom w.since
      (fun d => decide (d.key = w.key) && decide (s.sources[d.index]? = f.writer))
      s.manager.table.deliveries = some d := by
    rw [hnumber]
    exact hd
  obtain rfl : d = first := firstFrom_of_first hfirst (by simpa using hfirstSource) hboth
  rw [hresponse, h.sound.outcome h.patient hw hopen, hfirst, Option.map_some]

theorem Unlost.connect (h : Unlost s) {e : ServerEvent Connection}
    {next : ServerState engine Connection}
    (hnext : s.server.step server peerAddress e = some next)
    (hwait : s.waits e.connection = none) {forwarded : Option (Forwarded Connection)}
    (hforwarded : ∀ f, forwarded = some f → f.before = s.manager.table.deliveries.length) :
    Unlost { s with
      server := next
      forwarded := Function.update s.forwarded e.connection forwarded } := by
  obtain ⟨conn, event, hmoves, hconnections⟩ := exists_moves_of_serverStep hnext
  refine ⟨h.sound, h.patient, ?_, ?_, h.settled⟩
  · intro c f n hf hnone hwaiting
    change Function.update s.forwarded e.connection forwarded c = some f at hf
    by_cases hc : c = e.connection
    · subst hc
      rw [Function.update_self] at hf
      rw [hforwarded f hf]
      exact skipped_self _ _ _
    · rw [Function.update_of_ne hc] at hf
      simp only [hconnections, Function.update_of_ne hc] at hwaiting
      exact h.unregistered c f n hf hnone hwaiting
  · intro c f i w hf hi hw
    change Function.update s.forwarded e.connection forwarded c = some f at hf
    have hc : c ≠ e.connection := by
      rintro rfl
      simp [hwait] at hi
    rw [Function.update_of_ne hc] at hf
    exact h.registered c f i w hf hi hw

omit [DecidableEq Connection] in
theorem getElem?_sources_append (hinv : Inv s) (c : Connection) :
    (s.sources ++ [c])[s.manager.table.deliveries.length]? = some c := by
  rw [← hinv.sources]
  exact List.getElem?_concat_length ..

theorem Unlost.deliver (h : Unlost s) (hinv : Inv s) {source : Connection} {n : UInt32}
    (response : Value)
    (hexpected : ∀ c, waitingFor (s.server.connections c) = some n →
      ∀ f ∈ s.forwarded c, ∀ writer ∈ f.writer,
        if source = writer then (s.waits c).isSome = true
        else ∀ i ∈ s.waits c, s.manager.table.callbacks n ≠ some i) :
    Unlost { s with
      manager := { s.manager with table := s.manager.table.deliver n response }
      sources := s.sources ++ [source] } := by
  have hsource : ∀ d ∈ s.manager.table.deliveries,
      (s.sources ++ [source])[d.index]? = s.sources[d.index]? := by
    intro d hd
    apply List.getElem?_append_left
    rw [hinv.sources]
    exact hinv.keyed.index_lt hd
  have hanswers : ∀ f, ∀ d ∈ s.manager.table.deliveries,
      answers (s.sources ++ [source]) f d = answers s.sources f d := by
    intro f d hd
    rw [answers, hsource d hd, answers]
  have hsent : ∀ {i w d}, s.manager.table.waits i = some w → w.sent = some d →
      (s.sources ++ [source])[d.index]? = s.sources[d.index]? := fun hw hd =>
    hsource _ (List.mem_of_getElem? (hinv.keyed.sent _ _ _ hw hd).1)
  refine ⟨h.sound.deliver n response, h.patient.deliver h.sound n response, ?_, ?_, ?_⟩
  · intro c f n' hf hnone hwaiting
    apply (h.unregistered c f n' hf hnone hwaiting).extend (hanswers f)
    -- whoever waits for an answer is registered
    rw [Bool.eq_false_iff]
    intro hanswer
    simp only [answers, Bool.and_eq_true, decide_eq_true_eq,
      getElem?_sources_append hinv] at hanswer
    have hunderway := hinv.underway c
    rw [hf] at hunderway
    have hnumber : n' = n := (hunderway.sequenceNumber hwaiting).symm.trans hanswer.1.symm
    have hregistered := hexpected c (hnumber ▸ hwaiting) f hf source hanswer.2.symm
    rw [if_pos rfl, hnone] at hregistered
    cases hregistered
  · intro c f i w' hf hi hw'
    obtain ⟨w, hw, rfl⟩ := waits_deliver_eq_some_iff.mp hw'
    have hbefore := h.registered c f i w hf hi hw
    constructor
    · rw [apply_ite Wait.since, accept_since, ite_self]
      exact hbefore.skipped.append (hinv.keyed.since_le i w hw) (hanswers f) _
    · intro hwriter d hd
      split_ifs at hd with hcallback
      · rcases accept_sent hd with hd | rfl
        · exact (hsent hw hd).trans (hbefore.sent hwriter d hd)
        · obtain ⟨writer, hwriter⟩ := Option.isSome_iff_exists.mp hwriter
          obtain ⟨w', hw', hwaiting⟩ := hinv.waits c i hi
          obtain ⟨w'', hw'', hkey, -⟩ := hinv.keyed.registered n i hcallback
          obtain rfl : w' = w'' := Option.some.inj (hw'.symm.trans hw'')
          have hown := hexpected c (hkey ▸ hwaiting) f hf writer hwriter
          split_ifs at hown with hc
          · exact (getElem?_sources_append hinv source).trans (hc ▸ hwriter.symm)
          · exact absurd hcallback (hown i hi)
      · exact (hsent hw hd).trans (hbefore.sent hwriter d hd)
  · intro x hx f w' hf hw'
    obtain ⟨w, hw, rfl⟩ := waits_deliver_eq_some_iff.mp hw'
    have hbefore := h.settled x hx f w hf hw
    obtain ⟨w', hw', hopen, -⟩ := hinv.settled x hx
    obtain rfl : w = w' := Option.some.inj (hw.symm.trans hw')
    constructor
    · rw [apply_ite Wait.since, accept_since, ite_self]
      exact hbefore.skipped.append (hinv.keyed.since_le _ w hw) (hanswers f) _
    · intro hwriter d hd
      rw [apply_ite Wait.sent, ((evolves_accept _ w).ended hopen).2.1, ite_self] at hd
      exact (hsent hw hd).trans (hbefore.sent hwriter d hd)

theorem Unlost.manage (h : Unlost s) (hinv : Inv s) {e : ManagerEvent} {manager : ManagerState}
    (hstep : s.manager.step .transactionResponseManager e = some manager)
    (hresponse : ∀ sequenceNumber response, e ≠ .responseReceived sequenceNumber response)
    (hdistinct : s.manager.distinct e = true) (hpatient : s.manager.patient e = true) :
    Unlost { s with manager := manager } := by
  have hmove := tableMove_of_step hstep
  have hdeliveries : manager.table.deliveries = s.manager.table.deliveries :=
    hmove.deliveries hresponse
  have honward : ∀ {f i w w'}, s.manager.table.waits i = some w → manager.table.waits i = some w' →
      Answerable s.manager.table.deliveries s.sources f w →
        Answerable manager.table.deliveries s.sources f w' := by
    intro f i w w' hw hw' hbefore
    obtain ⟨w'', hw'', hevolves⟩ := hmove.evolves hinv.keyed hw
    obtain rfl : w' = w'' := Option.some.inj (hw'.symm.trans hw'')
    constructor
    · rw [hevolves.since, hdeliveries]
      exact hbefore.skipped
    · rw [hmove.sent hresponse hinv.keyed hw hw']
      exact hbefore.sent
  refine ⟨hmove.sound h.sound hdistinct, hmove.patient h.sound h.patient hpatient, ?_, ?_, ?_⟩
  · rw [hdeliveries]
    exact h.unregistered
  · intro c f i w' hf hi hw'
    obtain ⟨w, hw, -⟩ := hinv.waits c i hi
    exact honward hw hw' (h.registered c f i w hf hi hw)
  · intro x hx f w' hf hw'
    obtain ⟨w, hw, -⟩ := hinv.settled x hx
    exact honward hw hw' (h.settled x hx f w hf hw)

theorem Unlost.register (h : Unlost s) (hinv : Inv s) {c : Connection} {manager : ManagerState}
    {n : UInt32} (hwaiting : waitingFor (s.server.connections c) = some n)
    (hnone : s.waits c = none)
    (hstep : s.manager.step .transactionResponseManager (.register n) = some manager)
    (hdistinct : s.manager.distinct (.register n) = true) :
    Unlost { s with
      manager := manager
      waits := Function.update s.waits c (some s.manager.table.size) } := by
  have hmanage : Unlost { s with manager := manager } :=
    h.manage hinv hstep (by simp) hdistinct rfl
  obtain rfl := Option.some.inj hstep
  refine ⟨hmanage.sound, hmanage.patient, ?_, ?_, hmanage.settled⟩
  · intro c' f n' hf hnone' hwaiting'
    change Function.update s.waits c _ c' = none at hnone'
    have hc : c' ≠ c := by
      rintro rfl
      simp at hnone'
    rw [Function.update_of_ne hc] at hnone'
    exact hmanage.unregistered c' f n' hf hnone' hwaiting'
  · intro c' f i w hf hi hw
    change Function.update s.waits c _ c' = some i at hi
    by_cases hc : c' = c
    · subst hc
      rw [Function.update_self] at hi
      obtain rfl := Option.some.inj hi
      have hskipped := hmanage.unregistered c' f n hf hnone hwaiting
      rcases waits_add_eq_some_iff.mp hw with ⟨-, rfl⟩ | ⟨hne, -⟩
      · exact ⟨hskipped, fun _ _ hd => nomatch hd⟩
      · simp at hne
    · rw [Function.update_of_ne hc] at hi
      exact hmanage.registered c' f i w hf hi hw

theorem Unlost.settle (h : Unlost s) {c : Connection} {n : UInt32} {i : Nat}
    (hi : s.waits c = some i) (response : Option Value) :
    Unlost { s with
      waits := Function.update s.waits c none
      forwarded := Function.update s.forwarded c none
      submissions := s.submissions ++ [⟨c, n, i, s.forwarded c, response⟩] } := by
  refine ⟨h.sound, h.patient, ?_, ?_, ?_⟩
  · intro c' f n' hf hnone hwaiting
    change Function.update s.forwarded c none c' = some f at hf
    change Function.update s.waits c none c' = none at hnone
    rw [Function.update_apply] at hf hnone
    split_ifs at hf hnone
    exact h.unregistered c' f n' hf hnone hwaiting
  · intro c' f i' w hf hi' hw
    change Function.update s.forwarded c none c' = some f at hf
    change Function.update s.waits c none c' = some i' at hi'
    rw [Function.update_apply] at hf hi'
    split_ifs at hf hi'
    exact h.registered c' f i' w hf hi' hw
  · intro x hx f w hf hw
    rcases List.mem_append.mp hx with hx | hx
    · exact h.settled x hx f w hf hw
    · obtain rfl := List.mem_singleton.mp hx
      exact h.registered c f i w hf hi hw

theorem Unlost.step (h : Unlost s) (hinv : Inv s) {e : TransactionEvent Connection}
    (htimely : Timely s e) (hstep : s.step server peerAddress e = some s') : Unlost s' := by
  cases transactionMoves_of_step hstep with
  | @received e next n response hcall hnext =>
      have hwaiting : waitingFor (s.server.connections e.connection) = none := by
        simp [waitingFor, hcall]
      have hexpected := htimely n (by rw [hcall]; rfl)
      exact (h.deliver hinv response hexpected).connect hnext (hinv.waits_eq_none hwaiting)
        (by simp)
  | @served e call _ _ hcall hwaiting _ hnext =>
      have hbefore : ∀ f, s.forward e.accepts call = some f →
          f.before = s.manager.table.deliveries.length := fun f hf => before_of_forward hf
      have hconnect := h.connect hnext (hinv.waits_eq_none hwaiting) hbefore
      exact ⟨hconnect.sound, hconnect.patient, hconnect.unregistered, hconnect.registered,
        hconnect.settled⟩
  | registered hwaiting hnone hmanager =>
      have hdistinct := htimely _ hwaiting
      exact h.register hinv hwaiting hnone hmanager hdistinct
  | @waited e _ hwait hmanager =>
      apply h.manage hinv hmanager _ (distinct_of_not_registers _) htimely
      · rintro sequenceNumber response rfl
        simp [ofWait] at hwait
      · cases e <;> first | rfl | simp [ofWait] at hwait
  | @returned c n i w next hwaiting hi hw hopen hnext =>
      have hsettle : Unlost { s with
          waits := Function.update s.waits c none
          forwarded := Function.update s.forwarded c none
          submissions := s.submissions ++ [⟨c, n, i, s.forwarded c, w.outcome⟩] } :=
        h.settle hi w.outcome
      have hnothing : ∀ f : Forwarded Connection, none = some f →
          f.before = s.manager.table.deliveries.length := by simp
      have hconnect := hsettle.connect hnext (Function.update_self ..) hnothing
      simpa using hconnect
  | beside _ => exact ⟨h.sound, h.patient, h.unregistered, h.registered, h.settled⟩

theorem unlost_initial :
    Unlost (transactionSystem engine server peerAddress).initial := by
  refine ⟨sound_empty, patient_empty, ?_, ?_, ?_⟩ <;> simp [transactionSystem]

/-- In every run in which submits are answered only once their waits are registered, nobody else
responds with the number of a registered wait, waits that have yet to return have different numbers,
and no wait looks at its timer when it has a response to take, no answer is lost. -/
theorem no_response_lost
    (h : (transactionSystem engine server peerAddress).Reaches Timely s) : NoResponseLost s := by
  have hboth : Inv s ∧ Unlost s := by
    refine @System.Reaches.invariant _ _ _ _ (fun s => Inv s ∧ Unlost s)
      ⟨inv_initial, unlost_initial⟩ ?_ _ h
    rintro s e s' ⟨hinv, hunlost⟩ htimely hstep
    exact ⟨hinv.step hstep, hunlost.step hinv htimely hstep⟩
  exact hboth.2.noResponseLost hboth.1

end Losing

section Example

instance decidableTimely {engine : RegexEngine} {n : Nat} (s : TransactionState engine (Fin n)) :
    (e : TransactionEvent (Fin n)) → Decidable (Timely s e)
  -- not by going through all numbers
  | .server e => show Decidable (∀ n ∈
      receivedNumber (pendingCall (s.server.connections e.connection)), ∀ c,
        waitingFor (s.server.connections c) = some n → ∀ f ∈ s.forwarded c, ∀ writer ∈ f.writer,
          if e.connection = writer then (s.waits c).isSome = true
          else ∀ i ∈ s.waits c, s.manager.table.callbacks n ≠ some i)
      from Option.decidableForallMem _
  | .register c => show Decidable (∀ sequenceNumber ∈
      waitingFor (s.server.connections c), s.manager.distinct (.register sequenceNumber) = true)
      from Option.decidableForallMem _
  | .wait e => inferInstanceAs (Decidable (s.manager.patient e = true))
  | .returned _ => inferInstanceAs (Decidable True)
  | .next => inferInstanceAs (Decidable True)
  | .rest _ _ => inferInstanceAs (Decidable True)

/-- A submit_sm in transaction mode to the address 12345. -/
def submitPdu : SMPPMessage :=
  header 40 0x4 0 7 ++ [0, 0, 0, 0, 0, 0, 0x31, 0x32, 0x33, 0x34, 0x35, 0, 2, 0, 0, 0, 0, 0, 0, 0, 0,
    2, 0x68, 0x69]

/-- A bind_transceiver for the addresses with 6789 in them. -/
def otherBindPdu : SMPPMessage :=
  header 29 0x9 0 1 ++ [0x61, 0, 0x62, 0, 0, 0x34, 0, 0, 0x36, 0x37, 0x38, 0x39, 0]

def deliverSmRespPdu (sequenceNumber : UInt32) : SMPPMessage :=
  header 17 0x80000005 0 sequenceNumber ++ [0]

/-- A REST request for a deliver_sm to the address 6789 with the number 1. -/
def restPayload : Value :=
  .object [("command_id", .ofNat 5), ("sequence_number", .ofNat 1),
    ("destination_addr", .string "6789"), ("short_message", .string "hi")]

def exampleSystem : System (TransactionState literalEngine (Fin 3)) (TransactionEvent (Fin 3)) :=
  transactionSystem literalEngine Relay.plainServer fun c => numberedAddress c

/-- A connection receives a PDU, and some of the calls of its handler are replied to. -/
def handle (connection : Fin 3) (pdu : SMPPMessage) (replies : Nat) :
    List (TransactionEvent (Fin 3)) :=
  (.received pdu :: .proceed :: List.replicate replies (ConnectionEvent.replied (agreeing true))).map
    fun event => .server ⟨connection, event, fun _ => true⟩

/-- The handler ends, and the connection reads on. -/
def finish (connection : Fin 3) : List (TransactionEvent (Fin 3)) :=
  List.replicate 2 (.server ⟨connection, .proceed, fun _ => true⟩)

/-- Connection 1 binds, and connection 0 forwards to it what it then waits for. -/
def forwardEvents : List (TransactionEvent (Fin 3)) :=
  handle 1 bindPdu 4 ++ finish 1 ++ handle 0 submitPdu 4

/-- The connection that a response, if any, came from. -/
def sourceOf (s : TransactionState literalEngine (Fin 3)) (d : Option (Delivery UInt32 Value)) :
    Option (Fin 3) :=
  d.bind fun d => s.sources[d.index]?

/-- What is left of a submit that can be compared: whether it has a response, where it was forwarded
to, and where the first answer and what completed it came from. -/
structure SubmissionView where
  hasResponse : Bool
  receiver : Option (Fin 3)
  answer : Option (Fin 3)
  decision : Option (Fin 3)
deriving DecidableEq, Repr

def observed (s : TransactionState literalEngine (Fin 3)) : List SubmissionView :=
  s.submissions.map fun x => ⟨x.response.isSome, x.forwarded.bind Forwarded.writer,
    sourceOf s (x.forwarded.bind fun f => (s.manager.table.waits x.wait).bind fun w =>
      w.firstFrom f.before (answers s.sources f) s.manager.table.deliveries),
    sourceOf s (s.decision x)⟩

/-- The wait is registered before the response comes. -/
def registeredEvents : List (TransactionEvent (Fin 3)) :=
  forwardEvents ++ .register 0 :: handle 1 (deliverSmRespPdu 1) 1 ++
    [.wait (.pollReceiver 0), .returned 0]

theorem no_response_lost_registered :
    ∃ s, (exampleSystem.runAllowed (fun s e => decide (Timely s e)) registeredEvents).map observed =
        some [⟨true, some 1, some 1, some 1⟩] ∧
      observed s = [⟨true, some 1, some 1, some 1⟩] ∧ NoResponseLost s := by
  have hrun : (exampleSystem.runAllowed (fun s e => decide (Timely s e)) registeredEvents).map
      observed = some [⟨true, some 1, some 1, some 1⟩] := by decide +kernel
  obtain ⟨s, hs, hobserved⟩ := Option.map_eq_some_iff.mp hrun
  have hreaches : exampleSystem.Reaches Timely s :=
    (System.reaches_of_runAllowed hs).mono fun _ _ htimely => of_decide_eq_true htimely
  exact ⟨s, hrun, hobserved, no_response_lost hreaches⟩

/-- The response comes before the wait is registered. -/
def overtakenEvents : List (TransactionEvent (Fin 3)) :=
  forwardEvents ++ handle 1 (deliverSmRespPdu 1) 1 ++
    [.register 0, .wait (.elapse 0), .wait (.pollTimer 0), .wait (.removed 0), .returned 0]

/-- Connection 1 answers what it was forwarded, and the submit gets nothing. -/
theorem response_lost :
    ∃ s, exampleSystem.Reachable s ∧ observed s = [⟨false, some 1, some 1, none⟩] ∧
      ¬ NoResponseLost s := by
  have hrun : (exampleSystem.run overtakenEvents).map observed =
      some [⟨false, some 1, some 1, none⟩] := by decide +kernel
  obtain ⟨s, hs, hobserved⟩ := Option.map_eq_some_iff.mp hrun
  refine ⟨s, System.reachable_of_run hs, hobserved, ?_⟩
  intro hlost
  obtain ⟨x, hx, hobserved⟩ : ∃ x ∈ s.submissions,
      _ = (⟨false, some 1, some 1, none⟩ : SubmissionView) :=
    List.mem_map.mp (hobserved ▸ List.mem_singleton_self _)
  simp only [SubmissionView.mk.injEq] at hobserved
  obtain ⟨hresponse, hwriter, hanswer, -⟩ := hobserved
  obtain ⟨f, hf, -⟩ := Option.bind_eq_some_iff.mp hwriter
  obtain ⟨w, hw, -, hreturned⟩ := hlost x hx f hf
  rw [hf, Option.bind_some, hw, Option.bind_some] at hanswer
  obtain ⟨d, hd, -⟩ := Option.bind_eq_some_iff.mp hanswer
  rw [hreturned d hd] at hresponse
  simp at hresponse

/-- While connection 0 waits for connection 1, a REST request with the same number goes to connection
2, which answers it. -/
def crossedEvents : List (TransactionEvent (Fin 3)) :=
  handle 2 otherBindPdu 4 ++ finish 2 ++ forwardEvents ++
    [.register 0, .rest restPayload fun _ => true] ++ handle 2 (deliverSmRespPdu 1) 1 ++
      [.wait (.pollReceiver 0), .returned 0]

/-- Where the requests at the REST endpoint went, and with which numbers. -/
def injections (s : TransactionState literalEngine (Fin 3)) : List (Fin 3 × UInt32) :=
  s.injected.map fun write => (write.1, sequenceNumberOf write.2)

theorem run_crossedEvents :
    (exampleSystem.run crossedEvents).map (fun s => (observed s, injections s)) =
      some ([⟨true, some 1, none, some 2⟩], [(2, 1)]) := by decide +kernel

theorem submissions_decided_crossed :
    ∃ s, (exampleSystem.run crossedEvents).map observed =
        some [⟨true, some 1, none, some 2⟩] ∧
      observed s = [⟨true, some 1, none, some 2⟩] ∧ Decided s ∧
        AnySource Relay.plainServer (fun c : Fin 3 => numberedAddress c) s := by
  obtain ⟨s, hs, hviews⟩ := Option.map_eq_some_iff.mp run_crossedEvents
  have hobserved : observed s = [⟨true, some 1, none, some 2⟩] := congrArg Prod.fst hviews
  have hrun : (exampleSystem.run crossedEvents).map observed =
      some [⟨true, some 1, none, some 2⟩] := by rw [hs, Option.map_some, hobserved]
  have hreachable : exampleSystem.Reachable s := System.reachable_of_run hs
  exact ⟨s, hrun, hobserved, submissions_decided hreachable⟩

/-- What connection 1 was forwarded is answered by connection 2, which was sent a deliver_sm with the
same number through the REST endpoint. -/
theorem not_ownDecision :
    ∃ s, exampleSystem.Reachable s ∧ observed s = [⟨true, some 1, none, some 2⟩] ∧
      injections s = [(2, 1)] ∧ ¬ OwnDecision s := by
  obtain ⟨s, hs, hobserved⟩ := Option.map_eq_some_iff.mp run_crossedEvents
  rw [Prod.mk.injEq] at hobserved
  obtain ⟨hobserved, hinjected⟩ := hobserved
  refine ⟨s, System.reachable_of_run hs, hobserved, hinjected, ?_⟩
  intro hown
  obtain ⟨x, hx, hobserved⟩ : ∃ x ∈ s.submissions,
      _ = (⟨true, some 1, none, some 2⟩ : SubmissionView) :=
    List.mem_map.mp (hobserved ▸ List.mem_singleton_self _)
  simp only [SubmissionView.mk.injEq] at hobserved
  obtain ⟨-, hwriter, -, hsource⟩ := hobserved
  obtain ⟨f, hf, hwritten⟩ := Option.bind_eq_some_iff.mp hwriter
  obtain ⟨d, hd, hfrom⟩ := Option.bind_eq_some_iff.mp hsource
  have hsame := hown x hx f d hf hd
  rw [hfrom, hwritten] at hsame
  simp at hsame

end Example

end SmppHerald.TransactionRun
