import SmppHerald.Io
import SmppHerald.Json
import SmppHerald.Library.ByteParser
import SmppHerald.Library.TransitionSystem
import SmppHerald.LoadBalancing

namespace SmppHerald.ConnectionManager

open SmppHerald.ByteParser
open SmppHerald.Failover
open SmppHerald.Interaction
open SmppHerald.Io
open SmppHerald.Json
open SmppHerald.LoadBalancing
open SmppHerald.TransitionSystem

section Connections

structure SmscConnectionConfig where
  address : String
  systemId : String
  password : String
  systemType : String
  addrTon : UInt8
  addrNpi : UInt8
  addressRange : String
  interfaceVersion : UInt8
deriving DecidableEq

/-- The writer and the pending responses are `shared`: a clone has the same ones. -/
structure SmscConnection where
  bindType : String
  sessionInitTimer : UInt32
  enquireLinkTimer : UInt32
  inactiveTimer : UInt32
  responseTimer : UInt32
  config : SmscConnectionConfig
  shared : Nat
deriving DecidableEq

def SmscConnection.getAddress (self : SmscConnection) : String := self.config.address

end Connections

section Manager

structure SmscConnectionManager where
  connections : List SmscConnection
  algorithm : LoadBalancingAlgorithm
  index : UInt32

structure SendMessage where
  connection : SmscConnection
  message : Bytes

/-- A PDU that has no response is answered by `None`. -/
abbrev Sending := Prog SendMessage fun _ => Except IoError (Option Value)

namespace SmscConnectionManager

def new (algorithm : LoadBalancingAlgorithm) : SmscConnectionManager := ⟨[], algorithm, 0⟩

variable (self : SmscConnectionManager)

def getConnectionAddresses : List String := self.connections.map SmscConnection.getAddress

def addConnection (connection : SmscConnection) : SmscConnectionManager :=
  { self with connections := self.connections ++ [connection] }

def removeConnection (address : String) : SmscConnectionManager :=
  { self with connections := self.connections.filter fun conn => conn.config.address ≠ address }

/-- The first index, for which the counter is increased. The remainder of a division by zero
panics. -/
def nextIndex : Option Nat × SmscConnectionManager :=
  match self.algorithm with
  | .roundRobin =>
      let n := self.connections.length
      (if n = 0 then none else some (self.index.toNat % n), { self with index := self.index + 1 })
  | .failOver => (some 0, self)

def getConnections : Option (List SmscConnection) × SmscConnectionManager :=
  let (index, next) := self.nextIndex
  (index.bind (goRound self.connections), next)

def responseOf : Except IoError (Option Value) → Option Value
  | .ok response => response
  | .error _ => none

def resultOf (response : Option Value) : Except IoError Value :=
  match response with
  | some response => .ok response
  | none => .error (otherError "Failed to send message to any SMSC connection")

def sendOn (connections : List SmscConnection) (message : Bytes) : Sending (Except IoError Value) := do
  let response ← tryEach (SendMessage.mk · message) responseOf connections
  return resultOf response

/-- What `send_message` does once it has the connections, if it gets them. -/
def sendAmong (connections : Option (List SmscConnection)) (message : Bytes) :
    Sending (Except IoError Value) :=
  match connections with
  | none => .panic
  | some connections =>
      if connections.isEmpty = true then
        return .error (otherError "No active SMSC connections available")
      else sendOn connections message

def sendMessage (message : Bytes) : Sending (Except IoError Value) × SmscConnectionManager :=
  (sendAmong self.getConnections.1 message, self.getConnections.2)

end SmscConnectionManager

end Manager

section Sending

open SmscConnectionManager

variable {manager : SmscConnectionManager} {message : Bytes}

/-- What a run of `send_message` on connections in an order should do. -/
structure Delivers (order : List SmscConnection) (message : Bytes)
    (log : List (Event fun _ : SendMessage => Except IoError (Option Value)))
    (result : Option (Except IoError Value)) : Prop where
  returns : result.isSome = true
  inOrder : log.map Sigma.fst <+: order.map (SendMessage.mk · message)
  responds : ∀ response, result = some (.ok response) ↔ ∃ front event, log = front ++ [event] ∧
    (∀ e ∈ front, responseOf e.2 = none) ∧ responseOf event.2 = some response
  fails : (∃ error, result = some (.error error)) ↔
    log.map Sigma.fst = order.map (SendMessage.mk · message) ∧ ∀ e ∈ log, responseOf e.2 = none

theorem nextIndex_roundRobin (h : manager.algorithm = .roundRobin) (hn : manager.connections ≠ []) :
    manager.nextIndex.1 = some (manager.index.toNat % manager.connections.length) := by
  rw [nextIndex, h]
  exact if_neg (fun hzero => hn (List.eq_nil_of_length_eq_zero hzero))

theorem getConnections_eq (h : manager.connections ≠ [] ∨ manager.algorithm = .failOver) :
    manager.getConnections.1 =
      some (candidateOrder manager.algorithm manager.index.toNat manager.connections) := by
  show manager.nextIndex.1.bind (goRound manager.connections) = _
  cases halgorithm : manager.algorithm with
  | roundRobin =>
      have hn : manager.connections ≠ [] := h.resolve_right (by rw [halgorithm]; decide)
      rw [nextIndex_roundRobin halgorithm hn, Option.bind_some, goRound_eq, List.rotate_mod]
      rfl
  | failOver =>
      have hindex : manager.nextIndex.1 = some 0 := by
        rw [nextIndex, halgorithm]
      rw [hindex, Option.bind_some, goRound_eq, List.rotate_zero]
      rfl

theorem getConnections_none (h : manager.connections = []) (ha : manager.algorithm = .roundRobin) :
    manager.getConnections.1 = none := by
  have hindex : manager.nextIndex.1 = none := by
    rw [nextIndex, ha, h]
    rfl
  show manager.nextIndex.1.bind (goRound manager.connections) = none
  rw [hindex]
  rfl

theorem Delivers.of_tried {order : List SmscConnection}
    {log : List (Event fun _ : SendMessage => Except IoError (Option Value))} {value : Option Value}
    (h : Tried (SendMessage.mk · message) responseOf order log value) :
    Delivers order message log (some (resultOf value)) where
  returns := rfl
  inOrder := h.inOrder
  responds response := by
    rw [← h.succeeds response]
    cases value <;> simp [resultOf]
  fails := by
    rw [← h.fails]
    cases value <;> simp [resultOf]

theorem delivers_nil (error : IoError) : Delivers [] message [] (some (.error error)) := by
  constructor <;> simp

theorem delivers_sendOn {order : List SmscConnection}
    {log : List (Event fun _ : SendMessage => Except IoError (Option Value))}
    {result : Option (Except IoError Value)} (h : Run (sendOn order message) log result) :
    Delivers order message log result := by
  obtain ⟨value, rfl, htried⟩ := tried_of_run_bind (fun _ => rfl) h
  exact .of_tried htried

theorem delivers_of_run (h : manager.connections ≠ [] ∨ manager.algorithm = .failOver)
    {log : List (Event fun _ : SendMessage => Except IoError (Option Value))}
    {result : Option (Except IoError Value)} (hrun : Run (manager.sendMessage message).1 log result) :
    Delivers (candidateOrder manager.algorithm manager.index.toNat manager.connections) message log
      result := by
  rw [sendMessage, getConnections_eq h] at hrun
  generalize candidateOrder manager.algorithm manager.index.toNat manager.connections = order
    at hrun ⊢
  cases order with
  | nil =>
      obtain ⟨rfl, rfl⟩ := (run_pure_iff _ _ _).mp hrun
      exact delivers_nil _
  | cons connection order => exact delivers_sendOn hrun

/-- `send_message` does what it should, whatever the connections reply, except on an empty pool
whose connections should take turns: there it panics. -/
theorem sendMessage_delivers_iff (manager : SmscConnectionManager) (message : Bytes) :
    (∀ log result, Run (manager.sendMessage message).1 log result →
      Delivers (candidateOrder manager.algorithm manager.index.toNat manager.connections) message log
        result) ↔ (manager.connections ≠ [] ∨ manager.algorithm = .failOver) := by
  refine ⟨fun h => ?_, fun h log result => delivers_of_run h⟩
  by_contra hempty
  rw [not_or, not_not] at hempty
  have hroundRobin : manager.algorithm = .roundRobin := by
    cases halgorithm : manager.algorithm with
    | roundRobin => rfl
    | failOver => exact absurd halgorithm hempty.2
  have hrun : Run (manager.sendMessage message).1 [] none := by
    rw [sendMessage, getConnections_none hempty.1 hroundRobin]
    exact .panic
  exact absurd (h [] none hrun).returns (by simp)

theorem not_delivers : ¬ ∀ (manager : SmscConnectionManager) (message : Bytes) log result,
    Run (manager.sendMessage message).1 log result →
      Delivers (candidateOrder manager.algorithm manager.index.toNat manager.connections) message log
        result := by
  intro h
  have hrun : Run ((SmscConnectionManager.new .roundRobin).sendMessage []).1 [] none := .panic
  exact absurd (h (.new .roundRobin) [] [] none hrun).returns (by decide)

end Sending

section Client

/-- What the connections of the configuration have in common. -/
structure ClientConfig where
  bindType : String
  loadBalancingAlgorithm : Option String
  sessionInitTimer : UInt32
  enquireLinkTimer : UInt32
  inactiveTimer : UInt32
  responseTimer : UInt32

structure AddSmscRequest where
  bindType : String
  sessionInitTimer : UInt32
  enquireLinkTimer : UInt32
  inactiveTimer : UInt32
  responseTimer : UInt32
  address : String
  systemId : String
  password : String
  systemType : Option String
  addrTon : Option UInt8
  addrNpi : Option UInt8
  addressRange : Option String
  interfaceVersion : Option UInt8

def AddSmscRequest.connConfig (req : AddSmscRequest) : SmscConnectionConfig where
  address := req.address
  systemId := req.systemId
  password := req.password
  systemType := req.systemType.getD ""
  addrTon := req.addrTon.getD 0
  addrNpi := req.addrNpi.getD 0
  addressRange := req.addressRange.getD ""
  interfaceVersion := req.interfaceVersion.getD 0x34

/-- `live` are the connections whose `run` was spawned, in that order, less those that were removed
since. -/
structure ClientState where
  manager : SmscConnectionManager
  allocated : Nat
  live : List SmscConnection

namespace ClientState

def new (config : ClientConfig) : ClientState where
  manager := .new (.fromString (config.loadBalancingAlgorithm.getD "round_robin"))
  allocated := 0
  live := []

/-- `tokio::spawn` of `run`. -/
def spawn (s : ClientState) (connection : SmscConnection) : ClientState :=
  { s with allocated := s.allocated + 1, live := s.live ++ [connection] }

def startConnection (config : ClientConfig) (connConfig : SmscConnectionConfig) (s : ClientState) :
    ClientState :=
  let connection : SmscConnection := {
    bindType := config.bindType
    sessionInitTimer := config.sessionInitTimer
    enquireLinkTimer := config.enquireLinkTimer
    inactiveTimer := config.inactiveTimer
    responseTimer := config.responseTimer
    config := connConfig
    shared := s.allocated }
  { s with manager := s.manager.addConnection connection }.spawn connection

def addLiveSmscConnection (req : AddSmscRequest) (s : ClientState) : (Nat × Value) × ClientState :=
  let connection : SmscConnection := {
    bindType := req.bindType
    sessionInitTimer := req.sessionInitTimer
    enquireLinkTimer := req.enquireLinkTimer
    inactiveTimer := req.inactiveTimer
    responseTimer := req.responseTimer
    config := req.connConfig
    shared := s.allocated }
  ((201, .object [
      ("data", .object [("address", .string req.address), ("status", .string "connecting"),
        ("system_id", .string req.systemId)]),
      ("success", .bool true)]), s.spawn connection)

def removeConnection (address : String) (s : ClientState) : ClientState :=
  { s with
    manager := s.manager.removeConnection address
    live := s.live.filter fun conn => conn.config.address ≠ address }

end ClientState

def addressList (addresses : List String) : Value :=
  .object [
    ("data", .array (addresses.zipIdx.map fun entry =>
      .object [("address", .string entry.1), ("index", .ofNat entry.2)])),
    ("success", .bool true)]

def listLiveSmscConnections (s : ClientState) : Value :=
  addressList s.manager.getConnectionAddresses

inductive ClientEvent
  | start (connConfig : SmscConnectionConfig)
  | addLive (req : AddSmscRequest)
  | remove (address : String)
  | send (message : Bytes)

def ClientState.step (config : ClientConfig) (s : ClientState) : ClientEvent → ClientState
  | .start connConfig => s.startConnection config connConfig
  | .addLive req => (s.addLiveSmscConnection req).2
  | .remove address => s.removeConnection address
  | .send message => { s with manager := (s.manager.sendMessage message).2 }

def ClientState.after (config : ClientConfig) (events : List ClientEvent) : ClientState :=
  events.foldl (step config) (.new config)

end Client

section Pool

open ClientState

variable {config : ClientConfig} {s : ClientState}

/-- The pool, and so what is listed and what messages are sent on, is what is live. -/
structure Routes (s : ClientState) : Prop where
  pool : s.manager.connections = s.live
  listed : listLiveSmscConnections s = addressList (s.live.map SmscConnection.getAddress)
  candidates : ∀ order, s.manager.getConnections.1 = some order →
    order = candidateOrder s.manager.algorithm s.manager.index.toNat s.live

theorem routes_of_pool (h : s.manager.connections = s.live) : Routes s where
  pool := h
  listed := by rw [listLiveSmscConnections, SmscConnectionManager.getConnectionAddresses, h]
  candidates order horder := by
    by_cases hdivides : s.manager.connections ≠ [] ∨ s.manager.algorithm = .failOver
    · rw [getConnections_eq hdivides, h] at horder
      exact (Option.some.inj horder).symm
    · rw [not_or, not_not] at hdivides
      have halgorithm : s.manager.algorithm = .roundRobin := by
        cases ha : s.manager.algorithm with
        | roundRobin => rfl
        | failOver => exact absurd ha hdivides.2
      rw [getConnections_none hdivides.1 halgorithm] at horder
      cases horder

theorem connections_sendMessage (manager : SmscConnectionManager) (message : Bytes) :
    (manager.sendMessage message).2.connections = manager.connections := by
  show manager.nextIndex.2.connections = manager.connections
  rw [SmscConnectionManager.nextIndex]
  cases manager.algorithm <;> rfl

/-- Every event but `add_live_smsc_connection` does the same to both. -/
theorem pool_step (h : s.manager.connections = s.live) {event : ClientEvent}
    (hevent : ∀ req, event ≠ .addLive req) :
    (s.step config event).manager.connections = (s.step config event).live := by
  cases event with
  | start connConfig =>
      show s.manager.connections ++ [_] = s.live ++ [_]
      rw [h]
  | addLive req => exact absurd rfl (hevent req)
  | remove address =>
      show s.manager.connections.filter _ = s.live.filter _
      rw [h]
  | send message =>
      show (s.manager.sendMessage message).2.connections = s.live
      rw [connections_sendMessage, h]

theorem not_pool_addLive (h : s.manager.connections = s.live) (req : AddSmscRequest) :
    (s.step config (.addLive req)).manager.connections ≠ (s.step config (.addLive req)).live := by
  show s.manager.connections ≠ s.live ++ [_]
  rw [h]
  simp

theorem after_append (config : ClientConfig) (events : List ClientEvent) (event : ClientEvent) :
    ClientState.after config (events ++ [event]) =
      (ClientState.after config events).step config event := by
  rw [ClientState.after, List.foldl_append]
  rfl

theorem pool_after {events : List ClientEvent} (h : ∀ req, .addLive req ∉ events) :
    (ClientState.after config events).manager.connections =
      (ClientState.after config events).live := by
  induction events using List.reverseRecOn with
  | nil => rfl
  | append_singleton events event ih =>
      rw [after_append]
      apply pool_step (ih fun req hreq => h req (List.mem_append_left _ hreq))
      rintro req rfl
      exact h req (List.mem_append_right _ (List.mem_singleton_self _))

/-- In every state that a sequence of events comes through the pool is what is live, exactly when no
connection is added at run time. -/
theorem routes_iff (config : ClientConfig) (events : List ClientEvent) :
    (∀ front, front <+: events → Routes (ClientState.after config front)) ↔
      ∀ req, .addLive req ∉ events := by
  constructor
  · intro h req hreq
    obtain ⟨front, rest, rfl⟩ := List.append_of_mem hreq
    have hbefore := (h front (List.prefix_append _ _)).pool
    have hafter := (h (front ++ [.addLive req]) ⟨rest, by simp⟩).pool
    rw [after_append] at hafter
    exact not_pool_addLive hbefore req hafter
  · rintro h front ⟨rest, rfl⟩
    exact routes_of_pool (pool_after fun req hreq => h req (List.mem_append_left rest hreq))

theorem not_routes : ¬ ∀ (config : ClientConfig) (events : List ClientEvent),
    Routes (ClientState.after config events) := by
  intro h
  have hpool := (h ⟨"transceiver", none, 30, 30, 300, 30⟩
    [.addLive ⟨"transceiver", 30, 30, 300, 30, "10.0.0.1:2775", "test_user", "secret", none, none,
      none, none, none⟩]).pool
  exact absurd hpool (by decide)

end Pool

end SmppHerald.ConnectionManager
