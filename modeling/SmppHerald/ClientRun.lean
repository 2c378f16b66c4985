import SmppHerald.ClientConnection
import SmppHerald.Library.FairLock
import SmppHerald.ResponseManagers

/-!
`SmscConnection::run` with the callers of `send_message`: the connection loop and any number of
senders share one writer behind a lock and one `ResponseManager`.
-/

namespace SmppHerald.ClientRun

open SmppHerald.Buffer
open SmppHerald.Callbacks
open SmppHerald.ClientConnection
open SmppHerald.CommandIds
open SmppHerald.FairLock
open SmppHerald.FieldCodecs
open SmppHerald.Interaction
open SmppHerald.Io
open SmppHerald.Json
open SmppHerald.Message
open SmppHerald.ResponseManagers
open SmppHerald.TransitionSystem

section Model

/-- The connection loop, and the callers of `send_message`. -/
inductive Task
  | connection
  | sender (i : Nat)
deriving DecidableEq, Repr

/-- Octets that were written to a connection, and whether a bind had been accepted on it by then. -/
structure Write where
  connection : Nat
  task : Task
  octets : SMPPMessage
  bound : Bool

/-- What the tasks share. Connections are numbered as they are made: `current` is the last one, and
`writer` the one whose write half is behind the lock. `incoming` has the PDUs that have arrived on
the last one and have not been read. -/
structure Session where
  lock : Mutex Task
  writer : Option Nat
  current : Nat
  incoming : List SMPPMessage
  bound : Nat → Bool
  writes : List Write
  manager : ManagerState
  waits : Task → Option Nat

/-- What the connection loop is doing; `messages` are those it has read and not yet processed. -/
inductive Mode
  | disconnected
  | establishing
  | selecting
  | processing (messages : List SMPPMessage)
  | enquiring

abbrev Program := Action (Except IoError (Option Value))

/-- The programs of the tasks that have one, and the last message of each sender. -/
structure ClientState where
  session : Session
  mode : Mode
  programs : Task → Option Program
  messages : Nat → SMPPMessage

/-- How a wait looks for its response. -/
inductive Poll
  | receiver | timer | elapse
deriving DecidableEq, Repr

/-- What happens to a client: the loop connects, a PDU arrives, the loop reads some of them, its
enquire_link timer ticks, or it ends because the socket is closed or inactive; a message is to be
sent; a task asks for the lock, gets a reply to its call, or ends its program; it looks whether what
it waits for has come; or the caller of a sender drops its future, which may have written a part of
the message. -/
inductive ClientEvent
  | attempt (alarmActive : Bool)
  | arrived (pdu : SMPPMessage)
  | read (count : Nat)
  | tick
  | leave
  | send (i : Nat) (message : SMPPMessage)
  | ask (task : Task)
  | replied (task : Task) (oracle : (c : ClientCall) → Reply c)
  | ended (task : Task)
  | polled (task : Task) (poll : Poll)
  | dropped (i written : Nat)

/-- A bind response that accepts the bind. -/
def bindAccepted (pdu : SMPPMessage) : Bool :=
  match toJson pdu with
  | .ok response => isBindOk response
  | .error _ => false

def awaited (w : Wait UInt32 Value) : Option Awaited :=
  match w.status with
  | .completed => w.outcome.map .response
  | .closed => some .closed
  | .expired => some .elapsed
  | _ => none

def Poll.event (wait : Nat) : Poll → ManagerEvent
  | .receiver => .pollReceiver wait
  | .timer => .pollTimer wait
  | .elapse => .elapse wait

/-- The calls that a sender waits for; its future can be dropped there. -/
def suspends : ClientCall → Bool
  | .registerCallback _ | .lockWriter | .writeAll _ | .awaitResponse _ => true
  | _ => false

namespace Session

def new : Session := ⟨.free, none, 0, [], fun _ => false, [], .new, fun _ => none⟩

def write (s : Session) (task : Task) (octets : SMPPMessage) : Session :=
  { s with writes := s.writes ++
      (s.writer.map fun connection => ⟨connection, task, octets, s.bound connection⟩).toList }

def register (s : Session) (task : Task) (sequenceNumber : UInt32) : Session :=
  { s with
    manager := { s.manager with table := s.manager.table.register sequenceNumber }
    waits := Function.update s.waits task (some s.manager.table.size) }

def receive (s : Session) (pdu : SMPPMessage) (rest : List SMPPMessage) : Session :=
  { s with
    incoming := rest
    bound := if bindAccepted pdu = true then Function.update s.bound s.current true else s.bound }

/-- A future is dropped while it waits for the call. It gives the writer back, and nobody looks for
the response that it has registered for. -/
def drop (s : Session) (task : Task) (written : Nat) : ClientCall → Session
  | .writeAll octets =>
      { s with lock := s.lock.leave task }.write task (octets.take written)
  | _ => { s with lock := s.lock.leave task }

/-- The reply to a call, if there can be one yet, and what the call does. The replies of what is
outside come from the oracle. -/
def reply (s : Session) (task : Task) :
    (c : ClientCall) → ((c : ClientCall) → Reply c) → Option (Reply c × Session)
  | .lockWriter, _ =>
      (s.lock.grant task).map fun lock => (s.writer.isSome, { s with lock := lock })
  | .unlockWriter, _ => (s.lock.release task).map fun lock => ((), { s with lock := lock })
  | .writeAll octets, oracle => some (oracle (.writeAll octets), s.write task octets)
  | .registerCallback sequenceNumber, _ => some ((), s.register task sequenceNumber)
  | .awaitResponse _, _ => do
      let wait ← s.waits task
      let w ← s.manager.table.waits wait
      let result ← awaited w
      return (result, s)
  | .responseReceived sequenceNumber response, _ =>
      some ((), { s with
        manager := { s.manager with
          table := s.manager.table.deliver sequenceNumber response } })
  | .connect, oracle =>
      match oracle .connect with
      | .ok () => some (.ok (), { s with current := s.current + 1, incoming := [] })
      | .error e => some (.error e, s)
  | .replaceWriter, _ => some ((), { s with writer := some s.current })
  | .receive, oracle =>
      match oracle .receive, s.incoming with
      | none, _ => some (none, s)
      | some _, pdu :: rest => some (some pdu, s.receive pdu rest)
      | some _, [] => none
  | c, oracle => some (oracle c, s)

end Session

namespace ClientState

def new : ClientState := ⟨.new, .disconnected, fun _ => none, fun _ => []⟩

/-- The call that a task is at. -/
def pendingCall (s : ClientState) (task : Task) : Option ClientCall :=
  match s.programs task with
  | some (.act c _) => some c
  | _ => none

def start (s : ClientState) (mode : Mode) (program : Action (Except IoError Unit)) : ClientState :=
  { s with
    mode := mode
    programs := Function.update s.programs .connection
      (some (Except.map (fun _ => none) <$> program)) }

def stop (s : ClientState) (mode : Mode) : ClientState :=
  { s with mode := mode, programs := Function.update s.programs .connection none }

variable (connection : SmscConnection)

/-- The loop over the messages that were read. -/
def process (s : ClientState) : List SMPPMessage → ClientState
  | [] => s.stop .selecting
  | message :: messages => s.start (.processing messages) (processInMessage connection message)

/-- The program of the connection loop has returned. -/
def finish (s : ClientState) (result : Except IoError (Option Value)) : Option ClientState :=
  match s.mode, result with
  | .establishing, .ok _ => some (s.stop .selecting)
  | .establishing, .error _ => some (s.stop .disconnected)
  -- an error is logged, and the next message is processed
  | .processing messages, _ => some (s.process connection messages)
  | .enquiring, .ok _ => some (s.stop .selecting)
  | .enquiring, .error _ => some (s.stop .disconnected)
  | _, _ => none

def step (s : ClientState) : ClientEvent → Option ClientState
  | .attempt alarmActive =>
      match s.mode with
      | .disconnected => some (s.start .establishing (establish connection alarmActive))
      | _ => none
  | .arrived pdu =>
      some { s with session := { s.session with incoming := s.session.incoming ++ [pdu] } }
  | .read count =>
      match s.mode with
      | .selecting =>
          some (process connection { s with
            session := { s.session with incoming := s.session.incoming.drop count } }
              (s.session.incoming.take count))
      | _ => none
  | .tick =>
      match s.mode with
      | .selecting => some (s.start .enquiring (sendEnquireLink connection))
      | _ => none
  | .leave =>
      match s.mode with
      | .selecting => some (s.stop .disconnected)
      | _ => none
  | .send i message =>
      match s.programs (.sender i) with
      | none => some { s with
          programs := Function.update s.programs (.sender i) (some (sendMessage message))
          messages := Function.update s.messages i message }
      | some _ => none
  | .ask task =>
      match s.pendingCall task with
      | some .lockWriter => (s.session.lock.ask task).map fun lock =>
          { s with session := { s.session with lock := lock } }
      | _ => none
  | .replied task oracle =>
      match s.programs task with
      | some (.act c next) => (s.session.reply task c oracle).map fun (reply, session) =>
          { s with
            session := session
            programs := Function.update s.programs task (some (next reply)) }
      | _ => none
  | .ended task =>
      match task, s.programs task with
      | .connection, some (.ret result) => s.finish connection result
      | .sender i, some (.ret _) =>
          some { s with programs := Function.update s.programs (.sender i) none }
      | _, _ => none
  | .polled task poll =>
      match s.pendingCall task, s.session.waits task with
      | some (.awaitResponse _), some wait =>
          (s.session.manager.step .responseManager (poll.event wait)).map fun manager =>
            { s with session := { s.session with manager := manager } }
      | _, _ => none
  | .dropped i written =>
      match s.pendingCall (.sender i) with
      | some c =>
          if suspends c = true then some { s with
            session := s.session.drop (.sender i) written c
            programs := Function.update s.programs (.sender i) none }
          else none
      | none => none

end ClientState

/-- A client before it has connected. -/
def clientSystem (connection : SmscConnection) : System ClientState ClientEvent where
  initial := .new
  step := ClientState.step connection

end Model

section Moves

variable {connection : SmscConnection}

/-- The steps of a client. -/
inductive ClientMoves (connection : SmscConnection) (s : ClientState) :
    ClientEvent → ClientState → Prop
  | attempt {alarmActive} : s.mode = .disconnected →
      ClientMoves connection s (.attempt alarmActive)
        (s.start .establishing (establish connection alarmActive))
  | arrived {pdu incoming} : ClientMoves connection s (.arrived pdu)
      { s with session := { s.session with incoming := incoming } }
  | polled {task poll wait manager} :
      s.session.manager.step .responseManager (poll.event wait) = some manager →
      ClientMoves connection s (.polled task poll)
        { s with session := { s.session with manager := manager } }
  | read {count} : s.mode = .selecting → ClientMoves connection s (.read count)
      (ClientState.process connection
        { s with session := { s.session with incoming := s.session.incoming.drop count } }
          (s.session.incoming.take count))
  | tick : s.mode = .selecting →
      ClientMoves connection s .tick (s.start .enquiring (sendEnquireLink connection))
  | leave : s.mode = .selecting → ClientMoves connection s .leave (s.stop .disconnected)
  | send {i message} : s.programs (.sender i) = none → ClientMoves connection s (.send i message)
      { s with
        programs := Function.update s.programs (.sender i) (some (sendMessage message))
        messages := Function.update s.messages i message }
  | ask {task lock} : s.pendingCall task = some .lockWriter → s.session.lock.ask task = some lock →
      ClientMoves connection s (.ask task) { s with session := { s.session with lock := lock } }
  | replied {task oracle c next reply session} : s.programs task = some (.act c next) →
      s.session.reply task c oracle = some (reply, session) →
      ClientMoves connection s (.replied task oracle)
        { s with
          session := session
          programs := Function.update s.programs task (some (next reply)) }
  | finished {result s'} : s.programs .connection = some (.ret result) →
      s.finish connection result = some s' → ClientMoves connection s (.ended .connection) s'
  | ended {i result} : s.programs (.sender i) = some (.ret result) →
      ClientMoves connection s (.ended (.sender i))
        { s with programs := Function.update s.programs (.sender i) none }
  | dropped {i written c} : s.pendingCall (.sender i) = some c → suspends c = true →
      ClientMoves connection s (.dropped i written)
        { s with
          session := s.session.drop (.sender i) written c
          programs := Function.update s.programs (.sender i) none }

theorem clientMoves_of_step {s s' : ClientState} {e : ClientEvent}
    (h : s.step connection e = some s') : ClientMoves connection s e s' := by
  cases e with
  | attempt alarmActive =>
      simp only [ClientState.step] at h
      split at h
      · rename_i hmode
        obtain rfl := Option.some.inj h
        exact .attempt hmode
      · simp at h
  | arrived pdu =>
      obtain rfl := Option.some.inj h
      exact .arrived
  | read count =>
      simp only [ClientState.step] at h
      split at h
      · rename_i hmode
        obtain rfl := Option.some.inj h
        exact .read hmode
      · simp at h
  | tick =>
      simp only [ClientState.step] at h
      split at h
      · rename_i hmode
        obtain rfl := Option.some.inj h
        exact .tick hmode
      · simp at h
  | leave =>
      simp only [ClientState.step] at h
      split at h
      · rename_i hmode
        obtain rfl := Option.some.inj h
        exact .leave hmode
      · simp at h
  | send i message =>
      simp only [ClientState.step] at h
      split at h
      · rename_i hnone
        obtain rfl := Option.some.inj h
        exact .send hnone
      · simp at h
  | ask task =>
      simp only [ClientState.step] at h
      split at h
      · rename_i hcall
        obtain ⟨lock, hlock, rfl⟩ := Option.map_eq_some_iff.mp h
        exact .ask hcall hlock
      · simp at h
  | replied task oracle =>
      simp only [ClientState.step] at h
      split at h
      · rename_i hprogram
        obtain ⟨⟨reply, session⟩, hreply, rfl⟩ := Option.map_eq_some_iff.mp h
        exact .replied hprogram hreply
      · simp at h
  | ended task =>
      simp only [ClientState.step] at h
      split at h
      · rename_i hprogram
        exact .finished hprogram h
      · rename_i hprogram
        obtain rfl := Option.some.inj h
        exact .ended hprogram
      · simp at h
  | polled task poll =>
      simp only [ClientState.step] at h
      split at h
      · obtain ⟨manager, hmanager, rfl⟩ := Option.map_eq_some_iff.mp h
        exact .polled hmanager
      · simp at h
  | dropped i written =>
      simp only [ClientState.step] at h
      split at h
      · rename_i c hcall
        obtain ⟨hsuspends, hs'⟩ := Option.ite_none_right_eq_some.mp h
        obtain rfl := Option.some.inj hs'
        exact .dropped hcall hsuspends
      · simp at h

theorem pendingCall_eq_some_iff {s : ClientState} {task : Task} {c : ClientCall} :
    s.pendingCall task = some c ↔ ∃ next, s.programs task = some (.act c next) := by
  unfold ClientState.pendingCall
  split
  · rename_i c' next hprogram
    rw [hprogram]
    constructor
    · intro hc
      obtain rfl := Option.some.inj hc
      exact ⟨next, rfl⟩
    · rintro ⟨next', hact⟩
      exact congrArg some (Prog.act.inj (Option.some.inj hact)).1
  · rename_i hother
    constructor
    · intro hnone
      simp at hnone
    · rintro ⟨next, hprogram⟩
      exact absurd hprogram (hother c next)

def changesSession : ClientCall → Bool
  | .lockWriter | .unlockWriter | .writeAll _ | .registerCallback _ | .responseReceived _ _
  | .connect | .replaceWriter | .receive => true
  | _ => false

/-- What the replies to a task do. -/
inductive SessionMoves (s : Session) (task : Task) : (c : ClientCall) → Reply c → Session → Prop
  | lockWriter {lock} : s.lock.grant task = some lock →
      SessionMoves s task .lockWriter s.writer.isSome { s with lock := lock }
  | unlockWriter {lock} : s.lock.release task = some lock →
      SessionMoves s task .unlockWriter () { s with lock := lock }
  | writeAll {octets reply} : SessionMoves s task (.writeAll octets) reply (s.write task octets)
  | registerCallback {sequenceNumber} :
      SessionMoves s task (.registerCallback sequenceNumber) () (s.register task sequenceNumber)
  | responseReceived {sequenceNumber response} :
      SessionMoves s task (.responseReceived sequenceNumber response) ()
        { s with manager := { s.manager with
            table := s.manager.table.deliver sequenceNumber response } }
  | connect : SessionMoves s task .connect (.ok ())
      { s with current := s.current + 1, incoming := [] }
  | replaceWriter : SessionMoves s task .replaceWriter () { s with writer := some s.current }
  | receive {pdu rest} : s.incoming = pdu :: rest →
      SessionMoves s task .receive (some pdu) (s.receive pdu rest)
  | refused {e} : SessionMoves s task .connect (.error e) s
  | timedOut : SessionMoves s task .receive none s
  | beside {c reply} : changesSession c = false → SessionMoves s task c reply s

theorem sessionMoves_of_reply {s s' : Session} {task : Task} {c : ClientCall}
    {oracle : (c : ClientCall) → Reply c} {reply : Reply c}
    (h : s.reply task c oracle = some (reply, s')) : SessionMoves s task c reply s' := by
  cases c with
  | lockWriter =>
      obtain ⟨lock, hlock, hs'⟩ := Option.map_eq_some_iff.mp h
      obtain ⟨rfl, rfl⟩ := Prod.mk.inj hs'
      exact .lockWriter hlock
  | unlockWriter =>
      obtain ⟨lock, hlock, hs'⟩ := Option.map_eq_some_iff.mp h
      obtain ⟨-, rfl⟩ := Prod.mk.inj hs'
      exact .unlockWriter hlock
  | writeAll octets =>
      obtain ⟨-, rfl⟩ := Prod.mk.inj (Option.some.inj h)
      exact .writeAll
  | registerCallback sequenceNumber =>
      obtain ⟨-, rfl⟩ := Prod.mk.inj (Option.some.inj h)
      exact .registerCallback
  | awaitResponse sequenceNumber =>
      simp only [Session.reply, Option.bind_eq_bind, Option.bind_eq_some_iff] at h
      obtain ⟨wait, -, w, -, result, -, hs'⟩ := h
      obtain ⟨-, rfl⟩ := Prod.mk.inj (Option.some.inj hs')
      exact .beside rfl
  | responseReceived sequenceNumber response =>
      obtain ⟨-, rfl⟩ := Prod.mk.inj (Option.some.inj h)
      exact .responseReceived
  | connect =>
      simp only [Session.reply] at h
      split at h
      · obtain ⟨rfl, rfl⟩ := Prod.mk.inj (Option.some.inj h)
        exact .connect
      · obtain ⟨rfl, rfl⟩ := Prod.mk.inj (Option.some.inj h)
        exact .refused
  | replaceWriter =>
      obtain ⟨-, rfl⟩ := Prod.mk.inj (Option.some.inj h)
      exact .replaceWriter
  | receive =>
      simp only [Session.reply] at h
      split at h
      · obtain ⟨rfl, rfl⟩ := Prod.mk.inj (Option.some.inj h)
        exact .timedOut
      · rename_i hincoming
        obtain ⟨rfl, rfl⟩ := Prod.mk.inj (Option.some.inj h)
        exact .receive hincoming
      · simp at h
  | _ =>
      obtain ⟨-, rfl⟩ := Prod.mk.inj (Option.some.inj h)
      exact .beside rfl

/-- What a future that is dropped leaves as it is. -/
structure DropKeeps (s s' : Session) (task : Task) : Prop where
  lock : s'.lock = s.lock.leave task
  writer : s'.writer = s.writer
  current : s'.current = s.current
  incoming : s'.incoming = s.incoming
  bound : s'.bound = s.bound
  manager : s'.manager = s.manager
  waits : s'.waits = s.waits

theorem dropKeeps (s : Session) (task : Task) (written : Nat) (c : ClientCall) :
    DropKeeps s (s.drop task written c) task := by
  cases c <;> exact ⟨rfl, rfl, rfl, rfl, rfl, rfl, rfl⟩

theorem lock_of_reply {s s' : Session} {task : Task} {c : ClientCall}
    {oracle : (c : ClientCall) → Reply c} {reply : Reply c}
    (h : s.reply task c oracle = some (reply, s')) :
    (c = .lockWriter ∧ s.lock.grant task = some s'.lock) ∨
      (c = .unlockWriter ∧ s.lock.release task = some s'.lock) ∨
        (c ≠ .lockWriter ∧ c ≠ .unlockWriter ∧ s'.lock = s.lock) := by
  cases sessionMoves_of_reply h with
  | lockWriter hgrant => exact .inl ⟨rfl, hgrant⟩
  | unlockWriter hrelease => exact .inr (.inl ⟨rfl, hrelease⟩)
  | beside hbeside =>
      refine .inr (.inr ⟨?_, ?_, rfl⟩) <;>
      · rintro rfl
        simp [changesSession] at hbeside
  | _ => exact .inr (.inr ⟨by simp, by simp, rfl⟩)

/-- The connection loop goes on with its next program, and nothing else changes. -/
structure LoopMoves (s s' : ClientState) : Prop where
  session : s'.session = s.session
  messages : s'.messages = s.messages
  senders : ∀ i, s'.programs (.sender i) = s.programs (.sender i)

variable {s s' : ClientState}

theorem loopMoves_start (s : ClientState) (mode : Mode) (program : Action (Except IoError Unit)) :
    LoopMoves s (s.start mode program) := by
  refine ⟨rfl, rfl, fun i => ?_⟩
  have hne : Task.sender i ≠ .connection := by simp
  simp only [ClientState.start, Function.update_of_ne hne]

theorem loopMoves_stop (s : ClientState) (mode : Mode) : LoopMoves s (s.stop mode) := by
  refine ⟨rfl, rfl, fun i => ?_⟩
  have hne : Task.sender i ≠ .connection := by simp
  simp only [ClientState.stop, Function.update_of_ne hne]

theorem loopMoves_process (s : ClientState) (messages : List SMPPMessage) :
    LoopMoves s (s.process connection messages) := by
  cases messages with
  | nil => exact loopMoves_stop s _
  | cons => exact loopMoves_start s _ _

theorem loopMoves_finish {result : Except IoError (Option Value)}
    (h : s.finish connection result = some s') : LoopMoves s s' := by
  unfold ClientState.finish at h
  split at h
  · obtain rfl := Option.some.inj h
    exact loopMoves_stop s _
  · obtain rfl := Option.some.inj h
    exact loopMoves_stop s _
  · obtain rfl := Option.some.inj h
    exact loopMoves_process s _
  · obtain rfl := Option.some.inj h
    exact loopMoves_stop s _
  · obtain rfl := Option.some.inj h
    exact loopMoves_stop s _
  · simp at h

end Moves

section Example

def exampleConnection : SmscConnection :=
  ⟨"transceiver", ⟨"", "", "", 0, 0, "", 0⟩, ⟨createTlvFields, .refl _⟩, false⟩

/-- Surroundings in which nothing fails. -/
def willing : (c : ClientCall) → Reply c
  | .getReceiptUrl _ _ => none
  | .spawnReceipt _ _ => ()
  | .handleMessage _ => .ok (.object [])
  | .responseReceived _ _ => ()
  | .registerCallback _ => ()
  | .awaitResponse _ => .elapsed
  | .lockWriter => true
  | .unlockWriter => ()
  | .writeAll _ => .ok ()
  | .nextSequenceNumber => 1
  | .connect => .ok ()
  | .replaceWriter => ()
  | .receive => some []
  | .incActiveConnections => ()
  | .clearAlarm => ()

def bindTransceiverRespPdu : SMPPMessage :=
  [0, 0, 0, 17, 0x80, 0, 0, 9, 0, 0, 0, 0, 0, 0, 0, 1, 0]

def enquireLinkPdu : SMPPMessage := [0, 0, 0, 16, 0, 0, 0, 0x15, 0, 0, 0, 0, 0, 0, 0, 1]

/-- The header of a submit_sm is all that `send_message` looks at. -/
def submitSmPdu : SMPPMessage := [0, 0, 0, 16, 0, 0, 0, 4, 0, 0, 0, 0, 0, 0, 0, 7]

def submitSmRespPdu : SMPPMessage := [0, 0, 0, 17, 0x80, 0, 0, 4, 0, 0, 0, 0, 0, 0, 0, 7, 0]

def replies (count : Nat) (task : Task) : List ClientEvent :=
  List.replicate count (.replied task willing)

/-- The loop connects and installs the new writer. -/
def connectEvents : List ClientEvent :=
  .attempt false :: replies 1 .connection ++ .ask .connection :: replies 3 .connection

/-- The loop binds, and the bind is accepted. -/
def bindEvents : List ClientEvent :=
  replies 1 .connection ++ .ask .connection :: replies 3 .connection ++
    .arrived bindTransceiverRespPdu :: replies 2 .connection ++ [.ended .connection]

/-- A submit_sm is sent. -/
def submitEvents (i : Nat) : List ClientEvent :=
  .send i submitSmPdu :: replies 1 (.sender i) ++ .ask (.sender i) :: replies 2 (.sender i)

end Example

end SmppHerald.ClientRun
