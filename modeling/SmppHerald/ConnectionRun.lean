import SmppHerald.Library.TransitionSystem
import SmppHerald.ReceiveBuffer
import SmppHerald.ServerConnection

/-!
`SmscServerConnection::run`: the loop of one connection, which reads octets, takes PDUs off its
buffer and handles those that decode. It takes one step for each thing that happens to it.
-/

namespace SmppHerald.ConnectionRun

open SmppHerald.Buffer
open SmppHerald.ByteParser
open SmppHerald.Interaction
open SmppHerald.Io
open SmppHerald.Json
open SmppHerald.Message
open SmppHerald.ServerConnection
open SmppHerald.TransitionSystem

/-- A request that has been handled, with the calls it made; the result of one that panicked is
`none`. -/
structure Handled where
  message : Value
  log : List (Event Reply)
  result : Option (Except IoError Unit)

/-- Where the loop is. While it handles a message it has the calls made so far and what is left
to do. -/
inductive Phase
  | reading
  | draining
  | handling (message : Value) (log : List (Event Reply)) (rest : Action (Except IoError Unit))
  | closing
  | closed
  | panicked

/-- The state of a connection; `history` has the handled messages in their order. -/
structure ConnectionState where
  buffer : SmppMessageBuffer
  phase : Phase
  history : List Handled

/-- What happens to a connection: octets arrive, the peer disconnects, the loop goes on by itself,
a call is replied to, or the connection is removed from the client manager. -/
inductive ConnectionEvent
  | received (octets : Bytes)
  | disconnected
  | proceed
  | replied (oracle : (c : ServerCall) → Reply c)
  | removed

/-- The size of the read buffer. -/
def readSize : Nat := 1024

def ConnectionState.finish (conn : ConnectionState) (message : Value) (log : List (Event Reply))
    (result : Option (Except IoError Unit)) (phase : Phase) : ConnectionState :=
  { conn with phase := phase, history := conn.history ++ [⟨message, log, result⟩] }

variable (server : ServerContext)

def ConnectionState.step (conn : ConnectionState) (event : ConnectionEvent) :
    Option ConnectionState :=
  match conn.phase, event with
  | .reading, .received octets =>
      if octets ≠ [] ∧ octets.length ≤ readSize then
        some { conn with buffer := conn.buffer ++ octets, phase := .draining }
      else none
  | .reading, .disconnected => some { conn with phase := .closing }
  | .draining, .proceed =>
      match extractMessage conn.buffer with
      | none => some { conn with phase := .reading }
      | some (pdu, rest) =>
          match toJson pdu with
          | .ok message =>
              some { conn with
                buffer := rest
                phase := .handling message [] (handleMessage server message) }
          | .error _ => some { conn with buffer := rest }
  | .handling message log (.ret result), .proceed =>
      match result with
      | .ok () => some (conn.finish message log (some result) .draining)
      -- the error leaves the inner loop only
      | .error _ => some (conn.finish message log (some result) .reading)
  | .handling message log .panic, .proceed => some (conn.finish message log none .panicked)
  | .handling message log (.act c next), .replied oracle =>
      some { conn with phase := .handling message (log ++ [⟨c, oracle c⟩]) (next (oracle c)) }
  | .closing, .removed => some { conn with phase := .closed }
  | _, _ => none

/-- The call that an event replies to, and the reply. -/
def Phase.answered : Phase → ConnectionEvent → Option (Event Reply)
  | .handling _ _ (.act c _), .replied oracle => some ⟨c, oracle c⟩
  | _, _ => none

def newConnection : ConnectionState := ⟨[], .reading, []⟩

/-- One connection whose calls get any replies. -/
def connectionSystem : System ConnectionState ConnectionEvent :=
  ⟨newConnection, ConnectionState.step server⟩

/-- Surroundings that agree to everything, and to a bind if `accepted` says so. -/
def agreeing (accepted : Bool) : (c : ServerCall) → Reply c
  | .authenticate _ _ => accepted
  | .generateId => MessageId.counter 1
  | .nextSequenceNumber => (1 : UInt32)
  | .handleRequest message => .ok message
  | .save _ _ => .ok ()
  | .cancelMessage _ => .ok true
  | .replaceMessage _ => .ok true
  | .sendMessage _ _ => .ok ()
  | .spawnForward _ => ()
  | .waitResponse _ => none
  | .responseReceived _ _ => ()
  | .addClient _ => ()
  | .startEnquireLinkTask => ()
  | .write _ => .ok ()
  | .shutdown => .ok ()
  | .now => (0 : Int)

/-- The steps of a connection, one by one. -/
inductive Moves : ConnectionState → ConnectionEvent → ConnectionState → Prop
  | received {buffer history} {octets : Bytes} : octets ≠ [] → octets.length ≤ readSize →
      Moves ⟨buffer, .reading, history⟩ (.received octets) ⟨buffer ++ octets, .draining, history⟩
  | disconnected {buffer history} :
      Moves ⟨buffer, .reading, history⟩ .disconnected ⟨buffer, .closing, history⟩
  | drained {buffer history} : extractMessage buffer = none →
      Moves ⟨buffer, .draining, history⟩ .proceed ⟨buffer, .reading, history⟩
  | undecoded {buffer history pdu rest e} : extractMessage buffer = some (pdu, rest) →
      toJson pdu = .error e →
      Moves ⟨buffer, .draining, history⟩ .proceed ⟨rest, .draining, history⟩
  | decoded {buffer history pdu rest message} : extractMessage buffer = some (pdu, rest) →
      toJson pdu = .ok message →
      Moves ⟨buffer, .draining, history⟩ .proceed
        ⟨rest, .handling message [] (handleMessage server message), history⟩
  | replied {buffer history message log c next oracle} :
      Moves ⟨buffer, .handling message log (.act c next), history⟩ (.replied oracle)
        ⟨buffer, .handling message (log ++ [⟨c, oracle c⟩]) (next (oracle c)), history⟩
  | handled {buffer history message log} :
      Moves ⟨buffer, .handling message log (.ret (.ok ())), history⟩ .proceed
        ⟨buffer, .draining, history ++ [⟨message, log, some (.ok ())⟩]⟩
  | failed {buffer history message log e} :
      Moves ⟨buffer, .handling message log (.ret (.error e)), history⟩ .proceed
        ⟨buffer, .reading, history ++ [⟨message, log, some (.error e)⟩]⟩
  | panicked {buffer history message log} :
      Moves ⟨buffer, .handling message log .panic, history⟩ .proceed
        ⟨buffer, .panicked, history ++ [⟨message, log, none⟩]⟩
  | removed {buffer history} :
      Moves ⟨buffer, .closing, history⟩ .removed ⟨buffer, .closed, history⟩

theorem moves_of_step {conn conn' : ConnectionState} {event : ConnectionEvent}
    (h : conn.step server event = some conn') : Moves server conn event conn' := by
  obtain ⟨buffer, phase, history⟩ := conn
  simp only [ConnectionState.step] at h
  split at h
  · split at h
    · rename_i hsize
      obtain rfl := Option.some.inj h
      exact .received hsize.1 hsize.2
    · simp at h
  · obtain rfl := Option.some.inj h
    exact .disconnected
  · split at h
    · rename_i hnone
      obtain rfl := Option.some.inj h
      exact .drained hnone
    · rename_i hsome
      split at h
      · rename_i hdecode
        obtain rfl := Option.some.inj h
        exact .decoded hsome hdecode
      · rename_i hdecode
        obtain rfl := Option.some.inj h
        exact .undecoded hsome hdecode
  · split at h
    · obtain rfl := Option.some.inj h
      exact .handled
    · obtain rfl := Option.some.inj h
      exact .failed
  · obtain rfl := Option.some.inj h
    exact .panicked
  · obtain rfl := Option.some.inj h
    exact .replied
  · obtain rfl := Option.some.inj h
    exact .removed
  · simp at h

theorem Moves.step {conn conn' : ConnectionState} {event : ConnectionEvent}
    (h : Moves server conn event conn') : conn.step server event = some conn' := by
  cases h with
  | received hne hsize => simp [ConnectionState.step, hne, hsize]
  | drained hnone => simp [ConnectionState.step, hnone]
  | undecoded hsome hdecode => simp [ConnectionState.step, hsome, hdecode]
  | decoded hsome hdecode => simp [ConnectionState.step, hsome, hdecode]
  | disconnected => rfl
  | replied => rfl
  | handled => rfl
  | failed => rfl
  | panicked => rfl
  | removed => rfl

end SmppHerald.ConnectionRun
