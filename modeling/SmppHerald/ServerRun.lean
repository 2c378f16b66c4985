import Mathlib.Logic.Function.Basic
import SmppHerald.ClientManager
import SmppHerald.ConnectionRun
import SmppHerald.HandlerCalls
import SmppHerald.Relay

/-!
The server as a whole: any number of connections that take their steps in any order and share one
client manager. A peer is routed to while its entry is there, whatever its last bind came to.
-/

namespace SmppHerald.ServerRun

open SmppHerald.Buffer
open SmppHerald.ByteParser
open SmppHerald.ClientManager
open SmppHerald.CommandIds
open SmppHerald.ConnectionRun
open SmppHerald.HandlerCalls
open SmppHerald.Interaction
open SmppHerald.Io
open SmppHerald.Json
open SmppHerald.Message
open SmppHerald.PduFormat
open SmppHerald.ServerConnection
open SmppHerald.TransitionSystem

section Model

variable {engine : RegexEngine} {Connection : Type} [DecidableEq Connection]

/-- `lastBind` has what `UserAuthentication` said of the last bind on each connection. -/
structure ServerState (engine : RegexEngine) (Connection : Type) where
  clients : Connections engine Connection
  connections : Connection → ConnectionState
  lastBind : Connection → Option Bool

/-- Something happens to one connection; `accepts` says which sockets take what is sent to them. -/
structure ServerEvent (Connection : Type) where
  connection : Connection
  event : ConnectionEvent
  accepts : Connection → Bool

/-- Messages to other clients go through the client manager. -/
def routed (accepts : Connection → Bool) (clients : Connections engine Connection)
    (oracle : (c : ServerCall) → Reply c) : (c : ServerCall) → Reply c
  | .sendMessage address _ => sendMessage accepts clients address
  | c => oracle c

def routedEvent (accepts : Connection → Bool) (clients : Connections engine Connection) :
    ConnectionEvent → ConnectionEvent
  | .replied oracle => .replied (routed accepts clients oracle)
  | event => event

/-- What the step of a connection does to the client manager. -/
def updateClients (clients : Connections engine Connection) (peerAddress : String)
    (connection : Connection) : Phase → ConnectionEvent → Connections engine Connection
  | .handling _ _ (.act (.addClient addressRange) _), .replied _ =>
      addClient clients peerAddress addressRange connection
  | .closing, .removed => removeClient clients peerAddress
  | _, _ => clients

/-- What `UserAuthentication` replied, if it was asked. -/
def bindResult : Option (Event Reply) → Option Bool
  | some ⟨.authenticate _ _, accepted⟩ => some accepted
  | _ => none

/-- Peers may share an address, as those whose address is unknown do. -/
def ServerState.step (server : ServerContext) (peerAddress : Connection → String)
    (s : ServerState engine Connection) (e : ServerEvent Connection) :
    Option (ServerState engine Connection) := do
  let conn := s.connections e.connection
  let event := routedEvent e.accepts s.clients e.event
  let conn' ← conn.step server event
  return {
    clients := updateClients s.clients (peerAddress e.connection) e.connection conn.phase event
    connections := Function.update s.connections e.connection conn'
    lastBind := Function.update s.lastBind e.connection
      ((bindResult (conn.phase.answered event)).or (s.lastBind e.connection)) }

/-- The server before any connection has received anything. -/
def serverSystem (engine : RegexEngine) (server : ServerContext) (peerAddress : Connection → String) :
    System (ServerState engine Connection) (ServerEvent Connection) where
  initial := ⟨[], fun _ => newConnection, fun _ => none⟩
  step := ServerState.step server peerAddress

/-- Every peer that can be routed to was accepted by its last bind. -/
def RegistryAuthenticated (s : ServerState engine Connection) : Prop :=
  ∀ client ∈ s.clients, s.lastBind client.writer = some true

def rejectsBind (s : ServerState engine Connection) (e : ServerEvent Connection) : Bool :=
  bindResult ((s.connections e.connection).phase.answered e.event) = some false

def handledMessage (conn : ConnectionState) : Value :=
  match conn.phase with
  | .handling message _ _ => message
  | _ => .null

/-- A bind is rejected only on a connection that has no entry, and only with an address range that
the client manager refuses. -/
def harmless (s : ServerState engine Connection) (e : ServerEvent Connection) : Bool :=
  !rejectsBind s e || (s.clients.all fun client => client.writer != e.connection) &&
    (compileAddressRange engine
      ((handledMessage (s.connections e.connection)).strField "address_range")).isNone

end Model

section Invariant

variable {engine : RegexEngine} {Connection : Type} [DecidableEq Connection]
  {server : ServerContext} {peerAddress : Connection → String}

/-- What is left to do for a message, given what the last bind on its connection came to: it may
add a client only for the address range of a bind that was accepted, or for one that is refused. -/
inductive Progress (engine : RegexEngine) (addressRange : String) (lastBind : Option Bool) :
    Action (Except IoError Unit) → Prop
  | other {rest} : Calls (fun c => registers c = false) rest →
      Progress engine addressRange lastBind rest
  | authenticating {systemId password next} :
      (∀ authenticated, Calls (AddsOnly addressRange) (next authenticated)) →
      Progress engine addressRange lastBind (.act (.authenticate systemId password) next)
  | authenticated {rest accepted} : lastBind = some accepted →
      (accepted = true ∨ compileAddressRange engine addressRange = none) →
      Calls (AddsOnly addressRange) rest → Progress engine addressRange lastBind rest

theorem progress_handleMessage (engine : RegexEngine) (message : Value) (lastBind : Option Bool) :
    Progress engine (message.strField "address_range") lastBind (handleMessage server message) := by
  by_cases hbind : ∃ commandId, extractCommandId message = some commandId ∧
      isBind commandId = true
  · obtain ⟨commandId, hcommand, his⟩ := hbind
    obtain ⟨systemId, password, next, hprogram, hnext⟩ := handleMessage_of_bind hcommand his
    rw [hprogram]
    exact .authenticating hnext
  · refine .other (notRegistering_handleMessage ?_)
    intro commandId hcommand
    by_contra his
    exact hbind ⟨commandId, hcommand, by simpa using his⟩

/-- The state of one connection as seen from the client manager. -/
def ConnectionProgress (engine : RegexEngine) (conn : ConnectionState) (lastBind : Option Bool) :
    Prop :=
  ∀ message log rest, conn.phase = .handling message log rest →
    Progress engine (message.strField "address_range") lastBind rest

structure Inv (s : ServerState engine Connection) : Prop where
  authenticated : RegistryAuthenticated s
  progress c : ConnectionProgress engine (s.connections c) (s.lastBind c)

omit [DecidableEq Connection] in
theorem ConnectionProgress.mem_updateClients {clients : Connections engine Connection}
    {conn : ConnectionState} {lastBind : Option Bool} (h : ConnectionProgress engine conn lastBind)
    {address : String} {c : Connection} {event : ConnectionEvent}
    {client : Client engine Connection}
    (hclient : client ∈ updateClients clients address c conn.phase event) :
    client ∈ clients ∨ client.writer = c ∧
      (bindResult (conn.phase.answered event)).or lastBind = some true := by
  unfold updateClients at hclient
  split at hclient
  · rename_i hphase
    rcases mem_addClient hclient with hmem | ⟨hwriter, hcompile⟩
    · exact .inl hmem
    · refine .inr ⟨hwriter, ?_⟩
      rw [hphase]
      cases h _ _ _ hphase with
      | other hcalls => simp [Calls, registers] at hcalls
      | authenticated hlast haccepted hcalls =>
          obtain rfl := hcalls.1
          rcases haccepted with rfl | hrefused
          · exact hlast
          · simp [hrefused] at hcompile
  · exact .inl (mem_removeClient hclient)
  · exact .inl hclient

theorem bindResult_of_ne {c : ServerCall}
    (h : ∀ systemId password, c ≠ .authenticate systemId password) (reply : Reply c) :
    bindResult (some ⟨c, reply⟩) = none := by
  cases c with
  | authenticate systemId password => exact absurd rfl (h systemId password)
  | _ => rfl

omit [DecidableEq Connection] in
theorem bindResult_routed (accepts : Connection → Bool) (clients : Connections engine Connection)
    (phase : Phase) (event : ConnectionEvent) :
    bindResult (phase.answered (routedEvent accepts clients event)) =
      bindResult (phase.answered event) := by
  cases event with
  | replied oracle =>
      cases phase with
      | handling message log rest =>
          cases rest with
          | act c next => cases c <;> rfl
          | _ => rfl
      | _ => rfl
  | _ => rfl

/-- A connection makes progress, provided that a rejected bind has an address range that is
refused. -/
theorem ConnectionProgress.moves {conn conn' : ConnectionState} {event : ConnectionEvent}
    {lastBind : Option Bool} (h : ConnectionProgress engine conn lastBind)
    (hmoves : Moves server conn event conn')
    (hrejected : bindResult (conn.phase.answered event) = some false →
      compileAddressRange engine ((handledMessage conn).strField "address_range") = none) :
    ConnectionProgress engine conn' ((bindResult (conn.phase.answered event)).or lastBind) := by
  intro message log rest hphase
  cases hmoves with
  | decoded _ _ =>
      obtain ⟨rfl, -, rfl⟩ := Phase.handling.inj hphase
      exact progress_handleMessage engine _ _
  | @replied _ _ _ _ c next oracle =>
      obtain ⟨rfl, -, rfl⟩ := Phase.handling.inj hphase
      change Progress engine _ ((bindResult (some ⟨c, oracle c⟩)).or lastBind) _
      cases h _ _ _ rfl with
      | other hcalls =>
          refine .other (hcalls.2 _)
      | @authenticating systemId password next hnext =>
          refine .authenticated rfl ?_ (hnext _)
          cases haccepted : (oracle (.authenticate systemId password) : Bool) with
          | true => exact .inl rfl
          | false => exact .inr (hrejected (congrArg some haccepted))
      | authenticated hlast haccepted hcalls =>
          have hne : ∀ systemId password, c ≠ .authenticate systemId password := by
            rintro systemId password rfl
            exact hcalls.1
          rw [bindResult_of_ne hne]
          exact .authenticated hlast haccepted (hcalls.2 _)
  | _ => cases hphase

theorem Inv.step {s s' : ServerState engine Connection} {e : ServerEvent Connection}
    (h : Inv s) (hharmless : harmless s e = true)
    (hstep : s.step server peerAddress e = some s') : Inv s' := by
  unfold ServerState.step at hstep
  simp only [Option.bind_eq_bind, Option.bind_eq_some_iff] at hstep
  obtain ⟨conn', hconn, hs'⟩ := hstep
  obtain rfl := Option.some.inj hs'
  have hprogress := h.progress e.connection
  have hrejects : bindResult ((s.connections e.connection).phase.answered e.event) = some false →
      (∀ client ∈ s.clients, client.writer ≠ e.connection) ∧ compileAddressRange engine
        ((handledMessage (s.connections e.connection)).strField "address_range") = none := by
    intro hreject
    simpa [harmless, rejectsBind, hreject] using hharmless
  constructor
  · intro client hclient
    simp only [Function.update_apply]
    rcases hprogress.mem_updateClients hclient with hmem | ⟨hwriter, hlast⟩
    · have hbefore := h.authenticated client hmem
      split
      · rename_i hwriter
        rw [bindResult_routed, ← hwriter, hbefore]
        rw [← hwriter] at hrejects
        rcases hresult : bindResult ((s.connections client.writer).phase.answered e.event) with
          - | accepted
        · rfl
        · cases accepted with
          | true => rfl
          | false => exact absurd rfl ((hrejects hresult).1 client hmem)
      · exact hbefore
    · rw [if_pos hwriter, hlast]
  · intro c
    by_cases hc : c = e.connection
    · subst hc
      simp only [Function.update_self]
      refine hprogress.moves (moves_of_step _ hconn) ?_
      rw [bindResult_routed]
      exact fun hreject => (hrejects hreject).2
    · simp only [Function.update_of_ne hc]
      exact h.progress c

/-- A rejected bind leaves the registry as it is: as long as a connection handles a message after
its bind was rejected, its steps change no entry. -/
def RejectedLeavesRegistry (server : ServerContext) (peerAddress : Connection → String)
    (s : ServerState engine Connection) : Prop :=
  ∀ e s', s.lastBind e.connection = some false → s.step server peerAddress e = some s' →
    e.event ≠ .removed → s'.clients = s.clients

theorem Inv.rejectedLeavesRegistry {s : ServerState engine Connection} (h : Inv s) :
    RejectedLeavesRegistry server peerAddress s := by
  intro e s' hlast hstep hremoved
  unfold ServerState.step at hstep
  simp only [Option.bind_eq_bind, Option.bind_eq_some_iff] at hstep
  obtain ⟨conn', hconn, hs'⟩ := hstep
  obtain rfl := Option.some.inj hs'
  change updateClients _ _ _ _ _ = _
  unfold updateClients
  split
  · rename_i hphase _
    refine addClient_of_refused ?_ _ _ _
    cases h.progress e.connection _ _ _ hphase with
    | other hcalls => simp [Calls, registers] at hcalls
    | authenticated haccepted hrefused hcalls =>
        obtain rfl := hcalls.1
        obtain rfl : false = _ := Option.some.inj (hlast.symm.trans haccepted)
        simpa using hrefused
  · rename_i hevent
    cases hreceived : e.event with
    | removed => exact absurd hreceived hremoved
    | _ => simp [hreceived, routedEvent] at hevent
  · rfl

theorem inv_initial : Inv (serverSystem engine server peerAddress).initial := by
  constructor
  · intro client hclient
    simp [serverSystem] at hclient
  · intro c message log rest hphase
    simp [serverSystem, newConnection] at hphase

/-- In every run in which each rejected bind is harmless, the registry has only peers whose last
bind was accepted, messages are routed to such peers only, and a rejected bind changes nothing. -/
theorem registry_authenticated {s : ServerState engine Connection}
    (h : (serverSystem engine server peerAddress).Reaches (fun s e => harmless s e = true) s) :
    RegistryAuthenticated s ∧
      (∀ address, ∀ c ∈ getWriter s.clients address, s.lastBind c = some true) ∧
      RejectedLeavesRegistry server peerAddress s := by
  have hinv : Inv s := h.invariant inv_initial fun _ _ _ hinv hharmless hstep =>
    hinv.step hharmless hstep
  refine ⟨hinv.authenticated, ?_, hinv.rejectedLeavesRegistry⟩
  intro address c hc
  obtain ⟨client, hclient, rfl, -⟩ := exists_client_of_mem_getWriter hc
  exact hinv.authenticated client hclient

end Invariant

section Example

/-- An engine that takes letters and digits for themselves and refuses everything else. -/
def literalEngine : RegexEngine where
  Regex := String
  new pattern := if pattern.toList.all Char.isAlphanum = true then some pattern else none
  isMatch pattern address := address.toList.tails.any fun tail => pattern.toList.isPrefixOf tail

/-- A bind_transceiver for the addresses with 12345 in them. -/
def bindPdu : SMPPMessage :=
  header 30 0x9 0 1 ++ [0x61, 0, 0x62, 0, 0, 0x34, 0, 0, 0x31, 0x32, 0x33, 0x34, 0x35, 0]

def numberedAddress (c : Nat) : String := "10.0.0.1:" ++ Nat.repr c

/-- Connection 0 binds, and its bind is handled to the end. -/
def bindEvents (accepted : Bool) : List (ServerEvent Nat) :=
  let replies := List.replicate (if accepted = true then 4 else 3)
    (ConnectionEvent.replied (agreeing accepted))
  (.received bindPdu :: .proceed :: replies ++ [ConnectionEvent.proceed]).map fun event =>
    ⟨0, event, fun _ => true⟩

/-- What is left of a state that can be compared. -/
def observed (s : ServerState literalEngine Nat) : List Nat × Option Bool × List Nat :=
  (s.clients.map Client.writer, s.lastBind 0, getWriter s.clients "12345")

theorem registry_authenticated_bind :
    ∃ s, ((serverSystem literalEngine Relay.plainServer numberedAddress).runAllowed harmless
        (bindEvents true)).map observed = some ([0], some true, [0]) ∧
      observed s = ([0], some true, [0]) ∧ RegistryAuthenticated s ∧
      (∀ address, ∀ c ∈ getWriter s.clients address, s.lastBind c = some true) ∧
      RejectedLeavesRegistry Relay.plainServer numberedAddress s := by
  have hrun : ((serverSystem literalEngine Relay.plainServer numberedAddress).runAllowed harmless
      (bindEvents true)).map observed = some ([0], some true, [0]) := by decide +kernel
  obtain ⟨s, hs, hobserved⟩ := Option.map_eq_some_iff.mp hrun
  exact ⟨s, hrun, hobserved, registry_authenticated (System.reaches_of_runAllowed hs)⟩

/-- After a bind that was rejected the peer is registered, and messages are routed to it. -/
theorem not_registry_authenticated :
    ∃ s, (serverSystem literalEngine Relay.plainServer numberedAddress).Reachable s ∧
      ¬ RegistryAuthenticated s ∧ s.lastBind 0 = some false ∧ 0 ∈ getWriter s.clients "12345" := by
  have hrun : ((serverSystem literalEngine Relay.plainServer numberedAddress).run
      (bindEvents false)).map observed = some ([0], some false, [0]) := by decide +kernel
  obtain ⟨s, hs, hobserved⟩ := Option.map_eq_some_iff.mp hrun
  simp only [observed, Prod.mk.injEq] at hobserved
  obtain ⟨hwriters, hlast, hrouted⟩ := hobserved
  refine ⟨s, System.reachable_of_run hs, ?_, hlast, by simp [hrouted]⟩
  intro hauthenticated
  obtain ⟨client, hclient, hwriter⟩ := List.mem_map.mp (hwriters ▸ List.mem_singleton_self 0)
  have haccepted := hauthenticated client hclient
  rw [hwriter, hlast] at haccepted
  simp at haccepted

end Example

end SmppHerald.ServerRun
