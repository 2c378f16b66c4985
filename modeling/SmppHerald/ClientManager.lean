import SmppHerald.FieldCodec

/-!
`ClientManager`: the peers that messages are routed to, each with the addresses it takes. The
regular expressions are those of an engine that is a parameter.
-/

namespace SmppHerald.ClientManager

open SmppHerald.ByteParser
open SmppHerald.Io

/-- `regex::Regex`: what compiles, and which addresses it matches. -/
structure RegexEngine where
  Regex : Type
  new : String → Option Regex
  isMatch : Regex → String → Bool

/-- The value of the map at a peer address; the writer is the one of connection `writer`. -/
structure Client (engine : RegexEngine) (Connection : Type) where
  peerAddress : String
  regex : engine.Regex
  writer : Connection

/-- The map, in the order in which it is iterated. -/
abbrev Connections (engine : RegexEngine) (Connection : Type) :=
  List (Client engine Connection)

variable {engine : RegexEngine} {Connection : Type}

def anchoredAddressRange (addressRange : String) : String :=
  let addressRange :=
    if ¬ addressRange.startsWith "^" ∧ addressRange.endsWith "$" then ".*" ++ addressRange
    else addressRange
  if addressRange.startsWith "^" ∧ ¬ addressRange.endsWith "$" then addressRange ++ ".*"
  else addressRange

/-- The regular expression of an address range, if it is not refused. -/
def compileAddressRange (engine : RegexEngine) (addressRange : String) : Option engine.Regex :=
  if addressRange.isEmpty then none else engine.new (anchoredAddressRange addressRange)

/-- A peer address that is present already keeps its entry. -/
def addClient (connections : Connections engine Connection) (peerAddress addressRange : String)
    (writer : Connection) : Connections engine Connection :=
  match compileAddressRange engine addressRange with
  | some regex =>
      if connections.any (fun client => client.peerAddress == peerAddress) then connections
      else connections ++ [⟨peerAddress, regex, writer⟩]
  | none => connections

def removeClient (connections : Connections engine Connection) (peerAddress : String) :
    Connections engine Connection :=
  connections.filter fun client => client.peerAddress != peerAddress

def getWriter (connections : Connections engine Connection) (address : String) :
    List Connection :=
  (connections.filter fun client => engine.isMatch client.regex address).map Client.writer

/-- The first writer that accepts the octets sends them. -/
def sendMessage (accepts : Connection → Bool) (connections : Connections engine Connection)
    (address : String) : Except IoError Unit :=
  match getWriter connections address with
  | [] => .error ⟨.notFound, "Client not found"⟩
  | writers =>
      if writers.any accepts then .ok () else .error (otherError "Failed to send message to client")

theorem mem_addClient {connections : Connections engine Connection}
    {peerAddress addressRange : String} {writer : Connection} {client : Client engine Connection}
    (h : client ∈ addClient connections peerAddress addressRange writer) :
    client ∈ connections ∨
      client.writer = writer ∧ (compileAddressRange engine addressRange).isSome := by
  unfold addClient at h
  split at h
  · rename_i regex hcompile
    split at h
    · exact .inl h
    · rcases List.mem_append.mp h with h | h
      · exact .inl h
      · obtain rfl := List.mem_singleton.mp h
        exact .inr ⟨rfl, by simp [hcompile]⟩
  · exact .inl h

theorem addClient_of_refused {addressRange : String}
    (h : compileAddressRange engine addressRange = none)
    (connections : Connections engine Connection) (peerAddress : String) (writer : Connection) :
    addClient connections peerAddress addressRange writer = connections := by
  simp [addClient, h]

theorem mem_removeClient {connections : Connections engine Connection} {peerAddress : String}
    {client : Client engine Connection} (h : client ∈ removeClient connections peerAddress) :
    client ∈ connections :=
  List.mem_of_mem_filter h

theorem exists_client_of_mem_getWriter {connections : Connections engine Connection}
    {address : String} {writer : Connection} (h : writer ∈ getWriter connections address) :
    ∃ client ∈ connections, client.writer = writer ∧ engine.isMatch client.regex address := by
  obtain ⟨client, hclient, rfl⟩ := List.mem_map.mp h
  rw [List.mem_filter] at hclient
  exact ⟨client, hclient.1, rfl, hclient.2⟩

theorem sendMessage_ok_iff (accepts : Connection → Bool)
    (connections : Connections engine Connection) (address : String) :
    sendMessage accepts connections address = .ok () ↔
      ∃ writer ∈ getWriter connections address, accepts writer = true := by
  unfold sendMessage
  split
  · rename_i hnone
    simp [hnone]
  · rw [← List.any_eq_true]
    split <;> simp_all

end SmppHerald.ClientManager
