import Mathlib.Data.List.Perm.Basic
import SmppHerald.IdGenerators
import SmppHerald.Json
import SmppHerald.Library.KeyedList

/-!
The connections that `ClientAppState` has registered, and the requests of the REST API on them.
-/

namespace SmppHerald.GatewayRegistry

open SmppHerald.IdGenerators
open SmppHerald.Json
open SmppHerald.KeyedList
open SmppHerald.ServerConnection
open SmppHerald.TransitionSystem

section Handlers

structure SmppConnectionInfo where
  connectionId : String
  name : String
  host : String
  port : UInt16
  systemId : String
  bindType : String
  status : String
  reconnectEnabled : Bool
  heartbeatInterval : UInt32
deriving DecidableEq

/-- The fields that are read. -/
structure CreateSmppConnectionRequest where
  name : String
  host : String
  port : UInt16
  systemId : String
  bindType : Option String
  reconnectEnabled : Option Bool
  heartbeatInterval : Option UInt32

/-- `reconnect_interval` is not read. -/
structure UpdateSmppConnectionRequest where
  name : Option String
  reconnectEnabled : Option Bool
  heartbeatInterval : Option UInt32

def SmppConnectionInfo.toValue (conn : SmppConnectionInfo) : Value :=
  .object [
    ("bind_type", .string conn.bindType),
    ("connection_id", .string conn.connectionId),
    ("heartbeat_interval", .ofNat conn.heartbeatInterval.toNat),
    ("host", .string conn.host),
    ("name", .string conn.name),
    ("port", .ofNat conn.port.toNat),
    ("reconnect_enabled", .bool conn.reconnectEnabled),
    ("status", .string conn.status),
    ("system_id", .string conn.systemId)]

/-- A status code and a body. -/
abbrev Response := Nat × Value

abbrev Store := List SmppConnectionInfo

def errorJson (code message : String) : Value :=
  .object [
    ("error", .object [("code", .string code), ("message", .string message)]),
    ("success", .bool false)]

def successJson (data : Value) : Value := .object [("data", data), ("success", .bool true)]

def notFound : Response := (404, errorJson "NOT_FOUND" "Connection not found")

def listValue (conns : List SmppConnectionInfo) : Value :=
  .array (conns.map SmppConnectionInfo.toValue)

def getGatewayStatus (uptime : UInt64) (conns : Store) : Response :=
  (200, successJson (.object [
    ("gateway", .object [("status", .string "healthy"), ("uptime_seconds", .ofNat uptime.toNat),
      ("version", .string "1.0.0")]),
    ("smpp_connections", listValue conns)]))

def listSmppConnections (conns : Store) : Response := (200, successJson (listValue conns))

/-- What `create_smpp_connection` registers under the id that `gen_id` gave it. -/
def CreateSmppConnectionRequest.connection (req : CreateSmppConnectionRequest)
    (connectionId : String) : SmppConnectionInfo where
  connectionId := connectionId
  name := req.name
  host := req.host
  port := req.port
  systemId := req.systemId
  bindType := req.bindType.getD "transceiver"
  status := "disconnected"
  reconnectEnabled := req.reconnectEnabled.getD true
  heartbeatInterval := req.heartbeatInterval.getD 30

def createdResponse (conn : SmppConnectionInfo) : Response := (201, successJson conn.toValue)

def UpdateSmppConnectionRequest.change (req : UpdateSmppConnectionRequest)
    (conn : SmppConnectionInfo) : SmppConnectionInfo :=
  { conn with
    name := req.name.getD conn.name
    reconnectEnabled := req.reconnectEnabled.getD conn.reconnectEnabled
    heartbeatInterval := req.heartbeatInterval.getD conn.heartbeatInterval }

def updateSmppConnection (connectionId : String) (req : UpdateSmppConnectionRequest)
    (conns : Store) : Response × Store :=
  match lookup SmppConnectionInfo.connectionId conns connectionId with
  | some conn =>
      ((200, successJson (req.change conn).toValue),
        modifyFirst SmppConnectionInfo.connectionId connectionId req.change conns)
  | none => (notFound, conns)

def deleteSmppConnection (connectionId : String) (conns : Store) : Response × Store :=
  let retained := remove SmppConnectionInfo.connectionId connectionId conns
  (if retained.length < conns.length then
    (200, successJson (.object [("deleted", .bool true)]))
  else notFound, retained)

def reconnecting (conn : SmppConnectionInfo) : SmppConnectionInfo :=
  { conn with status := "reconnecting" }

def rebindSmppConnection (connectionId : String) (conns : Store) : Response × Store :=
  match lookup SmppConnectionInfo.connectionId conns connectionId with
  | some _ =>
      ((200, successJson (.object [
        ("connection_id", .string connectionId), ("status", .string "reconnecting")])),
        modifyFirst SmppConnectionInfo.connectionId connectionId reconnecting conns)
  | none => (notFound, conns)

/-- The requests that hold the lock of the store from their begin to their end. -/
inductive Request
  | status (uptime : UInt64)
  | list
  | update (connectionId : String) (req : UpdateSmppConnectionRequest)
  | delete (connectionId : String)
  | rebind (connectionId : String)

def Request.handle (conns : Store) : Request → Response × Store
  | .status uptime => (getGatewayStatus uptime conns, conns)
  | .list => (listSmppConnections conns, conns)
  | .update connectionId req => updateSmppConnection connectionId req conns
  | .delete connectionId => deleteSmppConnection connectionId conns
  | .rebind connectionId => rebindSmppConnection connectionId conns

end Handlers

section Runs

/-- What has had an effect on the store or was answered from it. -/
inductive Op
  | created (conn : SmppConnectionInfo)
  | request (request : Request)

/-- `creating` are the connections whose requests have their id and wait for the lock. -/
structure GatewayState where
  ids : List MessageId
  creating : List SmppConnectionInfo
  conns : Store
  log : List (Op × Response)

inductive GatewayEvent
  -- `gen_id` gives a request an id
  | generate (req : CreateSmppConnectionRequest) (id : MessageId)
  -- one of the requests with an id gets the lock
  | push (i : Nat)
  -- or its client goes away before
  | drop (i : Nat)
  | request (request : Request)

def GatewayState.step (s : GatewayState) : GatewayEvent → Option GatewayState
  | .generate req id =>
      some { s with
        ids := s.ids ++ [id]
        creating := s.creating ++ [req.connection (generated "smpp_conn-" id)] }
  | .push i =>
      (s.creating[i]?).map fun conn =>
        { s with
          creating := s.creating.eraseIdx i
          conns := s.conns ++ [conn]
          log := s.log ++ [(.created conn, createdResponse conn)] }
  | .drop i =>
      if i < s.creating.length then some { s with creating := s.creating.eraseIdx i } else none
  | .request request =>
      some { s with
        conns := (request.handle s.conns).2
        log := s.log ++ [(.request request, (request.handle s.conns).1)] }

def gatewaySystem : System GatewayState GatewayEvent where
  initial := ⟨[], [], [], []⟩
  step := GatewayState.step

end Runs

section Specification

/-- What is registered under each id. -/
abbrev Registered := String → Option SmppConnectionInfo

def Op.apply (registered : Registered) : Op → Registered
  | .created conn => Function.update registered conn.connectionId (some conn)
  | .request (.status _) => registered
  | .request .list => registered
  | .request (.update connectionId req) =>
      Function.update registered connectionId ((registered connectionId).map req.change)
  | .request (.delete connectionId) => Function.update registered connectionId none
  | .request (.rebind connectionId) =>
      Function.update registered connectionId ((registered connectionId).map reconnecting)

def registered (ops : List Op) : Registered := ops.foldl Op.apply fun _ => none

def Op.createdId : Op → Option String
  | .created conn => some conn.connectionId
  | .request _ => none

def createdIds (ops : List Op) : List String := ops.filterMap Op.createdId

/-- The registered connections in the order in which they were created. -/
def listed (ops : List Op) : List SmppConnectionInfo := (createdIds ops).filterMap (registered ops)

/-- The answer to a request on what is registered under its id. -/
def answerFor (found : Option SmppConnectionInfo) (data : SmppConnectionInfo → Value) : Response :=
  match found with
  | some conn => (200, successJson (data conn))
  | none => notFound

/-- What a request should be answered after others. -/
def Op.answer (before : List Op) : Op → Response
  | .created conn => createdResponse conn
  | .request (.status uptime) => getGatewayStatus uptime (listed before)
  | .request .list => listSmppConnections (listed before)
  | .request (.update connectionId req) =>
      answerFor (registered before connectionId) fun conn => (req.change conn).toValue
  | .request (.delete connectionId) =>
      answerFor (registered before connectionId) fun _ => .object [("deleted", .bool true)]
  | .request (.rebind connectionId) =>
      answerFor (registered before connectionId) fun _ => .object [
        ("connection_id", .string connectionId), ("status", .string "reconnecting")]

def ops (s : GatewayState) : List Op := s.log.map Prod.fst

end Specification

section Refinement

theorem change_connectionId (req : UpdateSmppConnectionRequest) (conn : SmppConnectionInfo) :
    (req.change conn).connectionId = conn.connectionId := rfl

theorem reconnecting_connectionId (conn : SmppConnectionInfo) :
    (reconnecting conn).connectionId = conn.connectionId := rfl

theorem update_eq_of_none {conns : Store} {k : String}
    (h : lookup SmppConnectionInfo.connectionId conns k = none)
    (f : SmppConnectionInfo → SmppConnectionInfo) :
    lookup SmppConnectionInfo.connectionId conns =
      Function.update (lookup SmppConnectionInfo.connectionId conns) k
        ((lookup SmppConnectionInfo.connectionId conns k).map f) := by
  apply Eq.symm
  apply Function.update_eq_self_iff.mpr
  rw [h]
  rfl

/-- What a request does to the store is what it does to what is registered. -/
theorem lookup_handle (request : Request) (conns : Store) :
    lookup SmppConnectionInfo.connectionId (request.handle conns).2 =
      Op.apply (lookup SmppConnectionInfo.connectionId conns) (.request request) := by
  cases request with
  | status uptime => rfl
  | list => rfl
  | update connectionId req =>
      change lookup _ (updateSmppConnection connectionId req conns).2 = _
      unfold updateSmppConnection
      split
      · exact lookup_modifyFirst (change_connectionId req) conns
      · rename_i hnone
        exact update_eq_of_none hnone req.change
  | delete connectionId => exact lookup_remove connectionId conns
  | rebind connectionId =>
      change lookup _ (rebindSmppConnection connectionId conns).2 = _
      unfold rebindSmppConnection
      split
      · exact lookup_modifyFirst reconnecting_connectionId conns
      · rename_i hnone
        exact update_eq_of_none hnone reconnecting

theorem handle_sublist (request : Request) (conns : Store) :
    ((request.handle conns).2.map SmppConnectionInfo.connectionId).Sublist
      (conns.map SmppConnectionInfo.connectionId) := by
  cases request with
  | status uptime => exact List.Sublist.refl _
  | list => exact List.Sublist.refl _
  | update connectionId req =>
      change ((updateSmppConnection connectionId req conns).2.map _).Sublist _
      unfold updateSmppConnection
      split
      · rw [keys_modifyFirst (change_connectionId req)]
      · exact List.Sublist.refl _
  | delete connectionId => exact keys_remove_sublist connectionId conns
  | rebind connectionId =>
      change ((rebindSmppConnection connectionId conns).2.map _).Sublist _
      unfold rebindSmppConnection
      split
      · rw [keys_modifyFirst reconnecting_connectionId]
      · exact List.Sublist.refl _

theorem handle_answer {before : List Op} {conns : Store} (hlisted : conns = listed before)
    (hregistered : lookup SmppConnectionInfo.connectionId conns = registered before)
    (request : Request) : (request.handle conns).1 = Op.answer before (.request request) := by
  cases request with
  | status uptime => exact congrArg (getGatewayStatus uptime) hlisted
  | list => exact congrArg listSmppConnections hlisted
  | update connectionId req =>
      change (updateSmppConnection connectionId req conns).1 = answerFor _ _
      rw [← hregistered, updateSmppConnection]
      split
      · rename_i hfound
        rw [hfound]
        rfl
      · rename_i hnone
        rw [hnone]
        rfl
  | delete connectionId =>
      change (ite _ _ _) = answerFor _ _
      rw [← hregistered]
      cases hfound : lookup SmppConnectionInfo.connectionId conns connectionId with
      | none =>
          rw [if_neg]
          · rfl
          · rw [length_remove_lt_iff, hfound]
            exact Bool.false_ne_true
      | some conn =>
          rw [if_pos]
          · rfl
          · rw [length_remove_lt_iff, hfound]
            rfl
  | rebind connectionId =>
      change (rebindSmppConnection connectionId conns).1 = answerFor _ _
      rw [← hregistered, rebindSmppConnection]
      split
      · rename_i hfound
        rw [hfound]
        rfl
      · rename_i hnone
        rw [hnone]
        rfl

/-- Every answer is the one that its request should get after those before it. -/
def Answered (log : List (Op × Response)) : Prop :=
  ∀ front entry rest, log = front ++ entry :: rest → entry.2 = entry.1.answer (front.map Prod.fst)

theorem Answered.concat {log : List (Op × Response)} (hlog : Answered log) {entry : Op × Response}
    (hentry : entry.2 = entry.1.answer (log.map Prod.fst)) : Answered (log ++ [entry]) := by
  intro front entry' rest heq
  rcases List.eq_nil_or_concat rest with rfl | ⟨rest', last, rfl⟩
  · obtain ⟨rfl, hlast⟩ := List.append_inj' heq rfl
    obtain rfl := (List.cons.inj hlast).1
    exact hentry
  · rw [List.concat_eq_append, ← List.cons_append, ← List.append_assoc] at heq
    exact hlog front entry' rest' (List.append_inj' heq rfl).1

/-- No two connections that were created or are being created have the same id. -/
structure Inv (s : GatewayState) : Prop where
  fresh : (createdIds (ops s) ++ s.creating.map SmppConnectionInfo.connectionId).Nodup
  drawn : ∀ id ∈ createdIds (ops s) ++ s.creating.map SmppConnectionInfo.connectionId,
    id ∈ s.ids.map (generated "smpp_conn-")
  kept : (s.conns.map SmppConnectionInfo.connectionId).Sublist (createdIds (ops s))
  registered : lookup SmppConnectionInfo.connectionId s.conns = registered (ops s)
  answered : Answered s.log

theorem Inv.nodup {s : GatewayState} (hinv : Inv s) : (createdIds (ops s)).Nodup :=
  hinv.fresh.of_append_left

theorem Inv.listed {s : GatewayState} (hinv : Inv s) : s.conns = listed (ops s) := by
  rw [GatewayRegistry.listed, ← hinv.registered]
  exact (filterMap_lookup hinv.kept hinv.nodup).symm

theorem ops_concat (log : List (Op × Response)) (op : Op) (response : Response) :
    (log ++ [(op, response)]).map Prod.fst = log.map Prod.fst ++ [op] := by
  rw [List.map_append]
  rfl

theorem registered_concat (before : List Op) (op : Op) :
    GatewayRegistry.registered (before ++ [op]) = op.apply (GatewayRegistry.registered before) := by
  rw [GatewayRegistry.registered, List.foldl_append]
  rfl

theorem createdIds_concat (before : List Op) (op : Op) :
    createdIds (before ++ [op]) = createdIds before ++ op.createdId.toList := by
  rw [createdIds, List.filterMap_append]
  cases h : op.createdId <;> simp [createdIds, h]

variable {s s' : GatewayState}

theorem Inv.generate (hinv : Inv s) {req : CreateSmppConnectionRequest} {id : MessageId}
    (hnew : id ∉ s.ids) : Inv { s with
      ids := s.ids ++ [id]
      creating := s.creating ++ [req.connection (generated "smpp_conn-" id)] } := by
  have hids : createdIds (ops s) ++ (s.creating ++
      [req.connection (generated "smpp_conn-" id)]).map SmppConnectionInfo.connectionId =
      createdIds (ops s) ++ s.creating.map SmppConnectionInfo.connectionId ++
        [generated "smpp_conn-" id] := by
    rw [List.map_append, List.append_assoc]
    rfl
  refine ⟨?_, ?_, hinv.kept, hinv.registered, hinv.answered⟩
  · refine hids ▸ List.nodup_append.mpr ⟨hinv.fresh, List.nodup_singleton _, ?_⟩
    rintro text htext _ hlast rfl
    rw [List.mem_singleton] at hlast
    obtain ⟨id', hid', heq⟩ := List.mem_map.mp (hinv.drawn text htext)
    obtain rfl := generated_injective _ (heq.trans hlast)
    exact hnew hid'
  · intro text htext
    change text ∈ (s.ids ++ [id]).map _
    rw [List.map_append]
    rcases List.mem_append.mp (hids ▸ htext) with htext | htext
    · exact List.mem_append_left _ (hinv.drawn text htext)
    · exact List.mem_append_right _ htext

theorem Inv.drop (hinv : Inv s) (i : Nat) :
    Inv { s with creating := s.creating.eraseIdx i } := by
  have hsub : (createdIds (ops s) ++
      (s.creating.eraseIdx i).map SmppConnectionInfo.connectionId).Sublist
        (createdIds (ops s) ++ s.creating.map SmppConnectionInfo.connectionId) :=
    ((List.eraseIdx_sublist _ _).map _).append_left _
  exact ⟨hinv.fresh.sublist hsub, fun id hid => hinv.drawn id (hsub.subset hid), hinv.kept,
    hinv.registered, hinv.answered⟩

theorem Inv.push (hinv : Inv s) {i : Nat} {conn : SmppConnectionInfo}
    (hconn : s.creating[i]? = some conn) : Inv { s with
      creating := s.creating.eraseIdx i
      conns := s.conns ++ [conn]
      log := s.log ++ [(.created conn, createdResponse conn)] } := by
  obtain ⟨hi, rfl⟩ := List.getElem?_eq_some_iff.mp hconn
  generalize hname : s.creating[i] = conn
  have hops : ops { s with
      creating := s.creating.eraseIdx i
      conns := s.conns ++ [conn]
      log := s.log ++ [(.created conn, createdResponse conn)] } = ops s ++ [.created conn] :=
    ops_concat _ _ _
  have hperm : (createdIds (ops s ++ [.created conn]) ++
      (s.creating.eraseIdx i).map SmppConnectionInfo.connectionId).Perm
        (createdIds (ops s) ++ s.creating.map SmppConnectionInfo.connectionId) := by
    rw [createdIds_concat, List.append_assoc]
    apply List.Perm.append_left
    rw [← hname]
    exact (List.getElem_cons_eraseIdx_perm hi).map SmppConnectionInfo.connectionId
  have hnew : conn.connectionId ∉ createdIds (ops s) := by
    intro hmem
    refine (List.nodup_append.mp hinv.fresh).2.2 _ hmem _ ?_ rfl
    exact List.mem_map_of_mem (hname ▸ List.getElem_mem hi)
  constructor
  · rw [hops]
    exact hperm.nodup_iff.mpr hinv.fresh
  · rw [hops]
    exact fun id hid => hinv.drawn id (hperm.mem_iff.mp hid)
  · rw [hops, createdIds_concat, List.map_append]
    exact hinv.kept.append (List.Sublist.refl _)
  · rw [hops, registered_concat, ← hinv.registered]
    exact lookup_append fun hmem => hnew (hinv.kept.subset hmem)
  · exact hinv.answered.concat rfl

theorem Inv.request (hinv : Inv s) (request : Request) : Inv { s with
    conns := (request.handle s.conns).2
    log := s.log ++ [(.request request, (request.handle s.conns).1)] } := by
  have hops : ops { s with
      conns := (request.handle s.conns).2
      log := s.log ++ [(.request request, (request.handle s.conns).1)] } =
      ops s ++ [.request request] := ops_concat _ _ _
  have hids : createdIds (ops s ++ [.request request]) = createdIds (ops s) := by
    rw [createdIds_concat]
    exact List.append_nil _
  constructor
  · rw [hops, hids]
    exact hinv.fresh
  · rw [hops, hids]
    exact hinv.drawn
  · rw [hops, hids]
    exact (handle_sublist request s.conns).trans hinv.kept
  · rw [hops, registered_concat, ← hinv.registered]
    exact lookup_handle request s.conns
  · exact hinv.answered.concat (handle_answer hinv.listed hinv.registered request)

theorem Inv.step {event : GatewayEvent} (hinv : s.ids.Nodup → Inv s)
    (h : s.step event = some s') (hids : s'.ids.Nodup) : Inv s' := by
  cases event with
  | generate req id =>
      obtain rfl := Option.some.inj h
      have hsplit := List.nodup_append.mp hids
      apply (hinv hsplit.1).generate
      intro hmem
      exact hsplit.2.2 id hmem id (List.mem_singleton_self id) rfl
  | push i =>
      obtain ⟨conn, hconn, rfl⟩ := Option.map_eq_some_iff.mp h
      exact (hinv hids).push hconn
  | drop i =>
      rw [GatewayState.step] at h
      split at h
      · obtain rfl := Option.some.inj h
        exact (hinv hids).drop i
      · cases h
  | request request =>
      obtain rfl := Option.some.inj h
      exact (hinv hids).request request

/-- As long as no id is drawn twice, the store is at every time what its requests say in the order
of their locks: each connection as it was created and last changed, those that were not deleted in
the order of their creation, and every request answered from that. -/
theorem registry_right (h : gatewaySystem.Reachable s) (hids : s.ids.Nodup) :
    (∀ connectionId, lookup SmppConnectionInfo.connectionId s.conns connectionId =
      GatewayRegistry.registered (ops s) connectionId) ∧
    s.conns = GatewayRegistry.listed (ops s) ∧
    (s.conns.map SmppConnectionInfo.connectionId).Nodup ∧ Answered s.log := by
  have hrun : ∀ s, gatewaySystem.Reachable s → s.ids.Nodup → Inv s := by
    intro s hs
    induction hs with
    | initial =>
        intro _
        exact ⟨List.nodup_nil, by simp [gatewaySystem, ops, createdIds], List.Sublist.refl _, rfl,
          fun front _ _ heq => by cases front <;> cases heq⟩
    | step _ _ hstep ih => exact Inv.step ih hstep
  have hinv : Inv s := hrun s h hids
  exact ⟨congrFun hinv.registered, hinv.listed, hinv.nodup.sublist hinv.kept, hinv.answered⟩

def gatewayRequest (name : String) : CreateSmppConnectionRequest :=
  ⟨name, "localhost", 2775, "test", none, none, none⟩

/-- Two connections are created, the second before the first; the first is renamed and the second
deleted, once more than it is there. -/
def renamedAndDeleted : List GatewayEvent :=
  [.generate (gatewayRequest "a") (.counter 1), .generate (gatewayRequest "b") (.counter 2),
    .push 1, .push 0, .request (.update "smpp_conn-000000000001" ⟨some "c", none, some 5⟩),
    .request (.delete "smpp_conn-000000000002"), .request (.delete "smpp_conn-000000000002"),
    .request .list]

theorem registry_right_renamedAndDeleted :
    ∃ s, gatewaySystem.run renamedAndDeleted = some s ∧
      s.conns.map (fun conn => (conn.connectionId, conn.name, conn.heartbeatInterval)) =
        [("smpp_conn-000000000001", "c", 5)] ∧
      s.log.map (fun entry => entry.2.1) = [201, 201, 200, 200, 404, 200] ∧
      (∀ connectionId, lookup SmppConnectionInfo.connectionId s.conns connectionId =
        GatewayRegistry.registered (ops s) connectionId) ∧
      s.conns = GatewayRegistry.listed (ops s) ∧
      (s.conns.map SmppConnectionInfo.connectionId).Nodup ∧ Answered s.log := by
  have hrun : (gatewaySystem.run renamedAndDeleted).map (fun s =>
      (s.conns.map fun conn => (conn.connectionId, conn.name, conn.heartbeatInterval),
        s.log.map fun entry => entry.2.1, s.ids)) =
      some ([("smpp_conn-000000000001", "c", 5)], [201, 201, 200, 200, 404, 200],
        [.counter 1, .counter 2]) := by decide +kernel
  obtain ⟨s, hs, hdata⟩ := Option.map_eq_some_iff.mp hrun
  obtain ⟨hconns, hlog, hids⟩ := Prod.mk.inj hdata |>.imp id Prod.mk.inj
  exact ⟨s, hs, hconns, hlog,
    registry_right (System.reachable_of_run hs) (hids ▸ by decide)⟩

end Refinement

end SmppHerald.GatewayRegistry
