import Mathlib.Data.List.Induction
import SmppHerald.TouchedMessages

namespace SmppHerald.SessionRequests

open SmppHerald.Buffer
open SmppHerald.ByteParser
open SmppHerald.CommandIds
open SmppHerald.ConnectionRun
open SmppHerald.HandlerCalls
open SmppHerald.Interaction
open SmppHerald.Io
open SmppHerald.Json
open SmppHerald.Message
open SmppHerald.PduFormat
open SmppHerald.ReceiveBuffer
open SmppHerald.ServerConnection
open SmppHerald.TouchedMessages
open SmppHerald.TransitionSystem

section History

variable {server : ServerContext}

/-- A PDU that decodes, and a run of its handler. -/
def IsHandling (server : ServerContext) (record : Handled) : Prop :=
  (∃ pdu : Pdu, toJson pdu.octets = .ok record.message) ∧
    Run (handleMessage server record.message) record.log record.result

theorem exists_pdu {buffer rest : SmppMessageBuffer} {octets : SMPPMessage} {message : Value}
    (hsome : extractMessage buffer = some (octets, rest)) (hdecode : toJson octets = .ok message) :
    ∃ pdu : Pdu, pdu.octets = octets := by
  obtain ⟨-, hle, rfl, -⟩ := (extractMessage_eq_some_iff _ _ _).mp hsome
  have hheader := length_of_toJson hdecode
  rw [List.length_take, Nat.min_eq_left hle] at hheader
  refine ⟨⟨_, by rwa [List.length_take, Nat.min_eq_left hle], ?_⟩, rfl⟩
  rw [List.length_take, Nat.min_eq_left hle, lengthField, List.take_take,
    Nat.min_eq_left (by omega)]
  rfl

/-- Every record is a handling, and only the last one may have panicked. -/
structure HistoryInv (server : ServerContext) (conn : ConnectionState) : Prop where
  handlings : ∀ record ∈ conn.history, IsHandling server record
  finished : conn.history.Pairwise fun record _ => record.result ≠ none
  alive : conn.phase ≠ .panicked → ∀ record ∈ conn.history, record.result ≠ none
  current : ∀ message log rest, conn.phase = .handling message log rest →
    (∃ pdu : Pdu, toJson pdu.octets = .ok message) ∧
      ∀ later result, Run rest later result →
        Run (handleMessage server message) (log ++ later) result

theorem HistoryInv.finish {conn : ConnectionState} (h : HistoryInv server conn) {message : Value}
    {log : List (Event Reply)} {rest : Action (Except IoError Unit)}
    (hphase : conn.phase = .handling message log rest)
    {result : Option (Except IoError Unit)} (hrest : Run rest [] result) {phase : Phase}
    (hpanicked : result = none → phase = .panicked)
    (hidle : ∀ message log rest, phase ≠ .handling message log rest) :
    HistoryInv server (conn.finish message log result phase) := by
  obtain ⟨hpdu, hrun⟩ := h.current _ _ _ hphase
  have halive := h.alive (by simp [hphase])
  constructor
  · intro record hrecord
    rcases List.mem_append.mp hrecord with hrecord | hrecord
    · exact h.handlings record hrecord
    · obtain rfl := List.mem_singleton.mp hrecord
      exact ⟨hpdu, by simpa using hrun [] result hrest⟩
  · refine List.pairwise_append.mpr ⟨h.finished, List.pairwise_singleton _ _, ?_⟩
    intro record hrecord _ _
    exact halive record hrecord
  · intro hphase record hrecord
    rcases List.mem_append.mp hrecord with hrecord | hrecord
    · exact halive record hrecord
    · obtain rfl := List.mem_singleton.mp hrecord
      exact fun hnone => hphase (hpanicked hnone)
  · intro message log rest hphase
    exact absurd hphase (hidle message log rest)

theorem HistoryInv.moves {conn conn' : ConnectionState} {event : ConnectionEvent}
    (h : HistoryInv server conn) (hmoves : Moves server conn event conn') :
    HistoryInv server conn' := by
  cases hmoves with
  | received _ _ => exact ⟨h.handlings, h.finished, fun _ => h.alive (by simp), by simp⟩
  | disconnected => exact ⟨h.handlings, h.finished, fun _ => h.alive (by simp), by simp⟩
  | drained _ => exact ⟨h.handlings, h.finished, fun _ => h.alive (by simp), by simp⟩
  | undecoded _ _ => exact ⟨h.handlings, h.finished, fun _ => h.alive (by simp), by simp⟩
  | removed => exact ⟨h.handlings, h.finished, fun _ => h.alive (by simp), by simp⟩
  | decoded hsome hdecode =>
      refine ⟨h.handlings, h.finished, fun _ => h.alive (by simp), ?_⟩
      intro message log rest hphase
      obtain ⟨rfl, rfl, rfl⟩ := Phase.handling.inj hphase
      obtain ⟨pdu, rfl⟩ := exists_pdu hsome hdecode
      exact ⟨⟨pdu, hdecode⟩, fun _ _ hrun => hrun⟩
  | replied =>
      obtain ⟨hpdu, hrun⟩ := h.current _ _ _ rfl
      refine ⟨h.handlings, h.finished, fun _ => h.alive (by simp), ?_⟩
      intro message log rest hphase
      obtain ⟨rfl, rfl, rfl⟩ := Phase.handling.inj hphase
      refine ⟨hpdu, fun later result hlater => ?_⟩
      rw [List.append_assoc]
      exact hrun _ _ (.act _ hlater)
  | handled => exact h.finish rfl (.ret _) (by simp) (by simp)
  | failed => exact h.finish rfl (.ret _) (by simp) (by simp)
  | panicked => exact h.finish rfl .panic (fun _ => rfl) (by simp)

theorem historyInv_of_reachable {conn : ConnectionState}
    (h : (connectionSystem server).Reachable conn) : HistoryInv server conn := by
  refine h.invariant ?_ fun _ _ _ hinv _ hstep => hinv.moves (moves_of_step _ hstep)
  constructor
  · intro record hrecord
    simp [connectionSystem, newConnection] at hrecord
  · simp [connectionSystem, newConnection]
  · intro _ record hrecord
    simp [connectionSystem, newConnection] at hrecord
  · intro message log rest hphase
    simp [connectionSystem, newConnection] at hphase

end History

section Replay

variable {server : ServerContext} {history : List Handled}

theorem reachable_moves {conn conn' : ConnectionState} {event : ConnectionEvent}
    (h : (connectionSystem server).Reachable conn) (hmoves : Moves server conn event conn') :
    (connectionSystem server).Reachable conn' :=
  h.step trivial (hmoves.step _)

theorem reachable_received (pdu : Pdu) (rest buffer : SmppMessageBuffer) (hrest : rest ≠ [])
    (hpdu : buffer ++ rest = pdu.octets)
    (h : (connectionSystem server).Reachable ⟨buffer, .reading, history⟩) :
    (connectionSystem server).Reachable ⟨pdu.octets, .draining, history⟩ := by
  have hread := reachable_moves h (@Moves.received server buffer history (rest.take readSize)
    (by simp [hrest, readSize]) (List.length_take_le _ _))
  by_cases hlast : rest.drop readSize = []
  · rwa [List.take_of_length_le (by simpa using hlast), hpdu] at hread
  · have hsplit : (buffer ++ rest.take readSize) ++ rest.drop readSize = pdu.octets := by
      rw [List.append_assoc, List.take_append_drop, hpdu]
    have hincomplete : extractMessage (buffer ++ rest.take readSize) = none :=
      extractMessage_incomplete ⟨pdu, _, hlast, hsplit.symm⟩
    exact reachable_received pdu (rest.drop readSize) _ hlast hsplit
      (reachable_moves hread (.drained hincomplete))
termination_by rest.length
decreasing_by
  have hpos := List.length_pos_iff.mpr hrest
  rw [List.length_drop, readSize]
  omega

theorem exists_oracle {c : ServerCall} (reply : Reply c) :
    ∃ oracle : (c : ServerCall) → Reply c, oracle c = reply := by
  classical
  exact ⟨Function.update (agreeing true) c reply, Function.update_self c reply _⟩

/-- The program that has nothing left to do. -/
def finished : Option (Except IoError Unit) → Action (Except IoError Unit)
  | some result => .ret result
  | none => .panic

theorem reachable_replied {buffer : SmppMessageBuffer} {message : Value}
    {rest : Action (Except IoError Unit)} {later : List (Event Reply)}
    {result : Option (Except IoError Unit)} (hrun : Run rest later result)
    (log : List (Event Reply))
    (h : (connectionSystem server).Reachable ⟨buffer, .handling message log rest, history⟩) :
    (connectionSystem server).Reachable
      ⟨buffer, .handling message (log ++ later) (finished result), history⟩ := by
  induction hrun generalizing log with
  | ret value => simpa [finished] using h
  | panic => simpa [finished] using h
  | @act c next reply later result _ ih =>
      obtain ⟨oracle, rfl⟩ := exists_oracle reply
      have hnext := ih _ (reachable_moves h .replied)
      rwa [List.append_assoc] at hnext

theorem reachable_record {record : Handled} (hrecord : IsHandling server record)
    (h : (connectionSystem server).Reachable ⟨[], .reading, history⟩) :
    ∃ phase, (connectionSystem server).Reachable ⟨[], phase, history ++ [record]⟩ ∧
      (record.result ≠ none → phase = .reading) := by
  obtain ⟨⟨pdu, hdecode⟩, hrun⟩ := hrecord
  have hne : pdu.octets ≠ [] := List.ne_nil_of_length_pos (by have := pdu.header; omega)
  have hextract : extractMessage pdu.octets = some (pdu.octets, []) := by
    simpa using extractMessage_pdu pdu []
  have hreceived := reachable_received pdu pdu.octets [] hne rfl h
  have hhandled := reachable_replied hrun []
    (reachable_moves hreceived (.decoded hextract hdecode))
  obtain ⟨message, log, result⟩ := record
  match result, hhandled with
  | none, hhandled => exact ⟨_, reachable_moves hhandled .panicked, fun hsome => absurd rfl hsome⟩
  | some (.error e), hhandled => exact ⟨_, reachable_moves hhandled .failed, fun _ => rfl⟩
  | some (.ok ()), hhandled =>
      have hdrained := reachable_moves hhandled .handled
      exact ⟨_, reachable_moves hdrained (.drained rfl), fun _ => rfl⟩

/-- Handlings of which only the last may panic are the history of a run. -/
theorem reachable_history (records : List Handled)
    (hhandlings : ∀ record ∈ records, IsHandling server record)
    (hfinished : records.Pairwise fun record _ => record.result ≠ none) :
    ∃ phase, (connectionSystem server).Reachable ⟨[], phase, records⟩ ∧
      ((∀ record ∈ records, record.result ≠ none) → phase = .reading) := by
  induction records using List.reverseRecOn with
  | nil => exact ⟨.reading, .initial, fun _ => rfl⟩
  | append_singleton records last ih =>
      obtain ⟨hbefore, -, hlast⟩ := List.pairwise_append.mp hfinished
      obtain ⟨phase, hreachable, hphase⟩ := ih
        (fun record hrecord => hhandlings record (List.mem_append_left _ hrecord)) hbefore
      obtain rfl := hphase fun record hrecord =>
        hlast record hrecord last (List.mem_singleton_self last)
      obtain ⟨phase, hreachable, hphase⟩ :=
        reachable_record (hhandlings last (by simp)) hreachable
      exact ⟨phase, hreachable, fun hall => hphase (hall last (by simp))⟩

end Replay

/-- The handling changed the store, reached the message handler or forwarded a message. -/
def sensitive (record : Handled) : Bool := touches record.log

/-- What a connection makes of its requests does not depend on a session. Five requests touch
messages, wherever they stand in the history, and no other; only their own times refuse them. With
handled requests left out, binds and unbinds among them, it is the history of another run, and so it
is with a request more at any place. -/
structure Sessionless (server : ServerContext) (conn : ConnectionState) : Prop where
  only : ∀ record ∈ conn.history, sensitive record = true →
    ∃ commandId, extractCommandId record.message = some commandId ∧ submits commandId = true
  touched : ∀ record ∈ conn.history, record.result ≠ none →
    ∀ commandId, extractCommandId record.message = some commandId → submits commandId = true →
      sensitive record = true ∨ Refused server record.log record.message commandId
  kept : ∀ kept, kept.Sublist conn.history →
    ∃ conn', (connectionSystem server).Reachable conn' ∧ conn'.history = kept
  inserted : conn.phase ≠ .panicked → ∀ before after record, conn.history = before ++ after →
    IsHandling server record → record.result ≠ none →
      ∃ conn', (connectionSystem server).Reachable conn' ∧
        conn'.history = before ++ record :: after

/-- Only five requests touch messages, and they do so with or without a session. -/
theorem requests_without_session {server : ServerContext} {conn : ConnectionState}
    (h : (connectionSystem server).Reachable conn) : Sessionless server conn := by
  have hinv := historyInv_of_reachable h
  constructor
  · intro record hrecord hsensitive
    by_contra hnone
    have hcalls : Calls (fun c => touchesMessages c = false)
        (handleMessage server record.message) := by
      refine notTouching_handleMessage fun commandId hcommand => ?_
      by_contra hsubmits
      exact hnone ⟨commandId, hcommand, by simpa using hsubmits⟩
    obtain ⟨event, hevent, htouches⟩ := List.any_eq_true.mp hsensitive
    simp [hcalls.run (hinv.handlings record hrecord).2 event hevent] at htouches
  · intro record hrecord hresult commandId hcommand hsubmits
    obtain ⟨⟨pdu, hdecode⟩, hrun⟩ := hinv.handlings record hrecord
    obtain ⟨result, hsome⟩ := Option.ne_none_iff_exists'.mp hresult
    rw [hsome] at hrun
    exact touches_handleMessage hdecode hcommand hsubmits hrun
  · intro kept hkept
    obtain ⟨phase, hreachable, -⟩ := reachable_history kept
      (fun record hrecord => hinv.handlings record (hkept.subset hrecord))
      (hinv.finished.sublist hkept)
    exact ⟨_, hreachable, rfl⟩
  · intro halive before after record hhistory hrecord hresult
    have hall : ∀ other ∈ before ++ record :: after,
        IsHandling server other ∧ other.result ≠ none := by
      intro other hother
      rw [List.mem_append, List.mem_cons] at hother
      have hold : other ∈ conn.history →
          IsHandling server other ∧ other.result ≠ none := fun hmem =>
        ⟨hinv.handlings other hmem, hinv.alive halive other hmem⟩
      rcases hother with hbefore | rfl | hafter
      · exact hold (hhistory ▸ List.mem_append_left _ hbefore)
      · exact ⟨hrecord, hresult⟩
      · exact hold (hhistory ▸ List.mem_append_right _ hafter)
    obtain ⟨phase, hreachable, -⟩ := reachable_history (before ++ record :: after)
      (fun other hother => (hall other hother).1)
      (List.pairwise_of_forall_mem_list fun other hother _ _ => (hall other hother).2)
    exact ⟨_, hreachable, rfl⟩

section Example

/-- A submit_sm of service A to the address 49 that asks for store and forward. -/
def storedPdu : SMPPMessage :=
  header 38 0x4 0 1 ++ [0x41, 0, 0, 0, 0, 1, 1, 0x34, 0x39, 0, 3, 0, 0, 0, 0, 0, 0, 0, 0, 2,
    0x68, 0x69]

/-- The first thing that the connection receives is the submit_sm, which is stored. -/
def storeEvents : List ConnectionEvent :=
  .received storedPdu :: .proceed :: List.replicate 8 (.replied (agreeing true)) ++ [.proceed]

/-- The commands that were handled, and whether they touched messages. -/
def observed (conn : ConnectionState) : List (Option CommandId × Bool) :=
  conn.history.map fun record => (extractCommandId record.message, sensitive record)

theorem exists_stored : ∃ conn, (connectionSystem Relay.plainServer).Reachable conn ∧
    observed conn = [(some .submitSm, true)] := by
  have hrun : ((connectionSystem Relay.plainServer).run storeEvents).map observed =
      some [(some .submitSm, true)] := by decide +kernel
  obtain ⟨conn, hconn, hobserved⟩ := Option.map_eq_some_iff.mp hrun
  exact ⟨conn, System.reachable_of_run hconn, hobserved⟩

theorem requests_without_session_stored :
    ∃ conn, observed conn = [(some .submitSm, true)] ∧ Sessionless Relay.plainServer conn := by
  obtain ⟨conn, hconn, hobserved⟩ := exists_stored
  exact ⟨conn, hobserved, requests_without_session hconn⟩

/-- Whether the last bind was accepted and no unbind came after it. -/
def boundAfter (history : List Handled) : Bool :=
  history.foldl (fun bound record =>
    match extractCommandId record.message with
    | some .unbind => false
    | _ => bound || record.log.any fun
        | ⟨.authenticate _ _, accepted⟩ => accepted
        | _ => false) false

/-- Messages are touched only while the connection is bound. -/
def SessionRespected (history : List Handled) : Prop :=
  ∀ before record after, history = before ++ record :: after → sensitive record = true →
    boundAfter before = true

/-- A submit_sm is stored on a connection that never was bound. -/
theorem not_sessionRespected :
    ∃ conn, (connectionSystem Relay.plainServer).Reachable conn ∧
      ¬ SessionRespected conn.history := by
  obtain ⟨conn, hconn, hobserved⟩ := exists_stored
  refine ⟨conn, hconn, fun hrespected => ?_⟩
  obtain ⟨record, hhistory, hrecord⟩ := List.map_eq_singleton_iff.mp hobserved
  have hbound := hrespected [] record [] hhistory (congrArg Prod.snd hrecord)
  simp [boundAfter] at hbound

end Example

end SmppHerald.SessionRequests
