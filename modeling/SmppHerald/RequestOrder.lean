import SmppHerald.ServerAnswers
import SmppHerald.SessionRequests

namespace SmppHerald.RequestOrder

open SmppHerald.Buffer
open SmppHerald.ByteParser
open SmppHerald.CommandIds
open SmppHerald.ConnectionRun
open SmppHerald.DecodedMessage
open SmppHerald.FieldCodecs
open SmppHerald.Interaction
open SmppHerald.Io
open SmppHerald.Json
open SmppHerald.Message
open SmppHerald.PduFormat
open SmppHerald.ReceiveBuffer
open SmppHerald.ResponseEncoding
open SmppHerald.Responses
open SmppHerald.ServerAnswers
open SmppHerald.ServerConnection
open SmppHerald.SessionRequests (exists_pdu)
open SmppHerald.SingleEmission
open SmppHerald.StreamFraming
open SmppHerald.TransitionSystem

section Requests

variable {server : ServerContext} {pdu : SMPPMessage} {message : Value} {octets : Bytes}

/-- Nothing, or the response to the request. -/
def AnswerTo (pdu : SMPPMessage) (octets : Bytes) : Prop := octets = [] ∨ RespondsTo pdu octets

/-- The commands of the table whose response is not in it have no response that is encoded. -/
theorem not_encoded_of_noResponse {commandId : UInt32} {fields : List CommandField}
    (hfields : messageCommandFields commandId = some fields)
    (hnone : messageCommandFields (0x80000000 ||| commandId) = none) {command : CommandId}
    (hcommand : CommandId.fromStr ("0x" ++ upperHex 8 (0x80000000 ||| commandId).toNat) =
      some command) : messageCommandFields command.asU32 = none := by
  have htable : ∀ entry ∈ createCommandFields,
      (messageCommandFields (0x80000000 ||| entry.1.asU32)).isSome = true ∨
        ((CommandId.fromStr ("0x" ++ upperHex 8 (0x80000000 ||| entry.1.asU32).toNat)).bind
          fun command => messageCommandFields command.asU32).isNone = true := by decide
  rw [messageCommandFields, Option.map_eq_some_iff] at hfields
  obtain ⟨entry, hfind, -⟩ := hfields
  obtain rfl : entry.1.asU32 = commandId := by simpa using List.find?_some hfind
  rcases htable entry (List.mem_of_find?_eq_some hfind) with hsome | hnoFields
  · rw [hnone] at hsome
    cases hsome
  · rw [hcommand, Option.bind_some] at hnoFields
    exact Option.isNone_iff_eq_none.mp hnoFields

theorem respondsTo_of_encoded (hdecode : toJson pdu = .ok message) {status : UInt32} {fields : Map}
    (hkeeps : KeepsHeader status fields)
    (hencode : fromJson server.namedTlvFields (createJsonResponse (commandIdOf pdu)
      (sequenceNumberOf pdu) status fields) = .ok octets) : RespondsTo pdu octets := by
  obtain ⟨decoded, rfl, hid, -⟩ := exists_decoded_words hdecode
  have htable := decoded.table
  rw [hid] at htable
  cases hresponse : messageCommandFields (0x80000000 ||| commandIdOf pdu) with
  | some responseFields => exact respondsTo_of_fromJson hresponse hkeeps hencode
  | none =>
      rw [fromJson, extractCommandId, get_response_commandId hkeeps] at hencode
      simp only at hencode
      split at hencode
      · rename_i command hcommand
        have hnoFields := not_encoded_of_noResponse htable hresponse hcommand
        simp [encodeMessageWithFields, hnoFields] at hencode
      · cases hencode

/-- A decoded request is answered once at the most, under its own number. -/
theorem answers_decoded (hdecode : toJson pdu = .ok message) :
    EmitsOnce WritesFramed writtenOctets (AnswerTo pdu) (handleMessage server message) := by
  obtain ⟨decoded, hvalue, hid, -⟩ := exists_decoded_words hdecode
  cases hcommand : extractCommandId message with
  | none =>
      apply EmitsOnce.of_silent
      simp [handleMessage, hcommand]
  | some commandId =>
      have hasU32 : commandId.asU32 = commandIdOf pdu := by
        rw [← hvalue, decoded.extractCommandId_value] at hcommand
        rw [← hid]
        exact CommandId.asU32_of_fromU32 hcommand
      have hsequence := sequenceField_of_toJson hdecode
      refine EmitsOnce.mono ?_ (answers_handleMessage hcommand)
      rintro octets (rfl | ⟨status, fields, hkeeps, hencode⟩)
      · exact .inl rfl
      · rw [hasU32, hsequence] at hencode
        exact .inr (respondsTo_of_encoded hdecode hkeeps hencode)

end Requests

section Conversations

/-- The octets that have arrived. -/
def receivedOctets (events : List ConnectionEvent) : Bytes :=
  events.flatMap fun
    | .received octets => octets
    | _ => []

def decodes (pdu : SMPPMessage) : Bool := (toJson pdu).isOk

/-- The requests that were handled, and the one that is being handled. -/
def exchanges (conn : ConnectionState) : List Handled :=
  match conn.phase with
  | .handling message log _ => conn.history ++ [⟨message, log, none⟩]
  | _ => conn.history

/-- A whole PDU, and what was written while it was handled: nothing, or its response. -/
structure Exchange (pdu : SMPPMessage) (record : Handled) : Prop where
  whole : ∃ whole : Pdu, whole.octets = pdu
  decoded : toJson pdu = .ok record.message
  answer : record.log.filterMap (fun event => writtenOctets event.1) = [] ∨
    ∃ octets, AnswerTo pdu octets ∧
      record.log.filterMap (fun event => writtenOctets event.1) = [octets]

/-- What is left of the handler of a request, and what it has written so far. -/
structure Current (pdu : SMPPMessage) (message : Value) (log : List (Event Reply))
    (rest : Action (Except IoError Unit)) : Prop where
  whole : ∃ whole : Pdu, whole.octets = pdu
  decoded : toJson pdu = .ok message
  handling : ∃ sent, Completes WritesFramed writtenOctets (AnswerTo pdu) sent rest ∧
    Emissions writtenOctets (AnswerTo pdu) sent log

theorem Current.exchange {pdu : SMPPMessage} {message : Value} {log : List (Event Reply)}
    {rest : Action (Except IoError Unit)} (h : Current pdu message log rest)
    (result : Option (Except IoError Unit)) : Exchange pdu ⟨message, log, result⟩ := by
  obtain ⟨sent, -, ⟨-, hnone⟩ | ⟨-, octets, hanswer, hsome⟩⟩ := h.handling
  · exact ⟨h.whole, h.decoded, .inl hnone⟩
  · exact ⟨h.whole, h.decoded, .inr ⟨octets, hanswer, hsome⟩⟩

/-- The requests, in their order, and how far each of them has been handled. -/
def Follows (requests : List SMPPMessage) (conn : ConnectionState) : Prop :=
  match conn.phase with
  | .handling message log rest => ∃ before pdu, requests = before ++ [pdu] ∧
      List.Forall₂ Exchange before conn.history ∧ Current pdu message log rest
  | _ => List.Forall₂ Exchange requests conn.history

/-- The PDUs taken off what has arrived, and those of them that were handled. -/
def Converses (received : Bytes) (conn : ConnectionState) : Prop :=
  ∃ pdus, Takes extractMessage received pdus conn.buffer ∧ Follows (pdus.filter decodes) conn

variable {server : ServerContext} {received : Bytes} {conn conn' : ConnectionState}
  {event : ConnectionEvent}

theorem follows_finished {requests : List SMPPMessage} {buffer : Bytes} {history : List Handled}
    {message : Value} {log : List (Event Reply)} {rest : Action (Except IoError Unit)}
    (h : Follows requests ⟨buffer, .handling message log rest, history⟩)
    (result : Option (Except IoError Unit)) :
    List.Forall₂ Exchange requests (history ++ [⟨message, log, result⟩]) := by
  obtain ⟨before, pdu, rfl, hbefore, hcurrent⟩ := h
  exact List.rel_append hbefore (.cons (hcurrent.exchange result) .nil)

theorem Converses.moves (h : Converses received conn) (hmoves : Moves server conn event conn') :
    Converses (received ++ receivedOctets [event]) conn' := by
  obtain ⟨pdus, htakes, hfollows⟩ := h
  cases hmoves with
  | @received buffer history octets _ _ =>
      refine ⟨pdus, ?_, hfollows⟩
      have hnow : receivedOctets [.received octets] = octets := by simp [receivedOctets]
      rw [hnow]
      exact htakes.append stable_extractMessage octets
  | disconnected => exact ⟨pdus, (List.append_nil received).symm ▸ htakes, hfollows⟩
  | drained _ => exact ⟨pdus, (List.append_nil received).symm ▸ htakes, hfollows⟩
  | removed => exact ⟨pdus, (List.append_nil received).symm ▸ htakes, hfollows⟩
  | @undecoded buffer history pdu rest e hsome herror =>
      refine ⟨pdus ++ [pdu], (List.append_nil received).symm ▸ htakes.snoc hsome, ?_⟩
      rw [List.filter_append, List.filter_singleton, decodes, herror]
      exact (List.append_nil (pdus.filter decodes)).symm ▸ hfollows
  | @decoded buffer history pdu rest message hsome hdecode =>
      refine ⟨pdus ++ [pdu], (List.append_nil received).symm ▸ htakes.snoc hsome, ?_⟩
      rw [List.filter_append, List.filter_singleton, decodes, hdecode]
      exact ⟨_, pdu, rfl, hfollows, exists_pdu hsome hdecode, hdecode, false,
        answers_decoded hdecode, emissions_nil⟩
  | @replied buffer history message log c next oracle =>
      refine ⟨pdus, (List.append_nil received).symm ▸ htakes, ?_⟩
      obtain ⟨before, pdu, hrequests, hbefore, hwhole, hdecode, sent, hcompletes, hemissions⟩ :=
        hfollows
      exact ⟨before, pdu, hrequests, hbefore, hwhole, hdecode,
        hcompletes.act hemissions (oracle c)⟩
  | handled => exact ⟨pdus, (List.append_nil received).symm ▸ htakes, follows_finished hfollows _⟩
  | failed => exact ⟨pdus, (List.append_nil received).symm ▸ htakes, follows_finished hfollows _⟩
  | panicked => exact ⟨pdus, (List.append_nil received).symm ▸ htakes, follows_finished hfollows _⟩

theorem converses_of_run {events : List ConnectionEvent}
    (h : (connectionSystem server).run events = some conn) :
    Converses (receivedOctets events) conn := by
  induction events using List.reverseRecOn generalizing conn with
  | nil =>
      obtain rfl : (connectionSystem server).initial = conn := by simpa [System.run] using h
      have hfollows : Follows ([] : List SMPPMessage) newConnection := List.Forall₂.nil
      exact ⟨[], .nil, hfollows⟩
  | append_singleton events event ih =>
      rw [System.run_concat, Option.bind_eq_some_iff] at h
      obtain ⟨mid, hmid, hstep⟩ := h
      have hmoves : Moves server mid event conn := moves_of_step server hstep
      rw [receivedOctets, List.flatMap_append]
      exact (ih hmid).moves hmoves

/-- At any time the handled requests of a connection are those PDUs, of the ones that its octets
begin with, that decode, in their order; and each of them was answered once at the most, with a
response under its own number. -/
theorem answered_in_order {events : List ConnectionEvent}
    (h : (connectionSystem server).run events = some conn) :
    ∃ pdus, Takes extractMessage (receivedOctets events) pdus conn.buffer ∧
      List.Forall₂ Exchange (pdus.filter decodes) (exchanges conn) := by
  obtain ⟨pdus, htakes, hfollows⟩ := converses_of_run h
  refine ⟨pdus, htakes, ?_⟩
  obtain ⟨buffer, phase, history⟩ := conn
  cases phase with
  | handling message log rest => exact follows_finished hfollows none
  | _ => exact hfollows

/-- Two enquire_links with a PDU of an unknown command between them, in two pieces. -/
def enquiries : List ConnectionEvent :=
  [.received ((enquireLink 1).octets ++ header 16 0x99 0 7 ++ (enquireLink 2).octets.take 10),
    .proceed, .replied (agreeing true), .proceed, .proceed, .proceed,
    .received ((enquireLink 2).octets.drop 10), .proceed, .replied (agreeing true)]

def enquireLinkResp (sequenceNumber : UInt32) : Bytes := header 16 0x80000015 0 sequenceNumber

theorem answered_in_order_enquiries :
    ∃ conn, (connectionSystem Relay.plainServer).run enquiries = some conn ∧
      (exchanges conn).map (fun record => record.log.filterMap fun event => writtenOctets event.1) =
        [[enquireLinkResp 1], [enquireLinkResp 2]] ∧
      ∃ pdus, Takes extractMessage (receivedOctets enquiries) pdus conn.buffer ∧
        List.Forall₂ Exchange (pdus.filter decodes) (exchanges conn) := by
  have hrun : ((connectionSystem Relay.plainServer).run enquiries).map (fun conn =>
      (exchanges conn).map fun record => record.log.filterMap fun event => writtenOctets event.1) =
        some [[enquireLinkResp 1], [enquireLinkResp 2]] := by decide +kernel
  obtain ⟨conn, hconn, hwritten⟩ := Option.map_eq_some_iff.mp hrun
  exact ⟨conn, hconn, hwritten, answered_in_order hconn⟩

end Conversations

end SmppHerald.RequestOrder
