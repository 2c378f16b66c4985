import SmppHerald.Accounting

namespace SmppHerald.TouchedMessages

open SmppHerald.Accounting
open SmppHerald.Buffer
open SmppHerald.CommandIds
open SmppHerald.DecodedMessage
open SmppHerald.HandlerCalls
open SmppHerald.Interaction
open SmppHerald.Io
open SmppHerald.Json
open SmppHerald.Message
open SmppHerald.Relay
open SmppHerald.Responses
open SmppHerald.ServerConnection
open SmppHerald.ServerMessage
open SmppHerald.Time

/-- A call changed the store, reached the message handler or forwarded a message. -/
def touches (log : Log) : Bool := log.any fun event => touchesMessages event.1

variable (server : ServerContext)

/-- The times of a message, as they are read at some reading of the clock, refuse it at another. -/
def Untimely (log : Log) (message : Value) : Prop :=
  ∃ first second : Instant, ⟨.now, first⟩ ∈ log ∧ ⟨.now, second⟩ ∈ log ∧
    (Late (getScheduleDeliveryTime server.calendar first message) second ∨
      Late (getValidityPeriod server.calendar first server.config.getDefaultValidityPeriod message)
        second ∨
      ScheduledAfter (getScheduleDeliveryTime server.calendar first message)
        (getValidityPeriod server.calendar second server.config.getDefaultValidityPeriod message))

/-- A message for someone else, to be stored, that its times refuse. -/
def NotStored (log : Log) (messageMode : MessageMode) (address : String) (message : Value) : Prop :=
  server.isMyRequestAddress address = false ∧ messageMode = .storeAndForward ∧
    Untimely server log message

/-- Only the times of a request refuse it, for all of its destinations, and never a cancel_sm or
replace_sm. -/
def Refused (log : Log) (message : Value) : CommandId → Prop
  | .submitSm | .dataSm =>
      ∃ n prepared, prepareDataSubmitSm server.config n message = .ok prepared ∧
        NotStored server log (getMessageMode server.config prepared)
          (prepared.strField "destination_addr") prepared
  | .submitMulti =>
      ∃ replaced, replaceSmDefaultMsgIdWithPredefinedMessage server.config message = .ok replaced ∧
        ∀ addr ∈ extractDestionationAddresses (setServiceType server.config replaced)
            server.distributionList,
          ∃ n, NotStored server log (getMessageMode server.config message) addr.address
            (copyFor (setServiceType server.config replaced) addr n)
  | _ => False

section Modes

variable {server} {commandId sequenceNumber : UInt32} {messageId : String} {message : Value}
  {log : Log}

@[simp] theorem touches_append (first second : Log) :
    touches (first ++ second) = (touches first || touches second) := List.any_append

@[simp] theorem touches_cons (event : Event Reply) (log : Log) :
    touches (event :: log) = (touchesMessages event.1 || touches log) := List.any_cons

theorem Untimely.mono (h : Untimely server log message) {log' : Log} (hsubset : log ⊆ log') :
    Untimely server log' message := by
  obtain ⟨first, second, hfirst, hsecond, htimes⟩ := h
  exact ⟨first, second, hsubset hfirst, hsubset hsecond, htimes⟩

theorem NotStored.mono {messageMode : MessageMode} {address : String}
    (h : NotStored server log messageMode address message) {log' : Log} (hsubset : log ⊆ log') :
    NotStored server log' messageMode address message :=
  ⟨h.1, h.2.1, h.2.2.mono hsubset⟩

theorem touches_processLocal {result : Option (Except IoError ByteParser.Bytes)}
    (hrun : Run (processLocalDataSubmitMessage server commandId sequenceNumber message) log
      result) : touches log = true := by
  have hasked : ∀ {log result},
      Run (localResponse commandId sequenceNumber message) log result → touches log = true := by
    intro log result hrun
    obtain ⟨reply, rest, rfl, -⟩ := (run_perform_bind_iff _ _ _ _).mp hrun
    rfl
  rcases (run_bind_iff _ _ _ _).mp hrun with ⟨hpanic, -⟩ | ⟨response, first, rest, rfl, hfirst, -⟩
  · exact hasked hpanic
  · rw [touches_append, hasked hfirst, Bool.true_or]

theorem touches_datagram {result : Option (Except Value Value)}
    (hrun : Run (sendMessageInDatagramMode commandId sequenceNumber messageId message) log
      result) : touches log = true := by
  obtain ⟨n, rest, rfl, hrest⟩ := (run_perform_bind_iff _ _ _ _).mp hrun
  obtain ⟨reply, rest, rfl, -⟩ := (run_perform_bind_iff _ _ _ _).mp hrest
  rfl

theorem touches_forward {destAddr : String}
    (hdest : (message.get "destination_addr").bind Value.asStr = some destAddr)
    (hrun : Run (forwardMessageToClient server message) log (some ())) : touches log = true := by
  unfold forwardMessageToClient at hrun
  simp only [hdest] at hrun
  split at hrun
  · obtain ⟨reply, rest, rfl, -⟩ := (run_perform_bind_iff _ _ _ _).mp hrun
    rfl
  · cases ((run_panic_iff _ _).mp hrun).2

theorem touches_transaction {destAddr : String}
    (hdest : (message.get "destination_addr").bind Value.asStr = some destAddr)
    {result : Except Value Value}
    (hrun : Run (sendMessageInTransactionMode server commandId sequenceNumber messageId message)
      log (some result)) : touches log = true := by
  obtain ⟨n, rest, rfl, hrest⟩ := (run_perform_bind_iff _ _ _ _).mp hrun
  rcases (run_bind_iff _ _ _ _).mp hrest with ⟨-, hnone⟩ | ⟨_, first, second, rfl, hfirst, -⟩
  · cases hnone
  · have hforwarded := touches_forward
      (by rw [get_asDeliverSm_of_ne (by decide) (by decide), hdest]) hfirst
    rw [touches_cons, touches_append, hforwarded, Bool.true_or, Bool.or_true]

theorem run_timeOrNone {time : Outcome Instant} {read : Option Instant}
    (hrun : Run (timeOrNone time) log (some read)) :
    log = [] ∧ ∀ instant, read = some instant → time = .ok instant := by
  cases time with
  | ok instant =>
      obtain ⟨rfl, hread⟩ := (run_pure_iff _ _ _).mp hrun
      obtain rfl := Option.some.inj hread
      exact ⟨rfl, fun _ heq => congrArg Outcome.ok (Option.some.inj heq)⟩
  | err e =>
      obtain ⟨rfl, hread⟩ := (run_pure_iff _ _ _).mp hrun
      obtain rfl := Option.some.inj hread
      exact ⟨rfl, fun _ heq => nomatch heq⟩
  | panicked => cases ((run_panic_iff _ _).mp hrun).2

theorem run_readTime {α : Type} {time : Instant → Outcome Instant}
    {next : Option Instant → Instant → Action α} {result : α}
    (hrun : Run (do
      let now : Instant ← perform .now
      let read ← timeOrNone (time now)
      let now : Instant ← perform .now
      next read now) log (some result)) :
    ∃ first second read rest, ⟨.now, first⟩ ∈ log ∧ ⟨.now, second⟩ ∈ log ∧ rest ⊆ log ∧
      touches log = touches rest ∧ (∀ instant, read = some instant → time first = .ok instant) ∧
        Run (next read second) rest (some result) := by
  obtain ⟨first, afterFirst, rfl, hread⟩ := (run_perform_bind_iff _ _ _ _).mp hrun
  rcases (run_bind_iff _ _ _ _).mp hread with ⟨-, hnone⟩ | ⟨read, _, afterRead, rfl, htime, hlater⟩
  · cases hnone
  obtain ⟨rfl, hinstant⟩ := run_timeOrNone htime
  obtain ⟨second, rest, rfl, hnext⟩ := (run_perform_bind_iff _ _ _ _).mp hlater
  refine ⟨first, second, read, rest, by simp, by simp, ?_, rfl, hinstant, hnext⟩
  intro event hevent
  exact List.mem_cons_of_mem _ (List.mem_cons_of_mem _ hevent)

theorem touches_storeAndForward {result : Except Value Value}
    (hrun : Run (storeAndForwardMessage server commandId sequenceNumber messageId message) log
      (some result)) : touches log = true ∨ Untimely server log message := by
  obtain ⟨first, second, schedule, rest, hfirst, hsecond, hrest, htouches, hschedule, hrun⟩ :=
    run_readTime hrun
  split at hrun
  · rename_i hlate
    obtain ⟨time, rfl, hlate⟩ := (Option.any_eq_true _ _).mp hlate
    exact .inr ⟨first, second, hfirst, hsecond,
      .inl ⟨time, hschedule time rfl, of_decide_eq_true hlate⟩⟩
  obtain ⟨third, fourth, expiry, last, hthird, hfourth, -, htouches', hexpiry, hrun⟩ :=
    run_readTime hrun
  split at hrun
  · rename_i hlate
    obtain ⟨time, rfl, hlate⟩ := (Option.any_eq_true _ _).mp hlate
    exact .inr ⟨third, fourth, hrest hthird, hrest hfourth,
      .inr (.inl ⟨time, hexpiry time rfl, of_decide_eq_true hlate⟩)⟩
  split at hrun
  · rename_i hafter
    obtain ⟨time, hread, hbefore⟩ := (Option.any_eq_true _ _).mp hafter
    obtain ⟨expired, hreadExpiry, hlater⟩ := (Option.any_eq_true _ _).mp hbefore
    exact .inr ⟨first, third, hfirst, hrest hthird, .inr (.inr ⟨time, expired,
      hschedule time hread, hexpiry expired hreadExpiry, of_decide_eq_true hlater⟩)⟩
  · obtain ⟨reply, end_, rfl, -⟩ := (run_perform_bind_iff _ _ _ _).mp hrun
    exact .inl (htouches.trans htouches')

theorem touches_submitCopyInMode {messageMode : MessageMode} (hmode : messageMode ≠ .default)
    {destAddr : String} (hdest : (message.get "destination_addr").bind Value.asStr = some destAddr)
    {result : Except Value Value}
    (hrun : Run (submitCopyInMode server messageMode commandId sequenceNumber messageId message) log
      (some result)) :
    touches log = true ∨ messageMode = .storeAndForward ∧ Untimely server log message := by
  cases messageMode with
  | datagram => exact .inl (touches_datagram hrun)
  | transaction => exact .inl (touches_transaction hdest hrun)
  | storeAndForward => exact (touches_storeAndForward hrun).imp_right fun h => ⟨rfl, h⟩
  | default => exact absurd rfl hmode

theorem touches_submitInMode {messageMode : MessageMode} (hmode : messageMode ≠ .default)
    {destAddr : String} (hdest : (message.get "destination_addr").bind Value.asStr = some destAddr)
    {result : Option (Except Value Value)}
    (hrun : Run (submitInMode server messageMode commandId sequenceNumber messageId message) log
      (some result)) :
    touches log = true ∨ messageMode = .storeAndForward ∧ Untimely server log message := by
  have hcopy : ∀ {p : Action (Except Value Value)},
      Run (p >>= fun response => pure (some response)) log (some result) →
        ∃ response, Run p log (some response) := by
    intro p hrun
    rcases (run_bind_iff _ _ _ _).mp hrun with ⟨-, hnone⟩ | ⟨response, _, _, rfl, hfirst, hlast⟩
    · cases hnone
    · obtain ⟨rfl, -⟩ := (run_pure_iff _ _ _).mp hlast
      exact ⟨response, by rwa [List.append_nil]⟩
  cases messageMode with
  | datagram =>
      obtain ⟨response, hrun⟩ := hcopy hrun
      exact .inl (touches_datagram hrun)
  | transaction =>
      obtain ⟨response, hrun⟩ := hcopy hrun
      exact .inl (touches_transaction hdest hrun)
  | storeAndForward =>
      obtain ⟨response, hrun⟩ := hcopy hrun
      exact (touches_storeAndForward hrun).imp_right fun h => ⟨rfl, h⟩
  | default => exact absurd rfl hmode

end Modes

section Requests

variable {server} {commandId sequenceNumber : UInt32} {message : Value} {log : Log}

theorem touches_handleDataSubmitSm
    (hreplaced : ∃ replaced,
      replaceSmDefaultMsgIdWithPredefinedMessage server.config message = .ok replaced)
    (hdest : ∀ n prepared, prepareDataSubmitSm server.config n message = .ok prepared →
      ∃ destAddr, (prepared.get "destination_addr").bind Value.asStr = some destAddr)
    {result : Except IoError Unit}
    (hrun : Run (handleDataSubmitSm server commandId sequenceNumber message) log (some result)) :
    touches log = true ∨ Refused server log message .submitSm := by
  obtain ⟨replaced, hreplaced⟩ := hreplaced
  obtain ⟨messageId, afterId, rfl, hprepare⟩ := (run_perform_bind_iff _ _ _ _).mp hrun
  simp only [hreplaced] at hprepare
  obtain ⟨n, rest, rfl, hhandle⟩ := (run_perform_bind_iff _ _ _ _).mp hprepare
  have hprepared := prepareDataSubmitSm_of_replaced hreplaced n
  obtain ⟨destAddr, hdest⟩ := hdest n _ hprepared
  simp only [touches_cons, touchesMessages, Bool.false_or]
  split at hhandle
  · rcases (run_bind_iff _ _ _ _).mp hhandle with ⟨-, hnone⟩ | ⟨_, _, _, rfl, hlocal, -⟩
    · cases hnone
    · rw [touches_append, touches_processLocal hlocal, Bool.true_or]
      exact .inl rfl
  · rename_i hother
    rcases (run_bind_iff _ _ _ _).mp hhandle with ⟨-, hnone⟩ | ⟨_, first, last, rfl, hmode, -⟩
    · cases hnone
    rcases touches_submitInMode (getMessageMode_ne_default _ _) hdest hmode with
      htouches | ⟨hstore, huntimely⟩
    · rw [touches_append, htouches, Bool.true_or]
      exact .inl rfl
    · refine .inr ⟨n, _, hprepared, by simpa using hother, hstore, huntimely.mono ?_⟩
      intro event hevent
      exact List.mem_cons_of_mem _ (List.mem_cons_of_mem _ (List.mem_append_left _ hevent))

theorem touches_submitToDestination {messageMode : MessageMode} (hmode : messageMode ≠ .default)
    {messageId : String} {addr : Address}
    (hdest : ∀ n, ∃ destAddr,
      ((copyFor message addr n).get "destination_addr").bind Value.asStr = some destAddr)
    {failed : Bool}
    (hrun : Run (submitToDestination server commandId sequenceNumber messageId messageMode message
      addr) log (some failed)) :
    touches log = true ∨
      ∃ n, NotStored server log messageMode addr.address (copyFor message addr n) := by
  obtain ⟨n, rest, rfl, hcopy⟩ := (run_perform_bind_iff _ _ _ _).mp hrun
  simp only at hcopy
  simp only [touches_cons, touchesMessages, Bool.false_or]
  split at hcopy
  · rcases (run_bind_iff _ _ _ _).mp hcopy with ⟨-, hnone⟩ | ⟨_, _, _, rfl, hlocal, -⟩
    · cases hnone
    · rw [touches_append, touches_processLocal hlocal, Bool.true_or]
      exact .inl rfl
  · rename_i hother
    rcases (run_bind_iff _ _ _ _).mp hcopy with ⟨-, hnone⟩ | ⟨_, first, last, rfl, hfirst, -⟩
    · cases hnone
    obtain ⟨destAddr, hdest⟩ := hdest n
    rcases touches_submitCopyInMode hmode hdest hfirst with htouches | ⟨hstore, huntimely⟩
    · rw [touches_append, htouches, Bool.true_or]
      exact .inl rfl
    · refine .inr ⟨n, by simpa using hother, hstore, huntimely.mono ?_⟩
      intro event hevent
      exact List.mem_cons_of_mem _ (List.mem_append_left _ hevent)

/-- A run over the destinations that touches nothing has refused each of them. -/
theorem touches_submitToDestinations {messageMode : MessageMode} (hmode : messageMode ≠ .default)
    {messageId : String}
    (hdest : ∀ addr n, ∃ destAddr,
      ((copyFor message addr n).get "destination_addr").bind Value.asStr = some destAddr)
    {addresses failedAddresses : List Address}
    (hrun : Run (submitToDestinations server commandId sequenceNumber messageId messageMode message
      addresses) log (some failedAddresses)) :
    touches log = true ∨ ∀ addr ∈ addresses,
      ∃ n, NotStored server log messageMode addr.address (copyFor message addr n) := by
  obtain ⟨attempts, rfl, rfl, hattempted, -⟩ := run_submitToDestinations hrun
  by_cases htouches : ∃ attempt ∈ attempts, touches attempt.2 = true
  · obtain ⟨attempt, hattempt, htouches⟩ := htouches
    obtain ⟨event, hevent, htouches⟩ := List.any_eq_true.mp htouches
    refine .inl (List.any_eq_true.mpr ⟨event, ?_, htouches⟩)
    exact List.mem_flatten.mpr ⟨_, List.mem_map_of_mem hattempt, hevent⟩
  · refine .inr fun addr haddr => ?_
    obtain ⟨attempt, hattempt, rfl⟩ := List.mem_map.mp haddr
    obtain ⟨failed, hrun⟩ := hattempted attempt hattempt
    obtain ⟨n, hrefused⟩ := (touches_submitToDestination hmode (hdest attempt.1) hrun).resolve_left
      fun h => htouches ⟨attempt, hattempt, h⟩
    refine ⟨n, hrefused.mono fun event hevent => ?_⟩
    exact List.mem_flatten.mpr ⟨_, List.mem_map_of_mem hattempt, hevent⟩

theorem touches_handleSubmitMulti (htaken : HasTakenFields message)
    (hreplaced : ∃ replaced,
      replaceSmDefaultMsgIdWithPredefinedMessage server.config message = .ok replaced)
    {result : Except IoError Unit}
    (hrun : Run (handleSubmitMulti server commandId sequenceNumber message) log (some result)) :
    touches log = true ∨ Refused server log message .submitMulti := by
  obtain ⟨replaced, hreplaced⟩ := hreplaced
  obtain ⟨messageId, afterId, rfl, hprepare⟩ := (run_perform_bind_iff _ _ _ _).mp hrun
  simp only [hreplaced] at hprepare
  rcases (run_bind_iff _ _ _ _).mp hprepare with ⟨-, hnone⟩ | ⟨_, first, last, rfl, hfirst, -⟩
  · cases hnone
  have hdest : ∀ addr n, ∃ destAddr, ((copyFor (setServiceType server.config replaced) addr
      n).get "destination_addr").bind Value.asStr = some destAddr := by
    intro addr n
    have hrelayable := relayable_copyFor (htaken.prepare hreplaced) addr n
    exact hrelayable.destination (by simp [submitSmFields] :
      ("destination_addr", none) ∈ submitSmFields)
  rcases touches_submitToDestinations (getMessageMode_ne_default _ _) hdest hfirst with
    htouches | hrefused
  · rw [touches_cons, touches_append, htouches, Bool.true_or, Bool.or_true]
    exact .inl rfl
  · refine .inr ⟨replaced, hreplaced, fun addr haddr => ?_⟩
    obtain ⟨n, hrefused⟩ := hrefused addr haddr
    refine ⟨n, hrefused.mono fun event hevent => ?_⟩
    exact List.mem_cons_of_mem _ (List.mem_append_left _ hevent)

/-- A run of one of the five requests touches messages, unless the request is refused. -/
theorem touches_handleMessage {pdu : SMPPMessage} (hdecode : toJson pdu = .ok message)
    {commandId : CommandId} (hcommand : extractCommandId message = some commandId)
    (hsubmits : submits commandId = true) {result : Except IoError Unit}
    (hrun : Run (handleMessage server message) log (some result)) :
    touches log = true ∨ Refused server log message commandId := by
  obtain ⟨decoded, rfl⟩ := exists_decoded hdecode
  have htable := decoded.table
  have hword := hcommand
  rw [decoded.extractCommandId_value] at hword
  rw [← CommandId.asU32_of_fromU32 hword] at htable
  unfold handleMessage at hrun
  simp only [hcommand] at hrun
  cases commandId with
  | submitSm =>
      have hfields : decoded.fields = submitSmFields := (Option.some.inj htable).symm
      have hrelayable : Relayable submitSmFields decoded.value :=
        hfields ▸ Relayable.of_decoded (hfields ▸ plainFields_submitSm)
      have htext : ("short_message", none) ∈ submitSmFields := by simp [submitSmFields]
      obtain ⟨-, text, -, hget, -⟩ := hrelayable.field _ htext
      refine touches_handleDataSubmitSm (exists_replaced (.inr (.inr ⟨text, hget⟩)))
        (fun n prepared hprepare => ?_) hrun
      exact (hrelayable.prepare (by decide) hprepare).destination (by simp [submitSmFields] :
        ("destination_addr", none) ∈ submitSmFields)
  | dataSm =>
      have hfields : decoded.fields = dataSmFields := (Option.some.inj htable).symm
      have hrelayable : Relayable dataSmFields decoded.value :=
        hfields ▸ Relayable.of_decoded (hfields ▸ plainFields_dataSm)
      have hzero : decoded.value.u64Field "sm_default_msg_id" = 0 := by
        rw [Value.u64Field, decoded.get_other (by decide) (by rw [hfields]; decide) (by decide)]
        rfl
      refine touches_handleDataSubmitSm (exists_replaced (.inl hzero))
        (fun n prepared hprepare => ?_) hrun
      exact (hrelayable.prepare (by decide) hprepare).destination (by simp [dataSmFields] :
        ("destination_addr", none) ∈ dataSmFields)
  | submitMulti =>
      exact touches_handleSubmitMulti (HasTakenFields.of_decoded htable)
        (exists_replaced (.inr (.inl hcommand))) hrun
  | cancelSm =>
      obtain ⟨reply, rest, rfl, -⟩ := (run_perform_bind_iff _ _ _ _).mp hrun
      exact .inl rfl
  | replaceSm =>
      obtain ⟨reply, rest, rfl, -⟩ := (run_perform_bind_iff _ _ _ _).mp hrun
      exact .inl rfl
  | _ => cases hsubmits

end Requests

end SmppHerald.TouchedMessages
