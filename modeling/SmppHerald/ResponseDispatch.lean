import SmppHerald.CallbackOwners
import SmppHerald.Relay
import SmppHerald.WriterDeadlock

namespace SmppHerald.ResponseDispatch

open SmppHerald.Buffer
open SmppHerald.CallbackOwners
open SmppHerald.Callbacks
open SmppHerald.ClientConnection
open SmppHerald.ClientRun
open SmppHerald.CommandIds
open SmppHerald.Interaction
open SmppHerald.Io
open SmppHerald.Json
open SmppHerald.Message
open SmppHerald.PduFormat
open SmppHerald.Relay (decodedValue toJson_of_isOk)
open SmppHerald.ResponseEncoding
open SmppHerald.ResponseManagers
open SmppHerald.ServerMessage
open SmppHerald.TransitionSystem
open SmppHerald.WriterDeadlock

section Model

/-- A task has registered for the response with the number and waits for it, or will; it has got
nothing yet. -/
structure InFlight (s : ClientState) (task : Task) (sequenceNumber : UInt32) (wait : Nat) :
    Prop where
  waits : ∃ p, s.programs task = some p ∧ WaitsFor sequenceNumber p
  registered : s.session.waits task = some wait
  unanswered : ∃ w, s.session.manager.table.waits wait = some w ∧ w.status = .waiting ∧
    w.sent = none

/-- The number has been registered once more since. -/
def Superseded (s : Session) (wait : Nat) (sequenceNumber : UInt32) : Prop :=
  ∃ later w, wait < later ∧ s.manager.table.waits later = some w ∧ w.key = sequenceNumber

/-- The session when a program has ended, unless it gets stuck. -/
def after {α : Type} (oracle : (c : ClientCall) → Reply c) (task : Task) :
    Action α → Session → Option Session
  | .ret _, s => some s
  | .panic, s => some s
  | .act c next, s =>
      match s.reply task c oracle with
      | some (reply, s') => after oracle task (next reply) s'
      | none => none

/-- What a task gets when it looks for its response. -/
def answer (s : Session) (task : Task) : Option Awaited := do
  let wait ← s.waits task
  let w ← (s.manager.table.take wait).waits wait
  awaited w

/-- When the message has been processed, the task gets the response that it looks for. -/
def Completes (connection : SmscConnection) (s : Session) (task : Task) (message : SMPPMessage)
    (response : Value) : Prop :=
  ∀ oracle, ∃ s', after oracle .connection (processInMessage connection message) s = some s' ∧
    answer s' task = some (.response response)

end Model

section Dispatch

variable {connection : SmscConnection} {message : SMPPMessage} {response : Value}

theorem processInMessage_eq (hdecode : toJson message = .ok response)
    (hresponse : commandIdOf message &&& 0x80000000 ≠ 0) :
    processInMessage connection message =
      if commandIdOf message = CommandId.genericNack.asU32 ∨
          commandIdOf message = CommandId.enquireLinkResp.asU32 then return .ok ()
      else do
        let _ ← perform (.responseReceived (sequenceNumberOf message) response)
        return .ok () := by
  have hlength := length_of_toJson hdecode
  unfold processInMessage
  rw [hdecode, getCommandId_of_length hlength, getSequenceNumber_of_length hlength]
  simp only [Option.getD_some]
  cases hcommand : CommandId.fromU32 (commandIdOf message) with
  | none =>
      rw [if_neg]
      · rfl
      · rintro (hid | hid) <;> simp [hid, CommandId.fromU32_asU32] at hcommand
  | some commandId =>
      have hword := CommandId.asU32_of_fromU32 hcommand
      rw [← hword] at hresponse ⊢
      cases commandId <;> first | rfl | exact absurd rfl hresponse

end Dispatch

section Completion

variable {connection : SmscConnection} {s : ClientState} {task : Task} {n : UInt32} {wait : Nat}

theorem answer_ne_response (session : Session) {w : Wait UInt32 Value}
    (hwait : session.waits task = some wait) (hw : session.manager.table.waits wait = some w)
    (hwaiting : w.status = .waiting) (hsent : w.sent = none) (response : Value) :
    answer session task ≠ some (.response response) := by
  have htaken : (session.manager.table.take wait).waits wait = some w.take :=
    waits_modify_eq_some_iff.mpr ⟨w, hw, (if_pos rfl).symm⟩
  simp only [answer, hwait, htaken, Option.bind_eq_bind, Option.bind_some]
  unfold Wait.take
  rw [if_pos hwaiting, hsent]
  simp only [Option.isSome_none, Bool.false_eq_true, if_false]
  split <;> simp [awaited, hwaiting]

theorem answer_deliver {session : Session} {w : Wait UInt32 Value} {response : Value}
    (hwait : session.waits task = some wait) (hw : session.manager.table.waits wait = some w)
    (hwaiting : w.status = .waiting) (hcallback : session.manager.table.callbacks n = some wait) :
    answer { session with
      manager := { session.manager with table := session.manager.table.deliver n response } } task =
        some (.response response) := by
  have hsent : (session.manager.table.deliver n response).waits wait =
      some { w with sent := some ⟨session.manager.table.deliveries.length, n, response⟩ } := by
    refine waits_deliver_eq_some_iff.mpr ⟨w, hw, ?_⟩
    rw [if_pos hcallback, Wait.accept, if_pos hwaiting]
  have htaken := @waits_modify_eq_some_iff _ _ (session.manager.table.deliver n response) wait wait
    Wait.take _ |>.mpr ⟨_, hsent, (if_pos rfl).symm⟩
  simp only [answer, hwait, Option.bind_eq_bind, Option.bind_some, Table.take, htaken]
  simp [Wait.take, hwaiting, awaited, Wait.outcome]

/-- The callback of a request is called unless the number has been registered once more. -/
theorem callback_iff (hinv : OwnerInv s) (hflight : InFlight s task n wait) :
    s.session.manager.table.callbacks n = some wait ↔ ¬ Superseded s.session wait n := by
  obtain ⟨p, hp, hwaits⟩ := hflight.waits
  obtain ⟨wait', w, hwait', hw, rfl⟩ := hinv.numbers task n p hp hwaits
  obtain rfl := Option.some.inj (hwait'.symm.trans hflight.registered)
  obtain ⟨w', hw', hwaiting, hsent⟩ := hflight.unanswered
  obtain rfl := Option.some.inj (hw.symm.trans hw')
  rw [hinv.attached.callback_iff hw hwaiting hsent]
  simp only [Superseded, not_exists, not_and]

theorem not_completes {session : Session} {w : Wait UInt32 Value} {message : SMPPMessage}
    {response : Value} (hdecode : toJson message = .ok response)
    (hwait : session.waits task = some wait) (hw : session.manager.table.waits wait = some w)
    (hwaiting : w.status = .waiting) (hsent : w.sent = none)
    (hcommand : commandIdOf message = CommandId.genericNack.asU32 ∨
      commandIdOf message = CommandId.enquireLinkResp.asU32) :
    ¬ Completes connection session task message response := by
  intro hcompletes
  obtain ⟨s', hafter, hanswer⟩ := hcompletes willing
  have hresponse : commandIdOf message &&& 0x80000000 ≠ 0 := by
    rcases hcommand with hid | hid <;> rw [hid] <;> decide
  rw [processInMessage_eq hdecode hresponse, if_pos hcommand] at hafter
  obtain rfl := Option.some.inj hafter
  exact answer_ne_response session hwait hw hwaiting hsent response hanswer

/-- A response that is decoded completes the request with its number, exactly when it is neither a
`generic_nack` nor an `enquire_link_resp` and the number has not been registered once more. -/
theorem completes_iff {connection : SmscConnection} {s : ClientState}
    (h : (clientSystem connection).Reachable s) {task : Task} {wait : Nat} {message : SMPPMessage}
    {response : Value} (hdecode : toJson message = .ok response)
    (hresponse : commandIdOf message &&& 0x80000000 ≠ 0)
    (hflight : InFlight s task (sequenceNumberOf message) wait) :
    Completes connection s.session task message response ↔
      commandIdOf message ≠ CommandId.genericNack.asU32 ∧
        commandIdOf message ≠ CommandId.enquireLinkResp.asU32 ∧
          ¬ Superseded s.session wait (sequenceNumberOf message) := by
  have hinv := ownerInv_of_reachable h
  obtain ⟨w, hw, hwaiting, hsent⟩ := hflight.unanswered
  have hwait := hflight.registered
  rw [← callback_iff hinv hflight]
  by_cases hcommand : commandIdOf message = CommandId.genericNack.asU32 ∨
      commandIdOf message = CommandId.enquireLinkResp.asU32
  · refine iff_of_false (not_completes hdecode hwait hw hwaiting hsent hcommand) ?_
    rintro ⟨hnack, henquire, -⟩
    exact hcommand.elim hnack henquire
  · rw [← and_assoc, ← not_or, and_iff_right hcommand, Completes,
      processInMessage_eq hdecode hresponse, if_neg hcommand]
    constructor
    · intro hcompletes
      obtain ⟨s', hafter, hanswer⟩ := hcompletes willing
      obtain rfl := Option.some.inj hafter
      by_contra hother
      revert hanswer
      apply answer_ne_response
      · exact hwait
      · exact waits_deliver_eq_some_iff.mpr ⟨w, hw, (if_neg hother).symm⟩
      · exact hwaiting
      · exact hsent
    · intro hcallback oracle
      exact ⟨_, rfl, answer_deliver hwait hw hwaiting hcallback⟩

theorem inFlight_of_waitedFor {wait : Nat} (hwaited : waitedFor s task = some n)
    (hwait : s.session.waits task = some wait) : InFlight s task n wait := by
  unfold waitedFor at hwaited
  split at hwaited
  · rename_i n' hcall
    simp only [Option.ite_none_right_eq_some, Option.some.injEq] at hwaited
    obtain ⟨hpending, rfl⟩ := hwaited
    obtain ⟨next, hprogram⟩ := pendingCall_eq_some_iff.mp hcall
    rw [pending, hwait, Option.any_some] at hpending
    obtain ⟨w, hw, hpending⟩ := (Option.any_eq_true _ _).mp hpending
    obtain ⟨hwaiting, hsent, -⟩ := pending_eq_true_iff.mp hpending
    exact ⟨⟨_, hprogram, .now⟩, hwait, w, hw, hwaiting, hsent⟩
  · cases hwaited

end Completion

section Example

/-- A `submit_sm` with the number 7 has been sent. -/
def submittedEvents : List ClientEvent := connectEvents ++ bindEvents ++ submitEvents 0

theorem exists_submitted : ∃ s, (clientSystem exampleConnection).Reachable s ∧
    InFlight s (.sender 0) 7 0 := by
  have hrun : ((clientSystem exampleConnection).run submittedEvents).map (fun s =>
      (waitedFor s (.sender 0), s.session.waits (.sender 0))) = some (some 7, some 0) := by
    decide +kernel
  obtain ⟨s, hs, hobserved⟩ := Option.map_eq_some_iff.mp hrun
  obtain ⟨hwaited, hwait⟩ := Prod.mk.inj hobserved
  exact ⟨s, System.reachable_of_run hs, inFlight_of_waitedFor hwaited hwait⟩

theorem completes_submitted : ∃ s, (clientSystem exampleConnection).Reachable s ∧
    InFlight s (.sender 0) (sequenceNumberOf submitSmRespPdu) 0 ∧
      (Completes exampleConnection s.session (.sender 0) submitSmRespPdu
          (decodedValue submitSmRespPdu) ↔
        commandIdOf submitSmRespPdu ≠ CommandId.genericNack.asU32 ∧
          commandIdOf submitSmRespPdu ≠ CommandId.enquireLinkResp.asU32 ∧
            ¬ Superseded s.session 0 (sequenceNumberOf submitSmRespPdu)) := by
  obtain ⟨s, hs, hflight⟩ := exists_submitted
  have hnumber : sequenceNumberOf submitSmRespPdu = 7 := by decide +kernel
  rw [← hnumber] at hflight
  exact ⟨s, hs, hflight, completes_iff hs (toJson_of_isOk (by decide +kernel)) (by decide +kernel)
    hflight⟩

/-- The SMSC refuses the request. -/
def genericNackPdu : SMPPMessage := [0, 0, 0, 16, 0x80, 0, 0, 0, 0, 0, 0, 3, 0, 0, 0, 7]

theorem not_completes_genericNack :
    ¬ ∀ s, (clientSystem exampleConnection).Reachable s → ∀ task wait message response,
      toJson message = .ok response → commandIdOf message &&& 0x80000000 ≠ 0 →
        InFlight s task (sequenceNumberOf message) wait →
          Completes exampleConnection s.session task message response := by
  intro h
  obtain ⟨s, hs, hflight⟩ := exists_submitted
  have hnumber : sequenceNumberOf genericNackPdu = 7 := by decide +kernel
  have hdecode := @toJson_of_isOk genericNackPdu (by decide +kernel)
  rw [← hnumber] at hflight
  obtain ⟨w, hw, hwaiting, hsent⟩ := hflight.unanswered
  apply @not_completes exampleConnection _ _ _ _ _ _ hdecode hflight.registered hw hwaiting hsent
    (.inl (by decide +kernel))
  exact h s hs (.sender 0) 0 genericNackPdu _ hdecode (by decide +kernel) hflight

end Example

end SmppHerald.ResponseDispatch
