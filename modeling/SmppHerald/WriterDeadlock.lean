import SmppHerald.WriterLock

/-!
The writer stays locked while a response is waited for, and the connection loop, which alone can
receive the response, locks the writer too. When it waits behind such a sender, nobody goes on until
the response timer has elapsed.
-/

namespace SmppHerald.WriterDeadlock

open SmppHerald.Buffer
open SmppHerald.ClientConnection
open SmppHerald.ClientRun
open SmppHerald.CommandIds
open SmppHerald.FairLock
open SmppHerald.Interaction
open SmppHerald.Io
open SmppHerald.Json
open SmppHerald.Message
open SmppHerald.ResponseManagers
open SmppHerald.TransitionSystem
open SmppHerald.WriterLock

section Model

/-- The response that a task has registered for has not been received, and it may still be. -/
def pending (s : ClientState) (task : Task) : Bool :=
  (s.session.waits task).any s.session.manager.table.pending

/-- The number of the response that a task waits for. -/
def waitedFor (s : ClientState) (task : Task) : Option UInt32 :=
  match s.pendingCall task with
  | some (.awaitResponse sequenceNumber) =>
      if pending s task = true then some sequenceNumber else none
  | _ => none

/-- The PDUs that have arrived on the connection and that the loop has not processed. -/
def unprocessed (s : ClientState) : List SMPPMessage :=
  match s.mode with
  | .processing messages => messages ++ s.session.incoming
  | _ => s.session.incoming

def respondsWith (sequenceNumber : UInt32) (pdu : SMPPMessage) : Bool :=
  decide (getSequenceNumber pdu = some sequenceNumber) &&
    ((getCommandId pdu).bind CommandId.fromU32).any CommandId.isResponse

/-- The connection loop waits for the writer, and whoever has it waits for a response that has
arrived. -/
def deadlocked (s : ClientState) : Bool :=
  decide (Task.connection ∈ s.session.lock.queue) &&
    s.session.lock.holder.any fun holder =>
      (waitedFor s holder).any fun sequenceNumber =>
        (unprocessed s).any (respondsWith sequenceNumber)

/-- A task that has the writer, or has asked for it, waits for a response or will. -/
def awaits (s : ClientState) : Task → Bool
  | .connection => false
  | .sender i =>
      match s.pendingCall (.sender i) with
      | some .unlockWriter => false
      | _ => awaitsResponse (s.messages i) && pending s (.sender i)

/-- When the connection loop asks for the writer, and there is one, nobody who waits for a response
or will has it or has asked for it. -/
def unhindered (s : ClientState) : ClientEvent → Bool
  | .ask .connection => s.session.writer.isNone ||
      (s.session.lock.holder.toList ++ s.session.lock.queue).all fun task => !awaits s task
  | _ => true

end Model

section Invariant

variable {connection : SmscConnection} {s s' : ClientState}

/-- The program does not wait for a response. -/
def NoWait (p : Program) : Prop := Calls (fun c => ∀ n, c ≠ .awaitResponse n) p

theorem noWait_of_released {message : SMPPMessage} {p : Program}
    (h : Sends message .released p) : NoWait p := by
  unfold Sends at h
  refine h.calls (fun stage => stage = .released) ?_ rfl
  rintro stage c rfl hallows
  cases c <;> simp_all [sendProtocol]

theorem noWait_of_unasked {message : SMPPMessage} {stage : Stage} {p : Program}
    (hmessage : awaitsResponse message = false) (h : Sends message stage p) : NoWait p := by
  unfold Sends at h
  refine h.calls (fun _ => True) ?_ trivial
  intro stage c _ hallows
  refine ⟨?_, fun _ => trivial⟩
  rintro n rfl
  simp [hallows.2] at hmessage

/-- The response that a task has registered for has been received, or it will never be. -/
def Decided (s : Session) (t : Task) : Prop :=
  ∀ wait, s.waits t = some wait → s.manager.table.pending wait = false

/-- The sender does not wait for a response any more. -/
def Settled (s : ClientState) (i : Nat) : Prop :=
  ∀ p, s.programs (.sender i) = some p → NoWait p ∨ Decided s.session (.sender i)

theorem Decided.mono {s s' : Session} {t : Task} (h : Decided s t) (hwaits : s'.waits t = s.waits t)
    (hbound : ∀ wait, s.waits t = some wait → wait < s.manager.table.size)
    (hpending : ∀ wait, wait < s.manager.table.size → s'.manager.table.pending wait = true →
      s.manager.table.pending wait = true) : Decided s' t := by
  intro wait hwait
  rw [hwaits] at hwait
  by_contra hagain
  rw [Bool.not_eq_false] at hagain
  have hbefore := hpending wait (hbound wait hwait) hagain
  rw [h wait hwait] at hbefore
  simp at hbefore

/-- Nobody who waits for a response gets the writer before the connection loop does. -/
structure DeliveryInv (s : ClientState) : Prop where
  sends : SendInv s
  ahead : .connection ∈ s.session.lock.queue → s.session.writer.isSome = true →
    ∀ i, .sender i ∈ s.session.lock.ahead .connection → Settled s i

theorem DeliveryInv.not_deadlocked (h : DeliveryInv s) : deadlocked s = false := by
  by_contra hdeadlocked
  simp only [deadlocked, Bool.not_eq_false, Bool.and_eq_true, decide_eq_true_eq,
    Option.any_eq_true] at hdeadlocked
  obtain ⟨hqueue, t, hholder, n, hwaited, -⟩ := hdeadlocked
  have hahead : t ∈ s.session.lock.ahead .connection := by
    rw [Mutex.ahead, hholder]
    exact List.mem_append_left _ (List.mem_singleton_self t)
  unfold waitedFor at hwaited
  split at hwaited
  · rename_i n' hcall
    simp only [Option.ite_none_right_eq_some] at hwaited
    obtain ⟨wait, hwait, hpending⟩ := (Option.any_eq_true _ _).mp hwaited.1
    cases t with
    | connection =>
        have hat := h.sends.lock.queued _ hqueue
        simp [hcall] at hat
    | sender i =>
        obtain ⟨next, hprogram⟩ := pendingCall_eq_some_iff.mp hcall
        obtain ⟨stage, -, hwriter, hsends⟩ := h.sends.sending i _ hprogram
        have hstage : stage = .locked true := (sends_act.mp hsends).1.1
        rcases h.ahead hqueue (hwriter hstage) i hahead _ hprogram with hnone | hdecided
        · exact absurd rfl (hnone.1 n')
        · rw [hdecided wait hwait] at hpending
          simp at hpending
  · simp at hwaited

theorem settled_of_not_awaits (h : DeliveryInv s) {i : Nat} (hawaits : awaits s (.sender i) = false) :
    Settled s i := by
  intro p hprogram
  obtain ⟨stage, -, -, hsends⟩ := h.sends.sending i p hprogram
  simp only [awaits] at hawaits
  split at hawaits
  · rename_i hcall
    obtain ⟨next, hact⟩ := pendingCall_eq_some_iff.mp hcall
    obtain rfl := Option.some.inj (hprogram.symm.trans hact)
    exact .inl ⟨by simp, fun reply => noWait_of_released ((sends_act.mp hsends).2 reply)⟩
  · rcases Bool.and_eq_false_iff.mp hawaits with hmessage | hdecided
    · exact .inl (noWait_of_unasked hmessage hsends)
    · refine .inr fun wait hwait => ?_
      simpa [pending, hwait] using hdecided

theorem DeliveryInv.loop (h : DeliveryInv s) (hmoves : LoopMoves s s') (hinv : SendInv s') :
    DeliveryInv s' := by
  have hsettled : ∀ i, Settled s i → Settled s' i := by
    intro i hsettled p hp
    rw [hmoves.senders] at hp
    rw [hmoves.session]
    exact hsettled p hp
  refine ⟨hinv, ?_⟩
  rw [hmoves.session]
  exact fun hqueue hwriter i hi => hsettled i (h.ahead hqueue hwriter i hi)

theorem DeliveryInv.beside (h : DeliveryInv s) (incoming : List SMPPMessage) {manager : ManagerState}
    (hsize : s.session.manager.table.size ≤ manager.table.size)
    (hpending : ∀ wait, wait < s.session.manager.table.size → manager.table.pending wait = true →
      s.session.manager.table.pending wait = true) :
    DeliveryInv { s with
      session := { s.session with incoming := incoming, manager := manager } } := by
  refine ⟨h.sends.beside incoming hsize, ?_⟩
  intro hqueue hwriter i hi p hp
  exact (h.ahead hqueue hwriter i hi p hp).imp_right fun hdecided =>
    hdecided.mono rfl (h.sends.registered _) hpending

theorem DeliveryInv.assign (h : DeliveryInv s) {i : Nat} (hresting : Resting s (.sender i))
    {p : Option Program} {messages : Nat → SMPPMessage}
    (hinv : SendInv { s with
      programs := Function.update s.programs (.sender i) p
      messages := messages }) :
    DeliveryInv { s with
      programs := Function.update s.programs (.sender i) p
      messages := messages } := by
  refine ⟨hinv, ?_⟩
  intro hqueue hwriter j hj q hq
  have hne : Task.sender j ≠ .sender i := by
    intro hj'
    rw [hj'] at hj
    rcases List.mem_append.mp hj with hhas | hbefore
    · exact h.sends.lock.notHolder hresting (Option.mem_toList.mp hhas)
    · exact h.sends.lock.notMem_queue hresting ((List.takeWhile_sublist _).subset hbefore)
  simp only [Function.update_of_ne hne] at hq
  exact h.ahead hqueue hwriter j hj q hq

theorem DeliveryInv.ask (h : DeliveryInv s) {t : Task} {lock : Mutex Task}
    (hlock : s.session.lock.ask t = some lock) (hguard : unhindered s (.ask t) = true)
    (hinv : SendInv { s with session := { s.session with lock := lock } }) :
    DeliveryInv { s with session := { s.session with lock := lock } } := by
  refine ⟨hinv, fun hqueue hwriter i hi => ?_⟩
  cases t with
  | connection =>
      simp only [Mutex.ahead_ask_self hlock] at hi
      rcases Bool.or_eq_true_iff.mp hguard with hnone | hall
      · simp only [Option.isNone_iff_eq_none] at hnone
        simp [hnone] at hwriter
      · have hnot := List.all_eq_true.mp hall _ hi
        exact settled_of_not_awaits h (by simpa using hnot)
  | sender j =>
      have hqueued : Task.connection ∈ s.session.lock.queue := by
        obtain ⟨-, rfl⟩ := Mutex.ask_eq_some_iff.mp hlock
        simpa using hqueue
      simp only [Mutex.ahead_ask hqueued hlock] at hi
      exact h.ahead hqueued hwriter i hi

theorem DeliveryInv.notMem_ahead (h : DeliveryInv s) {i : Nat} {n : UInt32}
    {next : Reply (.registerCallback n) → Program}
    (hprogram : s.programs (.sender i) = some (.act (.registerCallback n) next)) :
    .sender i ∉ s.session.lock.ahead .connection := by
  intro hahead
  obtain ⟨stage, hheld, -, hsends⟩ := h.sends.sending i _ hprogram
  rw [(sends_act.mp hsends).1] at hheld
  rcases List.mem_append.mp hahead with hhas | hwaiting
  · rw [Option.mem_toList] at hhas
    simp [Stage.held, hhas] at hheld
  · have hat := h.sends.lock.queued _ ((List.takeWhile_sublist _).subset hwaiting)
    simp [ClientState.pendingCall, hprogram] at hat

theorem DeliveryInv.replied (h : DeliveryInv s) {t : Task} {c : ClientCall}
    {next : Reply c → Program} {oracle : (c : ClientCall) → Reply c} {reply : Reply c}
    {session : Session} (hprogram : s.programs t = some (.act c next))
    (hreply : s.session.reply t c oracle = some (reply, session)) :
    DeliveryInv { s with
      session := session
      programs := Function.update s.programs t (some (next reply)) } := by
  have hchange := h.sends.lock.lockChange hprogram hreply
  have honward := onward_of_reply (sessionMoves_of_reply hreply)
  refine ⟨h.sends.replied hprogram hreply, ?_⟩
  intro hqueue hwriter i hi p hp
  have hne : Task.connection ≠ t := by
    rintro rfl
    exact hchange.notMem hqueue
  have hqueued : Task.connection ∈ s.session.lock.queue := hchange.sublist.subset hqueue
  have hbefore : Task.sender i ∈ s.session.lock.ahead .connection := by
    rcases lock_of_reply hreply with ⟨-, hgrant⟩ | ⟨-, hrelease⟩ | ⟨-, -, hsame⟩
    · rwa [Mutex.ahead_grant hne hgrant] at hi
    · exact Mutex.mem_ahead_of_release hrelease hi
    · rwa [hsame] at hi
  -- the loop waits and does not replace the writer
  have hreplace : c ≠ .replaceWriter := fun hc =>
    hne (h.sends.eq_connection hprogram (.inr (.inl hc))).symm
  rw [honward.writer hreplace] at hwriter
  have hsettled := h.ahead hqueued hwriter i hbefore
  by_cases ht : Task.sender i = t
  · subst ht
    simp only [Function.update_self, Option.some.injEq] at hp
    have hregister : ∀ n, c ≠ .registerCallback n := by
      rintro n rfl
      exact h.notMem_ahead hprogram hbefore
    rw [← hp]
    exact (hsettled _ hprogram).imp (fun hnone => hnone.2 reply) fun hdecided =>
      hdecided.mono (honward.waits _ (.inr hregister)) (h.sends.registered _) honward.pending
  · simp only [Function.update_of_ne ht] at hp
    exact (hsettled p hp).imp_right fun hdecided =>
      hdecided.mono (honward.waits _ (.inl ht)) (h.sends.registered _) honward.pending

/-- A sender that is dropped lets no other one ahead of the connection loop. -/
theorem DeliveryInv.dropped (h : DeliveryInv s) {i written : Nat} {c : ClientCall} :
    DeliveryInv { s with
      session := s.session.drop (.sender i) written c
      programs := Function.update s.programs (.sender i) none } := by
  have hkeeps := dropKeeps s.session (.sender i) written c
  refine ⟨h.sends.dropped, fun hqueue hwriter j hj p hp => ?_⟩
  simp only [hkeeps.lock, hkeeps.writer] at hqueue hwriter hj
  obtain ⟨hbefore, hne⟩ := Mutex.mem_ahead_of_leave (by simp) hj
  simp only [Function.update_of_ne hne] at hp
  refine (h.ahead (Mutex.mem_queue_leave.mp hqueue).1 hwriter j hbefore p hp).imp_right ?_
  unfold Decided
  rw [hkeeps.waits, hkeeps.manager]
  exact id

theorem DeliveryInv.step (h : DeliveryInv s) {e : ClientEvent} (hguard : unhindered s e = true)
    (hstep : s.step connection e = some s') : DeliveryInv s' := by
  have hinv : SendInv s' := h.sends.step hstep
  cases clientMoves_of_step hstep with
  | attempt => exact h.loop (loopMoves_start s _ _) hinv
  | arrived => exact h.beside _ (Nat.le_refl _) fun _ _ => id
  | polled hmanager =>
      have hmove := tableMove_of_step hmanager
      exact h.beside s.session.incoming hmove.size_le fun _ => hmove.pending
  | @read count =>
      have hread := h.beside (s.session.incoming.drop count) (Nat.le_refl _) fun _ _ => id
      exact hread.loop (loopMoves_process _ _) hinv
  | tick => exact h.loop (loopMoves_start s _ _) hinv
  | leave => exact h.loop (loopMoves_stop s _) hinv
  | send hnone => exact h.assign (.inl hnone) hinv
  | ask _ hlock => exact h.ask hlock hguard hinv
  | replied hprogram hreply => exact h.replied hprogram hreply
  | finished _ hfinish => exact h.loop (loopMoves_finish hfinish) hinv
  | ended hret => exact h.assign (.inr ⟨_, hret⟩) hinv
  | dropped => exact h.dropped

/-- While the connection loop asks for the writer only when nobody who waits for a response or will
has it or has asked for it, a response that has arrived is never kept from the task that waits for
it. -/
theorem never_deadlocked
    (h : (clientSystem connection).Reaches (fun s e => unhindered s e = true) s) :
    deadlocked s = false := by
  have hinv : DeliveryInv s := by
    refine h.invariant ?_ fun _ _ _ hinv hguard hstep => hinv.step hguard hstep
    exact ⟨sendInv_initial, by simp [clientSystem, ClientState.new, Session.new, Mutex.free]⟩
  exact hinv.not_deadlocked

end Invariant

section Example

/-- The response comes after an enquire_link, which the loop answers first. -/
def enquiredEvents : List ClientEvent :=
  connectEvents ++ bindEvents ++ submitEvents 0 ++
    [.arrived enquireLinkPdu, .arrived submitSmRespPdu, .read 2, .ask .connection]

/-- The loop asks for the writer to answer an enquire_link before a sender does, and the response
comes when the sender has it. -/
def answeredEvents : List ClientEvent :=
  connectEvents ++ bindEvents ++ [.arrived enquireLinkPdu, .read 1, .ask .connection] ++
    .send 0 submitSmPdu :: replies 1 (.sender 0) ++ .ask (.sender 0) ::
      replies 3 .connection ++ .ended .connection :: replies 2 (.sender 0) ++
        [.arrived submitSmRespPdu]

theorem never_deadlocked_answered :
    ∃ s, (clientSystem exampleConnection).runAllowed unhindered answeredEvents = some s ∧
      s.session.lock.holder = some (.sender 0) ∧ waitedFor s (.sender 0) = some 7 ∧
        deadlocked s = false := by
  have hrun : ((clientSystem exampleConnection).runAllowed unhindered answeredEvents).map
      (fun s => (s.session.lock.holder, waitedFor s (.sender 0))) =
        some (some (.sender 0), some 7) := by decide +kernel
  obtain ⟨s, hs, hobserved⟩ := Option.map_eq_some_iff.mp hrun
  obtain ⟨hholder, hwaited⟩ := Prod.mk.inj hobserved
  exact ⟨s, hs, hholder, hwaited, never_deadlocked (System.reaches_of_runAllowed hs)⟩

/-- The loop waits for a sender, and the sender for the response that the loop has read. -/
theorem deadlocked_enquired :
    ∃ s, (clientSystem exampleConnection).Reachable s ∧ deadlocked s = true := by
  have hrun : ((clientSystem exampleConnection).run enquiredEvents).map deadlocked = some true := by
    decide +kernel
  obtain ⟨s, hs, hdeadlocked⟩ := Option.map_eq_some_iff.mp hrun
  exact ⟨s, System.reachable_of_run hs, hdeadlocked⟩

end Example

end SmppHerald.WriterDeadlock
