import SmppHerald.ClientRun

namespace SmppHerald.WriterLock

open SmppHerald.Buffer
open SmppHerald.ClientConnection
open SmppHerald.ClientRun
open SmppHerald.FairLock
open SmppHerald.Interaction
open SmppHerald.Io
open SmppHerald.Json
open SmppHerald.Message
open SmppHerald.ResponseManagers
open SmppHerald.TransitionSystem

section Composing

def aside : ClientCall → Bool
  | .getReceiptUrl _ _ | .spawnReceipt _ _ | .handleMessage _ | .responseReceived _ _
  | .nextSequenceNumber => true
  | _ => false

/-- What holds of programs that are put together from calls that have to do with neither the writer
nor the socket, and from messages that are sent. -/
structure Composed (P : (α : Type) → Action α → Prop) : Prop where
  ret : ∀ {α : Type} (value : α), P α (.ret value)
  panic : ∀ {α : Type}, P α .panic
  bind : ∀ {α β : Type} {p : Action α} {f : α → Action β},
    P α p → (∀ value, P β (f value)) → P β (p >>= f)
  call : ∀ c, aside c = true → P (Reply c) (perform c)
  send : ∀ message, P (Except IoError (Option Value)) (sendMessage message)

variable {P : (α : Type) → Action α → Prop} {connection : SmscConnection}

theorem Composed.sent (h : Composed P) (message : SMPPMessage) :
    P (Except IoError Unit) (do
      match ← sendMessage message with
      | .ok _ => return .ok ()
      | .error e => return .error e) := by
  refine h.bind (h.send message) fun result => ?_
  cases result <;> exact h.ret _

theorem Composed.processEnquireLink (h : Composed P) (message : SMPPMessage) :
    P (Except IoError Unit) (processEnquireLink connection message) := by
  unfold ClientConnection.processEnquireLink
  split
  · exact h.panic
  · exact h.ret _
  · exact h.sent _

theorem Composed.handleDeliverSm (h : Composed P) (message : SMPPMessage) (decodedMessage : Value) :
    P (Except IoError Unit) (handleDeliverSm connection message decodedMessage) := by
  have hfind : P (Option String) (findReceiptUrl decodedMessage) := by
    unfold findReceiptUrl
    simp only
    split
    · exact h.call (.getReceiptUrl _ _) rfl
    · exact h.ret _
  refine h.bind hfind fun receiptUrl => ?_
  cases receiptUrl with
  | some receiptUrl => exact h.bind (h.call (.spawnReceipt receiptUrl _) rfl) fun _ => h.ret _
  | none =>
      refine h.bind (h.call (.handleMessage decodedMessage) rfl) fun handled => ?_
      unfold sendDeliverSmResp
      split
      · exact h.panic
      · exact h.ret _
      · exact h.sent _

theorem Composed.processInMessage (h : Composed P) (message : SMPPMessage) :
    P (Except IoError Unit) (processInMessage connection message) := by
  unfold ClientConnection.processInMessage
  simp only
  split
  · exact h.ret _
  · split
    · exact h.processEnquireLink message
    · exact h.ret _
    · exact h.handleDeliverSm message _
    · exact h.handleDeliverSm message _
    · exact h.ret _
    · exact h.ret _
    · split
      · exact h.bind (h.call (.responseReceived _ _) rfl) fun _ => h.ret _
      · exact h.ret _

theorem Composed.sendEnquireLink (h : Composed P) :
    P (Except IoError Unit) (sendEnquireLink connection) := by
  refine h.bind (h.call .nextSequenceNumber rfl) fun sequenceNumber => ?_
  split
  · exact h.panic
  · exact h.sent _

end Composing

section Locking

/-- The writer is locked before it is used, and unlocked afterwards. -/
def lockProtocol : Protocol ClientCall Reply Bool where
  allows held
    | .lockWriter => held = false
    | .unlockWriter => held = true
    | .writeAll _ => held = true
    | .replaceWriter => held = true
    | _ => True
  next held
    | .lockWriter, _ => true
    | .unlockWriter, _ => false
    | _, _ => held

/-- A program that has not locked the writer, and has not when it ends. -/
def Unlocked {α : Type} (p : Action α) : Prop :=
  Conforms lockProtocol (fun held _ => held = false) false p

variable {connection : SmscConnection} {α β : Type}

theorem Unlocked.bind {p : Action α} {f : α → Action β} (hp : Unlocked p)
    (hf : ∀ value, Unlocked (f value)) : Unlocked (p >>= f) := by
  refine conforms_bind.mpr (Conforms.mono ?_ hp)
  rintro _ value rfl
  cases value with
  | none => rfl
  | some value => exact hf value

theorem locked_sendLocked (message : SMPPMessage) :
    Conforms lockProtocol (fun held value => held = true ∧ value ≠ none) true
      (sendLocked message) := by
  refine ⟨rfl, fun written => ?_⟩
  cases written with
  | error e => exact ⟨rfl, Option.some_ne_none _⟩
  | ok =>
      change Conforms lockProtocol _ true (ite _ _ _)
      split
      · refine ⟨trivial, fun result => ?_⟩
        cases result <;> exact ⟨rfl, Option.some_ne_none _⟩
      · exact ⟨rfl, Option.some_ne_none _⟩

theorem locked_bind {p : Action α} {f : α → Action β}
    (hp : Conforms lockProtocol (fun held value => held = true ∧ value ≠ none) true p)
    (hf : ∀ value, Conforms lockProtocol (fun held _ => held = false) true (f value)) :
    Conforms lockProtocol (fun held _ => held = false) true (p >>= f) := by
  refine conforms_bind.mpr (hp.mono ?_)
  rintro held value ⟨rfl, hvalue⟩
  cases value with
  | none => exact absurd rfl hvalue
  | some value => exact hf value

theorem unlocked_sendMessage (message : SMPPMessage) : Unlocked (sendMessage message) := by
  have hlocked : ∀ connected : Bool, Conforms lockProtocol (fun held _ => held = false) true
      (sendAndUnlock message connected) := by
    intro connected
    cases connected with
    | true => exact locked_bind (locked_sendLocked message) fun _ => ⟨rfl, fun _ => rfl⟩
    | false => exact ⟨rfl, fun _ => rfl⟩
  rw [sendMessage_eq]
  split
  · exact ⟨trivial, fun _ => ⟨rfl, hlocked⟩⟩
  · exact ⟨rfl, hlocked⟩

theorem composed_unlocked : Composed fun _ p => Unlocked p where
  ret _ := rfl
  panic := rfl
  bind hp hf := hp.bind hf
  call c hc := by
    cases c <;> first | exact ⟨trivial, fun _ => rfl⟩ | simp [aside] at hc
  send := unlocked_sendMessage

theorem unlocked_sendBindMessage : Unlocked (sendBindMessage connection) := by
  refine ⟨trivial, fun sequenceNumber => ⟨rfl, fun connected => ?_⟩⟩
  change Conforms lockProtocol _ true (ite _ _ _)
  split
  · exact ⟨rfl, fun _ => ⟨rfl, fun _ => rfl⟩⟩
  · exact ⟨rfl, fun _ => rfl⟩

theorem unlocked_doBind : Unlocked (doBind connection) := by
  refine unlocked_sendBindMessage.bind fun sent => ?_
  cases sent with
  | error e => rfl
  | ok => exact ⟨trivial, fun _ => rfl⟩

theorem unlocked_establish (alarmActive : Bool) : Unlocked (establish connection alarmActive) := by
  refine ⟨trivial, fun connected => ?_⟩
  cases connected with
  | error e => rfl
  | ok =>
      refine ⟨rfl, fun _ => ⟨rfl, fun _ => ⟨rfl, fun _ => ?_⟩⟩⟩
      change Unlocked (doBind connection >>= _)
      refine unlocked_doBind.bind fun bound => ?_
      cases bound with
      | error e => rfl
      | ok =>
          refine ⟨trivial, fun _ => ?_⟩
          change Unlocked (ite _ _ _)
          split
          · exact ⟨trivial, fun _ => rfl⟩
          · rfl

-- from here on it is enough that programs are unlocked, and they are not run any more
attribute [irreducible] Unlocked

/-- How the writer is locked in every state. -/
structure LockInv (s : ClientState) : Prop where
  idle : s.mode = .disconnected ∨ s.mode = .selecting → s.programs .connection = none
  nodup : s.session.lock.queue.Nodup
  queued : ∀ t ∈ s.session.lock.queue, s.pendingCall t = some .lockWriter
  holder : ∀ t, s.session.lock.holder = some t → (s.programs t).isSome = true
  disciplined : ∀ t p, s.programs t = some p → Conforms lockProtocol (fun held _ => held = false)
    (decide (s.session.lock.holder = some t)) p

variable {s s' : ClientState} {t : Task}

/-- A task without a program, or with one that has returned. -/
def Resting (s : ClientState) (t : Task) : Prop :=
  s.programs t = none ∨ ∃ result, s.programs t = some (.ret result)

theorem LockInv.notMem_queue (h : LockInv s) (hresting : Resting s t) :
    t ∉ s.session.lock.queue := by
  intro ht
  obtain ⟨next, hprogram⟩ := pendingCall_eq_some_iff.mp (h.queued t ht)
  rcases hresting with hnone | ⟨result, hret⟩
  · simp [hnone] at hprogram
  · simp [hret] at hprogram

theorem LockInv.notHolder (h : LockInv s) (hresting : Resting s t) :
    s.session.lock.holder ≠ some t := by
  intro ht
  rcases hresting with hnone | ⟨result, hret⟩
  · have hsome := h.holder t ht
    simp [hnone] at hsome
  · have hreleased := h.disciplined t _ hret
    simp [ht] at hreleased

theorem pendingCall_update_of_ne {programs : Task → Option Program} {u : Task} (hu : u ≠ t)
    {session : Session} {mode : Mode} {messages : Nat → SMPPMessage} (p : Option Program) :
    (⟨session, mode, Function.update programs t p, messages⟩ : ClientState).pendingCall u =
      (⟨session, mode, programs, messages⟩ : ClientState).pendingCall u := by
  simp only [ClientState.pendingCall, Function.update_of_ne hu]

theorem LockInv.assign (h : LockInv s) (hresting : Resting s t) {mode : Mode}
    {messages : Nat → SMPPMessage} {p : Option Program} (hp : ∀ q, p = some q → Unlocked q)
    (hmode : mode = .disconnected ∨ mode = .selecting →
      Function.update s.programs t p .connection = none) :
    LockInv ⟨s.session, mode, Function.update s.programs t p, messages⟩ := by
  have hqueue := h.notMem_queue hresting
  have hholder := h.notHolder hresting
  unfold Unlocked at hp
  refine ⟨hmode, h.nodup, ?_, ?_, ?_⟩
  · intro u hu
    have hne : u ≠ t := by
      rintro rfl
      exact hqueue hu
    rw [pendingCall_update_of_ne hne]
    exact h.queued u hu
  · intro u hu
    have hne : u ≠ t := by
      rintro rfl
      exact hholder hu
    simp only [Function.update_of_ne hne]
    exact h.holder u hu
  · intro u q hq
    by_cases hu : u = t
    · subst hu
      simp only [Function.update_self] at hq
      simp only [hholder, decide_false]
      exact hp q hq
    · simp only [Function.update_of_ne hu] at hq
      exact h.disciplined u q hq

theorem LockInv.ask (h : LockInv s) {lock : Mutex Task}
    (hcall : s.pendingCall t = some .lockWriter) (hlock : s.session.lock.ask t = some lock) :
    LockInv { s with session := { s.session with lock := lock } } := by
  obtain ⟨hnotMem, rfl⟩ := Mutex.ask_eq_some_iff.mp hlock
  refine ⟨h.idle, ?_, ?_, h.holder, h.disciplined⟩
  · exact List.nodup_append.mpr ⟨h.nodup, List.nodup_singleton t, by
      rintro u hu _ ht rfl
      exact hnotMem (List.mem_singleton.mp ht ▸ hu)⟩
  · intro u hu
    rcases List.mem_append.mp hu with hu | hu
    · exact h.queued u hu
    · obtain rfl := List.mem_singleton.mp hu
      exact hcall

/-- What a reply to a task does to the lock. -/
structure LockChange (t : Task) (c : ClientCall) (reply : Reply c) (m m' : Mutex Task) : Prop where
  sublist : m'.queue.Sublist m.queue
  notMem : t ∉ m'.queue
  held : decide (m'.holder = some t) = lockProtocol.next (decide (m.holder = some t)) c reply
  other : ∀ u, u ≠ t → (m'.holder = some u ↔ m.holder = some u)

theorem LockInv.lockChange (h : LockInv s) {c : ClientCall} {next : Reply c → Program}
    {oracle : (c : ClientCall) → Reply c} {reply : Reply c} {session : Session}
    (hprogram : s.programs t = some (.act c next))
    (hreply : s.session.reply t c oracle = some (reply, session)) :
    LockChange t c reply s.session.lock session.lock := by
  have hcall : s.pendingCall t = some c := pendingCall_eq_some_iff.mpr ⟨next, hprogram⟩
  rcases lock_of_reply hreply with ⟨rfl, hgrant⟩ | ⟨rfl, hrelease⟩ | ⟨hlock, hunlock, hsame⟩
  · obtain ⟨hholder, rest, hqueue, hgranted⟩ := Mutex.grant_eq_some_iff.mp hgrant
    have hnodup := h.nodup
    rw [hqueue, List.nodup_cons] at hnodup
    rw [hgranted]
    refine ⟨?_, hnodup.1, by simp [lockProtocol], fun u hu => ?_⟩
    · rw [hqueue]
      exact List.sublist_cons_self t rest
    · simp [hholder, hu.symm]
  · obtain ⟨hholder, hreleased⟩ := Mutex.release_eq_some_iff.mp hrelease
    rw [hreleased]
    refine ⟨.refl _, fun ht => ?_, by simp [lockProtocol], fun u hu => ?_⟩
    · have hat := h.queued t ht
      simp [hcall] at hat
    · simp [hholder, hu.symm]
  · rw [hsame]
    refine ⟨.refl _, fun ht => ?_, ?_, fun u _ => Iff.rfl⟩
    · have hat := h.queued t ht
      exact hlock (Option.some.inj (hcall.symm.trans hat))
    · cases c <;> first | rfl | exact absurd rfl hlock | exact absurd rfl hunlock

theorem LockInv.replied (h : LockInv s) {c : ClientCall} {next : Reply c → Program}
    {oracle : (c : ClientCall) → Reply c} {reply : Reply c} {session : Session}
    (hprogram : s.programs t = some (.act c next))
    (hreply : s.session.reply t c oracle = some (reply, session)) :
    LockInv { s with
      session := session
      programs := Function.update s.programs t (some (next reply)) } := by
  obtain ⟨-, hnext⟩ := h.disciplined t _ hprogram
  have hchange := h.lockChange hprogram hreply
  refine ⟨?_, hchange.sublist.nodup h.nodup, ?_, ?_, ?_⟩
  · intro hmode
    have hnone := h.idle hmode
    have hne : Task.connection ≠ t := by
      rintro rfl
      simp [hnone] at hprogram
    simp only [Function.update_of_ne hne, hnone]
  · intro u hu
    have hne : u ≠ t := by
      rintro rfl
      exact hchange.notMem hu
    rw [pendingCall_update_of_ne hne]
    exact h.queued u (hchange.sublist.subset hu)
  · intro u hu
    by_cases hne : u = t
    · simp [hne]
    · simp only [Function.update_of_ne hne]
      exact h.holder u ((hchange.other u hne).mp hu)
  · intro u q hq
    by_cases hne : u = t
    · subst hne
      simp only [Function.update_self, Option.some.injEq] at hq
      rw [← hq, hchange.held]
      exact hnext reply
    · simp only [Function.update_of_ne hne] at hq
      have hdisciplined := h.disciplined u q hq
      rwa [decide_eq_decide.mpr (hchange.other u hne)]

theorem LockInv.start (h : LockInv s) (hresting : Resting s .connection) {mode : Mode}
    (hmode : ¬ (mode = .disconnected ∨ mode = .selecting)) {program : Action (Except IoError Unit)}
    (hprogram : Unlocked program) : LockInv (s.start mode program) := by
  apply h.assign hresting
  · intro q hq
    obtain rfl := Option.some.inj hq
    unfold Unlocked at hprogram ⊢
    exact conforms_map.mpr hprogram
  · exact fun hidle => absurd hidle hmode

theorem LockInv.stop (h : LockInv s) (hresting : Resting s .connection) (mode : Mode) :
    LockInv (s.stop mode) :=
  h.assign hresting (by simp) fun _ => Function.update_self ..

theorem LockInv.process (h : LockInv s) (hresting : Resting s .connection)
    (messages : List SMPPMessage) : LockInv (s.process connection messages) := by
  cases messages with
  | nil => exact h.stop hresting .selecting
  | cons message messages =>
      exact h.start hresting (by simp) (composed_unlocked.processInMessage message)

theorem LockInv.finish (h : LockInv s) {result : Except IoError (Option Value)}
    (hret : s.programs .connection = some (.ret result))
    (hfinish : s.finish connection result = some s') : LockInv s' := by
  have hresting : Resting s .connection := .inr ⟨result, hret⟩
  unfold ClientState.finish at hfinish
  split at hfinish
  · obtain rfl := Option.some.inj hfinish
    exact h.stop hresting _
  · obtain rfl := Option.some.inj hfinish
    exact h.stop hresting _
  · obtain rfl := Option.some.inj hfinish
    exact h.process hresting _
  · obtain rfl := Option.some.inj hfinish
    exact h.stop hresting _
  · obtain rfl := Option.some.inj hfinish
    exact h.stop hresting _
  · simp at hfinish

theorem LockInv.beside (h : LockInv s) (incoming : List SMPPMessage) (manager : ManagerState) :
    LockInv { s with session := { s.session with incoming := incoming, manager := manager } } :=
  ⟨h.idle, h.nodup, h.queued, h.holder, h.disciplined⟩

theorem LockInv.dropped (h : LockInv s) {i written : Nat} {c : ClientCall} :
    LockInv { s with
      session := s.session.drop (.sender i) written c
      programs := Function.update s.programs (.sender i) none } := by
  have hkeeps := dropKeeps s.session (.sender i) written c
  refine ⟨fun hmode => ?_, ?_, ?_, ?_, ?_⟩
  · have hne : Task.connection ≠ .sender i := by simp
    simp only [Function.update_of_ne hne]
    exact h.idle hmode
  · rw [hkeeps.lock]
    exact h.nodup.filter _
  · intro u hu
    rw [hkeeps.lock, Mutex.mem_queue_leave] at hu
    rw [pendingCall_update_of_ne hu.2]
    exact h.queued u hu.1
  · intro u hu
    rw [hkeeps.lock, Mutex.holder_leave] at hu
    simp only [Function.update_of_ne hu.2]
    exact h.holder u hu.1
  · intro u p hp
    have hne : u ≠ .sender i := by
      rintro rfl
      simp at hp
    simp only [Function.update_of_ne hne] at hp
    have hsame : (s.session.lock.leave (.sender i)).holder = some u ↔
        s.session.lock.holder = some u := by
      rw [Mutex.holder_leave]
      exact and_iff_left hne
    rw [hkeeps.lock, decide_eq_decide.mpr hsame]
    exact h.disciplined u p hp

theorem LockInv.step (h : LockInv s) {e : ClientEvent} (hstep : s.step connection e = some s') :
    LockInv s' := by
  cases clientMoves_of_step hstep with
  | attempt hmode =>
      exact h.start (.inl (h.idle (.inl hmode))) (by simp) (unlocked_establish _)
  | arrived => exact h.beside _ s.session.manager
  | polled => exact h.beside s.session.incoming _
  | @read count hmode =>
      exact (h.beside (s.session.incoming.drop count) s.session.manager).process
        (.inl (h.idle (.inr hmode))) _
  | tick hmode =>
      exact h.start (.inl (h.idle (.inr hmode))) (by simp) composed_unlocked.sendEnquireLink
  | leave hmode => exact h.stop (.inl (h.idle (.inr hmode))) _
  | send hnone =>
      apply h.assign (.inl hnone)
      · intro q hq
        obtain rfl := Option.some.inj hq
        exact unlocked_sendMessage _
      · exact h.idle
  | ask hcall hlock => exact h.ask hcall hlock
  | replied hprogram hreply => exact h.replied hprogram hreply
  | finished hret hfinish => exact h.finish hret hfinish
  | ended hret => exact h.assign (.inr ⟨_, hret⟩) (by simp) h.idle
  | dropped => exact h.dropped

theorem lockInv_of_reachable (h : (clientSystem connection).Reachable s) : LockInv s := by
  refine h.invariant ?_ fun _ _ _ hinv _ hstep => hinv.step hstep
  refine ⟨fun _ => rfl, List.nodup_nil, ?_, ?_, ?_⟩ <;>
    simp [clientSystem, ClientState.new, Session.new, Mutex.free]

end Locking

section Sending

/-- How far a sender is. -/
inductive Stage
  | begun
  | locked (connected : Bool)
  | released

def Stage.held : Stage → Bool
  | .locked _ => true
  | _ => false

/-- A sender registers for its response, locks the writer once, and waits while it has it. -/
def sendProtocol (message : SMPPMessage) : Protocol ClientCall Reply Stage where
  allows stage
    | .registerCallback _ => stage = .begun
    | .lockWriter => stage = .begun
    | .awaitResponse _ => stage = .locked true ∧ awaitsResponse message = true
    | .connect | .replaceWriter | .receive => False
    | _ => True
  next stage
    | .lockWriter, connected => .locked connected
    | .unlockWriter, _ => .released
    | _, _ => stage

variable {message : SMPPMessage} {stage : Stage} {p : Program}

def Sends (message : SMPPMessage) (stage : Stage) (p : Program) : Prop :=
  Conforms (sendProtocol message) (fun _ _ => True) stage p

theorem sends_sendMessage (message : SMPPMessage) :
    Sends message .begun (sendMessage message) := by
  have hlocked : Conforms (sendProtocol message)
      (fun stage value => stage = .locked true ∧ value ≠ none) (.locked true)
      (sendLocked message) := by
    refine ⟨trivial, fun written => ?_⟩
    cases written with
    | error e => exact ⟨rfl, Option.some_ne_none _⟩
    | ok =>
        change Conforms (sendProtocol message) _ _ (ite _ _ _)
        split
        · rename_i hawaits
          refine ⟨⟨rfl, hawaits⟩, fun result => ?_⟩
          cases result <;> exact ⟨rfl, Option.some_ne_none _⟩
        · exact ⟨rfl, Option.some_ne_none _⟩
  have hrest : ∀ connected : Bool, Conforms (sendProtocol message) (fun _ _ => True)
      (.locked connected) (sendAndUnlock message connected) := by
    intro connected
    cases connected with
    | true =>
        refine conforms_bind.mpr (hlocked.mono ?_)
        rintro stage value ⟨rfl, hvalue⟩
        cases value with
        | none => exact absurd rfl hvalue
        | some value => exact ⟨trivial, fun _ => trivial⟩
    | false => exact ⟨trivial, fun _ => trivial⟩
  rw [Sends, sendMessage_eq]
  split
  · exact ⟨rfl, fun _ => ⟨rfl, hrest⟩⟩
  · exact ⟨rfl, hrest⟩

attribute [irreducible] Sends

theorem sends_act {c : ClientCall} {next : Reply c → Program} :
    Sends message stage (.act c next) ↔ (sendProtocol message).allows stage c ∧
      ∀ reply, Sends message ((sendProtocol message).next stage c reply) (next reply) := by
  unfold Sends
  exact conforms_act c next

/-- The writer is locked for a sender as the lock says. -/
theorem held_next (message : SMPPMessage) (stage : Stage) (c : ClientCall) (reply : Reply c) :
    ((sendProtocol message).next stage c reply).held = lockProtocol.next stage.held c reply := by
  cases c <;> rfl

end Sending

section Registration

variable {connection : SmscConnection} {s s' : ClientState}

/-- Replies keep the writer that there is, and do not make waits pending again. -/
structure Onward (s s' : Session) (task : Task) (c : ClientCall) : Prop where
  size_le : s.manager.table.size ≤ s'.manager.table.size
  pending : ∀ wait, wait < s.manager.table.size → s'.manager.table.pending wait = true →
    s.manager.table.pending wait = true
  waits : ∀ t, t ≠ task ∨ (∀ n, c ≠ .registerCallback n) → s'.waits t = s.waits t
  bounded : ∀ wait, s'.waits task = some wait →
    s.waits task = some wait ∨ wait < s'.manager.table.size
  installed : s.writer.isSome = true → s'.writer.isSome = true
  writer : c ≠ .replaceWriter → s'.writer = s.writer

theorem onward_of_same {s s' : Session} {task : Task} {c : ClientCall}
    (hmanager : s'.manager = s.manager) (hwaits : s'.waits = s.waits)
    (hwriter : s'.writer = s.writer) : Onward s s' task c := by
  refine ⟨?_, ?_, ?_, ?_, ?_, fun _ => hwriter⟩ <;> simp +contextual [hmanager, hwaits, hwriter]

theorem onward_of_reply {s s' : Session} {task : Task} {c : ClientCall} {reply : Reply c}
    (h : SessionMoves s task c reply s') : Onward s s' task c := by
  cases h with
  | @registerCallback n =>
      refine ⟨?_, fun wait hwait => Callbacks.pending_of_register hwait, ?_, ?_, id, fun _ => rfl⟩
      · exact Nat.le_of_lt (Nat.lt_of_lt_of_eq (Nat.lt_succ_self _) (Callbacks.size_register n).symm)
      · rintro t (hne | hother)
        · exact Function.update_of_ne hne ..
        · exact absurd rfl (hother n)
      · intro wait hwait
        right
        simp only [Session.register, Function.update_self, Option.some.injEq] at hwait
        simp only [Session.register, Callbacks.size_register]
        omega
  | @responseReceived n v =>
      refine ⟨Nat.le_of_eq (Callbacks.size_remove n).symm,
        fun wait _ => Callbacks.pending_of_deliver, fun _ _ => rfl, fun _ => .inl, id, fun _ => rfl⟩
  | replaceWriter =>
      exact ⟨Nat.le_refl _, fun _ _ => id, fun _ _ => rfl, fun _ => .inl, fun _ => rfl,
        fun h => absurd rfl h⟩
  | _ => exact onward_of_same rfl rfl rfl

/-- What holds of the senders in every state: how far they are, and that they wait for responses
that they have registered for. -/
structure SendInv (s : ClientState) : Prop where
  lock : LockInv s
  sending : ∀ i p, s.programs (.sender i) = some p → ∃ stage,
    stage.held = decide (s.session.lock.holder = some (.sender i)) ∧
      (stage = .locked true → s.session.writer.isSome = true) ∧ Sends (s.messages i) stage p
  registered : ∀ t wait, s.session.waits t = some wait → wait < s.session.manager.table.size

/-- Only the connection loop connects, replaces the writer and receives. -/
theorem SendInv.eq_connection (h : SendInv s) {t : Task} {c : ClientCall}
    {next : Reply c → Program} (hprogram : s.programs t = some (.act c next))
    (hc : c = .connect ∨ c = .replaceWriter ∨ c = .receive) : t = .connection := by
  cases t with
  | connection => rfl
  | sender i =>
      obtain ⟨stage, -, -, hsends⟩ := h.sending i _ hprogram
      have hallows := (sends_act.mp hsends).1
      rcases hc with rfl | rfl | rfl <;> exact absurd hallows id

theorem SendInv.holds (h : SendInv s) {t : Task} {c : ClientCall} {next : Reply c → Program}
    (hprogram : s.programs t = some (.act c next))
    (hc : c = .replaceWriter ∨ ∃ octets, c = .writeAll octets) :
    s.session.lock.holder = some t := by
  have hallows := (h.lock.disciplined t _ hprogram).1
  rcases hc with rfl | ⟨octets, rfl⟩ <;> exact of_decide_eq_true hallows

theorem SendInv.loop (h : SendInv s) (hmoves : LoopMoves s s') (hinv : LockInv s') :
    SendInv s' := by
  refine ⟨hinv, ?_, ?_⟩
  · intro i p hp
    rw [hmoves.senders] at hp
    rw [hmoves.messages, hmoves.session]
    exact h.sending i p hp
  · rw [hmoves.session]
    exact h.registered

theorem SendInv.beside (h : SendInv s) (incoming : List SMPPMessage) {manager : ManagerState}
    (hsize : s.session.manager.table.size ≤ manager.table.size) :
    SendInv { s with
      session := { s.session with incoming := incoming, manager := manager } } :=
  ⟨h.lock.beside incoming manager, h.sending,
    fun t wait hwait => Nat.lt_of_lt_of_le (h.registered t wait hwait) hsize⟩

theorem SendInv.send (h : SendInv s) {i : Nat} (hnone : s.programs (.sender i) = none)
    (message : SMPPMessage) (hinv : LockInv { s with
      programs := Function.update s.programs (.sender i) (some (sendMessage message))
      messages := Function.update s.messages i message }) :
    SendInv { s with
      programs := Function.update s.programs (.sender i) (some (sendMessage message))
      messages := Function.update s.messages i message } := by
  refine ⟨hinv, ?_, h.registered⟩
  intro j p hp
  by_cases hj : j = i
  · subst hj
    simp only [Function.update_self, Option.some.injEq] at hp ⊢
    rw [← hp]
    refine ⟨.begun, ?_, by simp, sends_sendMessage message⟩
    simp [Stage.held, h.lock.notHolder (.inl hnone)]
  · simp only [Function.update_of_ne (show Task.sender j ≠ .sender i by simpa using hj)] at hp
    simp only [Function.update_of_ne hj]
    exact h.sending j p hp

theorem SendInv.ended (h : SendInv s) {i : Nat} (hinv : LockInv { s with
      programs := Function.update s.programs (.sender i) none }) :
    SendInv { s with programs := Function.update s.programs (.sender i) none } := by
  refine ⟨hinv, ?_, h.registered⟩
  intro j p hp
  by_cases hj : Task.sender j = .sender i
  · simp [hj] at hp
  · simp only [Function.update_of_ne hj] at hp
    exact h.sending j p hp

theorem SendInv.dropped (h : SendInv s) {i written : Nat} {c : ClientCall} :
    SendInv { s with
      session := s.session.drop (.sender i) written c
      programs := Function.update s.programs (.sender i) none } := by
  have hkeeps := dropKeeps s.session (.sender i) written c
  refine ⟨h.lock.dropped, ?_, ?_⟩
  · intro j p hp
    have hne : Task.sender j ≠ .sender i := by
      intro hj
      simp [hj] at hp
    simp only [Function.update_of_ne hne] at hp
    obtain ⟨stage, hheld, hwriter, hsends⟩ := h.sending j p hp
    refine ⟨stage, ?_, ?_, hsends⟩
    · have hsame : s.session.lock.holder = some (.sender j) ↔
          (s.session.lock.leave (.sender i)).holder = some (.sender j) := by
        rw [Mutex.holder_leave]
        exact (and_iff_left hne).symm
      rw [hheld, hkeeps.lock]
      exact decide_eq_decide.mpr hsame
    · rw [hkeeps.writer]
      exact hwriter
  · rw [hkeeps.waits, hkeeps.manager]
    exact h.registered

theorem SendInv.ask (h : SendInv s) {t : Task} {lock : Mutex Task}
    (hlock : s.session.lock.ask t = some lock)
    (hinv : LockInv { s with session := { s.session with lock := lock } }) :
    SendInv { s with session := { s.session with lock := lock } } := by
  have hholder : lock.holder = s.session.lock.holder := by
    obtain ⟨-, rfl⟩ := Mutex.ask_eq_some_iff.mp hlock
    rfl
  refine ⟨hinv, ?_, h.registered⟩
  simp only [hholder]
  exact h.sending

theorem sending_replied {message : SMPPMessage} {stage : Stage} {c : ClientCall}
    {next : Reply c → Program} {reply : Reply c} {t : Task} {session session' : Session}
    (hmoves : SessionMoves session t c reply session')
    (hwriter : stage = .locked true → session.writer.isSome = true)
    (hsends : Sends message stage (.act c next)) :
    ((sendProtocol message).next stage c reply = .locked true → session'.writer.isSome = true) ∧
      Sends message ((sendProtocol message).next stage c reply) (next reply) := by
  refine ⟨fun hlocked => ?_, (sends_act.mp hsends).2 reply⟩
  cases hmoves with
  | lockWriter => exact Stage.locked.inj hlocked
  | unlockWriter => exact absurd hlocked (by simp [sendProtocol])
  | replaceWriter => rfl
  | beside hbeside =>
      apply hwriter
      cases c <;> first | exact hlocked | simp [changesSession] at hbeside
  | _ => exact hwriter hlocked

theorem SendInv.replied (h : SendInv s) {t : Task} {c : ClientCall}
    {next : Reply c → Program} {oracle : (c : ClientCall) → Reply c} {reply : Reply c}
    {session : Session} (hprogram : s.programs t = some (.act c next))
    (hreply : s.session.reply t c oracle = some (reply, session)) :
    SendInv { s with
      session := session
      programs := Function.update s.programs t (some (next reply)) } := by
  have hchange := h.lock.lockChange hprogram hreply
  have hmoves := sessionMoves_of_reply hreply
  have honward := onward_of_reply hmoves
  refine ⟨h.lock.replied hprogram hreply, ?_, ?_⟩
  · intro i p hp
    by_cases ht : Task.sender i = t
    · subst ht
      simp only [Function.update_self, Option.some.injEq] at hp
      obtain ⟨stage, hheld, hwriter, hsends⟩ := h.sending i _ hprogram
      refine ⟨_, ?_, hp ▸ sending_replied hmoves hwriter hsends⟩
      rw [held_next, hheld, hchange.held]
    · simp only [Function.update_of_ne ht] at hp
      obtain ⟨stage, hheld, hwriter, hsends⟩ := h.sending i p hp
      refine ⟨stage, ?_, fun hlocked => honward.installed (hwriter hlocked), hsends⟩
      rw [hheld]
      exact decide_eq_decide.mpr (hchange.other _ ht).symm
  · intro u wait hwait
    by_cases hu : u = t
    · subst hu
      rcases honward.bounded wait hwait with hbefore | hbound
      · exact Nat.lt_of_lt_of_le (h.registered u wait hbefore) honward.size_le
      · exact hbound
    · simp only [honward.waits u (.inl hu)] at hwait
      exact Nat.lt_of_lt_of_le (h.registered u wait hwait) honward.size_le

theorem SendInv.step (h : SendInv s) {e : ClientEvent} (hstep : s.step connection e = some s') :
    SendInv s' := by
  have hinv : LockInv s' := h.lock.step hstep
  cases clientMoves_of_step hstep with
  | attempt => exact h.loop (loopMoves_start s _ _) hinv
  | arrived => exact h.beside _ (Nat.le_refl _)
  | polled hmanager => exact h.beside s.session.incoming (tableMove_of_step hmanager).size_le
  | @read count =>
      have hread := h.beside (s.session.incoming.drop count) (Nat.le_refl _)
      exact hread.loop (loopMoves_process _ _) hinv
  | tick => exact h.loop (loopMoves_start s _ _) hinv
  | leave => exact h.loop (loopMoves_stop s _) hinv
  | send hnone => exact h.send hnone _ hinv
  | ask _ hlock => exact h.ask hlock hinv
  | replied hprogram hreply => exact h.replied hprogram hreply
  | finished _ hfinish => exact h.loop (loopMoves_finish hfinish) hinv
  | ended => exact h.ended hinv
  | dropped => exact h.dropped

theorem sendInv_initial : SendInv (clientSystem connection).initial := by
  refine ⟨lockInv_of_reachable .initial, ?_, ?_⟩ <;>
    simp [clientSystem, ClientState.new, Session.new]

end Registration

end SmppHerald.WriterLock
