import SmppHerald.WriterLock

namespace SmppHerald.CallbackOwners

open SmppHerald.Buffer
open SmppHerald.Callbacks
open SmppHerald.ClientConnection
open SmppHerald.ClientRun
open SmppHerald.Interaction
open SmppHerald.Io
open SmppHerald.Json
open SmppHerald.Message
open SmppHerald.ResponseManagers
open SmppHerald.TransitionSystem
open SmppHerald.WriterLock

section Model

/-- The program comes to wait for the number if it gets the right replies, and does not register
before. -/
inductive WaitsFor (sequenceNumber : UInt32) : Program → Prop
  | now {next : Reply (.awaitResponse sequenceNumber) → Program} :
      WaitsFor sequenceNumber (.act (.awaitResponse sequenceNumber) next)
  | later {c : ClientCall} {next : Reply c → Program} {reply : Reply c} :
      (∀ n, c ≠ .registerCallback n) → WaitsFor sequenceNumber (next reply) →
        WaitsFor sequenceNumber (.act c next)

/-- The callbacks in the map belong to tasks that wait, and each task has one at most; a task that
does not wait any more has none. -/
structure Owned (s : ClientState) : Prop where
  waiting : ∀ n wait, s.session.manager.table.callbacks n = some wait →
    ∃ task p, s.session.waits task = some wait ∧ s.programs task = some p ∧ WaitsFor n p
  one : ∀ n n' wait, s.session.manager.table.callbacks n = some wait →
    s.session.manager.table.callbacks n' = some wait → n = n'
  returned : ∀ task wait, s.session.waits task = some wait →
    (∀ n p, s.programs task = some p → ¬ WaitsFor n p) →
      ∀ n, s.session.manager.table.callbacks n ≠ some wait

/-- The callback of the task is in the map. -/
def registered (s : Session) (task : Task) : Bool :=
  (s.waits task).any fun wait =>
    (s.manager.table.waits wait).any fun w => decide (s.manager.table.callbacks w.key = some wait)

/-- With the reply the call of the task ends without a response: there is no writer, the write
fails, or the timer has elapsed. -/
def givesUp (s : Session) (task : Task) :
    ClientCall → ((c : ClientCall) → Reply c) → Bool
  | .lockWriter, _ => s.writer.isNone
  | .writeAll octets, oracle =>
      match oracle (.writeAll octets) with
      | .error _ => true
      | .ok _ => false
  | .awaitResponse _, _ => (s.waits task).any fun wait =>
      (s.manager.table.waits wait).any fun w => decide (w.status = .expired)
  | _, _ => false

/-- A task gives up, or is dropped by its caller, while its callback is in the map. -/
def abandons (s : ClientState) : ClientEvent → Bool
  | .replied task oracle =>
      match s.programs task with
      | some (.act c _) => registered s.session task && givesUp s.session task c oracle
      | _ => false
  | .dropped i _ => registered s.session (.sender i)
  | _ => false

end Model

section Waiting

/-- The number that a program has registered for and waits for, or will. -/
def waitingProtocol : Protocol ClientCall Reply (Option UInt32) where
  allows waitingFor
    | .registerCallback _ => waitingFor = none
    | .awaitResponse n => waitingFor = some n
    | _ => True
  next waitingFor
    | .registerCallback n, _ => some n
    | .lockWriter, connected => if connected = true then waitingFor else none
    | .writeAll _, .error _ => none
    | .awaitResponse _, _ => none
    | _, _ => waitingFor

/-- A program that does not end before it has waited. -/
def Waiting {α : Type} (waitingFor : Option UInt32) (p : Action α) : Prop :=
  Conforms waitingProtocol (fun waitingFor _ => waitingFor = none) waitingFor p

variable {connection : SmscConnection} {α β : Type} {waitingFor : Option UInt32}

theorem Waiting.bind {p : Action α} {f : α → Action β} (hp : Waiting waitingFor p)
    (hf : ∀ value, Waiting none (f value)) : Waiting waitingFor (p >>= f) := by
  refine conforms_bind.mpr (Conforms.mono ?_ hp)
  rintro _ value rfl
  cases value with
  | none => rfl
  | some value => exact hf value

theorem waiting_writeAll {octets : SMPPMessage} {f : Except IoError Unit → Action α}
    (hf : ∀ written, Waiting none (f written)) : Waiting none (perform (.writeAll octets) >>= f) := by
  refine ⟨trivial, fun written => ?_⟩
  cases written <;> exact hf _

theorem waiting_lockWriter {f : Bool → Action α} (hf : ∀ connected, Waiting none (f connected)) :
    Waiting none (perform .lockWriter >>= f) := by
  refine ⟨trivial, fun connected => ?_⟩
  change Waiting (ite _ none none) (f connected)
  rw [ite_self]
  exact hf connected

theorem waiting_sendLocked {message : SMPPMessage}
    (hwaiting : waitingFor = if awaitsResponse message = true then
      some ((getSequenceNumber message).getD 0) else none) :
    Waiting waitingFor (sendLocked message) := by
  refine ⟨trivial, fun written => ?_⟩
  cases written with
  | error e => rfl
  | ok =>
      change Waiting waitingFor (ite _ _ _)
      split
      · rename_i hawaits
        rw [if_pos hawaits] at hwaiting
        refine ⟨hwaiting, fun result => ?_⟩
        cases result <;> rfl
      · rename_i hawaits
        rw [if_neg hawaits] at hwaiting
        exact hwaiting

theorem waiting_sendMessage (message : SMPPMessage) : Waiting none (sendMessage message) := by
  have hlocked : ∀ waitingFor, (waitingFor = if awaitsResponse message = true then
        some ((getSequenceNumber message).getD 0) else none) →
      Waiting waitingFor (.act .lockWriter (sendAndUnlock message)) := by
    intro waitingFor hwaiting
    refine ⟨trivial, fun connected => ?_⟩
    cases connected with
    | true => exact (waiting_sendLocked hwaiting).bind fun _ => ⟨trivial, fun _ => rfl⟩
    | false => exact ⟨trivial, fun _ => rfl⟩
  rw [sendMessage_eq]
  split
  · rename_i hawaits
    exact ⟨rfl, fun _ => hlocked _ (if_pos hawaits).symm⟩
  · rename_i hawaits
    exact hlocked _ (if_neg hawaits).symm

theorem composed_waiting : Composed fun _ p => Waiting none p where
  ret _ := rfl
  panic := rfl
  bind hp hf := hp.bind hf
  call c hc := by
    cases c <;> first | exact ⟨trivial, fun _ => rfl⟩ | simp [aside] at hc
  send := waiting_sendMessage

theorem waiting_sendBindMessage : Waiting none (sendBindMessage connection) := by
  refine ⟨trivial, fun sequenceNumber => waiting_lockWriter fun connected => ?_⟩
  simp only
  split
  · exact waiting_writeAll fun sent => ⟨trivial, fun _ => rfl⟩
  · exact ⟨trivial, fun _ => rfl⟩

theorem waiting_doBind : Waiting none (doBind connection) := by
  refine waiting_sendBindMessage.bind fun sent => ?_
  cases sent with
  | error e => rfl
  | ok => exact ⟨trivial, fun _ => rfl⟩

theorem waiting_establish (alarmActive : Bool) : Waiting none (establish connection alarmActive) := by
  refine ⟨trivial, fun connected => ?_⟩
  cases connected with
  | error e => rfl
  | ok =>
      refine waiting_lockWriter fun _ => ⟨trivial, fun _ => ⟨trivial, fun _ => ?_⟩⟩
      change Waiting none (doBind connection >>= _)
      refine waiting_doBind.bind fun bound => ?_
      cases bound with
      | error e => rfl
      | ok =>
          refine ⟨trivial, fun _ => ?_⟩
          change Waiting none (ite _ _ _)
          split
          · exact ⟨trivial, fun _ => rfl⟩
          · rfl

variable {n : UInt32} {p : Program}

theorem waiting_act {c : ClientCall} {next : Reply c → Program} :
    Waiting waitingFor (.act c next) ↔ waitingProtocol.allows waitingFor c ∧
      ∀ reply, Waiting (waitingProtocol.next waitingFor c reply) (next reply) :=
  Iff.rfl

/-- A program that has registered comes to wait in surroundings in which nothing fails. -/
theorem waitsFor_of_waiting (h : Waiting (some n) p) : WaitsFor n p := by
  induction p with
  | ret value => cases h
  | panic => cases h
  | act c next ih =>
      obtain ⟨hallows, hnext⟩ := waiting_act.mp h
      cases c with
      | awaitResponse m =>
          obtain rfl := Option.some.inj hallows
          exact .now
      | registerCallback m => cases hallows
      | _ => exact @WaitsFor.later n _ next (willing _) (by simp) (ih _ (hnext (willing _)))

theorem not_waitsFor_of_waiting (h : Waiting none p) : ¬ WaitsFor n p := by
  intro hwaits
  induction hwaits with
  | now => cases (waiting_act.mp h).1
  | @later c next reply hregister _ ih =>
      have hnext := (waiting_act.mp h).2 reply
      apply ih
      cases c with
      | registerCallback m => exact absurd rfl (hregister m)
      | awaitResponse m => exact hnext
      | lockWriter =>
          cases reply <;> exact hnext
      | writeAll octets =>
          cases reply <;> exact hnext
      | _ => exact hnext

theorem waiting_registerCallback {next : Reply (.registerCallback n) → Program}
    (h : Waiting waitingFor (.act (.registerCallback n) next)) (reply : Unit) :
    Waiting (some n) (next reply) :=
  (waiting_act.mp h).2 reply

theorem eq_of_waitsFor {m : UInt32} (h : Waiting (some m) p) (hwaits : WaitsFor n p) : n = m := by
  induction hwaits with
  | now => exact (Option.some.inj (waiting_act.mp h).1).symm
  | @later c next reply hregister hrest ih =>
      have hnext := (waiting_act.mp h).2 reply
      cases c with
      | registerCallback k => exact absurd rfl (hregister k)
      | awaitResponse k => exact absurd hrest (not_waitsFor_of_waiting hnext)
      | lockWriter =>
          cases reply with
          | true => exact ih hnext
          | false => exact absurd hrest (not_waitsFor_of_waiting hnext)
      | writeAll octets =>
          cases reply with
          | ok => exact ih hnext
          | error => exact absurd hrest (not_waitsFor_of_waiting hnext)
      | _ => exact ih hnext

-- from here on programs are not run any more
attribute [irreducible] Waiting

end Waiting

section Ownership

variable {connection : SmscConnection} {s s' : ClientState} {t : Task}

/-- What holds of the callbacks and the tasks in every state. -/
structure OwnerInv (s : ClientState) : Prop where
  sends : SendInv s
  keyed : Keyed s.session.manager.table
  attached : Attached s.session.manager.table
  distinct : ∀ t t' wait, s.session.waits t = some wait → s.session.waits t' = some wait → t = t'
  programs : ∀ t p, s.programs t = some p → ∃ waitingFor, Waiting waitingFor p
  numbers : ∀ t n p, s.programs t = some p → WaitsFor n p → ∃ wait w,
    s.session.waits t = some wait ∧ s.session.manager.table.waits wait = some w ∧ w.key = n

/-- Every callback in the map belongs to a task that has registered it and waits for it. -/
def HasOwners (s : ClientState) : Prop :=
  ∀ n wait, s.session.manager.table.callbacks n = some wait →
    ∃ t p, s.session.waits t = some wait ∧ s.programs t = some p ∧ Waiting (some n) p

/-- A task gets another program, or none, and the others go on. -/
structure Assigned (s s' : ClientState) (t : Task) : Prop where
  manager : s'.session.manager = s.session.manager
  waits : s'.session.waits = s.session.waits
  others : ∀ u, u ≠ t → s'.programs u = s.programs u
  waiting : ∀ p, s'.programs t = some p → Waiting none p

theorem assigned_start {mode : Mode} {program : Action (Except IoError Unit)}
    (hprogram : Waiting none program) : Assigned s (s.start mode program) .connection := by
  refine ⟨rfl, rfl, fun u hu => Function.update_of_ne hu .., fun p hp => ?_⟩
  simp only [ClientState.start, Function.update_self, Option.some.injEq] at hp
  rw [← hp]
  unfold Waiting at hprogram ⊢
  exact conforms_map.mpr hprogram

theorem assigned_stop (mode : Mode) : Assigned s (s.stop mode) .connection := by
  refine ⟨rfl, rfl, fun u hu => Function.update_of_ne hu .., fun p hp => ?_⟩
  simp [ClientState.stop] at hp

theorem assigned_process (messages : List SMPPMessage) :
    Assigned s (s.process connection messages) .connection := by
  cases messages with
  | nil => exact assigned_stop .selecting
  | cons message messages => exact assigned_start (composed_waiting.processInMessage message)

theorem assigned_finish {result : Except IoError (Option Value)}
    (h : s.finish connection result = some s') : Assigned s s' .connection := by
  unfold ClientState.finish at h
  split at h
  · obtain rfl := Option.some.inj h
    exact assigned_stop _
  · obtain rfl := Option.some.inj h
    exact assigned_stop _
  · obtain rfl := Option.some.inj h
    exact assigned_process _
  · obtain rfl := Option.some.inj h
    exact assigned_stop _
  · obtain rfl := Option.some.inj h
    exact assigned_stop _
  · simp at h

theorem OwnerInv.assigned (h : OwnerInv s) (hassigned : Assigned s s' t) (hsends : SendInv s') :
    OwnerInv s' := by
  refine ⟨hsends, ?_, ?_, ?_, fun u p hp => ?_, fun u n p hp hwaits => ?_⟩
  · rw [hassigned.manager]
    exact h.keyed
  · rw [hassigned.manager]
    exact h.attached
  · rw [hassigned.waits]
    exact h.distinct
  · by_cases hu : u = t
    · subst hu
      exact ⟨none, hassigned.waiting p hp⟩
    · rw [hassigned.others u hu] at hp
      exact h.programs u p hp
  · have hne : u ≠ t := by
      rintro rfl
      exact not_waitsFor_of_waiting (hassigned.waiting p hp) hwaits
    rw [hassigned.others u hne] at hp
    rw [hassigned.waits, hassigned.manager]
    exact h.numbers u n p hp hwaits

theorem HasOwners.resting (h : HasOwners s) (hinv : OwnerInv s) (hresting : Resting s t) (n : UInt32)
    (wait : Nat) (hwait : s.session.waits t = some wait) :
    s.session.manager.table.callbacks n ≠ some wait := by
  intro hcallback
  obtain ⟨u, p, hwait', hp, hwaiting⟩ := h n wait hcallback
  obtain rfl := hinv.distinct u t wait hwait' hwait
  rcases hresting with hnone | ⟨result, hret⟩
  · simp [hnone] at hp
  · obtain rfl := Option.some.inj (hret.symm.trans hp)
    unfold Waiting at hwaiting
    cases hwaiting

theorem HasOwners.assigned (h : HasOwners s) (hassigned : Assigned s s' t)
    (hnone : ∀ n wait, s.session.waits t = some wait →
      s.session.manager.table.callbacks n ≠ some wait) : HasOwners s' := by
  intro n wait hcallback
  rw [hassigned.manager] at hcallback
  obtain ⟨u, p, hwait, hp, hwaiting⟩ := h n wait hcallback
  have hne : u ≠ t := by
    rintro rfl
    exact hnone n wait hwait hcallback
  refine ⟨u, p, ?_, ?_, hwaiting⟩
  · rw [hassigned.waits]
    exact hwait
  · rw [hassigned.others u hne]
    exact hp

theorem polled_table {manager manager' : ManagerState} {poll : Poll} {wait : Nat}
    (hstep : manager.step .responseManager (poll.event wait) = some manager')
    (hattached : Attached manager.table) :
    Attached manager'.table ∧ manager'.table.callbacks = manager.table.callbacks := by
  have hmove := tableMove_of_step hstep
  generalize manager'.table = table at hmove ⊢
  cases poll with
  | receiver =>
      generalize hevent : Poll.event wait .receiver = e at hmove
      cases hmove with
      | take => exact ⟨hattached.take _, rfl⟩
      | none => exact ⟨hattached, rfl⟩
      | _ => cases hevent
  | timer =>
      generalize hevent : Poll.event wait .timer = e at hmove
      cases hmove with
      | expire _ hstatus => exact ⟨hattached.expire _ hstatus, rfl⟩
      | none => exact ⟨hattached, rfl⟩
      | _ => cases hevent
  | elapse =>
      generalize hevent : Poll.event wait .elapse = e at hmove
      cases hmove with
      | none => exact ⟨hattached, rfl⟩
      | _ => cases hevent

/-- What a reply does to the callbacks. -/
inductive CallbackMoves (s : Session) (t : Task) (c : ClientCall) (s' : Session) : Prop
  | register (n : UInt32) : c = .registerCallback n →
      s'.waits = Function.update s.waits t (some s.manager.table.size) →
        s'.manager.table = s.manager.table.register n → CallbackMoves s t c s'
  | deliver (n : UInt32) (v : Value) : (∀ m, c ≠ .registerCallback m) → s'.waits = s.waits →
      s'.manager.table = s.manager.table.deliver n v → CallbackMoves s t c s'
  | same : (∀ m, c ≠ .registerCallback m) → s'.waits = s.waits → s'.manager = s.manager →
      CallbackMoves s t c s'

theorem callbackMoves_of_reply {session session' : Session} {c : ClientCall}
    {oracle : (c : ClientCall) → Reply c} {reply : Reply c}
    (h : session.reply t c oracle = some (reply, session')) :
    CallbackMoves session t c session' := by
  cases sessionMoves_of_reply h with
  | registerCallback => exact .register _ rfl rfl rfl
  | responseReceived => exact .deliver _ _ (by simp) rfl rfl
  | beside hbeside =>
      refine .same ?_ rfl rfl
      rintro m rfl
      cases hbeside
  | _ => exact .same (by simp) rfl rfl

theorem CallbackMoves.key {session session' : Session} {c : ClientCall}
    (h : CallbackMoves session t c session') (hkeyed : Keyed session.manager.table) {wait : Nat}
    {w : Wait UInt32 Value} (hw : session.manager.table.waits wait = some w) :
    ∃ w', session'.manager.table.waits wait = some w' ∧ w'.key = w.key := by
  cases h with
  | register n _ _ htable =>
      obtain ⟨w', hw', hevolves⟩ := evolves_register hkeyed n hw
      rw [htable]
      exact ⟨w', hw', hevolves.key⟩
  | deliver n v _ _ htable =>
      obtain ⟨w', hw', hevolves⟩ := @evolves_remove _ _ _ _
        (Wait.accept ⟨session.manager.table.deliveries.length, n, v⟩) _ _ n (evolves_accept _) hw
      rw [htable]
      exact ⟨w', hw', hevolves.key⟩
  | same _ _ hmanager =>
      rw [hmanager]
      exact ⟨w, hw, rfl⟩

theorem distinct_update {waits : Task → Option Nat} {new : Nat}
    (hdistinct : ∀ t t' wait, waits t = some wait → waits t' = some wait → t = t')
    (hnew : ∀ t, waits t ≠ some new) {t : Task} (u u' : Task) (wait : Nat)
    (hu : Function.update waits t (some new) u = some wait)
    (hu' : Function.update waits t (some new) u' = some wait) : u = u' := by
  rw [Function.update_apply] at hu hu'
  split at hu <;> split at hu'
  · rename_i hut hut'
    exact hut.trans hut'.symm
  · exact absurd (hu'.trans hu.symm) (hnew u')
  · exact absurd (hu.trans hu'.symm) (hnew u)
  · exact hdistinct u u' wait hu hu'

theorem OwnerInv.replied (h : OwnerInv s) {c : ClientCall} {next : Reply c → Program}
    {oracle : (c : ClientCall) → Reply c} {reply : Reply c} {session : Session}
    (hprogram : s.programs t = some (.act c next))
    (hreply : s.session.reply t c oracle = some (reply, session))
    (hsends : SendInv { s with
      session := session
      programs := Function.update s.programs t (some (next reply)) }) :
    OwnerInv { s with
      session := session
      programs := Function.update s.programs t (some (next reply)) } := by
  have hmoves := callbackMoves_of_reply hreply
  refine ⟨hsends, ?_, ?_, ?_, fun u p hp => ?_, fun u n p hp hwaits => ?_⟩
  · cases hmoves with
    | register n _ _ htable =>
        rw [htable]
        exact h.keyed.register n
    | deliver n v _ _ htable =>
        rw [htable]
        exact h.keyed.deliver n v
    | same _ _ hmanager =>
        rw [hmanager]
        exact h.keyed
  · cases hmoves with
    | register n _ _ htable =>
        rw [htable]
        exact h.attached.register h.keyed n
    | deliver n v _ _ htable =>
        rw [htable]
        exact h.attached.deliver n v
    | same _ _ hmanager =>
        rw [hmanager]
        exact h.attached
  · cases hmoves with
    | register n _ hwaits _ =>
        rw [hwaits]
        refine distinct_update h.distinct fun u hu => ?_
        exact absurd (h.sends.registered u _ hu) (Nat.lt_irrefl _)
    | deliver _ _ _ hwaits _ =>
        rw [hwaits]
        exact h.distinct
    | same _ hwaits _ =>
        rw [hwaits]
        exact h.distinct
  · by_cases hu : u = t
    · subst hu
      simp only [Function.update_self, Option.some.injEq] at hp
      obtain ⟨waitingFor, hwaiting⟩ := h.programs u _ hprogram
      rw [← hp]
      unfold Waiting at hwaiting ⊢
      exact ⟨_, hwaiting.2 reply⟩
    · simp only [Function.update_of_ne hu] at hp
      exact h.programs u p hp
  · -- the wait of a task that has registered before
    have hkept : ∀ v q, s.programs v = some q → WaitsFor n q →
        session.waits v = s.session.waits v → ∃ wait w, session.waits v = some wait ∧
          session.manager.table.waits wait = some w ∧ w.key = n := by
      intro v q hq hwaits hsame
      obtain ⟨wait, w, hwait, hw, hkey⟩ := h.numbers v n q hq hwaits
      obtain ⟨w', hw', hkey'⟩ := hmoves.key h.keyed hw
      exact ⟨wait, w', hsame.trans hwait, hw', hkey'.trans hkey⟩
    by_cases hu : u = t
    · subst hu
      simp only [Function.update_self, Option.some.injEq] at hp
      subst hp
      cases hmoves with
      | register m hc hsession htable =>
          subst hc
          obtain ⟨waitingFor, hwaiting⟩ := h.programs u _ hprogram
          obtain rfl := eq_of_waitsFor ((waiting_registerCallback hwaiting) reply) hwaits
          refine ⟨s.session.manager.table.size,
            { key := n, since := s.session.manager.table.deliveries.length }, ?_, ?_, rfl⟩
          · rw [hsession, Function.update_self]
          · rw [htable]
            refine waits_add_eq_some_iff.mpr (.inl ⟨(size_remove n).symm, ?_⟩)
            rw [deliveries_remove]
      | deliver _ _ hother hsession _ =>
          exact hkept u _ hprogram (.later hother hwaits) (congrFun hsession u)
      | same hother hsession _ =>
          exact hkept u _ hprogram (.later hother hwaits) (congrFun hsession u)
    · simp only [Function.update_of_ne hu] at hp
      refine hkept u p hp hwaits ?_
      cases hmoves with
      | register _ _ hsession _ => rw [hsession, Function.update_of_ne hu]
      | deliver _ _ _ hsession _ => rw [hsession]
      | same _ hsession _ => rw [hsession]

theorem waiting_of_replied (h : OwnerInv s) {c : ClientCall} {next : Reply c → Program}
    {oracle : (c : ClientCall) → Reply c} {reply : Reply c} {session : Session} {n : UInt32}
    {wait : Nat} (hprogram : s.programs t = some (.act c next))
    (hreply : s.session.reply t c oracle = some (reply, session))
    (hwait : s.session.waits t = some wait)
    (hcallback : s.session.manager.table.callbacks n = some wait)
    (hkeeps : givesUp s.session t c oracle = false) (hwaiting : Waiting (some n) (.act c next)) :
    Waiting (some n) (next reply) := by
  unfold Waiting at hwaiting ⊢
  obtain ⟨hallows, hnext⟩ := hwaiting
  cases c with
  | lockWriter =>
      obtain ⟨lock, -, hsame⟩ := Option.map_eq_some_iff.mp hreply
      obtain ⟨rfl, -⟩ := Prod.mk.inj hsame
      have hwriter : s.session.writer.isSome = true := by simpa [givesUp] using hkeeps
      have hlocked := hnext s.session.writer.isSome
      simpa only [waitingProtocol, hwriter, if_true] using hlocked
  | writeAll octets =>
      obtain ⟨rfl, -⟩ := Prod.mk.inj (Option.some.inj hreply)
      have hwritten := hnext (oracle (.writeAll octets))
      simp only [givesUp] at hkeeps
      split at hkeeps
      · cases hkeeps
      · rename_i hok
        rwa [hok] at hwritten ⊢
  | awaitResponse m =>
      simp only [Session.reply, hwait, Option.bind_eq_bind, Option.bind_some,
        Option.bind_eq_some_iff] at hreply
      obtain ⟨w, hw, result, hresult, -⟩ := hreply
      exfalso
      simp only [givesUp, hwait, Option.any_some, hw] at hkeeps
      cases hstatus : w.status with
      | completed => exact h.attached.not_registered h.keyed hw (.inl hstatus) n hcallback
      | closed => exact h.attached.not_registered h.keyed hw (.inr hstatus) n hcallback
      | expired => simp [hstatus] at hkeeps
      | waiting => simp [awaited, hstatus] at hresult
      | expiring => simp [awaited, hstatus] at hresult
  | registerCallback m => cases hallows
  | _ => exact hnext reply

theorem registered_eq_true_iff (h : OwnerInv s) : registered s.session t = true ↔
    ∃ n wait, s.session.waits t = some wait ∧
      s.session.manager.table.callbacks n = some wait := by
  simp only [registered, Option.any_eq_true, decide_eq_true_eq]
  constructor
  · rintro ⟨wait, hwait, w, -, hcallback⟩
    exact ⟨w.key, wait, hwait, hcallback⟩
  · rintro ⟨n, wait, hwait, hcallback⟩
    obtain ⟨w, hw, rfl, -⟩ := h.keyed.registered n wait hcallback
    exact ⟨wait, hwait, w, hw, hcallback⟩

theorem HasOwners.replied (h : HasOwners s) (hinv : OwnerInv s) {c : ClientCall}
    {next : Reply c → Program} {oracle : (c : ClientCall) → Reply c} {reply : Reply c}
    {session : Session} (hprogram : s.programs t = some (.act c next))
    (hreply : s.session.reply t c oracle = some (reply, session))
    (hkeeps : abandons s (.replied t oracle) = false) :
    HasOwners { s with
      session := session
      programs := Function.update s.programs t (some (next reply)) } := by
  -- a callback that stays, of a task that may be the one that is replied to
  have hstays : ∀ n wait, s.session.manager.table.callbacks n = some wait →
      ∃ u p, s.session.waits u = some wait ∧
        Function.update s.programs t (some (next reply)) u = some p ∧ Waiting (some n) p := by
    intro n wait hcallback
    obtain ⟨u, p, hwait, hp, hwaiting⟩ := h n wait hcallback
    by_cases hu : u = t
    · subst hu
      obtain rfl := Option.some.inj (hprogram.symm.trans hp)
      refine ⟨u, next reply, hwait, Function.update_self .., ?_⟩
      have hregistered := (registered_eq_true_iff hinv).mpr ⟨n, wait, hwait, hcallback⟩
      simp only [abandons, hprogram, hregistered, Bool.true_and] at hkeeps
      exact waiting_of_replied hinv hprogram hreply hwait hcallback hkeeps hwaiting
    · exact ⟨u, p, hwait, (Function.update_of_ne hu ..).trans hp, hwaiting⟩
  intro n wait hcallback
  cases callbackMoves_of_reply hreply with
  | register m hc hwaits htable =>
      subst hc
      rw [htable, callbacks_register, Function.update_apply] at hcallback
      simp only [hwaits]
      split at hcallback
      · rename_i hn
        obtain ⟨waitingFor, hwaiting⟩ := hinv.programs t _ hprogram
        refine ⟨t, next reply, (Function.update_self ..).trans hcallback, Function.update_self ..,
          ?_⟩
        rw [hn]
        exact waiting_registerCallback hwaiting reply
      · obtain ⟨u, p, hwait, hp, hwaiting⟩ := h n wait hcallback
        have hne : u ≠ t := by
          rintro rfl
          obtain rfl := Option.some.inj (hprogram.symm.trans hp)
          unfold Waiting at hwaiting
          cases hwaiting.1
        exact ⟨u, p, (Function.update_of_ne hne ..).trans hwait,
          (Function.update_of_ne hne ..).trans hp, hwaiting⟩
  | deliver m v _ hwaits htable =>
      rw [htable, callbacks_deliver, Function.update_apply] at hcallback
      simp only [hwaits]
      split at hcallback
      · cases hcallback
      · exact hstays n wait hcallback
  | same _ hwaits hmanager =>
      rw [hmanager] at hcallback
      simp only [hwaits]
      exact hstays n wait hcallback

theorem OwnerInv.beside (h : OwnerInv s) {session : Session}
    (hsends : SendInv { s with session := session }) (hmanager : session.manager = s.session.manager)
    (hwaits : session.waits = s.session.waits) : OwnerInv { s with session := session } := by
  refine ⟨hsends, ?_, ?_, ?_, h.programs, ?_⟩
  · rw [hmanager]
    exact h.keyed
  · rw [hmanager]
    exact h.attached
  · rw [hwaits]
    exact h.distinct
  · rw [hwaits, hmanager]
    exact h.numbers

theorem OwnerInv.not_registered (h : OwnerInv s) (hregistered : registered s.session t = false)
    (n : UInt32) (wait : Nat) (hwait : s.session.waits t = some wait) :
    s.session.manager.table.callbacks n ≠ some wait := by
  intro hcallback
  rw [(registered_eq_true_iff h).mpr ⟨n, wait, hwait, hcallback⟩] at hregistered
  cases hregistered

theorem assigned_drop (s : ClientState) (i written : Nat) (c : ClientCall) :
    Assigned s { s with
      session := s.session.drop (.sender i) written c
      programs := Function.update s.programs (.sender i) none } (.sender i) := by
  have hkeeps := dropKeeps s.session (.sender i) written c
  refine ⟨hkeeps.manager, hkeeps.waits, fun u hu => Function.update_of_ne hu .., fun p hp => ?_⟩
  simp at hp

/-- One step keeps what holds of all states, and also whose the callbacks are, unless a task gives up
or is dropped while its callback is in the map. -/
theorem OwnerInv.step (h : OwnerInv s) {e : ClientEvent} (hstep : s.step connection e = some s') :
    OwnerInv s' ∧ (HasOwners s → abandons s e = false → HasOwners s') := by
  have hsends : SendInv s' := h.sends.step hstep
  have hidle : s.mode = .disconnected ∨ s.mode = .selecting → Resting s .connection :=
    fun hmode => .inl (h.sends.lock.idle hmode)
  have hassigned : ∀ t, Resting s t → Assigned s s' t →
      OwnerInv s' ∧ (HasOwners s → abandons s e = false → HasOwners s') :=
    fun t hresting hassigned => ⟨h.assigned hassigned hsends, fun howners _ =>
      howners.assigned hassigned (howners.resting h hresting)⟩
  cases clientMoves_of_step hstep with
  | attempt hmode =>
      exact hassigned _ (hidle (.inl hmode)) (assigned_start (waiting_establish _))
  | arrived => exact ⟨h.beside hsends rfl rfl, fun howners _ => howners⟩
  | polled hmanager =>
      obtain ⟨hattached, hcallbacks⟩ := polled_table hmanager h.attached
      have hmove := tableMove_of_step hmanager
      refine ⟨⟨hsends, hmove.keyed h.keyed, hattached, h.distinct, h.programs,
        fun u n p hp hwaits => ?_⟩, fun howners _ n wait hcallback => ?_⟩
      · obtain ⟨wait, w, hwait, hw, hkey⟩ := h.numbers u n p hp hwaits
        obtain ⟨w', hw', hevolves⟩ := hmove.evolves h.keyed hw
        exact ⟨wait, w', hwait, hw', hevolves.key.trans hkey⟩
      · rw [hcallbacks] at hcallback
        exact howners n wait hcallback
  | @read count hmode =>
      have hprocess := @assigned_process connection
        { s with session := { s.session with incoming := s.session.incoming.drop count } }
          (s.session.incoming.take count)
      exact hassigned _ (hidle (.inr hmode)) ⟨hprocess.manager, hprocess.waits, hprocess.others,
        hprocess.waiting⟩
  | tick hmode =>
      exact hassigned _ (hidle (.inr hmode)) (assigned_start composed_waiting.sendEnquireLink)
  | leave hmode => exact hassigned _ (hidle (.inr hmode)) (assigned_stop _)
  | @send i message hnone =>
      refine hassigned (.sender i) (.inl hnone) ⟨rfl, rfl, fun u hu => Function.update_of_ne hu ..,
        fun p hp => ?_⟩
      simp only [Function.update_self, Option.some.injEq] at hp
      exact hp ▸ waiting_sendMessage message
  | ask => exact ⟨h.beside hsends rfl rfl, fun howners _ => howners⟩
  | replied hprogram hreply =>
      exact ⟨h.replied hprogram hreply hsends, fun howners hkeeps =>
        howners.replied h hprogram hreply hkeeps⟩
  | finished hret hfinish => exact hassigned _ (.inr ⟨_, hret⟩) (assigned_finish hfinish)
  | @ended i _ hret =>
      refine hassigned (.sender i) (.inr ⟨_, hret⟩) ⟨rfl, rfl,
        fun u hu => Function.update_of_ne hu .., fun p hp => ?_⟩
      simp at hp
  | @dropped i written c =>
      have hdropped := assigned_drop s i written c
      exact ⟨h.assigned hdropped hsends, fun howners hkeeps =>
        howners.assigned hdropped (h.not_registered hkeeps)⟩

end Ownership

section Main

variable {connection : SmscConnection} {s s' : ClientState} {t : Task}

theorem OwnerInv.owned (h : OwnerInv s) (howners : HasOwners s) : Owned s := by
  refine ⟨fun n wait hcallback => ?_, fun n n' wait hcallback hcallback' => ?_,
    fun t wait hwait hreturned n hcallback => ?_⟩
  · obtain ⟨t, p, hwait, hp, hwaiting⟩ := howners n wait hcallback
    exact ⟨t, p, hwait, hp, waitsFor_of_waiting hwaiting⟩
  · obtain ⟨w, hw, rfl, -⟩ := h.keyed.registered n wait hcallback
    obtain ⟨w', hw', rfl, -⟩ := h.keyed.registered n' wait hcallback'
    obtain rfl := Option.some.inj (hw.symm.trans hw')
    rfl
  · obtain ⟨u, p, hwait', hp, hwaiting⟩ := howners n wait hcallback
    obtain rfl := h.distinct u t wait hwait' hwait
    exact hreturned n p hp (waitsFor_of_waiting hwaiting)

theorem not_waitsFor_of_givesUp {c : ClientCall} {next : Reply c → Program}
    {oracle : (c : ClientCall) → Reply c} {reply : Reply c} {session session' : Session} {n m : UInt32}
    (hreply : session.reply t c oracle = some (reply, session'))
    (hgives : givesUp session t c oracle = true) (hwaiting : Waiting (some n) (.act c next)) :
    ¬ WaitsFor m (next reply) ∧ session'.waits = session.waits ∧
      session'.manager = session.manager := by
  suffices hnone : Waiting none (next reply) ∧ session'.waits = session.waits ∧
      session'.manager = session.manager from
    ⟨not_waitsFor_of_waiting hnone.1, hnone.2⟩
  unfold Waiting at hwaiting ⊢
  obtain ⟨hallows, hnext⟩ := hwaiting
  cases c with
  | lockWriter =>
      obtain ⟨lock, -, hsame⟩ := Option.map_eq_some_iff.mp hreply
      obtain ⟨rfl, rfl⟩ := Prod.mk.inj hsame
      have hwriter : session.writer.isSome = false := by simpa [givesUp] using hgives
      have hlocked := hnext session.writer.isSome
      refine ⟨?_, rfl, rfl⟩
      simpa only [waitingProtocol, hwriter, Bool.false_eq_true, if_false] using hlocked
  | writeAll octets =>
      obtain ⟨rfl, rfl⟩ := Prod.mk.inj (Option.some.inj hreply)
      have hwritten := hnext (oracle (.writeAll octets))
      refine ⟨?_, rfl, rfl⟩
      simp only [givesUp] at hgives
      split at hgives
      · rename_i herror
        rwa [herror] at hwritten ⊢
      · cases hgives
  | awaitResponse m =>
      have hawaited := hnext reply
      simp only [Session.reply, Option.bind_eq_bind, Option.bind_eq_some_iff] at hreply
      obtain ⟨wait, -, w, -, result, -, hsame⟩ := hreply
      obtain ⟨rfl, rfl⟩ := Prod.mk.inj (Option.some.inj hsame)
      exact ⟨hawaited, rfl, rfl⟩
  | _ => cases hgives

/-- A step in which a task gives up or is dropped while its callback is in the map leaves it
there. -/
theorem OwnerInv.not_owned (h : OwnerInv s) (howners : HasOwners s) {e : ClientEvent}
    (hstep : s.step connection e = some s') (habandons : abandons s e = true) : ¬ Owned s' := by
  intro howned
  cases clientMoves_of_step hstep with
  | @replied t oracle c next reply session hprogram hreply =>
      simp only [abandons, hprogram, Bool.and_eq_true] at habandons
      obtain ⟨n, wait, hwait, hcallback⟩ := (registered_eq_true_iff h).mp habandons.1
      obtain ⟨u, p, hwait', hp, hwaiting⟩ := howners n wait hcallback
      obtain rfl := h.distinct u t wait hwait' hwait
      obtain rfl := Option.some.inj (hprogram.symm.trans hp)
      have hgives := fun m => @not_waitsFor_of_givesUp _ _ _ _ _ _ _ _ m hreply habandons.2 hwaiting
      obtain ⟨-, hwaits, hmanager⟩ := hgives n
      refine howned.returned u wait ?_ ?_ n ?_
      · rw [hwaits]
        exact hwait
      · intro m q hq
        simp only [Function.update_self, Option.some.injEq] at hq
        exact hq ▸ (hgives m).1
      · rw [hmanager]
        exact hcallback
  | @dropped i written c =>
      obtain ⟨n, wait, hwait, hcallback⟩ := (registered_eq_true_iff h).mp habandons
      have hkeeps := dropKeeps s.session (.sender i) written c
      refine howned.returned (.sender i) wait ?_ ?_ n ?_
      · rw [hkeeps.waits]
        exact hwait
      · intro m q hq
        simp at hq
      · rw [hkeeps.manager]
        exact hcallback
  | _ => cases habandons

theorem ownerInv_initial : OwnerInv (clientSystem connection).initial := by
  refine ⟨sendInv_initial, keyed_empty, attached_empty, ?_, ?_, ?_⟩ <;>
    simp [clientSystem, ClientState.new, Session.new]

theorem ownerInv_of_reachable (h : (clientSystem connection).Reachable s) : OwnerInv s :=
  h.invariant ownerInv_initial fun _ _ _ hinv _ hstep => (hinv.step hstep).1

/-- As long as no call of `send_message` fails to get a response, or is dropped by its caller, while
its callback is in the map, every callback belongs to a call that waits, and the calls that have
ended have none. The first step in which one does leaves its callback behind. -/
theorem callbacks_owned
    (h : (clientSystem connection).Reaches (fun s e => abandons s e = false) s) :
    Owned s ∧ ∀ e s', s.step connection e = some s' → (Owned s' ↔ abandons s e = false) := by
  have hboth : OwnerInv s ∧ HasOwners s := by
    refine @System.Reaches.invariant _ _ _ _ (fun s => OwnerInv s ∧ HasOwners s) ?_ ?_ s h
    · exact ⟨ownerInv_initial, fun n wait hcallback => by
        simp [clientSystem, ClientState.new, Session.new, ManagerState.new, Table.empty] at hcallback⟩
    · rintro s e s' ⟨hinv, howners⟩ hkeeps hstep
      have hnext := hinv.step hstep
      exact ⟨hnext.1, hnext.2 howners hkeeps⟩
  obtain ⟨hinv, howners⟩ := hboth
  refine ⟨hinv.owned howners, fun e s' hstep => ⟨fun howned => ?_, fun hkeeps => ?_⟩⟩
  · by_contra habandons
    exact hinv.not_owned howners hstep (by simpa using habandons) howned
  · have hnext := hinv.step hstep
    exact hnext.1.owned (hnext.2 howners hkeeps)

/-- One submit_sm has got its response, and the next one waits for its own. -/
def respondedEvents : List ClientEvent :=
  connectEvents ++ bindEvents ++ submitEvents 0 ++ [.arrived submitSmRespPdu, .read 1] ++
    replies 1 .connection ++ .polled (.sender 0) .receiver :: replies 2 (.sender 0) ++
      .ended (.sender 0) :: submitEvents 1

/-- The programs and the callbacks with the number 7 that can be observed. -/
def pendingCallbacks (s : ClientState) : Option Nat × Bool × Bool :=
  (s.session.manager.table.callbacks 7, (s.programs (.sender 0)).isSome,
    (s.programs (.sender 1)).isSome)

theorem callbacks_owned_responded :
    ∃ s, (clientSystem exampleConnection).runAllowed (fun s e => !abandons s e) respondedEvents =
        some s ∧ pendingCallbacks s = (some 1, false, true) ∧ Owned s ∧
      ∀ e s', s.step exampleConnection e = some s' → (Owned s' ↔ abandons s e = false) := by
  have hrun : ((clientSystem exampleConnection).runAllowed (fun s e => !abandons s e)
      respondedEvents).map pendingCallbacks = some (some 1, false, true) := by decide +kernel
  obtain ⟨s, hs, hobserved⟩ := Option.map_eq_some_iff.mp hrun
  have hreaches := (System.reaches_of_runAllowed hs).mono fun s e hkeeps =>
    (Bool.not_eq_true' _).mp hkeeps
  exact ⟨s, hs, hobserved, callbacks_owned hreaches⟩

/-- No response comes to a submit_sm before the timer has elapsed. -/
def timedOutEvents : List ClientEvent :=
  connectEvents ++ bindEvents ++ submitEvents 0 ++
    [.polled (.sender 0) .elapse, .polled (.sender 0) .receiver, .polled (.sender 0) .timer] ++
      replies 2 (.sender 0) ++ [.ended (.sender 0)]

theorem not_owned_timedOut :
    ¬ ∀ s, (clientSystem exampleConnection).Reachable s → Owned s := by
  intro h
  have hrun : ((clientSystem exampleConnection).run timedOutEvents).map (fun s =>
      (s.session.manager.table.callbacks 7, s.session.waits (.sender 0),
        (s.programs (.sender 0)).isSome)) = some (some 0, some 0, false) := by decide +kernel
  obtain ⟨s, hs, hobserved⟩ := Option.map_eq_some_iff.mp hrun
  obtain ⟨hcallback, hrest⟩ := Prod.mk.inj hobserved
  obtain ⟨hwait, hprogram⟩ := Prod.mk.inj hrest
  refine (h s (System.reachable_of_run hs)).returned (.sender 0) 0 hwait ?_ 7 hcallback
  intro n p hp
  simp [hp] at hprogram

end Main

end SmppHerald.CallbackOwners
