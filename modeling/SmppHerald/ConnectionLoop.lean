import Mathlib.Data.List.Induction
import SmppHerald.Time
import SmppHerald.WriterLock

/-!
`SmscConnection::run` and `connect_smsc_to`: the loop that connects again and again, with its alarm
and with the gauge of the active connections, which any number of loops share.
-/

namespace SmppHerald.ConnectionLoop

open SmppHerald.Buffer
open SmppHerald.ClientConnection
open SmppHerald.Interaction
open SmppHerald.Io
open SmppHerald.Message
open SmppHerald.Time
open SmppHerald.TransitionSystem
open SmppHerald.WriterLock

section Model

/-- `parse::<u16>` -/
def parsePort (text : List Char) : Option Nat :=
  (parseUnsigned text).bind fun n => if n < 65536 then some n else none

def parseHostPort (address : String) : String × Nat :=
  let (port, rest) := address.toList.reverse.span (· ≠ ':')
  match rest with
  | _ :: host => (String.ofList host.reverse, (parsePort port.reverse).getD 0)
  | [] => (address, 0)

example : parseHostPort "10.0.0.1:2775" = ("10.0.0.1", 2775) := by decide

structure LoopConfig where
  address : String
  enquireLinkTimer : UInt32
  inactiveTimer : UInt32
  connection : SmscConnection

structure Notification where
  raised : Bool
  host : String
  port : Nat
  description : String

/-- What is recorded of a loop: its binds that were accepted, and what it tells the notifier. -/
inductive Happening
  | bound
  | notified (notification : Notification)

/-- Where the loop is. It is `entering` from when its bind is accepted until its timers run, and
`raising` while `raise_alarm` is awaited. -/
inductive LoopMode
  | connecting
  | entering
  | selecting
  | processing (messages : List SMPPMessage)
  | enquiring
  | raising
  | sleeping
  | panicked

/-- `program` is what is left of the function that the loop awaits, if it awaits one. -/
structure LoopState where
  mode : LoopMode
  program : Option (Action (Except IoError Unit))
  alarmActive : Bool
  messagesReceived : UInt32
  history : List Happening

/-- What the loop waits for: the reply to its call, the end of its program, of `raise_alarm` and of the
sleep, and what its `select!` takes. -/
inductive LoopEvent
  | replied (oracle : (c : ClientCall) → Reply c)
  | returned
  | raised
  | slept
  | read (messages : List SMPPMessage)
  | readFailed
  | enquireLinkTick
  | inactiveTick

namespace LoopState

variable (config : LoopConfig) (s : LoopState)

def attempt : LoopState :=
  { s with mode := .connecting, program := some (establish config.connection s.alarmActive) }

def new : LoopState := attempt config ⟨.sleeping, none, false, 0, []⟩

def record (happening : Happening) : LoopState := { s with history := s.history ++ [happening] }

def notify (raised : Bool) (description : String) : LoopState :=
  s.record (.notified ⟨raised, (parseHostPort config.address).1, (parseHostPort config.address).2,
    description⟩)

/-- `host:port`, as the texts of the alarms have it. -/
def peer : String :=
  (parseHostPort config.address).1 ++ ":" ++ toString (parseHostPort config.address).2

/-- `connect_smsc_to` has returned `Ok`. -/
def disconnected : LoopState :=
  if config.connection.hasAlarmNotifier = true then
    { s with mode := .raising, program := none }.notify config true
      ("Connection to SMSC " ++ peer config ++ " lost")
  else { s with mode := .sleeping, program := none }

/-- `connect_smsc_to` has returned `Err`. -/
def failed (e : IoError) : LoopState :=
  if config.connection.hasAlarmNotifier = true ∧ s.alarmActive = false then
    { s with mode := .raising, program := none }.notify config true
      ("Failed to connect to SMSC " ++ peer config ++ ": " ++ e.message)
  else { s with mode := .sleeping, program := none }

/-- The timers are made, which panics for a period of zero. -/
def enter : LoopState :=
  if config.enquireLinkTimer = 0 ∨ config.inactiveTimer = 0 then
    { s with mode := .panicked, program := none, alarmActive := false }
  else
    { s with mode := .selecting, program := none, alarmActive := false, messagesReceived := 0 }

def process : List SMPPMessage → LoopState
  | [] => { s with mode := .selecting, program := none }
  | message :: messages =>
      { s with
        mode := .processing messages
        program := some (processInMessage config.connection message) }

/-- The effect of a call on the loop and on `SMSC_ACTIVE_CONNECTIONS`. -/
def called : ClientCall → LoopState × Int
  | .incActiveConnections => ({ s with mode := .entering }.record .bound, 1)
  | .clearAlarm => (s.notify config false ("Connection to SMSC " ++ peer config ++ " restored"), 0)
  | _ => (s, 0)

def finish (result : Except IoError Unit) : Option LoopState :=
  match s.mode, result with
  | .connecting, .error e => some (s.failed config e)
  | .entering, .ok _ => some (s.enter config)
  | .processing messages, _ => some (s.process config messages)
  | .enquiring, .ok _ => some { s with mode := .selecting, program := none }
  -- the error leaves `connect_smsc_to` before the gauge is decreased
  | .enquiring, .error e => some (s.failed config e)
  | _, _ => none

/-- The next state, and by how much `SMSC_ACTIVE_CONNECTIONS` changes. -/
def step : LoopEvent → Option (LoopState × Int)
  | .replied oracle =>
      match s.program with
      | some (.act c next) =>
          some ((({ s with program := some (next (oracle c)) } : LoopState).called config c))
      | _ => none
  | .returned =>
      match s.program with
      | some (.ret result) => (s.finish config result).map fun s' => (s', 0)
      | some .panic => some ({ s with mode := .panicked, program := none }, 0)
      | _ => none
  | .raised =>
      match s.mode with
      | .raising => some ({ s with mode := .sleeping, alarmActive := true }, 0)
      | _ => none
  | .slept =>
      match s.mode with
      | .sleeping => some (s.attempt config, 0)
      | _ => none
  | .read messages =>
      match s.mode with
      | .selecting =>
          some (({ s with messagesReceived := s.messagesReceived + 1 }).process config messages, 0)
      | _ => none
  | .readFailed =>
      match s.mode with
      | .selecting => some (s.disconnected config, -1)
      | _ => none
  | .enquireLinkTick =>
      match s.mode with
      | .selecting => some
          ({ s with mode := .enquiring, program := some (sendEnquireLink config.connection) }, 0)
      | _ => none
  | .inactiveTick =>
      match s.mode with
      | .selecting =>
          if s.messagesReceived = 0 then some (s.disconnected config, -1)
          else some ({ s with messagesReceived := 0 }, 0)
      | _ => none

end LoopState

def loopSystem (config : LoopConfig) : System LoopState LoopEvent where
  initial := .new config
  step s e := (s.step config e).map Prod.fst

end Model

section Purpose

/-- What there is to do about an alarm. -/
inductive Alarm
  | quiet
  | active
  | due

/-- An alarm is raised while none is active, and cleared at the next bind. -/
def Alarm.next : Alarm → Happening → Option Alarm
  | .quiet, .bound => some .quiet
  | .quiet, .notified n => if n.raised = true then some .active else none
  | .active, .bound => some .due
  | .active, .notified _ => none
  | .due, .bound => none
  | .due, .notified n => if n.raised = true then none else some .quiet

def alarmAfter (history : List Happening) : Option Alarm := history.foldlM Alarm.next .quiet

def notifications (history : List Happening) : List Notification :=
  history.filterMap fun happening =>
    match happening with
    | .bound => none
    | .notified n => some n

/-- The last notification has raised an alarm. -/
def Active (history : List Happening) : Prop :=
  ∃ n, (notifications history).getLast? = some n ∧ n.raised = true

/-- The main loop of `connect_smsc_to`. -/
def LoopMode.inMainLoop : LoopMode → Bool
  | .selecting | .processing _ | .enquiring => true
  | _ => false

/-- The alarms that a loop should give: they are raised and cleared in turn, cleared at a bind only,
and at every bind while one is active, before the main loop. -/
structure AlarmsRight (s : LoopState) : Prop where
  alternate : ∀ (i : Nat) n, (notifications s.history)[i]? = some n → n.raised = (i % 2 == 0)
  atBind : ∀ front n back, s.history = front ++ .notified n :: back → n.raised = false →
    ∃ before, front = before ++ [.bound] ∧ Active before
  cleared : ∀ front back, s.history = front ++ .bound :: back → Active front →
    (∃ n rest, back = .notified n :: rest ∧ n.raised = false) ∨
      back = [] ∧ ∃ next, s.program = some (.act .clearAlarm next)
  quiet : s.mode.inMainLoop = true → ¬ Active s.history

end Purpose

section Histories

variable {history : List Happening} {alarm : Alarm}

theorem Alarm.next_bound {after : Alarm} (h : alarm.next .bound = some after) :
    after ≠ .quiet ↔ alarm ≠ .quiet := by
  cases alarm with
  | quiet =>
      obtain rfl := Option.some.inj h
      exact Iff.rfl
  | active =>
      obtain rfl := Option.some.inj h
      simp
  | due => cases h

theorem Alarm.next_notified {after : Alarm} {n : Notification}
    (h : alarm.next (.notified n) = some after) :
    (n.raised = true ↔ alarm = .quiet) ∧ (after ≠ .quiet ↔ n.raised = true) ∧ alarm ≠ .active := by
  cases alarm with
  | quiet =>
      simp only [Alarm.next] at h
      split at h
      · obtain rfl := Option.some.inj h
        simp_all
      · cases h
  | active => cases h
  | due =>
      simp only [Alarm.next] at h
      split at h
      · cases h
      · obtain rfl := Option.some.inj h
        simp_all

theorem alarmAfter_append (front back : List Happening) :
    alarmAfter (front ++ back) = (alarmAfter front).bind fun alarm => back.foldlM Alarm.next alarm :=
  List.foldlM_append

theorem exists_of_alarmAfter_append {front back : List Happening} {happening : Happening}
    (h : alarmAfter (front ++ happening :: back) = some alarm) :
    ∃ before after, alarmAfter front = some before ∧ before.next happening = some after ∧
      back.foldlM Alarm.next after = some alarm := by
  rw [alarmAfter_append] at h
  obtain ⟨before, hbefore, hback⟩ := Option.bind_eq_some_iff.mp h
  rw [List.foldlM_cons] at hback
  obtain ⟨after, hafter, hback⟩ := Option.bind_eq_some_iff.mp hback
  exact ⟨before, after, hbefore, hafter, hback⟩

theorem notifications_append (front back : List Happening) :
    notifications (front ++ back) = notifications front ++ notifications back :=
  List.filterMap_append

theorem alternate_of_alarmAfter (h : alarmAfter history = some alarm) :
    (∀ (i : Nat) n, (notifications history)[i]? = some n → n.raised = (i % 2 == 0)) ∧
      ((notifications history).length % 2 = 1 ↔ alarm ≠ .quiet) ∧
        (Active history ↔ alarm ≠ .quiet) := by
  induction history using List.reverseRecOn generalizing alarm with
  | nil =>
      obtain rfl := Option.some.inj h
      simp [notifications, Active]
  | append_singleton history happening ih =>
      obtain ⟨before, after, hbefore, hnext, hback⟩ := exists_of_alarmAfter_append h
      obtain rfl := Option.some.inj hback
      obtain ⟨hall, hlength, hactive⟩ := ih hbefore
      cases happening with
      | bound =>
          have hsame : notifications (history ++ [.bound]) = notifications history := by
            rw [notifications_append]
            exact List.append_nil _
          rw [Active, hsame, Alarm.next_bound hnext]
          exact ⟨hall, hlength, hactive⟩
      | notified n =>
          have hmore : notifications (history ++ [.notified n]) = notifications history ++ [n] :=
            notifications_append _ _
          obtain ⟨hraised, hafter, -⟩ := Alarm.next_notified hnext
          have hparity : n.raised = true ↔ (notifications history).length % 2 = 0 := by
            rw [hraised, ← not_iff_not, ← ne_eq, ← hlength]
            omega
          rw [hafter, Active, hmore]
          refine ⟨fun i m hm => ?_, ?_, by simp⟩
          · rw [List.getElem?_append] at hm
            split at hm
            · exact hall i m hm
            · rename_i hle
              obtain ⟨hi, rfl⟩ : i = (notifications history).length ∧ n = m := by
                rw [List.getElem?_singleton] at hm
                split at hm
                · exact ⟨by omega, Option.some.inj hm⟩
                · cases hm
              rw [Bool.eq_iff_iff, hparity, hi, beq_iff_eq]
          · rw [List.length_append, List.length_singleton, hparity]
            omega

theorem cleared_of_alarmAfter (h : alarmAfter history = some alarm) :
    (∀ front n back, history = front ++ .notified n :: back → n.raised = false →
      ∃ before, front = before ++ [.bound] ∧ Active before) ∧
    ∀ front back, history = front ++ .bound :: back → Active front →
      (∃ n rest, back = .notified n :: rest ∧ n.raised = false) ∨ back = [] ∧ alarm = .due := by
  constructor
  · rintro front n back rfl hn
    obtain ⟨before, after, hbefore, hnext, -⟩ := exists_of_alarmAfter_append h
    obtain ⟨hraised, -, hactive⟩ := Alarm.next_notified hnext
    have hdue : before = .due := by
      cases before with
      | quiet => simp [hn] at hraised
      | active => exact absurd rfl hactive
      | due => rfl
    subst hdue
    induction front using List.reverseRecOn with
    | nil => cases hbefore
    | append_singleton front happening _ =>
        obtain ⟨earlier, later, hearlier, hlater, hback⟩ := exists_of_alarmAfter_append hbefore
        obtain rfl := Option.some.inj hback
        cases happening with
        | bound =>
            refine ⟨front, rfl, (alternate_of_alarmAfter hearlier).2.2.mpr ?_⟩
            exact (Alarm.next_bound hlater).mp (by simp)
        | notified m =>
            cases earlier with
            | quiet =>
                simp only [Alarm.next] at hlater
                split at hlater <;> cases hlater
            | active => cases hlater
            | due =>
                simp only [Alarm.next] at hlater
                split at hlater <;> cases hlater
  · rintro front back rfl hactive
    obtain ⟨before, after, hbefore, hnext, hback⟩ := exists_of_alarmAfter_append h
    rw [(alternate_of_alarmAfter hbefore).2.2] at hactive
    cases before with
    | quiet => exact absurd rfl hactive
    | due => cases hnext
    | active =>
        obtain rfl := Option.some.inj hnext
        cases back with
        | nil => exact .inr ⟨rfl, (Option.some.inj hback).symm⟩
        | cons happening rest =>
            rw [List.foldlM_cons] at hback
            obtain ⟨later, hlater, -⟩ := Option.bind_eq_some_iff.mp hback
            cases happening with
            | bound => cases hlater
            | notified n =>
                obtain ⟨hraised, -, -⟩ := Alarm.next_notified hlater
                exact .inl ⟨n, rest, rfl, by simpa using hraised⟩

end Histories

section Programs

variable {connection : SmscConnection}

/-- How far `connect_smsc_to` is before its main loop. -/
inductive Entry
  | binding
  | clearing
  | entered

/-- The gauge is increased once the bind is accepted, and if there is an alarm it is cleared next. -/
def entryProtocol (clears : Bool) : Protocol ClientCall Reply Entry where
  allows
    | .binding, c => c ≠ .clearAlarm
    | .clearing, c => c = .clearAlarm
    | .entered, _ => False
  next
    | .binding, .incActiveConnections, _ => if clears = true then .clearing else .entered
    | .binding, _, _ => .binding
    | .clearing, _, _ => .entered
    | .entered, _, _ => .entered

def entryPost : Entry → Option (Except IoError Unit) → Prop
  | .binding, result => ∀ value, result ≠ some (.ok value)
  | .clearing, _ => False
  | .entered, result => result = some (.ok ())

def Quiet (c : ClientCall) : Prop := c ≠ .clearAlarm ∧ c ≠ .incActiveConnections

theorem calls_sendLocked (message : SMPPMessage) : Calls Quiet (sendLocked message) := by
  refine ⟨⟨by simp, by simp⟩, fun written => ?_⟩
  cases written with
  | error e => trivial
  | ok =>
      change Calls Quiet (ite _ _ _)
      split
      · refine ⟨⟨by simp, by simp⟩, fun result => ?_⟩
        cases result <;> trivial
      · trivial

theorem calls_sendMessage (message : SMPPMessage) : Calls Quiet (sendMessage message) := by
  have hrest : ∀ connected : Bool, Calls Quiet (sendAndUnlock message connected) := by
    intro connected
    cases connected with
    | true => exact (calls_sendLocked message).bind fun _ => ⟨⟨by simp, by simp⟩, fun _ => trivial⟩
    | false => exact ⟨⟨by simp, by simp⟩, fun _ => trivial⟩
  rw [sendMessage_eq]
  split
  · exact ⟨⟨by simp, by simp⟩, fun _ => ⟨⟨by simp, by simp⟩, hrest⟩⟩
  · exact ⟨⟨by simp, by simp⟩, hrest⟩

theorem quiet_of_aside {c : ClientCall} (h : aside c = true) : Quiet c := by
  cases c <;> simp_all [aside, Quiet]

structure KeepsQuiet {α : Type} (p : Action α) : Prop where
  calls : Calls Quiet p

theorem composed_quiet : Composed fun _ p => KeepsQuiet p where
  ret _ := ⟨trivial⟩
  panic := ⟨trivial⟩
  bind hp hf := ⟨hp.calls.bind fun value => (hf value).calls⟩
  call _ hc := ⟨quiet_of_aside hc, fun _ => trivial⟩
  send message := ⟨calls_sendMessage message⟩

theorem calls_doBind : Calls Quiet (doBind connection) := by
  have hsent : Calls Quiet (sendBindMessage connection) := by
    refine ⟨⟨by simp, by simp⟩, fun n => ⟨⟨by simp, by simp⟩, fun connected => ?_⟩⟩
    change Calls Quiet (ite _ _ _)
    split
    · exact ⟨⟨by simp, by simp⟩, fun _ => ⟨⟨by simp, by simp⟩, fun _ => trivial⟩⟩
    · exact ⟨⟨by simp, by simp⟩, fun _ => trivial⟩
  refine hsent.bind fun sent => ?_
  cases sent with
  | error e => trivial
  | ok => exact ⟨⟨by simp, by simp⟩, fun _ => trivial⟩

theorem conforms_of_quiet {α : Type} {clears : Bool} {p : Action α} (h : Calls Quiet p) :
    Conforms (entryProtocol clears) (fun entry _ => entry = .binding) .binding p := by
  apply Calls.conforms
  apply h.mono
  rintro c ⟨hclear, hinc⟩
  refine ⟨hclear, fun reply => ?_⟩
  cases c <;> first | rfl | exact absurd rfl hinc

theorem conforms_establish (alarmActive : Bool) :
    Conforms (entryProtocol (alarmActive && connection.hasAlarmNotifier)) entryPost .binding
      (establish connection alarmActive) := by
  refine ⟨by simp [entryProtocol], fun connected => ?_⟩
  cases connected with
  | error e => exact fun value => by simp
  | ok =>
      refine ⟨by simp [entryProtocol], fun _ => ⟨by simp [entryProtocol], fun _ =>
        ⟨by simp [entryProtocol], fun _ => ?_⟩⟩⟩
      change Conforms _ entryPost .binding (doBind connection >>= _)
      refine conforms_bind.mpr ((conforms_of_quiet calls_doBind).mono ?_)
      rintro _ bound rfl
      cases bound with
      | none => exact fun value => by simp
      | some bound =>
          cases bound with
          | error e => exact fun value => by simp
          | ok =>
              refine ⟨by simp [entryProtocol], fun _ => ?_⟩
              change Conforms _ entryPost _ (ite _ _ _)
              split
              · rename_i hclears
                simp only [entryProtocol, hclears.1, hclears.2, Bool.and_self, if_true]
                exact ⟨rfl, fun _ => rfl⟩
              · rename_i hclears
                have hflag : (alarmActive && connection.hasAlarmNotifier) = false := by
                  simpa using hclears
                simp only [entryProtocol, hflag]
                rfl

end Programs

section Loop

variable {config : LoopConfig} {s s' : LoopState} {e : LoopEvent} {alarm : Alarm} {change : Int}

/-- The bind of the connection is accepted, and the loop has not left it. -/
def LoopMode.inside : LoopMode → Bool
  | .entering | .selecting | .processing _ | .enquiring => true
  | _ => false

/-- The connection is left without a decrease of the gauge: its enquire_link could not be sent, or the
task panics. -/
def Leaks (config : LoopConfig) (s : LoopState) : LoopEvent → Prop
  | .returned => match s.mode, s.program with
      | .enquiring, some (.ret (.error _)) => True
      | .entering, some (.ret _) => config.enquireLinkTimer = 0 ∨ config.inactiveTimer = 0
      | mode, some .panic => mode.inside = true
      | _, _ => False
  | _ => False

def sounding (alarmActive : Bool) : Alarm := if alarmActive = true then .active else .quiet

/-- How a loop stands to its alarm, and what it awaits. -/
inductive Fits (config : LoopConfig) : LoopState → Alarm → Prop
  | connecting {program flag received history}
      (hnotifier : flag = true → config.connection.hasAlarmNotifier = true)
      (hprogram : Conforms (entryProtocol flag) entryPost .binding program) :
      Fits config ⟨.connecting, some program, flag, received, history⟩ (sounding flag)
  | clearing {program received history}
      (hnotifier : config.connection.hasAlarmNotifier = true)
      (hprogram : Conforms (entryProtocol true) entryPost .clearing program) :
      Fits config ⟨.entering, some program, true, received, history⟩ .due
  | entered {program flag received history}
      (hprogram : Conforms (entryProtocol flag) entryPost .entered program) :
      Fits config ⟨.entering, some program, flag, received, history⟩ .quiet
  | selecting {received history} : Fits config ⟨.selecting, none, false, received, history⟩ .quiet
  | processing {messages program received history} (hprogram : KeepsQuiet program) :
      Fits config ⟨.processing messages, some program, false, received, history⟩ .quiet
  | enquiring {program received history} (hprogram : KeepsQuiet program) :
      Fits config ⟨.enquiring, some program, false, received, history⟩ .quiet
  | raising {received history} (hnotifier : config.connection.hasAlarmNotifier = true) :
      Fits config ⟨.raising, none, false, received, history⟩ .active
  | sleeping {flag received history}
      (hnotifier : flag = true → config.connection.hasAlarmNotifier = true) :
      Fits config ⟨.sleeping, none, flag, received, history⟩ (sounding flag)
  | panicked {flag received history alarm} (hnot : alarm ≠ .due) :
      Fits config ⟨.panicked, none, flag, received, history⟩ alarm

def inside (mode : LoopMode) : Int := if mode.inside = true then 1 else 0

/-- What a step does to the alarm and to the gauge. -/
structure Advances (config : LoopConfig) (s : LoopState) (e : LoopEvent) (alarm : Alarm)
    (s' : LoopState) (change : Int) : Prop where
  fits : ∃ new alarm', s'.history = s.history ++ new ∧ new.foldlM Alarm.next alarm = some alarm' ∧
    Fits config s' alarm'
  counts : ¬ Leaks config s e → change = inside s'.mode - inside s.mode
  leaks : Leaks config s e → change = 0 ∧ inside s.mode = 1 ∧ inside s'.mode = 0

theorem Advances.of_fits {new : List Happening} {alarm' : Alarm}
    (hhistory : s'.history = s.history ++ new) (halarm : new.foldlM Alarm.next alarm = some alarm')
    (hfits : Fits config s' alarm') (hnot : ¬ Leaks config s e)
    (hchange : change = inside s'.mode - inside s.mode) : Advances config s e alarm s' change where
  fits := ⟨new, alarm', hhistory, halarm, hfits⟩
  counts _ := hchange
  leaks h := absurd h hnot

theorem Advances.still (hhistory : s'.history = s.history) (hfits : Fits config s' alarm)
    (hnot : ¬ Leaks config s e) (hchange : change = inside s'.mode - inside s.mode) :
    Advances config s e alarm s' change :=
  .of_fits (by rw [hhistory, List.append_nil]) rfl hfits hnot hchange

theorem fits_failed {mode : LoopMode} {program : Option (Action (Except IoError Unit))} {flag : Bool}
    {received : UInt32} {history : List Happening} (error : IoError)
    (hnotifier : flag = true → config.connection.hasAlarmNotifier = true) :
    ∃ new alarm',
      ((⟨mode, program, flag, received, history⟩ : LoopState).failed config error).history =
        history ++ new ∧
      new.foldlM Alarm.next (sounding flag) = some alarm' ∧
        Fits config ((⟨mode, program, flag, received, history⟩ : LoopState).failed config error)
          alarm' ∧
        inside ((⟨mode, program, flag, received, history⟩ : LoopState).failed config error).mode =
          0 := by
  rw [LoopState.failed]
  split
  · rename_i hraises
    obtain ⟨hhas, hflag⟩ := hraises
    simp only at hflag
    subst hflag
    exact ⟨[_], .active, rfl, rfl, .raising hhas, rfl⟩
  · exact ⟨[], _, (List.append_nil _).symm, rfl, .sleeping hnotifier, rfl⟩

theorem fits_disconnected {mode : LoopMode} {program : Option (Action (Except IoError Unit))}
    {received : UInt32} {history : List Happening} :
    ∃ new alarm', ((⟨mode, program, false, received, history⟩ : LoopState).disconnected
        config).history = history ++ new ∧
      new.foldlM Alarm.next .quiet = some alarm' ∧
        Fits config ((⟨mode, program, false, received, history⟩ : LoopState).disconnected config)
          alarm' ∧
        inside ((⟨mode, program, false, received, history⟩ : LoopState).disconnected config).mode =
          0 := by
  rw [LoopState.disconnected]
  split
  · rename_i hhas
    exact ⟨[_], .active, rfl, rfl, .raising hhas, rfl⟩
  · exact ⟨[], .quiet, (List.append_nil _).symm, rfl, .sleeping (by simp), rfl⟩

theorem fits_process {mode : LoopMode} {program : Option (Action (Except IoError Unit))}
    {received : UInt32} {history : List Happening} (messages : List SMPPMessage) :
    Fits config ((⟨mode, program, false, received, history⟩ : LoopState).process config messages)
        .quiet ∧
      ((⟨mode, program, false, received, history⟩ : LoopState).process config messages).history =
        history ∧
      inside ((⟨mode, program, false, received, history⟩ : LoopState).process config messages).mode =
        1 := by
  cases messages with
  | nil => exact ⟨.selecting, rfl, rfl⟩
  | cons message messages =>
      exact ⟨.processing (composed_quiet.processInMessage message), rfl, rfl⟩

theorem fits_attempt {mode : LoopMode} {program : Option (Action (Except IoError Unit))} {flag : Bool}
    {received : UInt32} {history : List Happening}
    (hnotifier : flag = true → config.connection.hasAlarmNotifier = true) :
    Fits config ((⟨mode, program, flag, received, history⟩ : LoopState).attempt config)
      (sounding flag) := by
  have hconforms := @conforms_establish config.connection flag
  have hflag : (flag && config.connection.hasAlarmNotifier) = flag := by
    cases flag with
    | false => rfl
    | true => exact hnotifier rfl
  rw [hflag] at hconforms
  exact .connecting hnotifier hconforms

theorem called_of_quiet {c : ClientCall} (h : Quiet c) (s : LoopState) :
    s.called config c = (s, 0) := by
  obtain ⟨hclear, hinc⟩ := h
  cases c <;> first | rfl | exact absurd rfl hclear | exact absurd rfl hinc

theorem exists_of_step_replied {oracle : (c : ClientCall) → Reply c}
    (h : s.step config (.replied oracle) = some (s', change)) :
    ∃ c next, s.program = some (.act c next) ∧
      (s', change) = ({ s with program := some (next (oracle c)) } : LoopState).called config c := by
  simp only [LoopState.step] at h
  split at h
  · rename_i c next hprogram
    exact ⟨c, next, hprogram, (Option.some.inj h).symm⟩
  · cases h

theorem exists_of_step_returned (h : s.step config .returned = some (s', change)) :
    (∃ result, s.program = some (.ret result) ∧ s.finish config result = some s' ∧ change = 0) ∨
      s.program = some .panic ∧ s' = { s with mode := .panicked, program := none } ∧ change = 0 := by
  simp only [LoopState.step] at h
  split at h
  · rename_i result hprogram
    obtain ⟨s'', hfinish, heq⟩ := Option.map_eq_some_iff.mp h
    obtain ⟨rfl, rfl⟩ := Prod.mk.inj heq
    exact .inl ⟨result, hprogram, hfinish, rfl⟩
  · rename_i hprogram
    obtain ⟨rfl, rfl⟩ := Prod.mk.inj (Option.some.inj h)
    exact .inr ⟨hprogram, rfl, rfl⟩
  · cases h

theorem advances_replied {oracle : (c : ClientCall) → Reply c} (hfits : Fits config s alarm)
    (h : s.step config (.replied oracle) = some (s', change)) :
    Advances config s (.replied oracle) alarm s' change := by
  obtain ⟨c, next, hcalling, hstep⟩ := exists_of_step_replied h
  cases hfits with
  | @connecting program flag received history hnotifier hprogram =>
      obtain rfl := Option.some.inj hcalling
      obtain ⟨hallows, hnext⟩ := hprogram
      by_cases hinc : c = .incActiveConnections
      · subst hinc
        obtain ⟨rfl, rfl⟩ := Prod.mk.inj hstep
        have hprogram := hnext (oracle .incActiveConnections)
        cases flag with
        | true => exact .of_fits rfl rfl (.clearing (hnotifier rfl) hprogram) (by simp [Leaks]) rfl
        | false => exact .of_fits rfl rfl (.entered hprogram) (by simp [Leaks]) rfl
      · rw [called_of_quiet ⟨hallows, hinc⟩] at hstep
        obtain ⟨rfl, rfl⟩ := Prod.mk.inj hstep
        have hprogram := hnext (oracle c)
        have hstays : (entryProtocol flag).next .binding c (oracle c) = .binding := by
          cases c <;> first | rfl | exact absurd rfl hinc
        rw [hstays] at hprogram
        exact .still rfl (.connecting hnotifier hprogram) (by simp [Leaks]) rfl
  | @clearing program received history hnotifier hprogram =>
      obtain rfl := Option.some.inj hcalling
      obtain ⟨rfl, hnext⟩ := hprogram
      obtain ⟨rfl, rfl⟩ := Prod.mk.inj hstep
      exact .of_fits rfl rfl (.entered (hnext (oracle .clearAlarm))) (by simp [Leaks]) rfl
  | @entered program flag received history hprogram =>
      obtain rfl := Option.some.inj hcalling
      exact hprogram.1.elim
  | @processing messages program received history hprogram =>
      obtain rfl := Option.some.inj hcalling
      rw [called_of_quiet hprogram.calls.1] at hstep
      obtain ⟨rfl, rfl⟩ := Prod.mk.inj hstep
      exact .still rfl (.processing ⟨hprogram.calls.2 _⟩) (by simp [Leaks]) (by simp)
  | @enquiring program received history hprogram =>
      obtain rfl := Option.some.inj hcalling
      rw [called_of_quiet hprogram.calls.1] at hstep
      obtain ⟨rfl, rfl⟩ := Prod.mk.inj hstep
      exact .still rfl (.enquiring ⟨hprogram.calls.2 _⟩) (by simp [Leaks]) (by simp)
  | selecting => cases hcalling
  | raising => cases hcalling
  | sleeping => cases hcalling
  | panicked => cases hcalling

theorem advances_enter {program : Action (Except IoError Unit)} {flag : Bool} {received : UInt32}
    {history : List Happening} {value : Unit} (hprogram : program = .ret (.ok value)) :
    Advances config ⟨.entering, some program, flag, received, history⟩ .returned .quiet
      ((⟨.entering, some program, flag, received, history⟩ : LoopState).enter config) 0 := by
  subst hprogram
  rw [LoopState.enter]
  split
  · rename_i hzero
    exact ⟨⟨[], .quiet, (List.append_nil _).symm, rfl, .panicked (by simp)⟩,
      fun hnot => absurd hzero hnot, fun _ => ⟨rfl, rfl, rfl⟩⟩
  · rename_i hzero
    exact .still rfl .selecting hzero rfl

theorem advances_failed {mode : LoopMode} {program : Action (Except IoError Unit)} {flag : Bool}
    {received : UInt32} {history : List Happening} {error : IoError}
    (hnotifier : flag = true → config.connection.hasAlarmNotifier = true)
    (hleaks : Leaks config ⟨mode, some program, flag, received, history⟩ .returned ↔
      inside mode = 1) (hinside : inside mode = 1 ∨ inside mode = 0) :
    Advances config ⟨mode, some program, flag, received, history⟩ .returned (sounding flag)
      ((⟨mode, some program, flag, received, history⟩ : LoopState).failed config error) 0 := by
  obtain ⟨new, alarm', hhistory, halarm, hfits, hleft⟩ :=
    @fits_failed config mode (some program) flag received history error hnotifier
  refine ⟨⟨new, alarm', hhistory, halarm, hfits⟩, fun hnot => ?_, fun h => ⟨rfl, hleaks.mp h, hleft⟩⟩
  rw [hleft, hinside.resolve_left fun h => hnot (hleaks.mpr h)]
  rfl

theorem advances_panicked {mode : LoopMode} {flag : Bool} {received : UInt32}
    {history : List Happening} (hnot : alarm ≠ .due) :
    Advances config ⟨mode, some .panic, flag, received, history⟩ .returned alarm
      ⟨.panicked, none, flag, received, history⟩ 0 := by
  have hleaks : Leaks config ⟨mode, some .panic, flag, received, history⟩ .returned ↔
      mode.inside = true := by
    cases mode <;> exact Iff.rfl
  refine ⟨⟨[], alarm, (List.append_nil _).symm, rfl, .panicked hnot⟩, fun h => ?_, fun h => ?_⟩
  · have houtside : inside mode = 0 := if_neg (mt hleaks.mpr h)
    rw [houtside]
    rfl
  · exact ⟨rfl, if_pos (hleaks.mp h), rfl⟩

theorem sounding_ne_due (flag : Bool) : sounding flag ≠ .due := by
  cases flag <;> simp [sounding]

theorem advances_returned (hfits : Fits config s alarm)
    (h : s.step config .returned = some (s', change)) :
    Advances config s .returned alarm s' change := by
  rcases exists_of_step_returned h with ⟨result, hreturned, hfinish, rfl⟩ | ⟨hpanic, rfl, rfl⟩
  · cases hfits with
    | @connecting program flag received history hnotifier hprogram =>
        obtain rfl := Option.some.inj hreturned
        cases result with
        | ok value => exact absurd rfl (hprogram value)
        | error error =>
            obtain rfl := Option.some.inj hfinish
            exact advances_failed hnotifier (by simp [Leaks, inside, LoopMode.inside]) (.inr rfl)
    | @clearing program received history hnotifier hprogram =>
        obtain rfl := Option.some.inj hreturned
        exact hprogram.elim
    | @entered program flag received history hprogram =>
        obtain rfl := Option.some.inj hreturned
        obtain rfl := Option.some.inj hprogram
        obtain rfl := Option.some.inj hfinish
        exact advances_enter rfl
    | @processing messages program received history hprogram =>
        obtain rfl := Option.some.inj hreturned
        obtain rfl := Option.some.inj hfinish
        obtain ⟨hprocess, hhistory, hinside⟩ := @fits_process config (.processing messages)
          (some (.ret result)) received history messages
        exact .still hhistory hprocess (by simp [Leaks]) (by rw [hinside]; rfl)
    | @enquiring program received history hprogram =>
        obtain rfl := Option.some.inj hreturned
        cases result with
        | ok value =>
            obtain rfl := Option.some.inj hfinish
            exact .still rfl .selecting (by simp [Leaks]) rfl
        | error error =>
            obtain rfl := Option.some.inj hfinish
            exact @advances_failed config .enquiring (.ret (.error error)) false received history
              error (by simp) (iff_of_true trivial rfl) (.inl rfl)
    | selecting => cases hreturned
    | raising => cases hreturned
    | sleeping => cases hreturned
    | panicked => cases hreturned
  · cases hfits with
    | @connecting program flag received history hnotifier hprogram =>
        obtain rfl := Option.some.inj hpanic
        exact advances_panicked (sounding_ne_due flag)
    | @clearing program received history hnotifier hprogram =>
        obtain rfl := Option.some.inj hpanic
        exact hprogram.elim
    | @entered program flag received history hprogram =>
        obtain rfl := Option.some.inj hpanic
        cases hprogram
    | processing =>
        obtain rfl := Option.some.inj hpanic
        exact advances_panicked (by simp)
    | enquiring =>
        obtain rfl := Option.some.inj hpanic
        exact advances_panicked (by simp)
    | selecting => cases hpanic
    | raising => cases hpanic
    | sleeping => cases hpanic
    | panicked => cases hpanic

theorem advances_disconnected {e : LoopEvent} {received : UInt32} {history : List Happening}
    (hnot : ¬ Leaks config ⟨.selecting, none, false, received, history⟩ e) :
    Advances config ⟨.selecting, none, false, received, history⟩ e .quiet
      ((⟨.selecting, none, false, received, history⟩ : LoopState).disconnected config) (-1) := by
  obtain ⟨new, alarm', hhistory, halarm, hfits, hleft⟩ :=
    @fits_disconnected config .selecting none received history
  exact .of_fits hhistory halarm hfits hnot (by rw [hleft]; rfl)

theorem advances_of_step (hfits : Fits config s alarm) (h : s.step config e = some (s', change)) :
    Advances config s e alarm s' change := by
  cases e with
  | replied oracle => exact advances_replied hfits h
  | returned => exact advances_returned hfits h
  | raised =>
      cases hfits <;> try cases h
      rename_i received history hnotifier
      exact .still rfl (@Fits.sleeping config true received history fun _ => hnotifier) id rfl
  | slept =>
      cases hfits <;> try cases h
      rename_i flag received history hnotifier
      exact .still rfl (fits_attempt hnotifier) id rfl
  | read messages =>
      cases hfits <;> try cases h
      rename_i received history
      obtain ⟨hprocess, hhistory, hinside⟩ := @fits_process config .selecting none (received + 1)
        history messages
      exact .still hhistory hprocess id (by rw [hinside]; rfl)
  | readFailed =>
      cases hfits <;> try cases h
      exact advances_disconnected id
  | enquireLinkTick =>
      cases hfits <;> try cases h
      exact .still rfl (.enquiring composed_quiet.sendEnquireLink) id rfl
  | inactiveTick =>
      cases hfits <;> try cases h
      rename_i received history
      change (if received = 0 then _ else _) = _ at h
      split at h
      · obtain ⟨rfl, rfl⟩ := Prod.mk.inj (Option.some.inj h)
        exact advances_disconnected id
      · obtain ⟨rfl, rfl⟩ := Prod.mk.inj (Option.some.inj h)
        exact .still rfl .selecting id rfl

end Loop

section Alarms

variable {config : LoopConfig} {s : LoopState}

/-- The history of a loop is one that the alarm allows, and the loop is where that says. -/
def Sound (config : LoopConfig) (s : LoopState) : Prop :=
  ∃ alarm, alarmAfter s.history = some alarm ∧ Fits config s alarm

theorem sound_new (config : LoopConfig) : Sound config (.new config) :=
  ⟨.quiet, rfl, fits_attempt (by simp)⟩

theorem Sound.step {s' : LoopState} {e : LoopEvent} {change : Int} (h : Sound config s)
    (hstep : s.step config e = some (s', change)) : Sound config s' := by
  obtain ⟨alarm, halarm, hfits⟩ := h
  obtain ⟨new, alarm', hhistory, hnew, hfits'⟩ := (advances_of_step hfits hstep).fits
  refine ⟨alarm', ?_, hfits'⟩
  rw [hhistory, alarmAfter_append, halarm, Option.bind_some, hnew]

theorem Fits.due {alarm : Alarm} (h : Fits config s alarm) (hdue : alarm = .due) :
    ∃ next, s.program = some (.act .clearAlarm next) := by
  cases h with
  | @connecting program flag received history =>
      cases flag <;> cases hdue
  | @clearing program received history hnotifier hprogram =>
      cases program with
      | ret value => exact hprogram.elim
      | panic => exact hprogram.elim
      | act c next =>
          obtain ⟨rfl, -⟩ := hprogram
          exact ⟨next, rfl⟩
  | @sleeping flag received history => cases flag <;> cases hdue
  | panicked hnot => exact absurd hdue hnot
  | entered => cases hdue
  | selecting => cases hdue
  | processing => cases hdue
  | enquiring => cases hdue
  | raising => cases hdue

theorem Fits.quiet {alarm : Alarm} (h : Fits config s alarm) (hmain : s.mode.inMainLoop = true) :
    alarm = .quiet := by
  cases h <;> first | rfl | cases hmain

theorem Sound.alarmsRight (h : Sound config s) : AlarmsRight s := by
  obtain ⟨alarm, halarm, hfits⟩ := h
  obtain ⟨halternate, -, hactive⟩ := alternate_of_alarmAfter halarm
  obtain ⟨hatBind, hcleared⟩ := cleared_of_alarmAfter halarm
  refine ⟨halternate, hatBind, fun front back hsplit hraised => ?_, fun hmain => ?_⟩
  · rcases hcleared front back hsplit hraised with hnext | ⟨hlast, hdue⟩
    · exact .inl hnext
    · exact .inr ⟨hlast, hfits.due hdue⟩
  · rw [hactive]
    exact not_not_intro (hfits.quiet hmain)

/-- In every run of a loop, the alarms are raised and cleared in turn, and an alarm that was raised is
cleared at the next bind that is accepted. -/
theorem alarms_right (config : LoopConfig) (h : (loopSystem config).Reachable s) : AlarmsRight s := by
  have hsound : Sound config s := by
    refine h.invariant (sound_new config) ?_
    intro s e s' hsound _ hstep
    obtain ⟨⟨next, change⟩, hnext, rfl⟩ := Option.map_eq_some_iff.mp hstep
    exact hsound.step hnext
  exact hsound.alarmsRight

end Alarms

section Gauge

/-- Any number of loops, and `SMSC_ACTIVE_CONNECTIONS`. -/
structure LoopsState where
  gauge : Int
  loops : List (LoopConfig × LoopState)

inductive LoopsEvent
  | spawn (config : LoopConfig)
  | loop (i : Nat) (e : LoopEvent)

namespace LoopsState

def step (s : LoopsState) : LoopsEvent → Option LoopsState
  | .spawn config => some { s with loops := s.loops ++ [(config, .new config)] }
  | .loop i e => do
      let (config, loop) ← s.loops[i]?
      let (loop, change) ← loop.step config e
      return ⟨s.gauge + change, s.loops.set i (config, loop)⟩

def active (s : LoopsState) : Int := (s.loops.countP fun entry => entry.2.mode.inside : Nat)

def leaks (s : LoopsState) : LoopsEvent → Prop
  | .spawn _ => False
  | .loop i e => ∃ entry, s.loops[i]? = some entry ∧ Leaks entry.1 entry.2 e

end LoopsState

def loopsSystem : System LoopsState LoopsEvent where
  initial := ⟨0, []⟩
  step := LoopsState.step

variable {s s' : LoopsState} {e : LoopsEvent}

def AllSound (s : LoopsState) : Prop := ∀ entry ∈ s.loops, Sound entry.1 entry.2

theorem countP_set {entries : List (LoopConfig × LoopState)} {i : Nat} {entry : LoopConfig × LoopState}
    (h : entries[i]? = some entry) (after : LoopConfig × LoopState) :
    (((entries.set i after).countP fun entry => entry.2.mode.inside : Nat) : Int) =
      (entries.countP fun entry => entry.2.mode.inside : Nat) +
        (inside after.2.mode - inside entry.2.mode) := by
  induction entries generalizing i with
  | nil => simp at h
  | cons first entries ih =>
      cases i with
      | zero =>
          obtain rfl := Option.some.inj h
          simp only [List.set_cons_zero, List.countP_cons, inside]
          split <;> split <;> omega
      | succ i =>
          have hrest := @ih i (by simpa using h)
          simp only [List.set_cons_succ, List.countP_cons]
          omega

theorem exists_of_step_loop {i : Nat} {e : LoopEvent} (h : s.step (.loop i e) = some s') :
    ∃ entry loop change, s.loops[i]? = some entry ∧ entry.2.step entry.1 e = some (loop, change) ∧
      s' = ⟨s.gauge + change, s.loops.set i (entry.1, loop)⟩ := by
  obtain ⟨entry, hentry, h⟩ := Option.bind_eq_some_iff.mp h
  obtain ⟨⟨loop, change⟩, hstep, h⟩ := Option.bind_eq_some_iff.mp h
  exact ⟨entry, loop, change, hentry, hstep, (Option.some.inj h).symm⟩

theorem AllSound.step (h : AllSound s) (hstep : s.step e = some s') : AllSound s' := by
  cases e with
  | spawn config =>
      obtain rfl := Option.some.inj hstep
      intro entry hentry
      rcases List.mem_append.mp hentry with hold | hnew
      · exact h entry hold
      · obtain rfl := List.mem_singleton.mp hnew
        exact sound_new config
  | loop i e =>
      obtain ⟨entry, loop, change, hentry, hloop, rfl⟩ := exists_of_step_loop hstep
      intro other hother
      rcases List.mem_or_eq_of_mem_set hother with hold | rfl
      · exact h other hold
      · exact (h entry (List.mem_of_getElem? hentry)).step hloop

/-- A step keeps the gauge in step with the number of the connections, unless it leaks. -/
theorem gauge_step (h : AllSound s) (hstep : s.step e = some s') :
    (¬ s.leaks e → s'.gauge - s.gauge = s'.active - s.active) ∧
      (s.leaks e → s'.gauge = s.gauge ∧ s'.active = s.active - 1) := by
  cases e with
  | spawn config =>
      obtain rfl := Option.some.inj hstep
      refine ⟨fun _ => ?_, fun hleaks => hleaks.elim⟩
      simp [LoopsState.active, LoopState.new, LoopState.attempt, LoopMode.inside]
  | loop i e =>
      obtain ⟨entry, loop, change, hentry, hloop, rfl⟩ := exists_of_step_loop hstep
      obtain ⟨alarm, -, hfits⟩ := h entry (List.mem_of_getElem? hentry)
      have hadvances := advances_of_step hfits hloop
      have hcount := countP_set hentry (entry.1, loop)
      simp only [LoopsState.active] at hcount ⊢
      constructor
      · intro hnot
        have hchange := hadvances.counts fun hleaks => hnot ⟨entry, hentry, hleaks⟩
        rw [hcount, hchange]
        omega
      · rintro ⟨other, hother, hleaks⟩
        obtain rfl := Option.some.inj (hentry.symm.trans hother)
        obtain ⟨hchange, hbefore, hafter⟩ := hadvances.leaks hleaks
        rw [hcount, hchange]
        simp only [hbefore, hafter]
        omega

theorem allSound_of_run {events : List LoopsEvent} (h : loopsSystem.run events = some s) :
    AllSound s := by
  refine (System.reachable_of_run h).invariant ?_ fun _ _ _ hsound _ hstep => hsound.step hstep
  intro entry hentry
  cases hentry

/-- In every state that a run comes through the gauge is the number of the active connections,
exactly when no connection is left by the error of an enquire_link or by a panic. -/
theorem gauge_iff (events : List LoopsEvent) :
    (∀ front, front <+: events → ∀ s, loopsSystem.run front = some s → s.gauge = s.active) ↔
      ∀ front e, front ++ [e] <+: events → ∀ s s', loopsSystem.run front = some s →
        s.step e = some s' → ¬ s.leaks e := by
  constructor
  · intro h front e hfront s s' hrun hstep hleaks
    have hafter : loopsSystem.run (front ++ [e]) = some s' := by
      rw [System.run_concat, hrun]
      exact hstep
    have hequal := h front ((List.prefix_append front [e]).trans hfront) s hrun
    have hequal' := h (front ++ [e]) hfront s' hafter
    obtain ⟨hgauge, hactive⟩ := (gauge_step (allSound_of_run hrun) hstep).2 hleaks
    omega
  · intro h front
    induction front using List.reverseRecOn with
    | nil =>
        intro _ s hrun
        obtain rfl := Option.some.inj hrun
        rfl
    | append_singleton front e ih =>
        intro hfront s' hrun
        rw [System.run_concat] at hrun
        obtain ⟨s, hbefore, hstep⟩ := Option.bind_eq_some_iff.mp hrun
        have hequal := ih ((List.prefix_append front [e]).trans hfront) s hbefore
        have hchange := (gauge_step (allSound_of_run hbefore) hstep).1
          (h front e hfront s s' hbefore hstep)
        omega

end Gauge

section Example

def exampleConfig : LoopConfig :=
  ⟨"10.0.0.1:2775", 30, 300, { ClientRun.exampleConnection with hasAlarmNotifier := true }⟩

def accepting : (c : ClientCall) → Reply c
  | .receive => some ClientRun.bindTransceiverRespPdu
  | c => ClientRun.willing c

/-- There is no connection, and what is written to one fails. -/
def refusing : (c : ClientCall) → Reply c
  | .connect => .error (otherError "Connection refused")
  | .writeAll _ => .error (otherError "Broken pipe")
  | c => ClientRun.willing c

/-- The first attempt fails, and the second one binds. -/
def restoredEvents : List LoopEvent :=
  [.replied refusing, .returned, .raised, .slept] ++ List.replicate 11 (.replied accepting) ++
    [.returned]

theorem alarms_right_restored :
    ∃ s, (loopSystem exampleConfig).run restoredEvents = some s ∧
      (notifications s.history).map Notification.description =
        ["Failed to connect to SMSC 10.0.0.1:2775: Connection refused",
          "Connection to SMSC 10.0.0.1:2775 restored"] ∧ AlarmsRight s := by
  have hrun : ((loopSystem exampleConfig).run restoredEvents).map
      (fun s => (notifications s.history).map Notification.description) =
        some ["Failed to connect to SMSC 10.0.0.1:2775: Connection refused",
          "Connection to SMSC 10.0.0.1:2775 restored"] := by decide +kernel
  obtain ⟨s, hs, hnotified⟩ := Option.map_eq_some_iff.mp hrun
  exact ⟨s, hs, hnotified, alarms_right exampleConfig (System.reachable_of_run hs)⟩

/-- A connection binds, and its first enquire_link cannot be written. -/
def leakingEvents : List LoopEvent :=
  List.replicate 10 (.replied accepting) ++ [.returned, .enquireLinkTick] ++
    List.replicate 4 (.replied refusing) ++ [.returned]

theorem not_gauge : ¬ ∀ s, loopsSystem.Reachable s → s.gauge = s.active := by
  intro h
  have hrun : (loopsSystem.run (.spawn exampleConfig :: leakingEvents.map (.loop 0))).map
      (fun s => (s.gauge, s.active)) = some (1, 0) := by decide +kernel
  obtain ⟨s, hs, hobserved⟩ := Option.map_eq_some_iff.mp hrun
  obtain ⟨hgauge, hactive⟩ := Prod.mk.inj hobserved
  have hequal := h s (System.reachable_of_run hs)
  rw [hgauge, hactive] at hequal
  cases hequal

end Example

end SmppHerald.ConnectionLoop
