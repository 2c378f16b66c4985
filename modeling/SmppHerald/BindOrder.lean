import SmppHerald.WriterLock

namespace SmppHerald.BindOrder

open SmppHerald.Buffer
open SmppHerald.ByteParser
open SmppHerald.ClientConnection
open SmppHerald.ClientRun
open SmppHerald.FairLock
open SmppHerald.Interaction
open SmppHerald.Io
open SmppHerald.Json
open SmppHerald.Message
open SmppHerald.TransitionSystem
open SmppHerald.WriterLock

section Model

variable (connection : SmscConnection)

def isBindRequest (octets : SMPPMessage) : Prop := ∃ n, octets = bindMessage connection n

theorem length_of_isBindRequest {connection : SmscConnection} {octets : SMPPMessage}
    (h : isBindRequest connection octets) : 16 < octets.length := by
  obtain ⟨n, rfl⟩ := h
  simp only [bindMessage, updateLength, writeU32, writeU8, writeCOctetStr, List.length_append,
    List.length_drop, length_beBytes, List.length_singleton]
  omega

/-- Nothing but the bind request has been written to a connection on which no bind had been
accepted. -/
def BindsFirst (s : ClientState) : Prop :=
  ∀ w ∈ s.session.writes, w.bound = true ∨ isBindRequest connection w.octets

/-- A sender gets the writer only while there is none or a bind has been accepted on its
connection. -/
def afterBind (s : ClientState) : ClientEvent → Bool
  | .replied (.sender i) _ =>
      match s.pendingCall (.sender i) with
      | some .lockWriter => s.session.writer.all s.session.bound
      | _ => true
  | _ => true

end Model

section Linking

/-- How far the connection loop is: it has connected, it has installed the writer, and its bind has
been accepted. -/
inductive Link
  | away | installed | bound
deriving DecidableEq

def Link.accept : Link → Link
  | .away => .away
  | _ => .bound

/-- The loop writes its bind request once it has installed the writer, and other messages when the
bind has been accepted. -/
def bindProtocol (connection : SmscConnection) : Protocol ClientCall Reply Link where
  allows link
    | .writeAll octets =>
        link = .bound ∨ (link = .installed ∧ isBindRequest connection octets)
    | _ => True
  next link
    | .connect, .ok () => .away
    | .replaceWriter, _ => .installed
    | .receive, some pdu => if bindAccepted pdu = true then link.accept else link
    | _, _ => link

variable {connection : SmscConnection} {α β : Type}

/-- A program of a loop whose bind has been accepted. -/
def Bound (connection : SmscConnection) (p : Action α) : Prop :=
  Conforms (bindProtocol connection) (fun link _ => link = .bound) .bound p

theorem Bound.bind {p : Action α} {f : α → Action β} (hp : Bound connection p)
    (hf : ∀ value, Bound connection (f value)) : Bound connection (p >>= f) := by
  refine conforms_bind.mpr (Conforms.mono ?_ hp)
  rintro _ value rfl
  cases value with
  | none => rfl
  | some value => exact hf value

theorem bound_sendMessage (message : SMPPMessage) : Bound connection (sendMessage message) := by
  have hlocked : Bound connection (sendLocked message) := by
    refine ⟨.inl rfl, fun written => ?_⟩
    cases written with
    | error e => rfl
    | ok =>
        change Bound connection (ite _ _ _)
        split
        · refine ⟨trivial, fun result => ?_⟩
          cases result <;> rfl
        · rfl
  have hrest : ∀ connected : Bool, Bound connection (sendAndUnlock message connected) := by
    intro connected
    cases connected with
    | true => exact hlocked.bind fun result => ⟨trivial, fun _ => rfl⟩
    | false => exact ⟨trivial, fun _ => rfl⟩
  rw [sendMessage_eq]
  split
  · exact ⟨trivial, fun _ => ⟨trivial, hrest⟩⟩
  · exact ⟨trivial, hrest⟩

theorem composed_bound : Composed fun _ p => Bound connection p where
  ret _ := rfl
  panic := rfl
  bind hp hf := hp.bind hf
  call c hc := by
    cases c <;> first | exact ⟨trivial, fun _ => rfl⟩ | simp [aside] at hc
  send := bound_sendMessage

theorem bindAccepted_of_bindResult {pdu : SMPPMessage} (h : bindResult (some pdu) = .ok ()) :
    bindAccepted pdu = true := by
  simp only [bindResult] at h
  unfold bindAccepted
  cases hdecoded : toJson pdu with
  | error e => simp [hdecoded] at h
  | ok response =>
      simp only [hdecoded] at h
      by_cases haccepted : isBindOk response = true
      · exact haccepted
      · simp [haccepted] at h

/-- The loop comes to its main part only when its bind has been accepted. -/
def Establishes (connection : SmscConnection) (link : Link) (p : Action (Except IoError α)) : Prop :=
  Conforms (bindProtocol connection) (fun link value => ∀ a, value = some (.ok a) → link = .bound)
    link p

theorem establishes_doBind : Establishes connection .installed (doBind connection) := by
  have hsent : Conforms (bindProtocol connection) (fun link _ => link = .installed) .installed
      (sendBindMessage connection) := by
    refine ⟨trivial, fun n => ⟨trivial, fun connected => ?_⟩⟩
    change Conforms (bindProtocol connection) _ .installed (ite _ _ _)
    split
    · exact ⟨.inr ⟨rfl, n, rfl⟩, fun _ => ⟨trivial, fun _ => rfl⟩⟩
    · exact ⟨trivial, fun _ => rfl⟩
  refine conforms_bind.mpr (hsent.mono ?_)
  rintro _ sent rfl
  cases sent with
  | none => simp
  | some sent =>
      cases sent with
      | error e => simp
      | ok =>
          refine ⟨trivial, fun received => ?_⟩
          cases received with
          | none =>
              intro a hbound
              cases hbound
          | some pdu =>
              intro a hbound
              have haccepted := bindAccepted_of_bindResult (Option.some.inj hbound)
              simp [bindProtocol, haccepted, Link.accept]

theorem establishes_establish (alarmActive : Bool) :
    Establishes connection .away (establish connection alarmActive) := by
  refine ⟨trivial, fun connected => ?_⟩
  cases connected with
  | error e =>
      intro a hbound
      cases hbound
  | ok =>
      refine ⟨trivial, fun _ => ⟨trivial, fun _ => ⟨trivial, fun _ => ?_⟩⟩⟩
      change Establishes connection .installed (doBind connection >>= _)
      refine conforms_bind.mpr (establishes_doBind.mono ?_)
      intro link bound hbound
      cases bound with
      | none => simp
      | some bound =>
          cases bound with
          | error e => simp
          | ok value =>
              refine ⟨trivial, fun _ => ?_⟩
              change Conforms (bindProtocol connection) _ link (ite _ _ _)
              split
              · exact ⟨trivial, fun _ _ _ => hbound value rfl⟩
              · exact fun _ _ => hbound value rfl

/-- What is known when the program of the loop has returned. -/
def linkedAfter : Mode → Link → Option (Except IoError (Option Value)) → Prop
  | .establishing, link, value => ∀ a, value = some (.ok a) → link = .bound
  | _, link, _ => link = .bound

def Links (connection : SmscConnection) (mode : Mode) (link : Link) (p : Program) : Prop :=
  Conforms (bindProtocol connection) (linkedAfter mode) link p

theorem links_establish (alarmActive : Bool) :
    Links connection .establishing .away
      (Except.map (fun _ => none) <$> establish connection alarmActive) := by
  refine conforms_map.mpr ((establishes_establish alarmActive).mono ?_)
  rintro link value hbound a hok
  cases value with
  | none => simp at hok
  | some value =>
      cases value with
      | error e => cases hok
      | ok value => exact hbound value rfl

theorem links_of_bound {p : Action (Except IoError Unit)} (h : Bound connection p) {mode : Mode}
    (hmode : mode ≠ .establishing) :
    Links connection mode .bound (Except.map (fun _ => none) <$> p) := by
  refine conforms_map.mpr (Conforms.mono ?_ h)
  rintro _ value rfl
  cases mode with
  | establishing => exact absurd rfl hmode
  | _ => rfl

theorem links_act {mode : Mode} {link : Link} {c : ClientCall} {next : Reply c → Program} :
    Links connection mode link (.act c next) ↔ (bindProtocol connection).allows link c ∧
      ∀ reply, Links connection mode ((bindProtocol connection).next link c reply) (next reply) :=
  Iff.rfl

theorem links_ret {mode : Mode} {link : Link} {result : Except IoError (Option Value)} :
    Links connection mode link (.ret result) ↔ linkedAfter mode link (some result) := Iff.rfl

-- from here on programs are not run any more
attribute [irreducible] Bound Links

end Linking

section Invariant

variable {connection : SmscConnection} {s s' : ClientState}

/-- What the loop knows of the writer and of its connection. -/
structure Represents (s : Session) (link : Link) : Prop where
  installed : link ≠ .away → s.writer = some s.current
  bound : link = .bound → s.bound s.current = true

theorem Represents.replied {s s' : Session} {link : Link} (h : Represents s link) {c : ClientCall}
    {reply : Reply c} (hmoves : SessionMoves s .connection c reply s') :
    Represents s' ((bindProtocol connection).next link c reply) := by
  cases hmoves with
  | connect => exact ⟨fun haway => absurd rfl haway, fun hbound => by cases hbound⟩
  | replaceWriter => exact ⟨fun _ => rfl, fun hbound => by cases hbound⟩
  | @receive pdu rest =>
      by_cases haccepted : bindAccepted pdu = true
      · simp only [bindProtocol, haccepted, if_true]
        refine ⟨fun haway => h.installed ?_, fun _ => ?_⟩
        · rintro rfl
          exact haway rfl
        · simp [Session.receive, haccepted]
      · simp only [bindProtocol, haccepted]
        exact ⟨h.installed, by simpa [Session.receive, haccepted] using h.bound⟩
  | beside hbeside =>
      cases c <;> first | exact ⟨h.installed, h.bound⟩ | simp [changesSession] at hbeside
  | _ => exact ⟨h.installed, h.bound⟩

theorem bound_of_reply {s s' : Session} {t : Task} {c : ClientCall} {reply : Reply c}
    (hmoves : SessionMoves s t c reply s') {k : Nat} (h : s.bound k = true) : s'.bound k = true := by
  cases hmoves with
  | receive =>
      unfold Session.receive
      simp only
      split
      · simp [Function.update_apply, h]
      · exact h
  | _ => exact h

theorem mem_writes_of_write {s : Session} {t : Task} {octets : SMPPMessage} {w : Write}
    (hw : w ∈ (s.write t octets).writes) :
    w ∈ s.writes ∨ ∃ k, s.writer = some k ∧ w = ⟨k, t, octets, s.bound k⟩ := by
  rcases List.mem_append.mp hw with hw | hw
  · exact .inl hw
  · obtain ⟨k, hk, rfl⟩ := Option.map_eq_some_iff.mp (Option.mem_toList.mp hw)
    exact .inr ⟨k, hk, rfl⟩

theorem mem_writes_of_reply {s s' : Session} {t : Task} {c : ClientCall} {reply : Reply c}
    (hmoves : SessionMoves s t c reply s') {w : Write} (hw : w ∈ s'.writes) :
    w ∈ s.writes ∨ ∃ octets k, c = .writeAll octets ∧ s.writer = some k ∧
      w = ⟨k, t, octets, s.bound k⟩ := by
  cases hmoves with
  | @writeAll octets =>
      rcases mem_writes_of_write hw with hw | ⟨k, hk, rfl⟩
      · exact .inl hw
      · exact .inr ⟨octets, k, rfl, hk, rfl⟩
  | _ => exact .inl hw

/-- What a sender calls for has nothing to do with the connections. -/
theorem represents_of_sender (h : SendInv s) {t : Task} {c : ClientCall} {next : Reply c → Program}
    {reply : Reply c} {session : Session} (hprogram : s.programs t = some (.act c next))
    (hmoves : SessionMoves s.session t c reply session) (ht : t ≠ .connection) {link : Link}
    (hlink : Represents s.session link) : Represents session link := by
  have hother : ∀ c', c' = .connect ∨ c' = .replaceWriter ∨ c' = .receive → c ≠ c' := by
    rintro c' hc' rfl
    exact ht (h.eq_connection hprogram hc')
  cases hmoves with
  | connect => exact absurd rfl (hother _ (.inl rfl))
  | replaceWriter => exact absurd rfl (hother _ (.inr (.inl rfl)))
  | receive => exact absurd rfl (hother _ (.inr (.inr rfl)))
  | _ => exact ⟨hlink.installed, hlink.bound⟩

structure BindInv (connection : SmscConnection) (s : ClientState) : Prop where
  sends : SendInv s
  loop : ∀ p, s.programs .connection = some p →
    ∃ link, Represents s.session link ∧ Links connection s.mode link p
  selecting : s.mode = .selecting → Represents s.session .bound
  holder : ∀ i, s.session.lock.holder = some (.sender i) →
    s.session.writer.all s.session.bound = true
  writes : BindsFirst connection s

/-- What changes neither the writer nor the connections, and what none of the senders gets it by. -/
theorem BindInv.keep (h : BindInv connection s) {session : Session} {programs : Task → Option Program}
    {messages : Nat → SMPPMessage} (hinv : SendInv ⟨session, s.mode, programs, messages⟩)
    (hprograms : programs .connection = s.programs .connection)
    (hwriter : session.writer = s.session.writer) (hcurrent : session.current = s.session.current)
    (hbound : session.bound = s.session.bound) (hwrites : session.writes = s.session.writes)
    (hholder : ∀ i, session.lock.holder = some (.sender i) →
      s.session.lock.holder = some (.sender i)) :
    BindInv connection ⟨session, s.mode, programs, messages⟩ := by
  have hrepresents : ∀ link, Represents s.session link → Represents session link := by
    intro link hlink
    exact ⟨by simpa [hwriter, hcurrent] using hlink.installed,
      by simpa [hbound, hcurrent] using hlink.bound⟩
  refine ⟨hinv, ?_, fun hmode => hrepresents _ (h.selecting hmode), ?_, ?_⟩
  · intro p hp
    obtain ⟨link, hlink, hlinks⟩ := h.loop p (hprograms ▸ hp)
    exact ⟨link, hrepresents link hlink, hlinks⟩
  · intro i hi
    simp only [hwriter, hbound]
    exact h.holder i (hholder i hi)
  · simp only [BindsFirst, hwrites]
    exact h.writes

theorem BindInv.start (h : BindInv connection s) {mode : Mode}
    {program : Action (Except IoError Unit)} {link : Link} (hlink : Represents s.session link)
    (hmode : mode ≠ .selecting)
    (hlinks : Links connection mode link (Except.map (fun _ => none) <$> program))
    (hinv : SendInv (s.start mode program)) : BindInv connection (s.start mode program) := by
  refine ⟨hinv, ?_, fun hselecting => absurd hselecting hmode, h.holder, h.writes⟩
  intro p hp
  simp only [ClientState.start, Function.update_self, Option.some.injEq] at hp
  exact ⟨link, hlink, hp ▸ hlinks⟩

theorem BindInv.stop (h : BindInv connection s) {mode : Mode}
    (hselecting : mode = .selecting → Represents s.session .bound)
    (hinv : SendInv (s.stop mode)) : BindInv connection (s.stop mode) := by
  refine ⟨hinv, ?_, hselecting, h.holder, h.writes⟩
  intro p hp
  simp [ClientState.stop] at hp

theorem BindInv.process (h : BindInv connection s) (hbound : Represents s.session .bound)
    (messages : List SMPPMessage) (hinv : SendInv (s.process connection messages)) :
    BindInv connection (s.process connection messages) := by
  cases messages with
  | nil => exact h.stop (fun _ => hbound) hinv
  | cons message messages =>
      have hprocess : Bound connection (processInMessage connection message) :=
        composed_bound.processInMessage message
      refine h.start hbound (by simp) ?_ hinv
      apply links_of_bound hprocess
      simp

theorem BindInv.finish (h : BindInv connection s) {result : Except IoError (Option Value)}
    (hret : s.programs .connection = some (.ret result))
    (hfinish : s.finish connection result = some s') (hinv : SendInv s') :
    BindInv connection s' := by
  obtain ⟨link, hlink, hlinks⟩ := h.loop _ hret
  rw [links_ret] at hlinks
  unfold ClientState.finish at hfinish
  split at hfinish
  · rename_i hmode
    obtain rfl := Option.some.inj hfinish
    rw [hmode] at hlinks
    exact h.stop (fun _ => hlinks _ rfl ▸ hlink) hinv
  · obtain rfl := Option.some.inj hfinish
    exact h.stop (by simp) hinv
  · rename_i hmode
    obtain rfl := Option.some.inj hfinish
    rw [hmode] at hlinks
    obtain rfl : link = .bound := hlinks
    exact h.process hlink _ hinv
  · rename_i hmode
    obtain rfl := Option.some.inj hfinish
    rw [hmode] at hlinks
    obtain rfl : link = .bound := hlinks
    exact h.stop (fun _ => hlink) hinv
  · obtain rfl := Option.some.inj hfinish
    exact h.stop (by simp) hinv
  · simp at hfinish

theorem holder_of_replied (h : SendInv s) {t : Task} {c : ClientCall} {next : Reply c → Program}
    {oracle : (c : ClientCall) → Reply c} {reply : Reply c} {session : Session}
    (hprogram : s.programs t = some (.act c next))
    (hreply : s.session.reply t c oracle = some (reply, session)) {i : Nat}
    (hi : session.lock.holder = some (.sender i)) :
    s.session.lock.holder = some (.sender i) ∨ (t = .sender i ∧ c = .lockWriter) := by
  have hchange := h.lock.lockChange hprogram hreply
  by_cases ht : Task.sender i = t
  · subst ht
    have hheld := hchange.held
    rw [decide_eq_true hi] at hheld
    cases c with
    | lockWriter => exact .inr ⟨rfl, rfl⟩
    | unlockWriter => simp [lockProtocol] at hheld
    | _ => exact .inl (of_decide_eq_true hheld.symm)
  · exact .inl ((hchange.other _ ht).mp hi)

theorem BindInv.replied (h : BindInv connection s) {t : Task} {c : ClientCall}
    {next : Reply c → Program} {oracle : (c : ClientCall) → Reply c} {reply : Reply c}
    {session : Session} (hprogram : s.programs t = some (.act c next))
    (hreply : s.session.reply t c oracle = some (reply, session))
    (hguard : afterBind s (.replied t oracle) = true)
    (hinv : SendInv { s with
      session := session
      programs := Function.update s.programs t (some (next reply)) }) :
    BindInv connection { s with
      session := session
      programs := Function.update s.programs t (some (next reply)) } := by
  have hmoves := sessionMoves_of_reply hreply
  have honward := onward_of_reply hmoves
  -- a sender that has the writer has it for a connection on which a bind has been accepted
  have hholder : ∀ i, session.lock.holder = some (.sender i) →
      session.writer.all session.bound = true := by
    intro i hi
    have hbefore : s.session.writer.all s.session.bound = true := by
      rcases holder_of_replied h.sends hprogram hreply hi with hhas | ⟨rfl, rfl⟩
      · exact h.holder i hhas
      · have hcall := pendingCall_eq_some_iff.mpr ⟨next, hprogram⟩
        simpa only [afterBind, hcall] using hguard
    have hreplace : c ≠ .replaceWriter := by
      rintro rfl
      have hconnection := h.sends.eq_connection hprogram (.inr (.inl rfl))
      have hhas := h.sends.holds hprogram (.inl rfl)
      subst hconnection
      rcases holder_of_replied h.sends hprogram hreply hi with hsender | ⟨hsender, -⟩
      · simp [hhas] at hsender
      · simp at hsender
    rw [honward.writer hreplace]
    cases hwriter : s.session.writer with
    | none => rfl
    | some k => exact bound_of_reply hmoves (by simpa [hwriter] using hbefore)
  have hwrites : ∀ octets k, c = .writeAll octets → s.session.writer = some k →
      s.session.bound k = true ∨ isBindRequest connection octets := by
    rintro octets k rfl hk
    cases t with
    | connection =>
        obtain ⟨link, hlink, hlinks⟩ := h.loop _ hprogram
        rcases (links_act.mp hlinks).1 with rfl | ⟨-, hbind⟩
        · left
          have hcurrent := hlink.installed (by simp)
          rw [hk] at hcurrent
          rw [Option.some.inj hcurrent]
          exact hlink.bound rfl
        · exact .inr hbind
    | sender i =>
        have hall := h.holder i (h.sends.holds hprogram (.inr ⟨octets, rfl⟩))
        exact .inl (by simpa [hk] using hall)
  refine ⟨hinv, ?_, ?_, hholder, ?_⟩
  · intro p hp
    by_cases ht : t = .connection
    · subst ht
      simp only [Function.update_self, Option.some.injEq] at hp
      obtain ⟨link, hlink, hlinks⟩ := h.loop _ hprogram
      exact ⟨_, hlink.replied hmoves, hp ▸ (links_act.mp hlinks).2 reply⟩
    · simp only [Function.update_of_ne (Ne.symm ht)] at hp
      obtain ⟨link, hlink, hlinks⟩ := h.loop p hp
      exact ⟨link, represents_of_sender h.sends hprogram hmoves ht hlink, hlinks⟩
  · intro hmode
    have ht : t ≠ .connection := by
      rintro rfl
      have hnone := h.sends.lock.idle (.inr hmode)
      simp [hnone] at hprogram
    exact represents_of_sender h.sends hprogram hmoves ht (h.selecting hmode)
  · intro w hw
    rcases mem_writes_of_reply hmoves hw with hw | ⟨octets, k, hc, hk, rfl⟩
    · exact h.writes w hw
    · exact hwrites octets k hc hk

theorem mem_writes_of_drop {s : Session} {t : Task} {written : Nat} {c : ClientCall} {w : Write}
    (hw : w ∈ (s.drop t written c).writes) :
    w ∈ s.writes ∨ ∃ octets k, c = .writeAll octets ∧ s.writer = some k ∧
      w = ⟨k, t, octets.take written, s.bound k⟩ := by
  cases c with
  | writeAll octets =>
      rcases mem_writes_of_write hw with hw | ⟨k, hk, rfl⟩
      · exact .inl hw
      · exact .inr ⟨octets, k, rfl, hk, rfl⟩
  | _ => exact .inl hw

theorem BindInv.dropped (h : BindInv connection s) {i written : Nat} {c : ClientCall}
    (hcall : s.pendingCall (.sender i) = some c) :
    BindInv connection { s with
      session := s.session.drop (.sender i) written c
      programs := Function.update s.programs (.sender i) none } := by
  have hkeeps := dropKeeps s.session (.sender i) written c
  have hne : Task.connection ≠ .sender i := by simp
  have hrepresents : ∀ link, Represents s.session link →
      Represents (s.session.drop (.sender i) written c) link := by
    intro link hlink
    constructor
    · rw [hkeeps.writer, hkeeps.current]
      exact hlink.installed
    · rw [hkeeps.bound, hkeeps.current]
      exact hlink.bound
  refine ⟨h.sends.dropped, fun p hp => ?_, fun hmode => hrepresents _ (h.selecting hmode),
    fun j hj => ?_, fun w hw => ?_⟩
  · simp only [Function.update_of_ne hne] at hp
    obtain ⟨link, hlink, hlinks⟩ := h.loop p hp
    exact ⟨link, hrepresents link hlink, hlinks⟩
  · simp only [hkeeps.lock, Mutex.holder_leave] at hj
    simp only [hkeeps.writer, hkeeps.bound]
    exact h.holder j hj.1
  · rcases mem_writes_of_drop hw with hw | ⟨octets, k, rfl, hk, rfl⟩
    · exact h.writes w hw
    · obtain ⟨next, hprogram⟩ := pendingCall_eq_some_iff.mp hcall
      have hall := h.holder i (h.sends.holds hprogram (.inr ⟨octets, rfl⟩))
      exact .inl (by simpa [hk] using hall)

theorem BindInv.step (h : BindInv connection s) {e : ClientEvent} (hguard : afterBind s e = true)
    (hstep : s.step connection e = some s') : BindInv connection s' := by
  have hinv : SendInv s' := h.sends.step hstep
  cases clientMoves_of_step hstep with
  | attempt =>
      have haway : Represents s.session .away := ⟨fun haway => absurd rfl haway, by simp⟩
      exact h.start haway (by simp) (links_establish _) hinv
  | arrived => exact h.keep hinv rfl rfl rfl rfl rfl fun _ => id
  | polled => exact h.keep hinv rfl rfl rfl rfl rfl fun _ => id
  | @read count hmode =>
      have hread := h.keep (h.sends.beside (s.session.incoming.drop count) (Nat.le_refl _))
        rfl rfl rfl rfl rfl fun _ => id
      exact hread.process (hread.selecting hmode) _ hinv
  | tick hmode =>
      refine h.start (h.selecting hmode) (by simp) ?_ hinv
      exact links_of_bound composed_bound.sendEnquireLink (by simp)
  | leave => exact h.stop (by simp) hinv
  | send =>
      refine h.keep hinv ?_ rfl rfl rfl rfl fun _ => id
      exact Function.update_of_ne (by simp) ..
  | ask _ hlock =>
      obtain ⟨-, rfl⟩ := Mutex.ask_eq_some_iff.mp hlock
      exact h.keep hinv rfl rfl rfl rfl rfl fun _ => id
  | replied hprogram hreply => exact h.replied hprogram hreply hguard hinv
  | finished hret hfinish => exact h.finish hret hfinish hinv
  | ended =>
      refine h.keep hinv ?_ rfl rfl rfl rfl fun _ => id
      exact Function.update_of_ne (by simp) ..
  | dropped hcall => exact h.dropped hcall

/-- While senders get the writer only when there is none or a bind has been accepted on its
connection, nothing but the bind request is written before. -/
theorem binds_first
    (h : (clientSystem connection).Reaches (fun s e => afterBind s e = true) s) :
    BindsFirst connection s := by
  have hinv : BindInv connection s := by
    refine h.invariant ?_ fun _ _ _ hinv hguard hstep => hinv.step hguard hstep
    refine ⟨sendInv_initial, ?_, ?_, ?_, ?_⟩ <;>
      simp [clientSystem, ClientState.new, Session.new, Mutex.free, BindsFirst]
  exact hinv.writes

end Invariant

section Example

/-- A submit_sm is sent when the bind has been accepted. -/
def boundEvents : List ClientEvent := connectEvents ++ bindEvents ++ submitEvents 0

theorem binds_first_bound :
    ∃ s, (clientSystem exampleConnection).runAllowed afterBind boundEvents = some s ∧
      s.session.writes.map Write.bound = [false, true] ∧ BindsFirst exampleConnection s := by
  have hrun : ((clientSystem exampleConnection).runAllowed afterBind boundEvents).map
      (fun s => s.session.writes.map Write.bound) = some [false, true] := by decide +kernel
  obtain ⟨s, hs, hwrites⟩ := Option.map_eq_some_iff.mp hrun
  exact ⟨s, hs, hwrites, binds_first (System.reaches_of_runAllowed hs)⟩

/-- A submit_sm is sent between the installation of the writer and the bind. -/
def earlyEvents : List ClientEvent := connectEvents ++ submitEvents 0

/-- A submit_sm is the first that the connection gets. -/
theorem not_bindsFirst_early :
    ∃ s, (clientSystem exampleConnection).Reachable s ∧ ¬ BindsFirst exampleConnection s := by
  have hrun : ((clientSystem exampleConnection).run earlyEvents).map
      (fun s => s.session.writes.map fun w => (w.octets, w.bound)) = some [(submitSmPdu, false)] := by
    decide +kernel
  obtain ⟨s, hs, hwrites⟩ := Option.map_eq_some_iff.mp hrun
  refine ⟨s, System.reachable_of_run hs, fun hfirst => ?_⟩
  obtain ⟨w, hw, hview⟩ : ∃ w ∈ s.session.writes, (w.octets, w.bound) = (submitSmPdu, false) :=
    List.mem_map.mp (hwrites ▸ List.mem_singleton_self _)
  obtain ⟨hoctets, hunbound⟩ := Prod.mk.inj hview
  rcases hfirst w hw with hbound | hbind
  · simp [hunbound] at hbound
  · have hlength := length_of_isBindRequest (hoctets ▸ hbind)
    simp [submitSmPdu] at hlength

end Example

end SmppHerald.BindOrder
