import SmppHerald.Library.Ledger
import SmppHerald.ServerRun
import SmppHerald.SqlStorage

/-!
The server with the SQL store: the requests, the delivery loop and the client manager. Every SQL
statement is a step of its own; a statement that fails is a step that does not happen.
-/

namespace SmppHerald.SqlDelivery

open SmppHerald.ClientManager
open SmppHerald.CommandIds
open SmppHerald.FieldCodecs
open SmppHerald.InMemoryStorage (SaveClock)
open SmppHerald.Interaction
open SmppHerald.Io
open SmppHerald.Json
open SmppHerald.Ledger
open SmppHerald.Message
open SmppHerald.ServerConnection
open SmppHerald.ServerMessage
open SmppHerald.ServerRun (routed)
open SmppHerald.SqlStorage
open SmppHerald.Time
open SmppHerald.TransitionSystem

section Model

variable {engine : RegexEngine} {Connection : Type}

/-- Where the delivery loop is: in `select!`, before the next row, in
`handle_schedule_delivery_message`, or on its way to delete a row. -/
inductive LoopPhase
  | waiting
  | delivering (values : List (Nat × Value))
  | handling (id : Nat) (rest : Action Unit) (values : List (Nat × Value))
  | deleting (id : Nat) (values : List (Nat × Value))
  | panicked

/-- `superseding` and `updating` are what saves and replaces have selected and not written yet. The
ids of the submit_sm and data_sm that were stored are in `accepted`, those for which
`send_message` returned `Ok` in `sent`, and those that were cancelled, superseded or expired in
`withdrawn`. -/
structure SqlState (engine : RegexEngine) (Connection : Type) where
  rows : List Row
  nextId : Nat
  superseding : List Nat
  updating : List Update
  clients : Connections engine Connection
  phase : LoopPhase
  accepted : List Nat
  sent : List Nat
  withdrawn : List Nat

def rowIds (rows : List Row) : List Nat := rows.map Row.id

inductive SqlEvent (Connection : Type)
  | addClient (peerAddress addressRange : String) (connection : Connection)
  | removeClient (peerAddress : String)
  | selectSuperseded (message : Value)
  | deleteSuperseded (id : Nat)
  | insert (clock : SaveClock) (now : Instant) (messageId : String) (message : Value)
  | cancel (cancelSm : Value)
  | selectReplaced (scheduleNow validityNow : Instant) (replaceSm : Value)
  | update (index : Nat)
  | cleanTick (now : Instant)
  -- the order in which the database returns the rows
  | deliveryTick (now : Instant) (order : List Nat)
  | next
  | reply (oracle : (c : ServerCall) → Reply c) (accepts : Connection → Bool)
  | handled
  | delete (succeeded : Bool)

/-- Delete rows for a good reason. -/
def SqlState.withdraw (s : SqlState engine Connection) (rows : List Row) :
    SqlState engine Connection :=
  { s with rows := rows, withdrawn := s.withdrawn ++ lost (rowIds s.rows) (rowIds rows) }

def isSubmit (message : Value) : Bool :=
  extractCommandId message == some .submitSm || extractCommandId message == some .dataSm

/-- The reply with which `send_message` says that it has sent the message. -/
def isSent : Event Reply → Bool
  | ⟨.sendMessage _ _, .ok ()⟩ => true
  | _ => false

variable (server : ServerContext)

def SqlState.step (s : SqlState engine Connection) (event : SqlEvent Connection) :
    Option (SqlState engine Connection) :=
  match event, s.phase with
  | .addClient peerAddress addressRange connection, _ =>
      some { s with clients := addClient s.clients peerAddress addressRange connection }
  | .removeClient peerAddress, _ => some { s with clients := removeClient s.clients peerAddress }
  | .selectSuperseded message, _ =>
      if isReplaceIfPresent message = true then
        some { s with
          superseding := s.superseding ++ rowIds (s.rows.filter (isSuperseded message)) }
      else none
  | .deleteSuperseded id, _ =>
      if id ∈ s.superseding then
        some { s.withdraw (s.rows.filter fun row => row.id ≠ id) with
          superseding := s.superseding.erase id }
      else none
  | .insert clock now messageId message, _ =>
      match newRow server.calendar server.config.getDefaultValidityPeriod clock now messageId
          message s.nextId with
      | .ok row =>
          some { s with
            rows := s.rows ++ [row]
            nextId := s.nextId + 1
            accepted := if isSubmit message = true then s.nextId :: s.accepted else s.accepted }
      | _ => none
  | .cancel cancelSm, _ => some (s.withdraw (s.rows.filter fun row => !isCancelled cancelSm row))
  | .selectReplaced scheduleNow validityNow replaceSm, _ =>
      match replaceTimes server.calendar scheduleNow validityNow replaceSm with
      | .ok times => some { s with updating := s.updating ++ updates replaceSm times s.rows }
      | _ => none
  | .update index, _ =>
      match s.updating[index]? with
      | some update =>
          some { s with
            rows := s.rows.map update.apply
            updating := s.updating.eraseIdx index }
      | none => none
  | .cleanTick now, .waiting =>
      some (s.withdraw (s.rows.filter fun row => !row.isExpired server.calendar now))
  | .deliveryTick now order, .waiting =>
      let values := deliveries server.calendar now s.rows
      if order.isPerm (List.range values.length) = true then
        some { s with phase := .delivering (order.filterMap fun i => values[i]?) }
      else none
  | .next, .delivering [] => some { s with phase := .waiting }
  | .next, .delivering (value :: values) =>
      some { s with
        phase := .handling value.1 (handleScheduleDeliveryMessage server value.2) values }
  | .reply oracle accepts, .handling id (.act c next) values =>
      let answer := routed accepts s.clients oracle c
      some { s with
        phase := .handling id (next answer) values
        sent := if isSent ⟨c, answer⟩ = true then id :: s.sent else s.sent }
  -- the handler always returns `Ok`
  | .handled, .handling id (.ret ()) values => some { s with phase := .deleting id values }
  | .handled, .handling _ .panic _ => some { s with phase := .panicked }
  | .delete succeeded, .deleting id values =>
      some { s with
        rows := if succeeded = true then s.rows.filter fun row => row.id ≠ id else s.rows
        phase := .delivering values }
  | _, _ => none

/-- The steps, one by one. -/
inductive SqlMoves (s : SqlState engine Connection) :
    SqlEvent Connection → SqlState engine Connection → Prop
  | clientAdded {peerAddress addressRange connection} :
      SqlMoves s (.addClient peerAddress addressRange connection)
        { s with clients := addClient s.clients peerAddress addressRange connection }
  | clientRemoved {peerAddress} : SqlMoves s (.removeClient peerAddress)
      { s with clients := removeClient s.clients peerAddress }
  | supersededSelected {message} : isReplaceIfPresent message = true →
      SqlMoves s (.selectSuperseded message)
        { s with
          superseding := s.superseding ++ rowIds (s.rows.filter (isSuperseded message)) }
  | superseded {id} : id ∈ s.superseding →
      SqlMoves s (.deleteSuperseded id)
        { s.withdraw (s.rows.filter fun row => row.id ≠ id) with
          superseding := s.superseding.erase id }
  | inserted {clock now messageId message row} :
      newRow server.calendar server.config.getDefaultValidityPeriod clock now messageId message
        s.nextId = .ok row →
      SqlMoves s (.insert clock now messageId message)
        { s with
          rows := s.rows ++ [row]
          nextId := s.nextId + 1
          accepted := if isSubmit message = true then s.nextId :: s.accepted else s.accepted }
  | cancelled {cancelSm} : SqlMoves s (.cancel cancelSm)
      (s.withdraw (s.rows.filter fun row => !isCancelled cancelSm row))
  | replacedSelected {scheduleNow validityNow replaceSm times} :
      replaceTimes server.calendar scheduleNow validityNow replaceSm = .ok times →
      SqlMoves s (.selectReplaced scheduleNow validityNow replaceSm)
        { s with updating := s.updating ++ updates replaceSm times s.rows }
  | updated {index update} : s.updating[index]? = some update →
      SqlMoves s (.update index)
        { s with rows := s.rows.map update.apply, updating := s.updating.eraseIdx index }
  | cleaned {now} : s.phase = .waiting → SqlMoves s (.cleanTick now)
      (s.withdraw (s.rows.filter fun row => !row.isExpired server.calendar now))
  | selected {now order} : s.phase = .waiting → SqlMoves s (.deliveryTick now order)
      { s with
        phase := .delivering
          (order.filterMap fun i => (deliveries server.calendar now s.rows)[i]?) }
  | ended : s.phase = .delivering [] → SqlMoves s .next { s with phase := .waiting }
  | taken {value values} : s.phase = .delivering (value :: values) →
      SqlMoves s .next
        { s with
          phase := .handling value.1 (handleScheduleDeliveryMessage server value.2) values }
  | replied {oracle accepts id c next values} : s.phase = .handling id (.act c next) values →
      SqlMoves s (.reply oracle accepts)
        { s with
          phase := .handling id (next (routed accepts s.clients oracle c)) values
          sent :=
            if isSent ⟨c, routed accepts s.clients oracle c⟩ = true then id :: s.sent
            else s.sent }
  | handled {id values} : s.phase = .handling id (.ret ()) values →
      SqlMoves s .handled { s with phase := .deleting id values }
  | panicked {id values} : s.phase = .handling id .panic values →
      SqlMoves s .handled { s with phase := .panicked }
  | deleted {succeeded id values} : s.phase = .deleting id values →
      SqlMoves s (.delete succeeded)
        { s with
          rows := if succeeded = true then s.rows.filter fun row => row.id ≠ id else s.rows
          phase := .delivering values }

variable {server} in
theorem sqlMoves_of_step {s s' : SqlState engine Connection} {event : SqlEvent Connection}
    (h : s.step server event = some s') : SqlMoves server s event s' := by
  unfold SqlState.step at h
  split at h
  · obtain rfl := Option.some.inj h
    exact .clientAdded
  · obtain rfl := Option.some.inj h
    exact .clientRemoved
  · split at h
    · rename_i hpresent
      obtain rfl := Option.some.inj h
      exact .supersededSelected hpresent
    · cases h
  · split at h
    · rename_i hmem
      obtain rfl := Option.some.inj h
      exact .superseded hmem
    · cases h
  · split at h
    · rename_i hrow
      obtain rfl := Option.some.inj h
      exact .inserted hrow
    · cases h
  · obtain rfl := Option.some.inj h
    exact .cancelled
  · split at h
    · rename_i htimes
      obtain rfl := Option.some.inj h
      exact .replacedSelected htimes
    · cases h
  · split at h
    · rename_i hupdate
      obtain rfl := Option.some.inj h
      exact .updated hupdate
    · cases h
  · rename_i hphase
    obtain rfl := Option.some.inj h
    exact .cleaned hphase
  · rename_i hphase
    simp only at h
    split at h
    · obtain rfl := Option.some.inj h
      exact .selected hphase
    · cases h
  · rename_i hphase
    obtain rfl := Option.some.inj h
    exact .ended hphase
  · rename_i hphase
    obtain rfl := Option.some.inj h
    exact .taken hphase
  · rename_i hphase
    obtain rfl := Option.some.inj h
    exact .replied hphase
  · rename_i hphase
    obtain rfl := Option.some.inj h
    exact .handled hphase
  · rename_i hphase
    obtain rfl := Option.some.inj h
    exact .panicked hphase
  · rename_i hphase
    obtain rfl := Option.some.inj h
    exact .deleted hphase
  · cases h

/-- The server with an empty table. -/
def sqlSystem (engine : RegexEngine) (Connection : Type) :
    System (SqlState engine Connection) (SqlEvent Connection) where
  initial := ⟨[], 0, [], [], [], .waiting, [], [], []⟩
  step := SqlState.step server

/-- Every submit_sm and data_sm that was stored still is, or it was sent to a client, cancelled or
superseded, or it expired. -/
def KeptUntilSent (s : SqlState engine Connection) : Prop :=
  Accounted s.accepted (rowIds s.rows) (s.sent ++ s.withdrawn)

/-- When a message is sent whose row is still there, a client that takes its address accepts it. -/
def harmless (s : SqlState engine Connection) (event : SqlEvent Connection) : Bool :=
  match event, s.phase with
  | .reply _ accepts, .handling id (.act (.sendMessage address _) _) _ =>
      (getWriter s.clients address).any accepts || id ∉ rowIds s.rows
  | _, _ => true

end Model

section Upcoming

variable {engine : RegexEngine} {Connection : Type} {server : ServerContext}

/-- The messages that the loop is still to hand over. -/
def LoopPhase.upcoming : LoopPhase → List (Nat × Value)
  | .delivering values => values
  | .handling _ _ values => values
  | .deleting _ values => values
  | _ => []

theorem mem_of_mem_filterMap_getElem? {α : Type} {order : List Nat} {values : List α} {value : α}
    (h : value ∈ order.filterMap fun i => values[i]?) : value ∈ values := by
  obtain ⟨i, -, hi⟩ := List.mem_filterMap.mp h
  exact List.mem_of_getElem? hi

theorem mem_upcoming_step {s s' : SqlState engine Connection} {event : SqlEvent Connection}
    (h : s.step server event = some s') {value : Nat × Value} (hvalue : value ∈ s'.phase.upcoming) :
    value ∈ s.phase.upcoming ∨ ∃ now order, event = .deliveryTick now order ∧
      value ∈ deliveries server.calendar now s.rows := by
  cases sqlMoves_of_step h with
  | selected _ => exact .inr ⟨_, _, rfl, mem_of_mem_filterMap_getElem? hvalue⟩
  | ended _ => cases hvalue
  | taken hphase =>
      rw [hphase]
      exact .inl (List.mem_cons_of_mem _ hvalue)
  | replied hphase =>
      rw [hphase]
      exact .inl hvalue
  | handled hphase =>
      rw [hphase]
      exact .inl hvalue
  | panicked _ => cases hvalue
  | deleted hphase =>
      rw [hphase]
      exact .inl hvalue
  | _ => exact .inl hvalue

end Upcoming

section Deliverable

variable {server : ServerContext}

/-- The handler sends something before it returns. -/
def Sends : Action Unit → Prop
  | .ret _ => False
  | .panic => True
  | .act c next => (∃ address octets, c = .sendMessage address octets) ∨ ∀ reply, Sends (next reply)

/-- What every stored submit_sm or data_sm is: a message that has a destination. -/
structure Deliverable (message : Value) : Prop where
  submit : isSubmit message = true
  destination : ∃ destAddr, (message.get "destination_addr").bind Value.asStr = some destAddr

theorem Deliverable.updated {message : Value} (h : Deliverable message) (replaceSm : Value) :
    Deliverable (updatedMessage replaceSm message) := by
  have hget : ∀ key ∈ ["command_id", "command_name", "destination_addr"],
      (updatedMessage replaceSm message).get key = message.get key := by
    intro key hkey
    refine get_updatedMessage ?_ _ _
    simp only [List.mem_cons, List.not_mem_nil, or_false] at hkey
    rcases hkey with rfl | rfl | rfl <;> decide
  constructor
  · have hsubmit := h.submit
    unfold isSubmit at hsubmit ⊢
    rwa [extractCommandId_congr (hget _ (by simp)) (hget _ (by simp))]
  · obtain ⟨destAddr, hdest⟩ := h.destination
    exact ⟨destAddr, by rw [hget _ (by simp), hdest]⟩

/-- The delivery of a stored message sends it or panics. -/
theorem Deliverable.sends {message : Value} (h : Deliverable message) :
    Sends (handleScheduleDeliveryMessage server message) := by
  obtain ⟨destAddr, hdest⟩ := h.destination
  have hforward : ∀ n, Sends (forwardMessageToClient server (asDeliverSm n message)) := by
    intro n
    unfold forwardMessageToClient
    rw [get_asDeliverSm_of_ne (by decide) (by decide), hdest]
    simp only
    split
    · exact .inl ⟨_, _, rfl⟩
    · trivial
  have hsubmit := h.submit
  simp only [isSubmit, Bool.or_eq_true, beq_iff_eq] at hsubmit
  unfold handleScheduleDeliveryMessage
  rcases hsubmit with hcommand | hcommand
  · rw [hcommand]
    exact .inr hforward
  · rw [hcommand]
    exact .inr hforward

end Deliverable

section Invariant

variable {engine : RegexEngine} {Connection : Type} {server : ServerContext}

/-- The id has been given to a row, and if it is that of an accepted message then `p` holds. -/
structure Known (nextId : Nat) (accepted : List Nat) (id : Nat) (p : Prop) : Prop where
  below : id < nextId
  holds : id ∈ accepted → p

theorem Known.imp {nextId : Nat} {accepted : List Nat} {id : Nat} {p q : Prop}
    (h : Known nextId accepted id p) (hpq : p → q) : Known nextId accepted id q :=
  ⟨h.below, fun hmem => hpq (h.holds hmem)⟩

theorem Known.insert {nextId : Nat} {accepted accepted' : List Nat} {id : Nat} {p : Prop}
    (h : Known nextId accepted id p)
    (haccepted : ∀ id ∈ accepted', id = nextId ∨ id ∈ accepted) :
    Known (nextId + 1) accepted' id p := by
  refine ⟨Nat.lt_succ_of_lt h.below, fun hmem => ?_⟩
  rcases haccepted id hmem with rfl | hmem
  · exact absurd h.below (Nat.lt_irrefl _)
  · exact h.holds hmem

/-- What the loop is still to deliver, is delivering or is about to delete. -/
def PhaseInv (nextId : Nat) (accepted settled : List Nat) : LoopPhase → Prop
  | .delivering values => ∀ value ∈ values, Known nextId accepted value.1 (Deliverable value.2)
  | .handling id rest values =>
      Known nextId accepted id (Sends rest ∨ id ∈ settled) ∧
        ∀ value ∈ values, Known nextId accepted value.1 (Deliverable value.2)
  | .deleting id values =>
      Known nextId accepted id (id ∈ settled) ∧
        ∀ value ∈ values, Known nextId accepted value.1 (Deliverable value.2)
  | _ => True

theorem PhaseInv.mono {nextId : Nat} {accepted settled settled' : List Nat} {phase : LoopPhase}
    (h : PhaseInv nextId accepted settled phase)
    (hsettled : ∀ id ∈ settled, id ∈ settled') :
    PhaseInv nextId accepted settled' phase := by
  cases phase with
  | handling id rest values =>
      exact ⟨h.1.imp fun hid => hid.imp_right (hsettled id), h.2⟩
  | deleting id values => exact ⟨h.1.imp (hsettled id), h.2⟩
  | _ => exact h

theorem PhaseInv.insert {nextId : Nat} {accepted accepted' settled : List Nat} {phase : LoopPhase}
    (h : PhaseInv nextId accepted settled phase)
    (haccepted : ∀ id ∈ accepted', id = nextId ∨ id ∈ accepted) :
    PhaseInv (nextId + 1) accepted' settled phase := by
  cases phase with
  | delivering values => exact fun value hvalue => (h value hvalue).insert haccepted
  | handling id rest values =>
      exact ⟨h.1.insert haccepted, fun value hvalue => (h.2 value hvalue).insert haccepted⟩
  | deleting id values =>
      exact ⟨h.1.insert haccepted, fun value hvalue => (h.2 value hvalue).insert haccepted⟩
  | _ => trivial

structure Inv (s : SqlState engine Connection) : Prop where
  accepted : ∀ id ∈ s.accepted, id < s.nextId
  rows : ∀ row ∈ s.rows, Known s.nextId s.accepted row.id (Deliverable row.message)
  updating : ∀ update ∈ s.updating,
    Known s.nextId s.accepted update.id (Deliverable update.message)
  phase : PhaseInv s.nextId s.accepted (s.sent ++ s.withdrawn) s.phase
  kept : KeptUntilSent s

theorem Inv.select {s : SqlState engine Connection} (h : Inv s)
    (clients : Connections engine Connection) (superseding : List Nat) :
    Inv { s with clients := clients, superseding := superseding } :=
  ⟨h.accepted, h.rows, h.updating, h.phase, h.kept⟩

theorem Inv.withdraw {s : SqlState engine Connection} (h : Inv s) {rows : List Row}
    (hrows : ∀ row ∈ rows, row ∈ s.rows) : Inv (s.withdraw rows) := by
  have hsettled : ∀ id ∈ s.sent ++ s.withdrawn,
      id ∈ (s.withdraw rows).sent ++ (s.withdraw rows).withdrawn := by
    intro id hid
    rw [SqlState.withdraw, ← List.append_assoc]
    exact List.mem_append_left _ hid
  exact {
    accepted := h.accepted
    rows := fun row hrow => h.rows row (hrows row hrow)
    updating := h.updating
    phase := h.phase.mono hsettled
    kept := by
      refine h.kept.lose (rowIds rows) ?_
      rintro id (hid | hid)
      · exact hsettled id hid
      · exact List.mem_append_right _ (List.mem_append_right _ hid) }

theorem newRow_ok {calendar : Calendar} {defaultValidityPeriod : UInt32} {clock : SaveClock}
    {now : Instant} {messageId : String} {message : Value} {id : Nat} {row : Row}
    (h : newRow calendar defaultValidityPeriod clock now messageId message id = .ok row) :
    row.id = id ∧ row.message = message ∧ message.strField "destination_addr" ≠ "" := by
  unfold newRow at h
  simp only at h
  split at h
  · simp at h
  · rename_i hdest
    obtain ⟨scheduleDeliveryTime, -, h⟩ := Outcome.bind_eq_ok_iff.mp h
    split at h
    · simp at h
    · obtain ⟨validityPeriod, -, h⟩ := Outcome.bind_eq_ok_iff.mp h
      obtain rfl := Outcome.ok.inj h
      exact ⟨rfl, rfl, hdest⟩

theorem Inv.insert {s : SqlState engine Connection} (h : Inv s)
    {calendar : Calendar} {defaultValidityPeriod : UInt32} {clock : SaveClock} {now : Instant}
    {messageId : String} {message : Value} {row : Row}
    (hrow : newRow calendar defaultValidityPeriod clock now messageId message s.nextId = .ok row) :
    Inv { s with
      rows := s.rows ++ [row]
      nextId := s.nextId + 1
      accepted := if isSubmit message = true then s.nextId :: s.accepted else s.accepted } := by
  obtain ⟨hid, hmessage, hdest⟩ := newRow_ok hrow
  have haccepted : ∀ id ∈ (if isSubmit message = true then s.nextId :: s.accepted
      else s.accepted), id = s.nextId ∨ id ∈ s.accepted := by
    intro id hmem
    split at hmem
    · exact List.mem_cons.mp hmem
    · exact .inr hmem
  have hdeliverable : isSubmit message = true → Deliverable message := by
    intro hsubmit
    refine ⟨hsubmit, ?_⟩
    cases hget : (message.get "destination_addr").bind Value.asStr with
    | none => simp [Value.strField, hget] at hdest
    | some destAddr => exact ⟨destAddr, rfl⟩
  constructor
  · intro id hmem
    rcases haccepted id hmem with rfl | hmem
    · exact Nat.lt_succ_self _
    · exact Nat.lt_succ_of_lt (h.accepted id hmem)
  · intro other hother
    rcases List.mem_append.mp hother with hother | hother
    · exact (h.rows other hother).insert haccepted
    · obtain rfl := List.mem_singleton.mp hother
      refine ⟨hid ▸ Nat.lt_succ_self _, fun hmem => ?_⟩
      rw [hmessage]
      refine hdeliverable ?_
      by_contra hnot
      rw [if_neg hnot, hid] at hmem
      exact absurd (h.accepted _ hmem) (Nat.lt_irrefl _)
  · exact fun update hupdate => (h.updating update hupdate).insert haccepted
  · exact h.phase.insert haccepted
  · refine h.kept.step ?_ ?_ fun id hid => hid
    · intro id hmem
      rcases haccepted id hmem with rfl | hmem
      · exact .inr (.inl (by simp [rowIds, hid]))
      · exact .inl hmem
    · intro id hmem
      exact .inl (by simp only [rowIds, List.map_append]; exact List.mem_append_left _ hmem)

theorem Inv.selectReplaced {s : SqlState engine Connection} (h : Inv s) (replaceSm : Value)
    (times : Option String × Option String) :
    Inv { s with updating := s.updating ++ updates replaceSm times s.rows } := by
  refine ⟨h.accepted, h.rows, ?_, h.phase, h.kept⟩
  intro update hupdate
  rcases List.mem_append.mp hupdate with hupdate | hupdate
  · exact h.updating update hupdate
  · obtain ⟨row, hrow, rfl⟩ := List.mem_map.mp hupdate
    exact (h.rows row (List.mem_of_mem_filter hrow)).imp fun hdeliverable =>
      hdeliverable.updated replaceSm

theorem rowIds_update (update : Update) (rows : List Row) :
    rowIds (rows.map update.apply) = rowIds rows := by
  rw [rowIds, rowIds, List.map_map]
  refine List.map_congr_left fun row _ => ?_
  simp only [Function.comp_apply, Update.apply]
  split <;> rfl

theorem Inv.update {s : SqlState engine Connection} (h : Inv s) {index : Nat}
    {update : Update} (hupdate : s.updating[index]? = some update) :
    Inv { s with
      rows := s.rows.map update.apply, updating := s.updating.eraseIdx index } := by
  have hknown := h.updating update (List.mem_of_getElem? hupdate)
  refine ⟨h.accepted, ?_, fun other hother => h.updating other (List.mem_of_mem_eraseIdx hother),
    h.phase, ?_⟩
  · intro row hrow
    obtain ⟨before, hbefore, rfl⟩ := List.mem_map.mp hrow
    unfold Update.apply
    split
    · rename_i hid
      exact hid ▸ hknown
    · exact h.rows before hbefore
  · have hkept := h.kept
    unfold KeptUntilSent at hkept ⊢
    rwa [rowIds_update]

theorem Inv.proceed {s : SqlState engine Connection} (h : Inv s) {phase : LoopPhase}
    (hphase : PhaseInv s.nextId s.accepted (s.sent ++ s.withdrawn) phase) :
    Inv { s with phase := phase } :=
  ⟨h.accepted, h.rows, h.updating, hphase, h.kept⟩

theorem Inv.deliveryTick {s : SqlState engine Connection} (h : Inv s) (calendar : Calendar)
    (now : Instant) (order : List Nat) :
    Inv { s with
      phase := .delivering (order.filterMap fun i => (deliveries calendar now s.rows)[i]?) } := by
  refine h.proceed fun value hvalue => ?_
  obtain ⟨row, hrow, rfl⟩ := List.mem_map.mp (mem_of_mem_filterMap_getElem? hvalue)
  exact h.rows row (List.mem_of_mem_filter hrow)

/-- A call of the handler gets its reply. Where it sends the message, it is accepted by a client,
or the row is gone already. -/
theorem Inv.reply {s : SqlState engine Connection} (h : Inv s) {id : Nat} {c : ServerCall}
    {next : Reply c → Action Unit} {values : List (Nat × Value)}
    (hphase : s.phase = .handling id (.act c next) values) (reply : Reply c)
    (hreply : ∀ address octets, c = .sendMessage address octets →
      isSent ⟨c, reply⟩ = true ∨ id ∉ rowIds s.rows) :
    Inv { s with
      phase := .handling id (next reply) values
      sent := if isSent ⟨c, reply⟩ = true then id :: s.sent else s.sent } := by
  have hsent : ∀ other ∈ s.sent ++ s.withdrawn,
      other ∈ (if isSent ⟨c, reply⟩ = true then id :: s.sent else s.sent) ++ s.withdrawn := by
    intro other hother
    split
    · exact List.mem_cons_of_mem _ hother
    · exact hother
  have hbefore := h.phase
  rw [hphase] at hbefore
  obtain ⟨⟨hbelow, hsends⟩, hvalues⟩ := hbefore
  refine ⟨h.accepted, h.rows, h.updating, ⟨⟨hbelow, fun hmem => ?_⟩, hvalues⟩, ?_⟩
  · rcases hsends hmem with (⟨address, octets, hcall⟩ | hlater) | hsettled
    · right
      rcases hreply address octets hcall with hsend | hgone
      · rw [if_pos hsend]
        exact List.mem_append_left _ List.mem_cons_self
      · exact hsent id ((h.kept id hmem).resolve_left hgone)
    · exact .inl (hlater reply)
    · exact .inr (hsent id hsettled)
  · exact h.kept.step (fun id hid => .inl hid) (fun id hid => .inl hid) hsent

theorem Inv.delete {s : SqlState engine Connection} (h : Inv s) {id : Nat}
    {values : List (Nat × Value)} (hphase : s.phase = .deleting id values) :
    Inv { s with rows := s.rows.filter fun row => row.id ≠ id, phase := .delivering values } := by
  have hbefore := h.phase
  rw [hphase] at hbefore
  obtain ⟨hid, hvalues⟩ := hbefore
  refine ⟨h.accepted, fun row hrow => h.rows row (List.mem_of_mem_filter hrow), h.updating,
    hvalues, ?_⟩
  intro other hother
  rcases h.kept other hother with hmem | hsettled
  · by_cases heq : other = id
    · subst heq
      exact .inr (hid.holds hother)
    · obtain ⟨row, hrow, rfl⟩ := List.mem_map.mp hmem
      exact .inl (List.mem_map_of_mem (List.mem_filter.mpr ⟨hrow, by simpa using heq⟩))
  · exact .inr hsettled

theorem isSent_routed {s : SqlState engine Connection} {accepts : Connection → Bool}
    (oracle : (c : ServerCall) → Reply c) {address : String} (octets : ByteParser.Bytes)
    (h : (getWriter s.clients address).any accepts = true) :
    isSent ⟨.sendMessage address octets, routed accepts s.clients oracle _⟩ = true := by
  have hok : sendMessage accepts s.clients address = .ok () :=
    (sendMessage_ok_iff accepts s.clients address).mpr (List.any_eq_true.mp h)
  change isSent ⟨.sendMessage address octets, sendMessage accepts s.clients address⟩ = true
  rw [hok]
  rfl

theorem Inv.step {s s' : SqlState engine Connection} {event : SqlEvent Connection} (h : Inv s)
    (hharmless : harmless s event = true) (hstep : s.step server event = some s') : Inv s' := by
  cases sqlMoves_of_step hstep with
  | clientAdded => exact h.select _ _
  | clientRemoved => exact h.select _ _
  | supersededSelected _ => exact h.select _ _
  | superseded _ => exact (h.withdraw fun row hrow => List.mem_of_mem_filter hrow).select _ _
  | inserted hrow => exact h.insert hrow
  | cancelled => exact h.withdraw fun row hrow => List.mem_of_mem_filter hrow
  | replacedSelected _ => exact h.selectReplaced _ _
  | updated hupdate => exact h.update hupdate
  | cleaned _ => exact h.withdraw fun row hrow => List.mem_of_mem_filter hrow
  | selected _ => exact h.deliveryTick _ _ _
  | ended _ => exact h.proceed trivial
  | taken hphase =>
      have hvalues := h.phase
      rw [hphase] at hvalues
      obtain ⟨hvalue, hvalues⟩ := List.forall_mem_cons.mp hvalues
      exact h.proceed ⟨hvalue.imp fun hdeliverable => .inl hdeliverable.sends, hvalues⟩
  | @replied oracle _ _ _ _ _ hphase =>
      refine h.reply hphase _ ?_
      rintro address octets rfl
      simp only [harmless, hphase, Bool.or_eq_true, decide_eq_true_eq] at hharmless
      exact hharmless.imp_left (isSent_routed oracle octets)
  | handled hphase =>
      have hbefore := h.phase
      rw [hphase] at hbefore
      exact h.proceed ⟨hbefore.1.imp fun hid => hid.resolve_left fun hsends => hsends, hbefore.2⟩
  | panicked _ => exact h.proceed trivial
  | @deleted succeeded _ _ hphase =>
      cases succeeded with
      | true => exact h.delete hphase
      | false =>
          have hbefore := h.phase
          rw [hphase] at hbefore
          exact h.proceed hbefore.2

theorem inv_initial (server : ServerContext) (engine : RegexEngine) (Connection : Type) :
    Inv (sqlSystem server engine Connection).initial := by
  constructor <;> simp [sqlSystem, PhaseInv, KeptUntilSent, Accounted]

/-- In every run in which each message that is sent while its row is there is accepted by a client,
a stored message stays until it is sent, cancelled, superseded or expired. -/
theorem stored_until_sent {s : SqlState engine Connection}
    (h : (sqlSystem server engine Connection).Reaches (fun s event => harmless s event = true) s) :
    KeptUntilSent s := by
  have hinv : Inv s := h.invariant (inv_initial server engine Connection)
    fun _ _ _ hinv hharmless hstep => hinv.step hharmless hstep
  exact hinv.kept

end Invariant

section Example

open SmppHerald.ConnectionRun (agreeing)
open SmppHerald.ServerRun (literalEngine)

/-- A submit_sm to the address 49. -/
def storedMessage : Value :=
  .object [("command_id", .string "0x00000004"), ("destination_addr", .string "49"),
    ("sequence_number", .ofNat 1), ("short_message", .string "aGk=")]

/-- The message is stored, and the delivery loop takes it to its end. -/
def deliveryEvents : List (SqlEvent Nat) :=
  [.insert ⟨0, 0, 0⟩ 0 "m" storedMessage, .deliveryTick 0 [0], .next,
   .reply (agreeing true) fun _ => true, .reply (agreeing true) fun _ => true, .handled,
   .delete true]

/-- The accepted messages, the rows, and the messages that were sent and withdrawn. -/
def observed (s : SqlState literalEngine Nat) : (List Nat × List Nat) × List Nat × List Nat :=
  ((s.accepted, rowIds s.rows), s.sent, s.withdrawn)

/-- A client takes the address 49. -/
theorem stored_until_sent_client :
    ∃ s : SqlState literalEngine Nat, observed s = (([0], []), [0], []) ∧ KeptUntilSent s := by
  have hrun : ((sqlSystem Relay.plainServer literalEngine Nat).runAllowed harmless
      (.addClient "10.0.0.1:5000" "49" 0 :: deliveryEvents)).map observed =
      some (([0], []), [0], []) := by decide +kernel
  obtain ⟨s, hs, hobserved⟩ := Option.map_eq_some_iff.mp hrun
  exact ⟨s, hobserved, stored_until_sent (System.reaches_of_runAllowed hs)⟩

/-- No client is connected, and the message is gone all the same. -/
theorem not_stored_until_sent :
    ∃ s : SqlState literalEngine Nat,
      (sqlSystem Relay.plainServer literalEngine Nat).Reachable s ∧ ¬ KeptUntilSent s := by
  have hrun : ((sqlSystem Relay.plainServer literalEngine Nat).run deliveryEvents).map observed =
      some (([0], []), [], []) := by decide +kernel
  obtain ⟨s, hs, hobserved⟩ := Option.map_eq_some_iff.mp hrun
  simp only [observed, Prod.mk.injEq] at hobserved
  obtain ⟨⟨haccepted, hrows⟩, hsent, hwithdrawn⟩ := hobserved
  refine ⟨s, System.reachable_of_run hs, fun hkept => ?_⟩
  have hlost := hkept 0 (by simp [haccepted])
  simp [hrows, hsent, hwithdrawn] at hlost

end Example

end SmppHerald.SqlDelivery
