import SmppHerald.InMemoryLoops
import SmppHerald.Library.TransitionSystem

namespace SmppHerald.InMemoryRun

open SmppHerald.InMemoryLoops
open SmppHerald.InMemoryStorage hiding cancelMessage cleanExpiredMessages getDeliveryMessages
  replaceMessage
open SmppHerald.Io
open SmppHerald.Json
open SmppHerald.MultiMaps
open SmppHerald.Sweeps
open SmppHerald.Time
open SmppHerald.TransitionSystem

section Runs

inductive StorageOp
  | save (clock : SaveClock) (messageId : String) (message : Value) (serial : Nat)
  | cancel (cancelSm : Value)
  | replace (scheduleNow validityNow : Instant) (replaceSm : Value)
  | clean (clock : EntryClock)
  | getDelivery (scheduleClock validityClock : EntryClock)
  | removeById (messageId : String) (index : Nat)

/-- The store after an operation. A save or a replace that returns an error, or panics in reading a
time, has not come to change it. -/
def perform (calendar : Calendar) (defaultValidityPeriod : UInt32)
    (storage : InMemoryMessageStorage) : StorageOp → Except Fault InMemoryMessageStorage
  | .save clock messageId message serial =>
      match save calendar defaultValidityPeriod clock storage messageId message serial with
      | .ok storage => .ok storage
      | _ => .ok storage
  | .cancel cancelSm => do
      let (storage, _) ← cancelMessage storage cancelSm
      .ok storage
  | .replace scheduleNow validityNow replaceSm => do
      match ← replaceMessage calendar scheduleNow validityNow storage replaceSm with
      | .ok (storage, _) => .ok storage
      | _ => .ok storage
  | .clean clock => cleanExpiredMessages storage clock
  | .getDelivery scheduleClock validityClock => do
      let (storage, _) ← getDeliveryMessages storage scheduleClock validityClock
      .ok storage
  | .removeById messageId index =>
      match removeMessageById storage messageId index with
      | some storage => .ok storage
      | none => .error .indexOutOfRange

def storageSystem (calendar : Calendar) (defaultValidityPeriod : UInt32) :
    System InMemoryMessageStorage StorageOp where
  initial := .new
  step storage op := (perform calendar defaultValidityPeriod storage op).toOption

end Runs

section Safety

/-- The store after an operation in which nothing panics. -/
def after (calendar : Calendar) (defaultValidityPeriod : UInt32)
    (storage : InMemoryMessageStorage) : StorageOp → InMemoryMessageStorage
  | .save clock messageId message serial =>
      match save calendar defaultValidityPeriod clock storage messageId message serial with
      | .ok storage => storage
      | _ => storage
  | .cancel cancelSm => sweepAll storage (cancelVerdicts cancelSm)
  | .replace scheduleNow validityNow replaceSm =>
      match replaceTimes calendar scheduleNow validityNow storage replaceSm with
      | .ok (list, scheduleDeliveryTime, validityPeriod) =>
          replaced storage replaceSm list scheduleDeliveryTime validityPeriod
      | _ => storage
  | .clean clock => sweepAll storage (fromLast (cleanVerdict clock))
  | .getDelivery scheduleClock validityClock =>
      sweepAll storage (fromLast (deliveryVerdict scheduleClock validityClock))
  | .removeById messageId index =>
      { storage with
        messages := updateAt messageId (fun list => list.eraseIdx index) storage.messages }

/-- The operations in which something panics, which no list of less than 2^31 entries is the cause
of. -/
def fault (calendar : Calendar) (storage : InMemoryMessageStorage) : StorageOp → Option Fault
  | .cancel cancelSm =>
      if (storage.messages.all fun entry => !isAsked cancelSm entry.1 || fits entry.2) = true then none
      else some .subtractOverflow
  | .replace scheduleNow validityNow replaceSm =>
      match replaceTimes calendar scheduleNow validityNow storage replaceSm with
      | .ok (list, _) => if fits list = true then none else some .subtractOverflow
      | _ => none
  | .removeById messageId index =>
      if ((find messageId storage.messages).all fun list => decide (index < list.length)) = true then
        none
      else some .indexOutOfRange
  | .save _ _ _ _ | .clean _ | .getDelivery _ _ => none

variable {calendar : Calendar} {defaultValidityPeriod : UInt32} {storage : InMemoryMessageStorage}

/-- What an operation does where no list is empty. -/
theorem perform_eq (h : Proper storage.messages) (op : StorageOp) :
    perform calendar defaultValidityPeriod storage op =
      match fault calendar storage op with
      | none => .ok (after calendar defaultValidityPeriod storage op)
      | some fault => .error fault := by
  cases op with
  | save clock messageId message serial =>
      rw [perform, after, fault]
      cases save calendar defaultValidityPeriod clock storage messageId message serial <;> rfl
  | cancel cancelSm =>
      rw [perform, cancelMessage_eq h, fault, after]
      split <;> rfl
  | replace scheduleNow validityNow replaceSm =>
      rw [perform, replaceMessage_eq h, fault, after]
      cases replaceTimes calendar scheduleNow validityNow storage replaceSm with
      | err e => rfl
      | panicked => rfl
      | ok result =>
          obtain ⟨list, scheduleDeliveryTime, validityPeriod⟩ := result
          simp only
          generalize replaced storage replaceSm list scheduleDeliveryTime validityPeriod = storage'
          cases fits list <;> rfl
  | clean clock => exact cleanExpiredMessages_eq h clock
  | getDelivery scheduleClock validityClock =>
      rw [perform, getDeliveryMessages_eq h, ok_bind]
      rfl
  | removeById messageId index =>
      rw [perform, fault, after, removeMessageById]
      cases hfind : find messageId storage.messages with
      | none =>
          rw [updateAt_of_find_eq_none hfind]
          rfl
      | some list => by_cases hindex : index < list.length <;> simp [hindex]

theorem proper_sweepAll (h : Proper storage.messages) (verdict : Verdicts) :
    Proper (sweepAll storage verdict).messages :=
  h.mapLists fun messageId list => (swept (verdict messageId list) list).left

theorem proper_setList {messages : MultiMap String StoredMessage} (h : Proper messages)
    (messageId : String) {list : List StoredMessage} (hnonempty : list ≠ []) :
    Proper (setList messageId list messages) := by
  constructor
  · have hkeys : (setList messageId list messages).map Prod.fst = messages.map Prod.fst := by
      rw [setList, List.map_map]
      apply List.map_congr_left
      intro entry _
      by_cases heq : entry.1 = messageId <;> simp [heq]
    rw [hkeys]
    exact h.keys
  · intro entry hentry
    obtain ⟨before, hbefore, rfl⟩ := List.mem_map.mp hentry
    split
    · exact hnonempty
    · exact h.nonempty before hbefore

theorem proper_after (h : Proper storage.messages) (op : StorageOp) :
    Proper (after calendar defaultValidityPeriod storage op).messages := by
  cases op with
  | save clock messageId message serial =>
      rw [after]
      split
      · rename_i hsave
        obtain ⟨_, _, -, -, -, -, -, -, rfl⟩ := save_eq_ok hsave
        exact h.push _ _
      · exact h
  | cancel cancelSm => exact proper_sweepAll h _
  | replace scheduleNow validityNow replaceSm =>
      rw [after]
      split
      · rename_i list scheduleDeliveryTime validityPeriod htimes
        have hnonempty := ((find_eq_some_iff h).mp (replaceTimes_eq_ok_iff.mp htimes).2.1).2
        have haddresses :=
          map_userAddress_replaced replaceSm scheduleDeliveryTime validityPeriod list
        refine proper_setList h _ ?_
        intro hnil
        rw [hnil] at haddresses
        exact hnonempty (List.map_eq_nil_iff.mp haddresses.symm)
      · exact h
  | clean clock => exact proper_sweepAll h _
  | getDelivery scheduleClock validityClock => exact proper_sweepAll h _
  | removeById messageId index => exact h.updateAt _ _

theorem step_eq_some (h : Proper storage.messages) {op : StorageOp}
    {storage' : InMemoryMessageStorage}
    (hstep : (storageSystem calendar defaultValidityPeriod).step storage op = some storage') :
    storage' = after calendar defaultValidityPeriod storage op := by
  rw [storageSystem] at hstep
  simp only [perform_eq h] at hstep
  cases hfault : fault calendar storage op with
  | some fault => simp [hfault, Except.toOption] at hstep
  | none =>
      simp only [hfault, Except.toOption, Option.some.injEq] at hstep
      exact hstep.symm

theorem proper_of_reaches {allowed : InMemoryMessageStorage → StorageOp → Prop}
    (h : (storageSystem calendar defaultValidityPeriod).Reaches allowed storage) :
    Proper storage.messages := by
  refine @System.Reaches.invariant _ _ _ allowed (fun storage => Proper storage.messages)
    proper_nil ?_ storage h
  intro storage op storage' hproper _ hstep
  obtain rfl := step_eq_some hproper hstep
  exact proper_after hproper op

/-- The index of a `remove_message_by_id` is one of the list of its id. -/
def validIndex (storage : InMemoryMessageStorage) : StorageOp → Bool
  | .removeById messageId index =>
      (find messageId storage.messages).all fun list => decide (index < list.length)
  | _ => true

/-- Every list is shorter than 2^31. -/
def short (storage : InMemoryMessageStorage) : Bool :=
  storage.messages.all fun entry => decide (entry.2.length < 2 ^ 31)

/-- An operation that a run may take next. -/
def runnable (storage : InMemoryMessageStorage) (op : StorageOp) : Bool :=
  validIndex storage op && short storage

theorem fits_of_lt {list : List StoredMessage} (h : list.length < 2 ^ 31) : fits list = true := by
  rw [fits, asI32_of_lt h]
  simp only [bne_iff_ne, ne_eq]
  omega

theorem fits_of_short (hshort : short storage = true) {entry : String × List StoredMessage}
    (hentry : entry ∈ storage.messages) : fits entry.2 = true := by
  rw [short, List.all_eq_true] at hshort
  exact fits_of_lt (by simpa using hshort entry hentry)

theorem fault_eq_none {op : StorageOp} (h : runnable storage op = true) :
    fault calendar storage op = none := by
  rw [runnable, Bool.and_eq_true] at h
  obtain ⟨hindex, hshort⟩ := h
  cases op with
  | cancel cancelSm =>
      rw [fault, if_pos]
      rw [List.all_eq_true]
      intro entry hentry
      rw [fits_of_short hshort hentry, Bool.or_true]
  | replace scheduleNow validityNow replaceSm =>
      rw [fault]
      split
      · rename_i list times htimes
        obtain ⟨-, hfind, -⟩ := replaceTimes_eq_ok_iff.mp htimes
        obtain ⟨entry, hentry, hlist⟩ := Option.map_eq_some_iff.mp hfind
        rw [← hlist, if_pos (fits_of_short hshort (List.mem_of_find?_eq_some hentry))]
      · rfl
  | removeById messageId index => exact if_pos hindex
  | _ => rfl

/-- In every run no list is empty, and no operation underflows, leaves a list or panics for a
missing key. -/
theorem storage_never_faults (calendar : Calendar) (defaultValidityPeriod : UInt32)
    {storage : InMemoryMessageStorage}
    (h : (storageSystem calendar defaultValidityPeriod).Reaches
      (fun storage op => runnable storage op = true) storage) :
    (∀ entry ∈ storage.messages, entry.2 ≠ []) ∧
      ∀ op, runnable storage op = true →
        ∃ storage', perform calendar defaultValidityPeriod storage op = .ok storage' := by
  have hproper := proper_of_reaches h
  refine ⟨hproper.nonempty, fun op hrunnable => ?_⟩
  rw [perform_eq hproper, fault_eq_none hrunnable]
  exact ⟨_, rfl⟩

/-- Two messages under one id, of which a cancel takes the first, a removal the other. -/
def emptyingRun : List StorageOp :=
  [.save ⟨0, 0, 0⟩ "m" (.object [("destination_addr", .string "49")]) 0,
    .save ⟨0, 0, 0⟩ "m" (.object [("destination_addr", .string "50")]) 1,
    .cancel (.object [("destination_addr", .string "49")]), .removeById "m" 0]

theorem storage_never_faults_emptied :
    ∃ storage, ((storageSystem relativeCalendar 60).runAllowed runnable emptyingRun).map
        (fun storage => storage.messages.map Prod.fst) = some (storage.messages.map Prod.fst) ∧
      storage.messages.map Prod.fst = [] ∧ (∀ entry ∈ storage.messages, entry.2 ≠ []) ∧
      ∀ op, runnable storage op = true → ∃ storage', perform relativeCalendar 60 storage op =
        .ok storage' := by
  have hrun : ((storageSystem relativeCalendar 60).runAllowed runnable emptyingRun).map
      (fun storage => storage.messages.map Prod.fst) = some [] := by decide +kernel
  obtain ⟨storage, hstorage, hkeys⟩ := Option.map_eq_some_iff.mp hrun
  exact ⟨storage, hkeys ▸ hrun, hkeys, storage_never_faults relativeCalendar 60
    (System.reaches_of_runAllowed hstorage)⟩

end Safety

section Short

variable {storage : InMemoryMessageStorage}

theorem sweepAll_congr {verdict verdict' : Verdicts}
    (h : ∀ entry ∈ storage.messages,
      swept (verdict entry.1 entry.2) entry.2 = swept (verdict' entry.1 entry.2) entry.2) :
    sweepAll storage verdict = sweepAll storage verdict' := by
  have hlists : (storage.messages.map fun entry =>
      (entry.1, (swept (verdict entry.1 entry.2) entry.2).left)) =
      storage.messages.map fun entry =>
        (entry.1, (swept (verdict' entry.1 entry.2) entry.2).left) := by
    apply List.map_congr_left
    intro entry hentry
    rw [h entry hentry]
  have hremoved : (storage.messages.flatMap fun entry =>
      (swept (verdict entry.1 entry.2) entry.2).removed.map fun stored => (entry.1, stored)) =
      storage.messages.flatMap fun entry =>
        (swept (verdict' entry.1 entry.2) entry.2).removed.map fun stored => (entry.1, stored) := by
    apply List.flatMap_congr
    intro entry hentry
    rw [h entry hentry]
  rw [sweepAll, sweepAll, mapLists, mapLists, hlists, hremoved]

theorem sweepAll_removeWhere (storage : InMemoryMessageStorage)
    (removes : String → StoredMessage → Bool) :
    sweepAll storage (fun messageId _ _ stored =>
      if removes messageId stored = true then .remove else .keep) = removeWhere storage removes := by
  simp only [sweepAll, swept_filter, removeWhere]

theorem length_lt_of_short (h : short storage = true) {entry : String × List StoredMessage}
    (hentry : entry ∈ storage.messages) : entry.2.length < 2 ^ 31 := by
  rw [short, List.all_eq_true] at h
  simpa using h entry hentry

theorem lastRounds_of_lt {list : List StoredMessage} (hnonempty : list ≠ [])
    (h : list.length < 2 ^ 31) : lastRounds list = list.length := by
  have hpos : 0 < list.length := List.length_pos_iff.mpr hnonempty
  rw [lastRounds, asI32_of_lt (by omega)]
  omega

theorem rounds_of_lt {list : List StoredMessage} (h : list.length < 2 ^ 31) :
    rounds list = list.length := by
  rw [rounds, asI32_of_lt h, Int.toNat_natCast]

theorem swept_fromLast (h : Proper storage.messages) (hshort : short storage = true)
    (verdict : String → Nat → StoredMessage → Verdict StoredMessage)
    {entry : String × List StoredMessage} (hentry : entry ∈ storage.messages) :
    swept (fromLast verdict entry.1 entry.2) entry.2 = swept (verdict entry.1) entry.2 := by
  rw [fromLast, lastRounds_of_lt (h.nonempty entry hentry) (length_lt_of_short hshort hentry),
    swept_within_length]

/-- A clock that is read at the places of a map shows what the one by serials does. -/
def Shows (clock : EntryClock) (serialClock : Nat → Instant)
    (messages : MultiMap String StoredMessage) : Prop :=
  ∀ entry ∈ messages, ∀ index stored, entry.2[index]? = some stored →
    clock entry.1 index = serialClock stored.serial

/-- The loops over short lists make a filter. -/
theorem cleanExpiredMessages_short (h : Proper storage.messages) (hshort : short storage = true)
    {clock : EntryClock} {serialClock : Nat → Instant}
    (hclock : Shows clock serialClock storage.messages) :
    cleanExpiredMessages storage clock =
      .ok (InMemoryStorage.cleanExpiredMessages storage serialClock) := by
  rw [cleanExpiredMessages_eq h, InMemoryStorage.cleanExpiredMessages, ← sweepAll_removeWhere]
  congr 1
  apply sweepAll_congr
  intro entry hentry
  rw [swept_fromLast h hshort _ hentry]
  apply swept_congr
  intro index stored hstored
  rw [cleanVerdict, hclock entry hentry index stored hstored]

/-- The verdict of the delivery loop with a clock by serials. -/
def serialVerdict (clock : SweepClock) (_index : Nat) (stored : StoredMessage) :
    Verdict StoredMessage :=
  if stored.isFuture (clock.schedule stored.serial) = true then .keep
  else if stored.isExpired (clock.validity stored.serial) = true then .remove
  else .stop

theorem swept_selectDelivery (clock : SweepClock) (list : List StoredMessage) :
    swept (serialVerdict clock) list =
      ⟨(selectDelivery clock list).1, (selectDelivery clock list).2.1,
        (selectDelivery clock list).2.2⟩ := by
  induction list with
  | nil => rfl
  | cons stored list ih =>
      have hshift : (fun index => serialVerdict clock (index + 1)) = serialVerdict clock := rfl
      rw [swept, hshift, ih, selectDelivery]
      obtain ⟨left, removed, _ | found⟩ := selectDelivery clock list
      · simp only [serialVerdict]
        split_ifs <;> rfl
      · rfl

theorem getDeliveryMessages_short (h : Proper storage.messages) (hshort : short storage = true)
    {scheduleClock validityClock : EntryClock} {clock : SweepClock}
    (hschedule : Shows scheduleClock clock.schedule storage.messages)
    (hvalidity : Shows validityClock clock.validity storage.messages) :
    getDeliveryMessages storage scheduleClock validityClock =
      .ok (InMemoryStorage.getDeliveryMessages storage clock) := by
  have hswept : ∀ entry ∈ storage.messages,
      swept (fromLast (deliveryVerdict scheduleClock validityClock) entry.1 entry.2) entry.2 =
        swept (serialVerdict clock) entry.2 := by
    intro entry hentry
    rw [swept_fromLast h hshort _ hentry]
    apply swept_congr
    intro index stored hstored
    rw [deliveryVerdict, hschedule entry hentry index stored hstored,
      hvalidity entry hentry index stored hstored]
    rfl
  have hstops : stops (fromLast (deliveryVerdict scheduleClock validityClock)) storage.messages =
      deliveries clock storage.messages := by
    apply List.filterMap_congr
    intro entry hentry
    rw [hswept entry hentry, swept_selectDelivery]
  rw [getDeliveryMessages_eq h, hstops, InMemoryStorage.getDeliveryMessages,
    @sweepAll_congr storage _ (fun _ _ => serialVerdict clock) hswept, sweepAll]
  simp only [swept_selectDelivery]

theorem cancelMessage_short (h : Proper storage.messages) (hshort : short storage = true)
    (cancelSm : Value) :
    cancelMessage storage cancelSm = .ok (InMemoryStorage.cancelMessage storage cancelSm) := by
  have hswept : ∀ entry ∈ storage.messages,
      swept (cancelVerdicts cancelSm entry.1 entry.2) entry.2 =
        ⟨entry.2.filter fun stored => !isCancelled cancelSm entry.1 stored,
          entry.2.reverse.filter (isCancelled cancelSm entry.1), none⟩ := by
    intro entry hentry
    rw [← swept_filter, ← swept_within_length (cancelVerdicts cancelSm entry.1 entry.2)]
    apply swept_congr
    intro index stored hstored
    obtain ⟨hindex, -⟩ := List.getElem?_eq_some_iff.mp hstored
    rw [within, if_pos hindex, cancelVerdicts, rounds_of_lt (length_lt_of_short hshort hentry),
      within, if_pos hindex, cancelVerdict, isCancelled]
    change (if isAsked cancelSm entry.1 = true then _ else _) =
      if (isAsked cancelSm entry.1 && _) = true then _ else _
    cases isAsked cancelSm entry.1 <;> rfl
  have hfits : (storage.messages.all fun entry =>
      !isAsked cancelSm entry.1 || fits entry.2) = true := by
    rw [List.all_eq_true]
    intro entry hentry
    rw [fits_of_short hshort hentry, Bool.or_true]
  have hsame : sweepAll storage (cancelVerdicts cancelSm) =
      removeWhere storage (isCancelled cancelSm) := by
    rw [← sweepAll_removeWhere]
    apply sweepAll_congr
    intro entry hentry
    rw [hswept entry hentry, swept_filter]
  rw [cancelMessage_eq h, if_pos hfits, hsame, InMemoryStorage.cancelMessage]
  congr 2
  rw [Bool.eq_iff_iff, List.any_eq_true, List.any_eq_true]
  refine exists_congr fun entry => and_congr_right fun hentry => ?_
  rw [hswept entry hentry]
  simp

theorem swept_replaceVerdicts (replaceSm : Value)
    (scheduleDeliveryTime validityPeriod : Option Instant) {list : List StoredMessage}
    (hshort : list.length < 2 ^ 31) :
    (swept (replaceVerdicts replaceSm scheduleDeliveryTime validityPeriod list) list).left =
      list.map (replaceStored replaceSm scheduleDeliveryTime validityPeriod) := by
  have hmap := swept_map (fun stored => replaceMatches replaceSm stored.message)
    (replaceStored replaceSm scheduleDeliveryTime validityPeriod) list
  rw [replaceVerdicts, rounds_of_lt hshort, swept_within_length]
  refine (congrArg Swept.left hmap).trans ?_
  apply List.map_congr_left
  intro stored _
  split
  · rfl
  · rename_i hother
    rw [replaceStored, if_neg hother]

theorem setList_map {messages : MultiMap String StoredMessage} (h : Proper messages)
    {messageId : String} {list : List StoredMessage} (hfind : find messageId messages = some list)
    (f : StoredMessage → StoredMessage) :
    setList messageId (list.map f) messages = updateAt messageId (List.map f) messages := by
  induction messages with
  | nil => simp [find] at hfind
  | cons entry messages ih =>
      obtain ⟨hfresh, hnonempty, htail⟩ := h.tail
      rw [updateAt]
      by_cases heq : entry.1 = messageId
      · have hlist : entry.2 = list := by simpa [find, heq] using hfind
        have hrest := setList_of_not_mem (list.map f) (heq ▸ hfresh)
        rw [if_pos heq, if_neg (by simpa using hnonempty), hlist, heq]
        rw [setList] at hrest ⊢
        rw [List.map_cons, if_pos heq, hrest]
      · have hrest := ih htail (by simpa [find, List.find?_cons, heq] using hfind)
        rw [if_neg heq, ← hrest, setList, setList, List.map_cons, if_neg heq]

theorem replaceMessage_short (h : Proper storage.messages) (hshort : short storage = true)
    (calendar : Calendar) (scheduleNow validityNow : Instant) (replaceSm : Value) :
    replaceMessage calendar scheduleNow validityNow storage replaceSm =
      .ok (InMemoryStorage.replaceMessage calendar scheduleNow validityNow storage replaceSm) := by
  rw [replaceMessage_eq h, replaceTimes, InMemoryStorage.replaceMessage]
  split_ifs with hid hgiven hunknown
  · rfl
  · rfl
  · rw [Option.isNone_iff_eq_none.mp hunknown]
  · obtain ⟨list, hlist⟩ := Option.ne_none_iff_exists'.mp (by simpa using hunknown)
    obtain ⟨entry, hentry, rfl⟩ := Option.map_eq_some_iff.mp hlist
    have hmem : entry ∈ storage.messages := List.mem_of_find?_eq_some hentry
    rw [hlist]
    cases replacingTime calendar scheduleNow replaceSm "schedule_delivery_time"
      "Invalid schedule_delivery_time: " with
    | err e => rfl
    | panicked => rfl
    | ok scheduleDeliveryTime =>
        cases replacingTime calendar validityNow replaceSm "validity_period"
          "Invalid validity_period: " with
        | err e => rfl
        | panicked => rfl
        | ok validityPeriod =>
            have hreplaced : replaced storage replaceSm entry.2 scheduleDeliveryTime validityPeriod =
                { storage with
                  messages := updateAt (replaceSm.strField "message_id")
                    (List.map (replaceStored replaceSm scheduleDeliveryTime validityPeriod))
                    storage.messages } := by
              rw [replaced, swept_replaceVerdicts _ _ _ (length_lt_of_short hshort hmem),
                setList_map h hlist]
            change (if fits entry.2 = true then _ else _) = _
            rw [if_pos (fits_of_short hshort hmem), hreplaced]
            rfl

end Short

end SmppHerald.InMemoryRun
