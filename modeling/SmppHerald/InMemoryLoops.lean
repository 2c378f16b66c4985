import Mathlib.Data.List.Nodup
import SmppHerald.InMemoryStorage
import SmppHerald.Library.Sweep

/-!
The operations of `InMemoryMessageStorage` with their loops by index and all that can panic in them.
The lists that a loop empties are dropped after it.
-/

namespace SmppHerald.InMemoryLoops

open SmppHerald.InMemoryStorage
open SmppHerald.Io
open SmppHerald.Json
open SmppHerald.MultiMaps
open SmppHerald.Sweeps
open SmppHerald.Time

section Loops

/-- What panics: `-` below 0 or past 32 bits, an index, and `unwrap`. -/
inductive Fault
  | subtractOverflow | indexOutOfRange | unwrapNone
deriving DecidableEq, Repr

/-- `n as i32` -/
def asI32 (n : Nat) : Int :=
  if n % 2 ^ 32 < 2 ^ 31 then (n % 2 ^ 32 : Nat) else (n % 2 ^ 32 : Nat) - 2 ^ 32

/-- `(message_list.len() - 1) as i32` -/
def lastIndex (list : List StoredMessage) : Except Fault Int :=
  if list.length = 0 then .error .subtractOverflow else .ok (asI32 (list.length - 1))

/-- `message_list.len() as i32 - 1` -/
def lengthMinusOne (list : List StoredMessage) : Except Fault Int :=
  if asI32 list.length = -2 ^ 31 then .error .subtractOverflow else .ok (asI32 list.length - 1)

variable {σ : Type}

/-- `while index >= 0` with `index -= 1` in each round -/
def whileNonneg (verdict : Nat → StoredMessage → Verdict StoredMessage)
    (onRemove : StoredMessage → σ → σ) (onStop : Nat → StoredMessage → σ → σ) (index : Int)
    (list : List StoredMessage) (acc : σ) : Except Fault (List StoredMessage × σ) :=
  match sweep verdict onRemove onStop (index + 1).toNat list acc with
  | some result => .ok result
  | none => .error .indexOutOfRange

/-- `for (message_id, message_list) in messages.iter_mut()`, and the ids whose list is left empty -/
def forLists (loop : String → List StoredMessage → σ → Except Fault (List StoredMessage × σ)) :
    MultiMap String StoredMessage → σ →
      Except Fault (MultiMap String StoredMessage × List String × σ)
  | [], acc => .ok ([], [], acc)
  | (messageId, list) :: messages, acc => do
      let (list, acc) ← loop messageId list acc
      let (messages, idsToRemove, acc) ← forLists loop messages acc
      .ok ((messageId, list) :: messages,
        if list.isEmpty = true then messageId :: idsToRemove else idsToRemove, acc)

/-- `for id in ids { messages.remove(&id); }` -/
def removeIds (ids : List String) (messages : MultiMap String StoredMessage) :
    MultiMap String StoredMessage :=
  ids.foldl (fun messages id => messages.filter fun entry => entry.1 != id) messages

/-- Change the list of an id in place. -/
def setList (messageId : String) (list : List StoredMessage)
    (messages : MultiMap String StoredMessage) : MultiMap String StoredMessage :=
  messages.map fun entry => if entry.1 = messageId then (messageId, list) else entry

end Loops

section Operations

/-- What the clock shows when a loop comes to an index of the list of an id. -/
abbrev EntryClock := String → Nat → Instant

/-- `self.remove_user_message_id(&user_address, &message_id)` for an entry that was removed -/
def forget (messageId : String) (stored : StoredMessage)
    (userMessageIds : MultiMap String String) : MultiMap String String :=
  removeUserMessageId userMessageIds stored.userAddress messageId

def cleanVerdict (clock : EntryClock) (messageId : String) (index : Nat) (stored : StoredMessage) :
    Verdict StoredMessage :=
  if stored.isExpired (clock messageId index) = true then .remove else .keep

def cleanExpiredMessages (storage : InMemoryMessageStorage) (clock : EntryClock) :
    Except Fault InMemoryMessageStorage := do
  let cleanList := fun messageId list userMessageIds => do
    let index ← lastIndex list
    whileNonneg (cleanVerdict clock messageId) (forget messageId)
      (fun _ _ userMessageIds => userMessageIds) index list userMessageIds
  let (messages, idsToRemove, userMessageIds) ←
    forLists cleanList storage.messages storage.userMessageIds
  .ok ⟨removeIds idsToRemove messages, userMessageIds⟩

/-- At each index the clock is read for the schedule and, where that is not in the future, for the
validity. -/
def deliveryVerdict (scheduleClock validityClock : EntryClock) (messageId : String) (index : Nat)
    (stored : StoredMessage) : Verdict StoredMessage :=
  if stored.isFuture (scheduleClock messageId index) = true then .keep
  else if stored.isExpired (validityClock messageId index) = true then .remove
  else .stop

/-- `user_message_ids` and `delivery_messages` while the loops run -/
abbrev Selection := MultiMap String String × List Delivery

def discard (messageId : String) (stored : StoredMessage) (acc : Selection) : Selection :=
  (forget messageId stored acc.1, acc.2)

def select (messageId : String) (index : Nat) (stored : StoredMessage) (acc : Selection) :
    Selection :=
  (acc.1, acc.2 ++ [⟨messageId, index, stored⟩])

def getDeliveryMessages (storage : InMemoryMessageStorage)
    (scheduleClock validityClock : EntryClock) :
    Except Fault (InMemoryMessageStorage × List Delivery) := do
  let selectList := fun messageId list acc => do
    let index ← lastIndex list
    whileNonneg (deliveryVerdict scheduleClock validityClock messageId) (discard messageId)
      (select messageId) index list acc
  let (messages, idsToRemove, userMessageIds, deliveryMessages) ←
    forLists selectList storage.messages (storage.userMessageIds, [])
  .ok (⟨removeIds idsToRemove messages, userMessageIds⟩, deliveryMessages)

def cancelVerdict (cancelSm : Value) (_index : Nat) (stored : StoredMessage) :
    Verdict StoredMessage :=
  if cancelMatches cancelSm stored.message = true then .remove else .keep

/-- The loop over the keys, which looks each of them up again. -/
def cancelKeys (cancelSm : Value) : List String → MultiMap String StoredMessage →
    List String → List (String × String) →
      Except Fault (MultiMap String StoredMessage × List String × List (String × String))
  | [], messages, emptyMessageIds, removed => .ok (messages, emptyMessageIds, removed)
  | messageId :: keys, messages, emptyMessageIds, removed =>
      if cancelSm.strField "message_id" ≠ "" ∧ messageId ≠ cancelSm.strField "message_id" then
        cancelKeys cancelSm keys messages emptyMessageIds removed
      else
        match find messageId messages with
        | none => .error .unwrapNone
        | some list => do
            let n ← lengthMinusOne list
            let (list, removed) ← whileNonneg (cancelVerdict cancelSm)
              (fun stored removed => removed ++ [(stored.userAddress, messageId)])
              (fun _ _ removed => removed) n list removed
            cancelKeys cancelSm keys (setList messageId list messages)
              (if list.isEmpty = true then emptyMessageIds ++ [messageId] else emptyMessageIds)
              removed

def cancelMessage (storage : InMemoryMessageStorage) (cancelSm : Value) :
    Except Fault (InMemoryMessageStorage × Bool) := do
  let (messages, emptyMessageIds, removed) ←
    cancelKeys cancelSm (storage.messages.map Prod.fst) storage.messages [] []
  let userMessageIds := removed.foldl
    (fun userMessageIds entry => removeUserMessageId userMessageIds entry.1 entry.2)
    storage.userMessageIds
  .ok (⟨removeIds emptyMessageIds messages, userMessageIds⟩, decide (0 < removed.length))

def replaceVerdict (replaceSm : Value) (scheduleDeliveryTime validityPeriod : Option Instant)
    (_index : Nat) (stored : StoredMessage) : Verdict StoredMessage :=
  if replaceMatches replaceSm stored.message = true then
    .put (replaceStored replaceSm scheduleDeliveryTime validityPeriod stored)
  else .keep

/-- The part of `replace_message` before its loop: the list of the id and the times to set. -/
def replaceTimes (calendar : Calendar) (scheduleNow validityNow : Instant)
    (storage : InMemoryMessageStorage) (replaceSm : Value) :
    Outcome (List StoredMessage × Option Instant × Option Instant) :=
  let messageId := replaceSm.strField "message_id"
  if messageId = "" then .err (invalidInput "Missing message_id in the replace_sm command")
  else if (replaceSm.u64Field "sm_default_msg_id").toUInt8 = 0 ∧
      replaceSm.strField "short_message" = "" ∧ replaceSm.strField "message_payload" = "" then
    .err (invalidInput
      "Missing sm_default_msg_id, short_message, and message_payload in the replace_sm command")
  else
    match find messageId storage.messages with
    | none => .err ⟨.notFound, "Message with id " ++ messageId ++ " not found"⟩
    | some list => do
        let scheduleDeliveryTime ← replacingTime calendar scheduleNow replaceSm
          "schedule_delivery_time" "Invalid schedule_delivery_time: "
        let validityPeriod ← replacingTime calendar validityNow replaceSm "validity_period"
          "Invalid validity_period: "
        .ok (list, scheduleDeliveryTime, validityPeriod)

def replaceMessage (calendar : Calendar) (scheduleNow validityNow : Instant)
    (storage : InMemoryMessageStorage) (replaceSm : Value) :
    Except Fault (Outcome (InMemoryMessageStorage × Bool)) :=
  match replaceTimes calendar scheduleNow validityNow storage replaceSm with
  | .err e => .ok (.err e)
  | .panicked => .ok .panicked
  | .ok (list, scheduleDeliveryTime, validityPeriod) => do
      let n ← lengthMinusOne list
      let (list, _) ← whileNonneg (replaceVerdict replaceSm scheduleDeliveryTime validityPeriod)
        (fun _ acc => acc) (fun _ _ acc => acc) n list ()
      -- `messages[0].1 = messages[0].1.clone()`
      if list.length = 0 then .error .indexOutOfRange
      else
        .ok (.ok ({ storage with
          messages := setList (replaceSm.strField "message_id") list storage.messages }, true))

end Operations

section Results

variable {σ : Type} {verdict : Nat → StoredMessage → Verdict StoredMessage}
  {onRemove : StoredMessage → σ → σ} {onStop : Nat → StoredMessage → σ → σ}

theorem ok_bind {α γ : Type} (a : α) (f : α → Except Fault γ) : (Except.ok a >>= f) = f a := rfl

theorem asI32_of_lt {n : Nat} (h : n < 2 ^ 31) : asI32 n = n := by
  rw [asI32, if_pos (by omega)]
  omega

theorem asI32_le (n : Nat) : asI32 n ≤ n := by
  unfold asI32
  split <;> omega

/-- The rounds of a loop from `(len - 1) as i32`. -/
def lastRounds (list : List StoredMessage) : Nat := (asI32 (list.length - 1) + 1).toNat

/-- The rounds of a loop from `len as i32 - 1`. -/
def rounds (list : List StoredMessage) : Nat := (asI32 list.length).toNat

/-- `len as i32 - 1` does not overflow. -/
def fits (list : List StoredMessage) : Bool := asI32 list.length != -2 ^ 31

theorem whileNonneg_eq {index : Int} {list : List StoredMessage}
    (h : (index + 1).toNat ≤ list.length) (acc : σ) :
    whileNonneg verdict onRemove onStop index list acc =
      .ok ((swept (within (index + 1).toNat verdict) list).left,
        (swept (within (index + 1).toNat verdict) list).account onRemove onStop acc) := by
  rw [whileNonneg, sweep_eq h]

theorem lastIndex_loop {list : List StoredMessage} (hnonempty : list ≠ []) (acc : σ) :
    (do
      let index ← lastIndex list
      whileNonneg verdict onRemove onStop index list acc) =
      .ok ((swept (within (lastRounds list) verdict) list).left,
        (swept (within (lastRounds list) verdict) list).account onRemove onStop acc) := by
  have hpos : 0 < list.length := List.length_pos_iff.mpr hnonempty
  have hle := asI32_le (list.length - 1)
  rw [lastIndex, if_neg (by omega), ok_bind, whileNonneg_eq (by omega)]
  rfl

theorem lengthMinusOne_loop {γ : Type} (list : List StoredMessage) (acc : σ)
    (next : List StoredMessage × σ → Except Fault γ) :
    (do
      let n ← lengthMinusOne list
      let result ← whileNonneg verdict onRemove onStop n list acc
      next result) =
      if fits list = true then
        next ((swept (within (rounds list) verdict) list).left,
          (swept (within (rounds list) verdict) list).account onRemove onStop acc)
      else .error .subtractOverflow := by
  have hle := asI32_le list.length
  have hrounds : (asI32 list.length - 1 + 1).toNat = rounds list := by
    rw [Int.sub_add_cancel, rounds]
  rw [lengthMinusOne, fits]
  by_cases hoverflow : asI32 list.length = -2 ^ 31
  · simp [hoverflow]
    rfl
  · rw [if_neg hoverflow, ok_bind, whileNonneg_eq (by omega), hrounds, ok_bind,
      if_pos (by simpa using hoverflow)]

/-- What each loop does with each entry of each list. -/
abbrev Verdicts := String → List StoredMessage → Nat → StoredMessage → Verdict StoredMessage

/-- Each list is gone through, and what was removed is forgotten by address. -/
def sweepAll (storage : InMemoryMessageStorage) (verdict : Verdicts) : InMemoryMessageStorage where
  messages := mapLists (fun messageId list => (swept (verdict messageId list) list).left)
    storage.messages
  userMessageIds :=
    removeUserMessageIds storage.userMessageIds (storage.messages.flatMap fun entry =>
      (swept (verdict entry.1 entry.2) entry.2).removed.map fun stored => (entry.1, stored))

/-- The ids whose list is left empty. -/
def emptied (left : String → List StoredMessage → List StoredMessage)
    (messages : MultiMap String StoredMessage) : List String :=
  (messages.filter fun entry => (left entry.1 entry.2).isEmpty).map Prod.fst

theorem forLists_eq
    {loop : String → List StoredMessage → σ → Except Fault (List StoredMessage × σ)}
    {left : String → List StoredMessage → List StoredMessage}
    {account : String → List StoredMessage → σ → σ} {messages : MultiMap String StoredMessage}
    (hloop : ∀ entry ∈ messages, ∀ acc,
      loop entry.1 entry.2 acc = .ok (left entry.1 entry.2, account entry.1 entry.2 acc)) (acc : σ) :
    forLists loop messages acc =
      .ok (messages.map fun entry => (entry.1, left entry.1 entry.2), emptied left messages,
        messages.foldl (fun acc entry => account entry.1 entry.2 acc) acc) := by
  induction messages generalizing acc with
  | nil => rfl
  | cons entry messages ih =>
      rw [List.forall_mem_cons] at hloop
      obtain ⟨hfirst, hrest⟩ := hloop
      rw [forLists, hfirst, ok_bind]
      simp only
      rw [ih hrest, ok_bind]
      simp only [emptied, List.filter_cons, List.map_cons, List.foldl_cons]
      split <;> rfl

theorem removeIds_eq (ids : List String) (messages : MultiMap String StoredMessage) :
    removeIds ids messages = messages.filter fun entry => decide (entry.1 ∉ ids) := by
  induction ids generalizing messages with
  | nil => simp [removeIds]
  | cons id ids ih =>
      have hnext := ih (messages.filter fun entry => entry.1 != id)
      rw [removeIds] at hnext ⊢
      rw [List.foldl_cons, hnext, List.filter_filter]
      apply List.filter_congr
      intro entry _
      by_cases hid : entry.1 = id <;> simp [hid]

theorem removeIds_emptied {left : String → List StoredMessage → List StoredMessage}
    {messages : MultiMap String StoredMessage} (hkeys : (messages.map Prod.fst).Nodup) :
    removeIds (emptied left messages)
        (messages.map fun entry => (entry.1, left entry.1 entry.2)) =
      mapLists left messages := by
  rw [removeIds_eq, mapLists]
  apply List.filter_congr
  intro entry hentry
  obtain ⟨before, hbefore, rfl⟩ := List.mem_map.mp hentry
  have hiff : before.1 ∈ emptied left messages ↔ (left before.1 before.2).isEmpty = true := by
    rw [emptied, List.mem_map]
    constructor
    · rintro ⟨other, hother, hsame⟩
      obtain ⟨hmem, hempty⟩ := List.mem_filter.mp hother
      obtain rfl := List.inj_on_of_nodup_map hkeys hmem hbefore hsame
      exact hempty
    · intro hempty
      exact ⟨before, List.mem_filter.mpr ⟨hbefore, hempty⟩, rfl⟩
  by_cases hempty : (left before.1 before.2).isEmpty = true <;> simp [hiff, hempty]

variable {storage : InMemoryMessageStorage}

/-- A loop over all lists, each from its last index. -/
theorem forLists_sweep {messages : MultiMap String StoredMessage} (h : Proper messages)
    (verdict : String → Nat → StoredMessage → Verdict StoredMessage)
    (onRemove : String → StoredMessage → σ → σ) (onStop : String → Nat → StoredMessage → σ → σ)
    (acc : σ) :
    forLists (fun messageId list acc => do
      let index ← lastIndex list
      whileNonneg (verdict messageId) (onRemove messageId) (onStop messageId) index list acc)
        messages acc =
      .ok (messages.map fun entry =>
          (entry.1, (swept (within (lastRounds entry.2) (verdict entry.1)) entry.2).left),
        emptied (fun messageId list =>
          (swept (within (lastRounds list) (verdict messageId)) list).left) messages,
        messages.foldl (fun acc entry =>
          (swept (within (lastRounds entry.2) (verdict entry.1)) entry.2).account
            (onRemove entry.1) (onStop entry.1) acc) acc) := by
  refine @forLists_eq _ _
    (fun messageId list => (swept (within (lastRounds list) (verdict messageId)) list).left)
    (fun messageId list acc => (swept (within (lastRounds list) (verdict messageId)) list).account
      (onRemove messageId) (onStop messageId) acc) messages ?_ acc
  intro entry hentry acc
  exact lastIndex_loop (h.nonempty entry hentry) acc

theorem foldl_forget (verdict : Verdicts) (messages : MultiMap String StoredMessage)
    (userMessageIds : MultiMap String String) :
    messages.foldl (fun userMessageIds entry =>
        (swept (verdict entry.1 entry.2) entry.2).removed.foldl
          (fun userMessageIds stored => forget entry.1 stored userMessageIds) userMessageIds)
      userMessageIds =
      removeUserMessageIds userMessageIds (messages.flatMap fun entry =>
        (swept (verdict entry.1 entry.2) entry.2).removed.map fun stored => (entry.1, stored)) := by
  rw [removeUserMessageIds, List.foldl_flatMap]
  simp only [List.foldl_map]
  rfl

/-- The verdicts of loops from the last index of each list. -/
def fromLast (verdict : String → Nat → StoredMessage → Verdict StoredMessage) : Verdicts :=
  fun messageId list => within (lastRounds list) (verdict messageId)

theorem cleanExpiredMessages_eq (h : Proper storage.messages) (clock : EntryClock) :
    cleanExpiredMessages storage clock = .ok (sweepAll storage (fromLast (cleanVerdict clock))) := by
  have hignore : ∀ (swept : Swept StoredMessage) (messageId : String)
      (userMessageIds : MultiMap String String),
      swept.account (forget messageId) (fun _ _ userMessageIds => userMessageIds) userMessageIds =
        swept.removed.foldl (fun userMessageIds stored =>
          forget messageId stored userMessageIds) userMessageIds := by
    rintro ⟨left, removed, _ | found⟩ messageId userMessageIds <;> rfl
  rw [cleanExpiredMessages]
  simp only
  rw [forLists_sweep h (cleanVerdict clock) forget, ok_bind]
  simp only [hignore, removeIds_emptied h.keys]
  rw [foldl_forget fun messageId list => within (lastRounds list) (cleanVerdict clock messageId)]
  rfl

/-- The messages that stop the loops. -/
def stops (verdict : Verdicts) (messages : MultiMap String StoredMessage) : List Delivery :=
  messages.filterMap fun entry =>
    (swept (verdict entry.1 entry.2) entry.2).stoppedAt.map fun found =>
      ⟨entry.1, found.1, found.2⟩

/-- One loop forgets what it removes and selects the message that it stops at. -/
theorem account_select (swept : Swept StoredMessage) (messageId : String) (acc : Selection) :
    swept.account (discard messageId) (select messageId) acc =
      (swept.removed.foldl (fun userMessageIds stored => forget messageId stored userMessageIds) acc.1,
        acc.2 ++ (swept.stoppedAt.map fun found =>
          (⟨messageId, found.1, found.2⟩ : Delivery)).toList) := by
  have hdiscard : ∀ (removed : List StoredMessage) (acc : Selection),
      removed.foldl (fun acc stored => discard messageId stored acc) acc =
        (removed.foldl (fun userMessageIds stored => forget messageId stored userMessageIds) acc.1,
          acc.2) := by
    intro removed
    induction removed with
    | nil => exact fun acc => rfl
    | cons stored removed ih => exact fun acc => ih (discard messageId stored acc)
  obtain ⟨left, removed, _ | found⟩ := swept
  · simp [Swept.account, hdiscard]
  · simp [Swept.account, hdiscard, select]

theorem foldl_select (verdict : Verdicts) (messages : MultiMap String StoredMessage)
    (acc : Selection) :
    messages.foldl (fun acc entry => (swept (verdict entry.1 entry.2) entry.2).account
        (discard entry.1) (select entry.1) acc) acc =
      (messages.foldl (fun userMessageIds entry =>
        (swept (verdict entry.1 entry.2) entry.2).removed.foldl
          (fun userMessageIds stored => forget entry.1 stored userMessageIds) userMessageIds) acc.1,
        acc.2 ++ stops verdict messages) := by
  induction messages generalizing acc with
  | nil => simp [stops]
  | cons entry messages ih =>
      rw [List.foldl_cons, ih, account_select, List.foldl_cons, List.append_assoc]
      congr 2
      rw [stops, stops, List.filterMap_cons]
      cases (swept (verdict entry.1 entry.2) entry.2).stoppedAt <;> rfl

theorem getDeliveryMessages_eq (h : Proper storage.messages)
    (scheduleClock validityClock : EntryClock) :
    getDeliveryMessages storage scheduleClock validityClock =
      .ok (sweepAll storage (fromLast (deliveryVerdict scheduleClock validityClock)),
        stops (fromLast (deliveryVerdict scheduleClock validityClock)) storage.messages) := by
  rw [getDeliveryMessages]
  simp only
  rw [forLists_sweep h (deliveryVerdict scheduleClock validityClock) discard select, ok_bind]
  have hselect := foldl_select (fromLast (deliveryVerdict scheduleClock validityClock))
    storage.messages (storage.userMessageIds, [])
  simp only [fromLast] at hselect
  rw [hselect]
  simp only [removeIds_emptied h.keys, List.nil_append]
  rw [foldl_forget fun messageId list =>
    within (lastRounds list) (deliveryVerdict scheduleClock validityClock messageId)]
  rfl

end Results

section Requests

variable {storage : InMemoryMessageStorage}

theorem find_append_cons {messageId : String} {done rest : MultiMap String StoredMessage}
    {list : List StoredMessage} (h : messageId ∉ done.map Prod.fst) :
    find messageId (done ++ (messageId, list) :: rest) = some list := by
  induction done with
  | nil => simp [find]
  | cons entry done ih =>
      rw [List.map_cons, List.mem_cons, not_or] at h
      obtain ⟨hfirst, hdone⟩ := h
      have hrest := ih hdone
      rw [find] at hrest ⊢
      rw [List.cons_append, List.find?_cons_of_neg (by simpa using Ne.symm hfirst), hrest]

theorem setList_of_not_mem {messageId : String} {messages : MultiMap String StoredMessage}
    (list : List StoredMessage) (h : messageId ∉ messages.map Prod.fst) :
    setList messageId list messages = messages := by
  refine (List.map_congr_left fun entry hentry => ?_).trans (List.map_id _)
  have hne : entry.1 ≠ messageId := by
    rintro rfl
    exact h (List.mem_map_of_mem hentry)
  rw [if_neg hne]
  rfl

theorem setList_append_cons {messageId : String} {done rest : MultiMap String StoredMessage}
    (list list' : List StoredMessage) (hdone : messageId ∉ done.map Prod.fst)
    (hrest : messageId ∉ rest.map Prod.fst) :
    setList messageId list' (done ++ (messageId, list) :: rest) =
      done ++ (messageId, list') :: rest := by
  have hsplit : setList messageId list' (done ++ (messageId, list) :: rest) =
      setList messageId list' done ++ (messageId, list') :: setList messageId list' rest := by
    simp [setList]
  rw [hsplit, setList_of_not_mem _ hdone, setList_of_not_mem _ hrest]

/-- The ids that a cancel_sm asks for. -/
def isAsked (cancelSm : Value) (messageId : String) : Bool :=
  cancelSm.strField "message_id" == "" || cancelSm.strField "message_id" == messageId

/-- What a cancel does with each entry. -/
def cancelVerdicts (cancelSm : Value) : Verdicts := fun messageId list index stored =>
  if isAsked cancelSm messageId = true then within (rounds list) (cancelVerdict cancelSm) index stored
  else .keep

theorem swept_cancelVerdicts_of_not (cancelSm : Value) {messageId : String}
    (h : isAsked cancelSm messageId = false) (list : List StoredMessage) :
    swept (cancelVerdicts cancelSm messageId list) list = ⟨list, [], none⟩ := by
  have hkeep : cancelVerdicts cancelSm messageId list =
      fun _ _ => if false = true then .remove else .keep := by
    funext index stored
    simp [cancelVerdicts, h]
  rw [hkeep, swept_filter fun _ => false]
  simp

/-- The keys of `rest` are gone through, those of `done` have been. -/
theorem cancelKeys_eq (cancelSm : Value) {done rest : MultiMap String StoredMessage}
    (hkeys : ((done ++ rest).map Prod.fst).Nodup) (hproper : Proper rest)
    (emptyMessageIds : List String) (removed : List (String × String)) :
    cancelKeys cancelSm (rest.map Prod.fst) (done ++ rest) emptyMessageIds removed =
      if (rest.all fun entry => !isAsked cancelSm entry.1 || fits entry.2) = true then
        .ok (done ++ rest.map fun entry =>
            (entry.1, (swept (cancelVerdicts cancelSm entry.1 entry.2) entry.2).left),
          emptyMessageIds ++ emptied (fun messageId list =>
            (swept (cancelVerdicts cancelSm messageId list) list).left) rest,
          removed ++ rest.flatMap fun entry =>
            (swept (cancelVerdicts cancelSm entry.1 entry.2) entry.2).removed.map fun stored =>
              (stored.userAddress, entry.1))
      else .error .subtractOverflow := by
  induction rest generalizing done emptyMessageIds removed with
  | nil => simp [cancelKeys, emptied]
  | cons entry rest ih =>
      obtain ⟨messageId, list⟩ := entry
      obtain ⟨hfresh, hnonempty, hrest⟩ := hproper.tail
      have hdone : messageId ∉ done.map Prod.fst := by
        intro hmem
        rw [List.map_append] at hkeys
        exact List.disjoint_of_nodup_append hkeys hmem (by simp)
      have hnext : ∀ list', ((done ++ [(messageId, list')] ++ rest).map Prod.fst).Nodup := by
        intro list'
        simpa using hkeys
      have hlater := fun list' => ih (hnext list') hrest
      simp only [List.append_assoc, List.singleton_append] at hlater
      rw [List.map_cons, cancelKeys]
      by_cases hasked : isAsked cancelSm messageId = true
      · have hcontinue : ¬ (cancelSm.strField "message_id" ≠ "" ∧
            messageId ≠ cancelSm.strField "message_id") := by
          rw [isAsked, Bool.or_eq_true, beq_iff_eq, beq_iff_eq] at hasked
          tauto
        have hverdict : cancelVerdicts cancelSm messageId list =
            within (rounds list) (cancelVerdict cancelSm) := by
          funext index stored
          rw [cancelVerdicts, if_pos hasked]
        have hcollect : ∀ (swept : Swept StoredMessage) (removed : List (String × String)),
            swept.account (fun stored removed => removed ++ [(stored.userAddress, messageId)])
              (fun _ _ removed => removed) removed =
              removed ++ swept.removed.map fun stored => (stored.userAddress, messageId) := by
          intro swept removed
          have hfold : swept.removed.foldl
              (fun removed stored => removed ++ [(stored.userAddress, messageId)]) removed =
              removed ++ swept.removed.map fun stored => (stored.userAddress, messageId) := by
            induction swept.removed generalizing removed with
            | nil => simp
            | cons stored list ih => simp [ih]
          rw [← hfold]
          obtain ⟨left, removed, _ | found⟩ := swept <;> rfl
        rw [if_neg hcontinue, find_append_cons hdone]
        simp only
        rw [lengthMinusOne_loop]
        by_cases hfits : fits list = true
        · simp only [hfits, if_true, hcollect, setList_append_cons _ _ hdone hfresh, hlater,
            List.all_cons, Bool.or_true, Bool.true_and, ← hverdict]
          simp only [emptied, List.filter_cons, List.map_cons, List.flatMap_cons,
            List.append_assoc]
          by_cases hleft : (swept (cancelVerdicts cancelSm messageId list) list).left = []
          · simp [hleft]
          · simp [hleft]
        · simp [hfits, hasked]
      · have hcontinue : cancelSm.strField "message_id" ≠ "" ∧
            messageId ≠ cancelSm.strField "message_id" := by
          rw [isAsked, Bool.or_eq_true, beq_iff_eq, beq_iff_eq] at hasked
          tauto
        have hother : isAsked cancelSm messageId = false := by simpa using hasked
        have hkept := swept_cancelVerdicts_of_not cancelSm hother list
        have hlist : list ≠ [] := hnonempty
        rw [if_pos hcontinue, hlater list, List.all_cons]
        simp only [hother, Bool.not_false, Bool.true_or, Bool.true_and]
        simp [emptied, hkept, hlist]

theorem cancelMessage_eq (h : Proper storage.messages) (cancelSm : Value) :
    cancelMessage storage cancelSm =
      if (storage.messages.all fun entry => !isAsked cancelSm entry.1 || fits entry.2) = true then
        .ok (sweepAll storage (cancelVerdicts cancelSm), storage.messages.any fun entry =>
          !(swept (cancelVerdicts cancelSm entry.1 entry.2) entry.2).removed.isEmpty)
      else .error .subtractOverflow := by
  have hkeys := @cancelKeys_eq cancelSm [] storage.messages h.keys h [] []
  simp only [List.nil_append] at hkeys
  rw [cancelMessage, hkeys]
  split
  · rw [ok_bind]
    simp only [removeIds_emptied h.keys]
    rw [sweepAll, removeUserMessageIds, List.foldl_flatMap, List.foldl_flatMap]
    simp only [List.foldl_map]
    congr 2
    rw [Bool.eq_iff_iff, decide_eq_true_eq, List.length_pos_iff, ne_eq, List.flatMap_eq_nil_iff]
    simp [List.any_eq_true]
  · rfl

/-- What a replace does with the entries of a list. -/
def replaceVerdicts (replaceSm : Value) (scheduleDeliveryTime validityPeriod : Option Instant)
    (list : List StoredMessage) : Nat → StoredMessage → Verdict StoredMessage :=
  within (rounds list) (replaceVerdict replaceSm scheduleDeliveryTime validityPeriod)

theorem userAddress_replaceStored (replaceSm : Value)
    (scheduleDeliveryTime validityPeriod : Option Instant) (stored : StoredMessage) :
    (replaceStored replaceSm scheduleDeliveryTime validityPeriod stored).userAddress =
      stored.userAddress := by
  unfold replaceStored
  split <;> rfl

theorem replaceVerdicts_put {replaceSm : Value} {scheduleDeliveryTime validityPeriod : Option Instant}
    {list : List StoredMessage} {index : Nat} {stored stored' : StoredMessage}
    (h : replaceVerdicts replaceSm scheduleDeliveryTime validityPeriod list index stored =
      .put stored') : replaceMatches replaceSm stored.message = true ∧
        stored' = replaceStored replaceSm scheduleDeliveryTime validityPeriod stored := by
  unfold replaceVerdicts within replaceVerdict at h
  split_ifs at h with hindex hmatches
  exact ⟨hmatches, (Verdict.put.inj h).symm⟩

theorem map_userAddress_replaced (replaceSm : Value)
    (scheduleDeliveryTime validityPeriod : Option Instant) (list : List StoredMessage) :
    (swept (replaceVerdicts replaceSm scheduleDeliveryTime validityPeriod list) list).left.map
      StoredMessage.userAddress = list.map StoredMessage.userAddress := by
  apply map_left
  · intro index stored
    unfold replaceVerdicts within replaceVerdict
    split_ifs <;> simp
  · intro index stored stored' hput
    rw [(replaceVerdicts_put hput).2, userAddress_replaceStored]

/-- The request names an id and gives something to replace. -/
def asksReplacement (replaceSm : Value) : Bool :=
  replaceSm.strField "message_id" != "" &&
    ((replaceSm.u64Field "sm_default_msg_id").toUInt8 != 0 ||
      replaceSm.strField "short_message" != "" || replaceSm.strField "message_payload" != "")

theorem replaceTimes_eq_ok_iff {calendar : Calendar} {scheduleNow validityNow : Instant}
    {replaceSm : Value} {list : List StoredMessage} {schedule validity : Option Instant} :
    replaceTimes calendar scheduleNow validityNow storage replaceSm =
        .ok (list, schedule, validity) ↔
      asksReplacement replaceSm = true ∧
        find (replaceSm.strField "message_id") storage.messages = some list ∧
        replacingTime calendar scheduleNow replaceSm "schedule_delivery_time"
          "Invalid schedule_delivery_time: " = .ok schedule ∧
        replacingTime calendar validityNow replaceSm "validity_period"
          "Invalid validity_period: " = .ok validity := by
  rw [replaceTimes, asksReplacement]
  split_ifs with hid hgiven
  · simp [hid]
  · simp [hgiven]
  · have hasks : (replaceSm.strField "message_id" != "" &&
        ((replaceSm.u64Field "sm_default_msg_id").toUInt8 != 0 ||
          replaceSm.strField "short_message" != "" ||
            replaceSm.strField "message_payload" != "")) = true := by
      simp only [Bool.and_eq_true, Bool.or_eq_true, bne_iff_ne]
      tauto
    rw [hasks]
    cases hfind : find (replaceSm.strField "message_id") storage.messages with
    | none => simp
    | some found =>
        cases replacingTime calendar scheduleNow replaceSm "schedule_delivery_time"
          "Invalid schedule_delivery_time: " with
        | err e => simp [bind, Outcome.bind]
        | panicked => simp [bind, Outcome.bind]
        | ok time =>
            cases replacingTime calendar validityNow replaceSm "validity_period"
              "Invalid validity_period: " with
            | err e => simp [bind, Outcome.bind]
            | panicked => simp [bind, Outcome.bind]
            | ok expiry => simp [bind, Outcome.bind]

/-- The store after the loop of a replace. -/
def replaced (storage : InMemoryMessageStorage) (replaceSm : Value) (list : List StoredMessage)
    (scheduleDeliveryTime validityPeriod : Option Instant) : InMemoryMessageStorage :=
  { storage with
    messages := setList (replaceSm.strField "message_id")
      (swept (replaceVerdicts replaceSm scheduleDeliveryTime validityPeriod list) list).left
      storage.messages }

theorem replaceMessage_eq (h : Proper storage.messages) (calendar : Calendar)
    (scheduleNow validityNow : Instant) (replaceSm : Value) :
    replaceMessage calendar scheduleNow validityNow storage replaceSm =
      match replaceTimes calendar scheduleNow validityNow storage replaceSm with
      | .err e => .ok (.err e)
      | .panicked => .ok .panicked
      | .ok (list, scheduleDeliveryTime, validityPeriod) =>
          if fits list = true then
            .ok (.ok (replaced storage replaceSm list scheduleDeliveryTime validityPeriod, true))
          else .error .subtractOverflow := by
  rw [replaceMessage]
  cases htimes : replaceTimes calendar scheduleNow validityNow storage replaceSm with
  | err e => rfl
  | panicked => rfl
  | ok result =>
      obtain ⟨list, scheduleDeliveryTime, validityPeriod⟩ := result
      have hnonempty := ((find_eq_some_iff h).mp (replaceTimes_eq_ok_iff.mp htimes).2.1).2
      have hleft : (swept (replaceVerdicts replaceSm scheduleDeliveryTime validityPeriod list)
          list).left.length = list.length := by
        have hmap := congrArg List.length
          (map_userAddress_replaced replaceSm scheduleDeliveryTime validityPeriod list)
        simpa using hmap
      simp only
      rw [lengthMinusOne_loop]
      simp only [replaceVerdicts] at hleft
      simp only [hleft, List.length_eq_zero_iff, hnonempty, if_false]
      rfl

theorem noPut_cleanVerdict (clock : EntryClock) (messageId : String) (list : List StoredMessage) :
    NoPut (fromLast (cleanVerdict clock) messageId list) := by
  refine NoPut.within ?_ _
  intro index stored stored'
  unfold cleanVerdict
  split <;> simp

theorem noPut_deliveryVerdict (scheduleClock validityClock : EntryClock) (messageId : String)
    (list : List StoredMessage) :
    NoPut (fromLast (deliveryVerdict scheduleClock validityClock) messageId list) := by
  refine NoPut.within ?_ _
  intro index stored stored'
  unfold deliveryVerdict
  split_ifs <;> simp

theorem noPut_cancelVerdicts (cancelSm : Value) (messageId : String) (list : List StoredMessage) :
    NoPut (cancelVerdicts cancelSm messageId list) := by
  intro index stored stored'
  unfold cancelVerdicts within cancelVerdict
  split_ifs <;> simp

end Requests

end SmppHerald.InMemoryLoops
