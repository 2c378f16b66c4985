import SmppHerald.Library.MultiMap
import SmppHerald.Time

namespace SmppHerald.InMemoryStorage

open SmppHerald.Io
open SmppHerald.Json
open SmppHerald.MultiMaps
open SmppHerald.Time

/-- A stored message. `serial` tells apart what was saved under one message id. -/
structure StoredMessage where
  serial : Nat
  userAddress : String
  message : Value
  scheduleDeliveryTime : Option Instant
  validityPeriod : Option Instant

structure InMemoryMessageStorage where
  messages : MultiMap String StoredMessage
  userMessageIds : MultiMap String String

namespace InMemoryMessageStorage

def new : InMemoryMessageStorage := ⟨[], []⟩

/-- The serials of the stored messages. -/
def serials (storage : InMemoryMessageStorage) : List Nat :=
  (items storage.messages).map StoredMessage.serial

end InMemoryMessageStorage

def StoredMessage.isExpired (now : Instant) (stored : StoredMessage) : Bool :=
  stored.validityPeriod.any fun validityPeriod => decide (validityPeriod < now)

def StoredMessage.isFuture (now : Instant) (stored : StoredMessage) : Bool :=
  stored.scheduleDeliveryTime.any fun scheduleDeliveryTime => decide (now < scheduleDeliveryTime)

def removeUserMessageId (userMessageIds : MultiMap String String) (userAddress messageId : String) :
    MultiMap String String :=
  updateAt userAddress (fun ids => ids.filter fun id => id != messageId) userMessageIds

/-- Forget the ids of messages that were removed. -/
def removeUserMessageIds (userMessageIds : MultiMap String String)
    (removed : List (String × StoredMessage)) : MultiMap String String :=
  removed.foldl (fun userMessageIds entry =>
    removeUserMessageId userMessageIds entry.2.userAddress entry.1) userMessageIds

/-- Remove the messages that `removes` names, going through each list from its end. -/
def removeWhere (storage : InMemoryMessageStorage) (removes : String → StoredMessage → Bool) :
    InMemoryMessageStorage where
  messages :=
    mapLists (fun messageId list => list.filter fun stored => !removes messageId stored)
      storage.messages
  userMessageIds :=
    removeUserMessageIds storage.userMessageIds (storage.messages.flatMap fun entry =>
      (entry.2.reverse.filter (removes entry.1)).map fun stored => (entry.1, stored))

/-- The index is out of range when the list has become shorter: then the call panics. -/
def removeMessageById (storage : InMemoryMessageStorage) (messageId : String) (index : Nat) :
    Option InMemoryMessageStorage :=
  match find messageId storage.messages with
  | none => some storage
  | some list =>
      if index < list.length then
        some { storage with
          messages := updateAt messageId (fun list => list.eraseIdx index) storage.messages }
      else none

/-- `clock` is what the clock shows when the loop comes to the message with the serial. -/
def cleanExpiredMessages (storage : InMemoryMessageStorage) (clock : Nat → Instant) :
    InMemoryMessageStorage :=
  removeWhere storage fun _ stored => stored.isExpired (clock stored.serial)

section Delivery

/-- What the clock shows when a loop comes to the message with a serial: it is read for the schedule
and, where that is not in the future, for the validity. -/
structure SweepClock where
  schedule : Nat → Instant
  validity : Nat → Instant

/-- The clock stands still during the loop. -/
def SweepClock.still (now : Instant) : SweepClock := ⟨fun _ => now, fun _ => now⟩

/-- A message to deliver, with the place it was found at. -/
structure Delivery where
  messageId : String
  index : Nat
  stored : StoredMessage

/-- The loop over one list, from its end: what is left of it, what was removed, and the index and
the message that were found. -/
def selectDelivery (clock : SweepClock) :
    List StoredMessage → List StoredMessage × List StoredMessage × Option (Nat × StoredMessage)
  | [] => ([], [], none)
  | stored :: list =>
      match selectDelivery clock list with
      | (list, removed, some (index, found)) => (stored :: list, removed, some (index + 1, found))
      | (list, removed, none) =>
          if stored.isFuture (clock.schedule stored.serial) = true then (stored :: list, removed, none)
          else if stored.isExpired (clock.validity stored.serial) = true then
            (list, removed ++ [stored], none)
          else (stored :: list, removed, some (0, stored))

/-- At most one message of each message id. -/
def deliveries (clock : SweepClock) (messages : MultiMap String StoredMessage) : List Delivery :=
  messages.filterMap fun entry =>
    (selectDelivery clock entry.2).2.2.map fun found => ⟨entry.1, found.1, found.2⟩

def getDeliveryMessages (storage : InMemoryMessageStorage) (clock : SweepClock) :
    InMemoryMessageStorage × List Delivery :=
  ({ messages := mapLists (fun _ list => (selectDelivery clock list).1) storage.messages
     userMessageIds :=
       removeUserMessageIds storage.userMessageIds (storage.messages.flatMap fun entry =>
         (selectDelivery clock entry.2).2.1.map fun stored => (entry.1, stored)) },
   deliveries clock storage.messages)

end Delivery

section Requests

/-- The three times at which `save` reads the clock. -/
structure SaveClock where
  schedule : Instant
  validity : Instant
  last : Instant

def save (calendar : Calendar) (defaultValidityPeriod : UInt32) (clock : SaveClock)
    (storage : InMemoryMessageStorage) (messageId : String) (message : Value) (serial : Nat) :
    Outcome InMemoryMessageStorage :=
  let destAddress := message.strField "destination_addr"
  if destAddress = "" then .err (invalidInput "Missing destination_addr in the message")
  else do
    let scheduleDeliveryTime ←
      (getScheduleDeliveryTime calendar clock.schedule message).optional
    let validityPeriod ←
      (getValidityPeriod calendar clock.validity defaultValidityPeriod message).optional
    if scheduleDeliveryTime.isNone ∧ validityPeriod.isNone then
      .err (invalidInput "Message has neither schedule_delivery_time nor validity_period")
    else if scheduleDeliveryTime.any (fun time =>
        validityPeriod.any fun expiry => decide (expiry < time)) = true then
      .err (invalidInput "schedule_delivery_time is later than validity_period")
    else if validityPeriod.any (fun expiry => decide (expiry < clock.last)) = true then
      .err (invalidInput "Message has already expired")
    else
      .ok {
        messages := push messageId
          ⟨serial, destAddress, message, scheduleDeliveryTime, validityPeriod⟩ storage.messages
        userMessageIds := push destAddress messageId storage.userMessageIds }

/-- A text of a request that is empty matches every message. -/
def textMatches (request message : Value) (field : String) : Bool :=
  request.strField field == "" || request.strField field == message.strField field

/-- A number of a request that is zero matches every message. -/
def numberMatches (request message : Value) (field : String) : Bool :=
  (request.u64Field field).toUInt8 == 0 ||
    (request.u64Field field).toUInt8 == (message.u64Field field).toUInt8

def cancelMatches (cancelSm message : Value) : Bool :=
  textMatches cancelSm message "service_type" && textMatches cancelSm message "source_addr" &&
    textMatches cancelSm message "destination_addr" &&
    numberMatches cancelSm message "source_addr_ton" &&
    numberMatches cancelSm message "source_addr_npi" &&
    numberMatches cancelSm message "dest_addr_ton" && numberMatches cancelSm message "dest_addr_npi"

/-- Whether the message stored under `messageId` is one to cancel. -/
def isCancelled (cancelSm : Value) (messageId : String) (stored : StoredMessage) : Bool :=
  (cancelSm.strField "message_id" == "" || cancelSm.strField "message_id" == messageId) &&
    cancelMatches cancelSm stored.message

def cancelMessage (storage : InMemoryMessageStorage) (cancelSm : Value) :
    InMemoryMessageStorage × Bool :=
  (removeWhere storage (isCancelled cancelSm),
   storage.messages.any fun entry => entry.2.any (isCancelled cancelSm entry.1))

/-- The time that a replace_sm gives, if it gives one. -/
def replacingTime (calendar : Calendar) (now : Instant) (replaceSm : Value) (field text : String) :
    Outcome (Option Instant) :=
  if replaceSm.strField field = "" then .ok none
  else
    match parseAbsoluteRelativeTime calendar now (replaceSm.strField field) with
    | .ok time => .ok (some time)
    | .err e => .err (invalidInput (text ++ e.message))
    | .panicked => .panicked

def replaceMatches (replaceSm message : Value) : Bool :=
  numberMatches replaceSm message "source_addr_ton" &&
    numberMatches replaceSm message "source_addr_npi" &&
    textMatches replaceSm message "source_addr"

/-- `message[field] = value` for a field that the replace_sm gives. -/
def replaceField (given : Bool) (field : String) (value message : Value) : Value :=
  if given = true then message.insertKey field value else message

def replaceStored (replaceSm : Value) (scheduleDeliveryTime validityPeriod : Option Instant)
    (stored : StoredMessage) : StoredMessage :=
  if replaceMatches replaceSm stored.message = true then
    let smDefaultMsgId := (replaceSm.u64Field "sm_default_msg_id").toUInt8
    let shortMessage := replaceSm.strField "short_message"
    let messagePayload := replaceSm.strField "message_payload"
    let message := replaceField (smDefaultMsgId != 0) "sm_default_msg_id"
      (.ofNat smDefaultMsgId.toNat) stored.message
    let message :=
      if shortMessage ≠ "" then message.insertKey "short_message" (.string shortMessage)
      else replaceField (messagePayload != "") "short_message" (.string messagePayload) message
    let message := replaceField scheduleDeliveryTime.isSome "schedule_delivery_time"
      (.string (replaceSm.strField "schedule_delivery_time")) message
    let message := replaceField validityPeriod.isSome "validity_period"
      (.string (replaceSm.strField "validity_period")) message
    { stored with
      message := message.insertKey "registered_delivery"
        (.ofNat (replaceSm.u64Field "registered_delivery").toUInt8.toNat)
      scheduleDeliveryTime := scheduleDeliveryTime.or stored.scheduleDeliveryTime
      validityPeriod := validityPeriod.or stored.validityPeriod }
  else stored

def replaceMessage (calendar : Calendar) (scheduleNow validityNow : Instant)
    (storage : InMemoryMessageStorage) (replaceSm : Value) :
    Outcome (InMemoryMessageStorage × Bool) :=
  let messageId := replaceSm.strField "message_id"
  if messageId = "" then .err (invalidInput "Missing message_id in the replace_sm command")
  else if (replaceSm.u64Field "sm_default_msg_id").toUInt8 = 0 ∧
      replaceSm.strField "short_message" = "" ∧ replaceSm.strField "message_payload" = "" then
    .err (invalidInput
      "Missing sm_default_msg_id, short_message, and message_payload in the replace_sm command")
  else if (find messageId storage.messages).isNone then
    .err ⟨.notFound, "Message with id " ++ messageId ++ " not found"⟩
  else do
    let scheduleDeliveryTime ← replacingTime calendar scheduleNow replaceSm
      "schedule_delivery_time" "Invalid schedule_delivery_time: "
    let validityPeriod ← replacingTime calendar validityNow replaceSm "validity_period"
      "Invalid validity_period: "
    .ok ({ storage with
      messages := updateAt messageId
        (fun list => list.map (replaceStored replaceSm scheduleDeliveryTime validityPeriod))
        storage.messages }, true)

variable {storage storage' : InMemoryMessageStorage}

theorem save_eq_ok {calendar : Calendar} {defaultValidityPeriod : UInt32} {clock : SaveClock}
    {messageId : String} {message : Value} {serial : Nat}
    (h : save calendar defaultValidityPeriod clock storage messageId message serial =
      .ok storage') :
    ∃ scheduleDeliveryTime validityPeriod,
      (getScheduleDeliveryTime calendar clock.schedule message).optional =
          .ok scheduleDeliveryTime ∧
        (getValidityPeriod calendar clock.validity defaultValidityPeriod message).optional =
          .ok validityPeriod ∧
        message.strField "destination_addr" ≠ "" ∧
        (scheduleDeliveryTime = none → validityPeriod ≠ none) ∧
        (∀ time expiry, scheduleDeliveryTime = some time → validityPeriod = some expiry →
          time ≤ expiry) ∧
        (∀ expiry, validityPeriod = some expiry → clock.last ≤ expiry) ∧
        storage' =
          { messages := push messageId ⟨serial, message.strField "destination_addr", message,
              scheduleDeliveryTime, validityPeriod⟩ storage.messages
            userMessageIds :=
              push (message.strField "destination_addr") messageId storage.userMessageIds } := by
  rw [save] at h
  split at h
  · simp at h
  · rename_i hdest
    obtain ⟨scheduleDeliveryTime, hschedule, h⟩ := Outcome.bind_eq_ok_iff.mp h
    obtain ⟨validityPeriod, hvalidity, h⟩ := Outcome.bind_eq_ok_iff.mp h
    split_ifs at h with hnone hlater hpast
    refine ⟨scheduleDeliveryTime, validityPeriod, hschedule, hvalidity, hdest, ?_, ?_, ?_,
      (Outcome.ok.inj h).symm⟩
    · rintro rfl rfl
      exact hnone ⟨rfl, rfl⟩
    · rintro time expiry rfl rfl
      simpa using hlater
    · rintro expiry rfl
      simpa using hpast

theorem replaceMessage_eq_ok {calendar : Calendar} {scheduleNow validityNow : Instant}
    {replaceSm : Value} {replaced : Bool}
    (h : replaceMessage calendar scheduleNow validityNow storage replaceSm =
      .ok (storage', replaced)) :
    ∃ scheduleDeliveryTime validityPeriod,
      replacingTime calendar scheduleNow replaceSm "schedule_delivery_time"
          "Invalid schedule_delivery_time: " = .ok scheduleDeliveryTime ∧
        replacingTime calendar validityNow replaceSm "validity_period"
          "Invalid validity_period: " = .ok validityPeriod ∧
        storage' = { storage with
          messages := updateAt (replaceSm.strField "message_id")
            (fun list => list.map (replaceStored replaceSm scheduleDeliveryTime validityPeriod))
            storage.messages } := by
  rw [replaceMessage] at h
  split_ifs at h with hid hgiven hunknown
  obtain ⟨scheduleDeliveryTime, hschedule, h⟩ := Outcome.bind_eq_ok_iff.mp h
  obtain ⟨validityPeriod, hvalidity, h⟩ := Outcome.bind_eq_ok_iff.mp h
  obtain ⟨rfl, -⟩ := Prod.mk.inj (Outcome.ok.inj h)
  exact ⟨scheduleDeliveryTime, validityPeriod, hschedule, hvalidity, rfl⟩

end Requests

section Serials

variable {storage storage' : InMemoryMessageStorage}

theorem serials_removeWhere (storage : InMemoryMessageStorage)
    (removes : String → StoredMessage → Bool) :
    (removeWhere storage removes).serials.Sublist storage.serials := by
  have hlists : ∀ (messageId : String) (list : List StoredMessage),
      (list.filter fun stored => !removes messageId stored).Sublist list :=
    fun _ _ => List.filter_sublist
  exact (items_mapLists_sublist hlists storage.messages).map _

theorem selectDelivery_sublist (clock : SweepClock) (list : List StoredMessage) :
    (selectDelivery clock list).1.Sublist list := by
  induction list with
  | nil => exact List.Sublist.refl _
  | cons stored list ih =>
      unfold selectDelivery
      split
      · rename_i heq
        rw [heq] at ih
        exact ih.cons_cons stored
      · rename_i heq
        rw [heq] at ih
        split
        · exact ih.cons_cons stored
        · split
          · exact ih.cons stored
          · exact ih.cons_cons stored

theorem selectDelivery_mem {clock : SweepClock} {list : List StoredMessage} {index : Nat}
    {found : StoredMessage} (h : (selectDelivery clock list).2.2 = some (index, found)) :
    found ∈ list := by
  induction list generalizing index with
  | nil => simp [selectDelivery] at h
  | cons stored list ih =>
      unfold selectDelivery at h
      split at h
      · rename_i heq
        simp only [Option.some.injEq, Prod.mk.injEq] at h
        obtain ⟨-, rfl⟩ := h
        exact List.mem_cons_of_mem _ (ih (by rw [heq]))
      · split at h
        · simp at h
        · split at h
          · simp at h
          · simp only [Option.some.injEq, Prod.mk.injEq] at h
            exact h.2 ▸ List.mem_cons_self

theorem serials_getDeliveryMessages (storage : InMemoryMessageStorage) (clock : SweepClock) :
    (getDeliveryMessages storage clock).1.serials.Sublist storage.serials :=
  (items_mapLists_sublist (fun _ list => selectDelivery_sublist clock list) _).map _

theorem deliveries_sublist (clock : SweepClock) (messages : MultiMap String StoredMessage) :
    ((deliveries clock messages).map Delivery.stored).Sublist (items messages) := by
  induction messages with
  | nil => exact List.Sublist.refl _
  | cons entry messages ih =>
      rw [deliveries, List.filterMap_cons, items_cons]
      cases hfound : (selectDelivery clock entry.2).2.2 with
      | none => exact ih.trans (List.sublist_append_right _ _)
      | some found =>
          have hmem : found.2 ∈ entry.2 := selectDelivery_mem hfound
          exact (List.singleton_sublist.mpr hmem).append ih

theorem serials_save {calendar : Calendar} {defaultValidityPeriod : UInt32} {clock : SaveClock}
    {messageId : String} {message : Value} {serial : Nat}
    (h : save calendar defaultValidityPeriod clock storage messageId message serial =
      .ok storage') : storage'.serials.Perm (serial :: storage.serials) := by
  obtain ⟨scheduleDeliveryTime, validityPeriod, -, -, -, -, -, -, rfl⟩ := save_eq_ok h
  exact (items_push _ _ _).map _

theorem serial_replaceStored (replaceSm : Value) (scheduleDeliveryTime validityPeriod : Option Instant)
    (stored : StoredMessage) :
    (replaceStored replaceSm scheduleDeliveryTime validityPeriod stored).serial = stored.serial := by
  unfold replaceStored
  split <;> rfl

theorem serials_replaceMessage {calendar : Calendar} {scheduleNow validityNow : Instant}
    {replaceSm : Value} {replaced : Bool}
    (h : replaceMessage calendar scheduleNow validityNow storage replaceSm =
      .ok (storage', replaced)) : storage'.serials = storage.serials := by
  obtain ⟨scheduleDeliveryTime, validityPeriod, -, -, rfl⟩ := replaceMessage_eq_ok h
  refine map_items_updateAt ?_ _ _
  intro list
  simp [Function.comp_def, serial_replaceStored]

/-- The serial of the message at a place. -/
def placed (storage : InMemoryMessageStorage) (messageId : String) (index : Nat) : Option Nat :=
  (find messageId storage.messages).bind fun list => list[index]?.map StoredMessage.serial

theorem proper_removeMessageById (h : Proper storage.messages) {messageId : String} {index : Nat}
    (hremove : removeMessageById storage messageId index = some storage') :
    Proper storage'.messages := by
  rw [removeMessageById] at hremove
  split at hremove
  · obtain rfl := Option.some.inj hremove
    exact h
  · split at hremove
    · obtain rfl := Option.some.inj hremove
      exact h.updateAt _ _
    · cases hremove

theorem serials_removeMessageById {messageId : String} {index : Nat}
    (h : removeMessageById storage messageId index = some storage') :
    storage'.serials.Sublist storage.serials ∧ ∀ serial ∈ storage.serials,
      serial ∈ storage'.serials ∨ placed storage messageId index = some serial := by
  unfold removeMessageById at h
  cases hfind : find messageId storage.messages with
  | none =>
      obtain rfl : storage = storage' := by simpa [hfind] using h
      exact ⟨List.Sublist.refl _, fun serial hserial => .inl hserial⟩
  | some list =>
      simp only [hfind] at h
      split at h
      · rename_i hindex
        obtain rfl := Option.some.inj h
        have hlists : ∀ list : List StoredMessage, (list.eraseIdx index).Sublist list :=
          fun list => List.eraseIdx_sublist list index
        refine ⟨(items_updateAt_sublist hlists _ _).map _, ?_⟩
        intro serial hserial
        obtain ⟨stored, hstored, rfl⟩ := List.mem_map.mp hserial
        rcases items_updateAt messageId (fun list => list.eraseIdx index) storage.messages with
          heq | ⟨front, found, back, hfound, hitems, hupdate⟩
        · exact .inl (List.mem_map_of_mem (heq ▸ hstored))
        · obtain rfl : list = found := Option.some.inj (hfind.symm.trans hfound)
          rw [hitems] at hstored
          have hperm := List.getElem_cons_eraseIdx_perm hindex
          have hcases : stored ∈ front ∨ (stored = list[index] ∨ stored ∈ list.eraseIdx index) ∨
              stored ∈ back := by
            simpa [← hperm.mem_iff, or_assoc] using hstored
          rcases hcases with hfront | (rfl | hrest) | hback
          · exact .inl (List.mem_map_of_mem (by simp [hupdate, hfront]))
          · exact .inr (by simp [placed, hfind, hindex])
          · exact .inl (List.mem_map_of_mem (by simp [hupdate, hrest]))
          · exact .inl (List.mem_map_of_mem (by simp [hupdate, hback]))
      · simp at h

end Serials

end SmppHerald.InMemoryStorage
