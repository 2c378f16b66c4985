import SmppHerald.InMemoryStorage

/-!
`SqlMessageStorage`: the rows of `message_queue` and the statements on them. Texts are compared as
texts, also where they are times.
-/

namespace SmppHerald.SqlStorage

open SmppHerald.InMemoryStorage
open SmppHerald.Io
open SmppHerald.Json
open SmppHerald.Time

/-- A row of `message_queue`; `message` is the value that its JSON text was made from. -/
structure Row where
  id : Nat
  serviceType : String
  sourceAddrTon : Int
  sourceAddrNpi : Int
  sourceAddr : String
  destAddrTon : Int
  destAddrNpi : Int
  destinationAddr : String
  messageId : String
  message : Value
  scheduleDeliveryTime : Option String
  validityPeriod : Option String

/-- `as i16` -/
def asI16 (n : UInt64) : Int := n.toUInt16.toInt16.toInt

/-- `as i32` -/
def asI32 (n : UInt64) : Int := n.toUInt32.toInt32.toInt

section Save

def isReplaceIfPresent (message : Value) : Bool :=
  (message.u64Field "replace_if_present_flag").toUInt8 == 1

/-- The rows that `delete_messages_for_replace_if_present_flag` selects. -/
def isSuperseded (message : Value) (row : Row) : Bool :=
  row.serviceType == message.strField "service_type" &&
    row.sourceAddrTon == asI32 (message.u64Field "source_addr_ton") &&
    row.sourceAddrNpi == asI32 (message.u64Field "source_addr_npi") &&
    row.sourceAddr == message.strField "source_addr" &&
    row.destAddrTon == asI32 (message.u64Field "dest_addr_ton") &&
    row.destAddrNpi == asI32 (message.u64Field "dest_addr_npi") &&
    row.destinationAddr == message.strField "destination_addr"

/-- The row that `save` inserts in the end. `now` is when it compares the delivery time with the
clock. -/
def newRow (calendar : Calendar) (defaultValidityPeriod : UInt32) (clock : SaveClock)
    (now : Instant) (messageId : String) (message : Value) (id : Nat) : Outcome Row :=
  let destinationAddr := message.strField "destination_addr"
  if destinationAddr = "" then .err (invalidInput "Missing destination_addr in the message")
  else do
    let scheduleDeliveryTime ←
      (getScheduleDeliveryTime calendar clock.schedule message).optional
    if scheduleDeliveryTime.any (fun time => decide (time < now)) = true then
      .err (invalidInput "schedule_delivery_time is in the past")
    else do
      let validityPeriod ←
        (getValidityPeriod calendar clock.validity defaultValidityPeriod message).optional
      let validityPeriod :=
        if scheduleDeliveryTime.isNone ∧ validityPeriod.isNone then
          some (clock.last + seconds defaultValidityPeriod.toNat)
        else validityPeriod
      .ok {
        id
        serviceType := message.strField "service_type"
        sourceAddrTon := asI16 (message.u64Field "source_addr_ton")
        sourceAddrNpi := asI16 (message.u64Field "source_addr_npi")
        sourceAddr := message.strField "source_addr"
        destAddrTon := asI16 (message.u64Field "dest_addr_ton")
        destAddrNpi := asI16 (message.u64Field "dest_addr_npi")
        destinationAddr
        messageId
        message
        scheduleDeliveryTime := scheduleDeliveryTime.map calendar.toRfc3339
        validityPeriod := validityPeriod.map calendar.toRfc3339 }

end Save

section Cancel

/-- A condition on a text column, if the request gives the text. -/
def textCondition (text column : String) : Option Bool :=
  if text = "" then none else some (column == text)

/-- A condition on a number column, if the request gives a number other than zero. -/
def numberCondition (number column : Int) : Option Bool :=
  if number = 0 then none else some (column == number)

/-- The conditions of the `DELETE` statement. -/
def cancelConditions (cancelSm : Value) (row : Row) : List Bool :=
  [textCondition (cancelSm.strField "service_type") row.serviceType,
   textCondition (cancelSm.strField "message_id") row.messageId,
   numberCondition (asI32 (cancelSm.u64Field "source_addr_ton")) row.sourceAddrTon,
   numberCondition (asI32 (cancelSm.u64Field "source_addr_npi")) row.sourceAddrNpi,
   textCondition (cancelSm.strField "source_addr") row.sourceAddr,
   numberCondition (asI32 (cancelSm.u64Field "dest_addr_ton")) row.destAddrTon,
   numberCondition (asI32 (cancelSm.u64Field "dest_addr_npi")) row.destAddrNpi,
   textCondition (cancelSm.strField "destination_addr") row.destinationAddr].filterMap id

/-- A request without any condition is refused. -/
def isCancelled (cancelSm : Value) (row : Row) : Bool :=
  !(cancelConditions cancelSm row).isEmpty && (cancelConditions cancelSm row).all id

end Cancel

section Replace

/-- What a replace_sm writes into one row; a time that is not given stays. -/
structure Update where
  id : Nat
  message : Value
  scheduleDeliveryTime : Option String
  validityPeriod : Option String

/-- The times of a replace_sm, or the error it is refused with. -/
def replaceTimes (calendar : Calendar) (scheduleNow validityNow : Instant) (replaceSm : Value) :
    Outcome (Option String × Option String) :=
  if replaceSm.strField "message_id" = "" then
    .err (invalidInput "Missing message_id in the replace_sm command")
  else if (replaceSm.u64Field "sm_default_msg_id").toUInt8 = 0 ∧
      replaceSm.strField "short_message" = "" ∧ replaceSm.strField "message_payload" = "" then
    .err (invalidInput "Missing short_message or message_payload in the replace_sm command")
  else do
    let scheduleDeliveryTime ←
      replacingTime calendar scheduleNow replaceSm "schedule_delivery_time" ""
    let validityPeriod ← replacingTime calendar validityNow replaceSm "validity_period" ""
    .ok (scheduleDeliveryTime.map calendar.toRfc3339, validityPeriod.map calendar.toRfc3339)

def replaceConditions (replaceSm : Value) (row : Row) : List Bool :=
  [some (row.messageId == replaceSm.strField "message_id"),
   numberCondition (asI32 (replaceSm.u64Field "source_addr_ton")) row.sourceAddrTon,
   numberCondition (asI32 (replaceSm.u64Field "source_addr_npi")) row.sourceAddrNpi,
   textCondition (replaceSm.strField "source_addr") row.sourceAddr].filterMap id

def updatedMessage (replaceSm message : Value) : Value :=
  let scheduleDeliveryTime := replaceSm.strField "schedule_delivery_time"
  let validityPeriod := replaceSm.strField "validity_period"
  let smDefaultMsgId := (replaceSm.u64Field "sm_default_msg_id").toUInt8
  let shortMessage := replaceSm.strField "short_message"
  let messagePayload := replaceSm.strField "message_payload"
  let message := replaceField (scheduleDeliveryTime != "") "schedule_delivery_time"
    (.string scheduleDeliveryTime) message
  let message := replaceField (validityPeriod != "") "validity_period" (.string validityPeriod)
    message
  let message := replaceField (smDefaultMsgId != 0) "sm_default_msg_id"
    (.ofNat smDefaultMsgId.toNat) message
  let message :=
    if shortMessage ≠ "" then message.insertKey "short_message" (.string shortMessage)
    else replaceField (messagePayload != "") "short_message" (.string messagePayload) message
  message.insertKey "registered_delivery"
    (.ofNat (replaceSm.u64Field "registered_delivery").toUInt8.toNat)

/-- The updates of the selected rows. -/
def updates (replaceSm : Value) (times : Option String × Option String) (rows : List Row) :
    List Update :=
  (rows.filter fun row => (replaceConditions replaceSm row).all id).map fun row =>
    ⟨row.id, updatedMessage replaceSm row.message, times.1, times.2⟩

def Update.apply (update : Update) (row : Row) : Row :=
  if row.id = update.id then
    { row with
      message := update.message
      scheduleDeliveryTime := update.scheduleDeliveryTime.or row.scheduleDeliveryTime
      validityPeriod := update.validityPeriod.or row.validityPeriod }
  else row

theorem get_replaceField_of_ne {field other : String} (hne : other ≠ field) (given : Bool)
    (value message : Value) :
    (replaceField given field value message).get other = message.get other := by
  unfold replaceField
  split
  · exact Value.get_insertKey_of_ne hne message value
  · rfl

theorem get_updatedMessage {other : String}
    (hother : other ∉ ["schedule_delivery_time", "validity_period", "sm_default_msg_id",
      "short_message", "registered_delivery"]) (replaceSm message : Value) :
    (updatedMessage replaceSm message).get other = message.get other := by
  simp only [List.mem_cons, List.not_mem_nil, or_false, not_or] at hother
  obtain ⟨hschedule, hvalidity, hdefault, hshort, hregistered⟩ := hother
  unfold updatedMessage
  simp only
  rw [Value.get_insertKey_of_ne hregistered]
  split
  · rw [Value.get_insertKey_of_ne hshort, get_replaceField_of_ne hdefault,
      get_replaceField_of_ne hvalidity, get_replaceField_of_ne hschedule]
  · rw [get_replaceField_of_ne hshort, get_replaceField_of_ne hdefault,
      get_replaceField_of_ne hvalidity, get_replaceField_of_ne hschedule]

end Replace

section Delivery

/-- The rows that `get_delivery_messages` selects. -/
def Row.isDue (calendar : Calendar) (now : Instant) (row : Row) : Bool :=
  row.scheduleDeliveryTime.all fun time => decide (time ≤ calendar.toRfc3339 now)

/-- The rows that `clean_expired_messages` deletes. -/
def Row.isExpired (calendar : Calendar) (now : Instant) (row : Row) : Bool :=
  row.validityPeriod.any fun time => decide (time < calendar.toRfc3339 now)

def deliveries (calendar : Calendar) (now : Instant) (rows : List Row) : List (Nat × Value) :=
  (rows.filter (Row.isDue calendar now)).map fun row => (row.id, row.message)

end Delivery

end SmppHerald.SqlStorage
