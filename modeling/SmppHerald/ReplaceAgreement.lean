import SmppHerald.StorageAgreement

namespace SmppHerald.ReplaceAgreement

open SmppHerald.InMemoryStorage
open SmppHerald.Io
open SmppHerald.Json
open SmppHerald.MultiMaps
open SmppHerald.SqlStorage (Row updatedMessage replaceTimes)
open SmppHerald.StorageAgreement
open SmppHerald.Time

section Messages

/-- What a replace_sm gives for a field of the message. -/
def newValue (replaceSm : Value) : String → Option Value
  | "schedule_delivery_time" =>
      if replaceSm.strField "schedule_delivery_time" = "" then none
      else some (.string (replaceSm.strField "schedule_delivery_time"))
  | "validity_period" =>
      if replaceSm.strField "validity_period" = "" then none
      else some (.string (replaceSm.strField "validity_period"))
  | "sm_default_msg_id" =>
      if (replaceSm.u64Field "sm_default_msg_id").toUInt8 = 0 then none
      else some (.ofNat (replaceSm.u64Field "sm_default_msg_id").toUInt8.toNat)
  | "short_message" =>
      if replaceSm.strField "short_message" ≠ "" then
        some (.string (replaceSm.strField "short_message"))
      else if replaceSm.strField "message_payload" ≠ "" then
        some (.string (replaceSm.strField "message_payload"))
      else none
  | "registered_delivery" =>
      some (.ofNat (replaceSm.u64Field "registered_delivery").toUInt8.toNat)
  | _ => none

theorem get_replaceField (given : Bool) (field key : String) (value : Value) (map : Map) :
    (replaceField given field value (.object map)).get key =
      ((if given = true ∧ key = field then some value else none).or
        ((Value.object map).get key)) := by
  unfold replaceField
  by_cases hgiven : given = true
  · by_cases hkey : key = field
    · subst hkey
      rw [if_pos hgiven, if_pos ⟨hgiven, rfl⟩, Value.get_insertKey_self]
      rfl
    · rw [if_pos hgiven, if_neg fun h => hkey h.2, Value.get_insertKey_of_ne hkey]
      rfl
  · rw [if_neg hgiven, if_neg fun h => hgiven h.1]
    rfl

theorem replaceField_object (given : Bool) (field : String) (value : Value) {map : Map}
    (h : Ordered map) : ∃ map', replaceField given field value (.object map) = .object map' ∧
      Ordered map' := by
  unfold replaceField
  split
  · exact ⟨_, rfl, h.insert field value⟩
  · exact ⟨map, rfl, h⟩

theorem replaceField_comm {field other : String} (hne : field ≠ other) (given otherGiven : Bool)
    (value otherValue : Value) {map : Map} (h : Ordered map) :
    replaceField given field value (replaceField otherGiven other otherValue (.object map)) =
      replaceField otherGiven other otherValue (replaceField given field value (.object map)) := by
  cases given with
  | false => rfl
  | true =>
      cases otherGiven with
      | false => rfl
      | true => exact congrArg Value.object (insert_comm h hne value otherValue)

/-- The text that a replace_sm gives. -/
def newText (replaceSm : Value) : String :=
  if replaceSm.strField "short_message" ≠ "" then replaceSm.strField "short_message"
  else replaceSm.strField "message_payload"

theorem replaceText_eq (replaceSm message : Value) :
    (if replaceSm.strField "short_message" ≠ "" then
        message.insertKey "short_message" (.string (replaceSm.strField "short_message"))
      else replaceField (replaceSm.strField "message_payload" != "") "short_message"
        (.string (replaceSm.strField "message_payload")) message) =
      replaceField (newText replaceSm != "") "short_message" (.string (newText replaceSm))
        message := by
  unfold newText
  split
  · rename_i hgiven
    rw [replaceField, if_pos (by simpa using hgiven)]
  · rfl

theorem newValue_eq (replaceSm : Value) (key : String) : newValue replaceSm key =
    (if true = true ∧ key = "registered_delivery" then
      some (Value.ofNat (replaceSm.u64Field "registered_delivery").toUInt8.toNat) else none).or
    ((if (newText replaceSm != "") = true ∧ key = "short_message" then
      some (.string (newText replaceSm)) else none).or
    ((if ((replaceSm.u64Field "sm_default_msg_id").toUInt8 != 0) = true ∧
        key = "sm_default_msg_id" then
      some (.ofNat (replaceSm.u64Field "sm_default_msg_id").toUInt8.toNat) else none).or
    ((if (replaceSm.strField "validity_period" != "") = true ∧ key = "validity_period" then
      some (.string (replaceSm.strField "validity_period")) else none).or
    (if (replaceSm.strField "schedule_delivery_time" != "") = true ∧
        key = "schedule_delivery_time" then
      some (.string (replaceSm.strField "schedule_delivery_time")) else none)))) := by
  by_cases hregistered : key = "registered_delivery"
  · subst hregistered
    simp [newValue]
  by_cases hshort : key = "short_message"
  · subst hshort
    by_cases hgiven : replaceSm.strField "short_message" = ""
    · simp [newValue, newText, hgiven]
    · simp [newValue, newText, hgiven]
  by_cases hdefault : key = "sm_default_msg_id"
  · subst hdefault
    simp [newValue]
  by_cases hvalidity : key = "validity_period"
  · subst hvalidity
    simp [newValue]
  by_cases hschedule : key = "schedule_delivery_time"
  · subst hschedule
    simp [newValue]
  · simp [newValue, hregistered, hshort, hdefault, hvalidity, hschedule]

theorem get_updatedMessage (replaceSm : Value) {map : Map} (h : Ordered map) (key : String) :
    (updatedMessage replaceSm (.object map)).get key =
      (newValue replaceSm key).or ((Value.object map).get key) := by
  unfold updatedMessage
  simp only [replaceText_eq]
  have hgetSchedule := get_replaceField (replaceSm.strField "schedule_delivery_time" != "")
    "schedule_delivery_time" key (.string (replaceSm.strField "schedule_delivery_time")) map
  obtain ⟨afterSchedule, hschedule, hordered⟩ := replaceField_object
    (replaceSm.strField "schedule_delivery_time" != "") "schedule_delivery_time"
    (.string (replaceSm.strField "schedule_delivery_time")) h
  rw [hschedule] at hgetSchedule ⊢
  have hgetValidity := get_replaceField (replaceSm.strField "validity_period" != "")
    "validity_period" key (.string (replaceSm.strField "validity_period")) afterSchedule
  obtain ⟨afterValidity, hvalidity, hordered⟩ := replaceField_object
    (replaceSm.strField "validity_period" != "") "validity_period"
    (.string (replaceSm.strField "validity_period")) hordered
  rw [hvalidity] at hgetValidity ⊢
  have hgetDefault := get_replaceField ((replaceSm.u64Field "sm_default_msg_id").toUInt8 != 0)
    "sm_default_msg_id" key (.ofNat (replaceSm.u64Field "sm_default_msg_id").toUInt8.toNat)
    afterValidity
  obtain ⟨afterDefault, hdefault, hordered⟩ := replaceField_object
    ((replaceSm.u64Field "sm_default_msg_id").toUInt8 != 0) "sm_default_msg_id"
    (.ofNat (replaceSm.u64Field "sm_default_msg_id").toUInt8.toNat) hordered
  rw [hdefault] at hgetDefault ⊢
  have hgetText := get_replaceField (newText replaceSm != "") "short_message" key
    (.string (newText replaceSm)) afterDefault
  obtain ⟨afterText, htext, -⟩ := replaceField_object (newText replaceSm != "") "short_message"
    (.string (newText replaceSm)) hordered
  rw [htext] at hgetText ⊢
  have hgetRegistered := get_replaceField true "registered_delivery" key
    (.ofNat (replaceSm.u64Field "registered_delivery").toUInt8.toNat) afterText
  rw [replaceField, if_pos rfl] at hgetRegistered
  rw [hgetRegistered, hgetText, hgetDefault, hgetValidity, hgetSchedule, newValue_eq]
  simp only [Option.or_assoc]

end Messages

section Times

variable {calendar : Calendar} {now : Instant} {replaceSm : Value}

/-- The times that a replace_sm gives. -/
def requestTimes (calendar : Calendar) (now : Instant) (replaceSm : Value) :
    Outcome (Option Instant × Option Instant) := do
  let scheduleDeliveryTime ← replacingTime calendar now replaceSm "schedule_delivery_time" ""
  let validityPeriod ← replacingTime calendar now replaceSm "validity_period" ""
  return (scheduleDeliveryTime, validityPeriod)

/-- A replace_sm that names a message and gives a text for it. -/
def Valid (replaceSm : Value) : Prop :=
  replaceSm.strField "message_id" ≠ "" ∧ ¬ ((replaceSm.u64Field "sm_default_msg_id").toUInt8 = 0 ∧
    replaceSm.strField "short_message" = "" ∧ replaceSm.strField "message_payload" = "")

theorem replacingTime_isSome {field text : String} {time : Option Instant}
    (h : replacingTime calendar now replaceSm field text = .ok time) :
    time.isSome = (replaceSm.strField field != "") := by
  unfold replacingTime at h
  split at h
  · rename_i hempty
    obtain rfl := Outcome.ok.inj h
    simp [hempty]
  · rename_i hgiven
    split at h
    · obtain rfl := Outcome.ok.inj h
      simp [hgiven]
    · cases h
    · cases h

theorem replacingTime_text (field text : String) :
    (∃ e e', replacingTime calendar now replaceSm field text = .err e ∧
        replacingTime calendar now replaceSm field "" = .err e') ∨
      replacingTime calendar now replaceSm field text =
        replacingTime calendar now replaceSm field "" := by
  unfold replacingTime
  split
  · exact .inr rfl
  · split
    · exact .inr rfl
    · exact .inl ⟨_, _, rfl, rfl⟩
    · exact .inr rfl

/-- The in-memory store reads the same times. -/
theorem bind_requestTimes {α : Type}
    (next : Option Instant × Option Instant → Outcome α) :
    (∃ e e', (do
        let scheduleDeliveryTime ← replacingTime calendar now replaceSm "schedule_delivery_time"
          "Invalid schedule_delivery_time: "
        let validityPeriod ← replacingTime calendar now replaceSm "validity_period"
          "Invalid validity_period: "
        next (scheduleDeliveryTime, validityPeriod)) = .err e ∧
          requestTimes calendar now replaceSm = .err e') ∨
      (do
        let scheduleDeliveryTime ← replacingTime calendar now replaceSm "schedule_delivery_time"
          "Invalid schedule_delivery_time: "
        let validityPeriod ← replacingTime calendar now replaceSm "validity_period"
          "Invalid validity_period: "
        next (scheduleDeliveryTime, validityPeriod)) =
          (requestTimes calendar now replaceSm).bind next := by
  unfold requestTimes
  rcases @replacingTime_text calendar now replaceSm "schedule_delivery_time"
    "Invalid schedule_delivery_time: " with ⟨e, e', hfirst, hsecond⟩ | hschedule
  · rw [hfirst, hsecond]
    exact .inl ⟨e, e', rfl, rfl⟩
  · rw [hschedule]
    cases replacingTime calendar now replaceSm "schedule_delivery_time" "" with
    | err e => exact .inl ⟨e, e, rfl, rfl⟩
    | panicked => exact .inr rfl
    | ok scheduleDeliveryTime =>
        rcases @replacingTime_text calendar now replaceSm "validity_period"
          "Invalid validity_period: " with ⟨e, e', hfirst, hsecond⟩ | hvalidity
        · rw [hfirst, hsecond]
          exact .inl ⟨e, e', rfl, rfl⟩
        · rw [hvalidity]
          cases replacingTime calendar now replaceSm "validity_period" "" with
          | err e => exact .inl ⟨e, e, rfl, rfl⟩
          | panicked => exact .inr rfl
          | ok validityPeriod => exact .inr rfl

theorem requestTimes_isSome {times : Option Instant × Option Instant}
    (h : requestTimes calendar now replaceSm = .ok times) :
    times.1.isSome = (replaceSm.strField "schedule_delivery_time" != "") ∧
      times.2.isSome = (replaceSm.strField "validity_period" != "") := by
  obtain ⟨scheduleDeliveryTime, hschedule, h⟩ := Outcome.bind_eq_ok_iff.mp h
  obtain ⟨validityPeriod, hvalidity, h⟩ := Outcome.bind_eq_ok_iff.mp h
  obtain rfl := Outcome.ok.inj h
  exact ⟨replacingTime_isSome hschedule, replacingTime_isSome hvalidity⟩

theorem replaceTimes_eq (hvalid : Valid replaceSm) :
    replaceTimes calendar now now replaceSm = (requestTimes calendar now replaceSm).bind
      fun times => .ok (times.1.map calendar.toRfc3339, times.2.map calendar.toRfc3339) := by
  unfold replaceTimes requestTimes
  rw [if_neg hvalid.1, if_neg hvalid.2]
  cases replacingTime calendar now replaceSm "schedule_delivery_time" "" with
  | err e => rfl
  | panicked => rfl
  | ok scheduleDeliveryTime =>
      cases replacingTime calendar now replaceSm "validity_period" "" <;> rfl

theorem replaceTimes_refused (hvalid : ¬ Valid replaceSm) (scheduleNow validityNow : Instant) :
    ∃ e, replaceTimes calendar scheduleNow validityNow replaceSm = .err e := by
  unfold replaceTimes
  split
  · exact ⟨_, rfl⟩
  · rename_i hid
    rw [if_pos]
    · exact ⟨_, rfl⟩
    · by_contra hnothing
      exact hvalid ⟨hid, hnothing⟩

end Times

section Selection

variable {calendar : Calendar}

/-- A message that the source criteria of a replace_sm match, compared as octets and texts. -/
def Selected (replaceSm : Value) (record : StoredRecord) : Prop :=
  record.messageId = replaceSm.strField "message_id" ∧
    (∀ field ∈ ["source_addr_ton", "source_addr_npi"],
      (replaceSm.u64Field field).toNat % 256 = 0 ∨
        (replaceSm.u64Field field).toNat % 256 = (record.message.u64Field field).toNat % 256) ∧
    (replaceSm.strField "source_addr" = "" ∨
      replaceSm.strField "source_addr" = record.message.strField "source_addr")

/-- A message that they match as the table compares them. -/
def SqlSelected (replaceSm : Value) (record : StoredRecord) : Prop :=
  SqlStatements.isReplaced replaceSm (asRow record) = true

theorem SqlSelected.messageId {replaceSm : Value} {record : StoredRecord}
    (h : SqlSelected replaceSm record) : record.messageId = replaceSm.strField "message_id" := by
  rw [SqlSelected, SqlStatements.isReplaced, SqlStorage.replaceConditions,
    SqlStatements.all_filterMap_id, List.forall_mem_cons] at h
  simpa [asRow] using h.1

/-- A message with what a replace_sm puts in. -/
def replacedRecord (replaceSm : Value) (times : Option String × Option String)
    (record : StoredRecord) : StoredRecord :=
  { record with
    message := updatedMessage replaceSm record.message
    scheduleDeliveryTime := times.1.or record.scheduleDeliveryTime
    validityPeriod := times.2.or record.validityPeriod }

theorem memory_message {replaceSm : Value} {times : Option Instant × Option Instant}
    (hschedule : times.1.isSome = (replaceSm.strField "schedule_delivery_time" != ""))
    (hvalidity : times.2.isSome = (replaceSm.strField "validity_period" != ""))
    {stored : StoredMessage} {map : Map} (hmessage : stored.message = .object map)
    (hordered : Ordered map) (hmatches : replaceMatches replaceSm stored.message = true) :
    (replaceStored replaceSm times.1 times.2 stored).message =
      updatedMessage replaceSm stored.message := by
  unfold replaceStored updatedMessage
  rw [if_pos hmatches]
  simp only [replaceText_eq, hschedule, hvalidity, hmessage]
  congr 1
  obtain ⟨afterDefault, hdefault, hdefaultOrdered⟩ := replaceField_object
    ((replaceSm.u64Field "sm_default_msg_id").toUInt8 != 0) "sm_default_msg_id"
    (.ofNat (replaceSm.u64Field "sm_default_msg_id").toUInt8.toNat) hordered
  obtain ⟨afterBoth, hboth, hbothOrdered⟩ := replaceField_object
    (replaceSm.strField "schedule_delivery_time" != "") "schedule_delivery_time"
    (.string (replaceSm.strField "schedule_delivery_time")) hdefaultOrdered
  obtain ⟨afterSchedule, hafter, hafterOrdered⟩ := replaceField_object
    (replaceSm.strField "schedule_delivery_time" != "") "schedule_delivery_time"
    (.string (replaceSm.strField "schedule_delivery_time")) hordered
  -- the text moves to the front, and then the default message behind both times
  rw [hdefault, replaceField_comm (by decide) _ _ _ _ hdefaultOrdered, hboth,
    replaceField_comm (by decide) _ _ _ _ hbothOrdered, ← hboth, ← hdefault,
    replaceField_comm (by decide) _ _ _ _ hordered, hafter,
    replaceField_comm (by decide) _ _ _ _ hafterOrdered]

end Selection

section Replace

variable {calendar : Calendar} {now : Instant} {storage : InMemoryMessageStorage} {rows : List Row}
  {replaceSm : Value}

/-- The outcome of a call as the server sees it. -/
def seen : Outcome Bool → Option Bool
  | .ok replaced => some replaced
  | .err _ => some false
  | .panicked => none

variable (calendar now storage replaceSm) in
/-- The messages of the in-memory store after the call, and its result. -/
def memoryReplace : List StoredRecord × Outcome Bool :=
  match replaceMessage calendar now now storage replaceSm with
  | .ok (storage', replaced) => (records calendar storage', .ok replaced)
  | .err e => (records calendar storage, .err e)
  | .panicked => (records calendar storage, .panicked)

variable (calendar now rows replaceSm) in
/-- The messages of the SQL store after the call, and its result. -/
def sqlReplace : List StoredRecord × Outcome Bool :=
  (rowRecords (SqlStatements.replaceMessage calendar now now rows replaceSm).1,
   (SqlStatements.replaceMessage calendar now now rows replaceSm).2)

variable (calendar now replaceSm) in
/-- A message that is to be replaced. -/
def ToReplace (record : StoredRecord) : Prop :=
  Valid replaceSm ∧ (∃ times, requestTimes calendar now replaceSm = .ok times) ∧
    Selected replaceSm record

variable (calendar now replaceSm) in
/-- The fields that the replace_sm gives are new, and all the others are as they were. -/
def Replaced (old new : StoredRecord) : Prop :=
  ∃ times, requestTimes calendar now replaceSm = .ok times ∧ new.id = old.id ∧
    new.messageId = old.messageId ∧
    new.scheduleDeliveryTime = (times.1.map calendar.toRfc3339).or old.scheduleDeliveryTime ∧
    new.validityPeriod = (times.2.map calendar.toRfc3339).or old.validityPeriod ∧
    ∀ key, new.message.get key = (newValue replaceSm key).or (old.message.get key)

variable (calendar now storage rows replaceSm) in
/-- The server sees the same outcome, the same messages are stored, the messages that are to be
replaced are and the others stay, and the result is `Ok(true)` if there is one. -/
structure ReplacesAlike : Prop where
  outcome : seen (memoryReplace calendar now storage replaceSm).2 =
    seen (sqlReplace calendar now rows replaceSm).2
  same : (memoryReplace calendar now storage replaceSm).1.Perm
    (sqlReplace calendar now rows replaceSm).1
  exact : List.Forall₂ (fun old new =>
      (ToReplace calendar now replaceSm old → Replaced calendar now replaceSm old new) ∧
        (¬ ToReplace calendar now replaceSm old → new = old))
    (records calendar storage) (memoryReplace calendar now storage replaceSm).1
  replaced : (memoryReplace calendar now storage replaceSm).2 = .ok true ↔
    ∃ record ∈ records calendar storage, ToReplace calendar now replaceSm record

/-- The messages that `selects` names are replaced. -/
def replaceWhere (selects : StoredRecord → Bool) (replaceSm : Value)
    (times : Option String × Option String) (record : StoredRecord) : StoredRecord :=
  if selects record = true then replacedRecord replaceSm times record else record

def memorySelects (replaceSm : Value) (record : StoredRecord) : Bool :=
  record.messageId == replaceSm.strField "message_id" && replaceMatches replaceSm record.message

def sqlSelects (replaceSm : Value) (record : StoredRecord) : Bool :=
  SqlStatements.isReplaced replaceSm (asRow record)

def texts (calendar : Calendar) (times : Option Instant × Option Instant) :
    Option String × Option String :=
  (times.1.map calendar.toRfc3339, times.2.map calendar.toRfc3339)

theorem memorySelects_iff (replaceSm : Value) (record : StoredRecord) :
    memorySelects replaceSm record = true ↔ Selected replaceSm record := by
  simp only [memorySelects, Selected, replaceMatches, Bool.and_eq_true, beq_iff_eq,
    numberMatches_iff, textMatches_iff, List.forall_mem_cons, List.not_mem_nil, false_implies,
    implies_true, and_true, and_assoc]

section Memory

theorem memoryReplace_refused (h : ¬ Valid replaceSm) :
    ∃ e, memoryReplace calendar now storage replaceSm = (records calendar storage, .err e) := by
  have herror : ∃ e, replaceMessage calendar now now storage replaceSm = .err e := by
    unfold replaceMessage
    simp only
    split
    · exact ⟨_, rfl⟩
    · rename_i hid
      rw [if_pos]
      · exact ⟨_, rfl⟩
      · by_contra hnothing
        exact h ⟨hid, hnothing⟩
  obtain ⟨e, he⟩ := herror
  exact ⟨e, by rw [memoryReplace, he]⟩

theorem memoryReplace_unknown (hproper : Proper storage.messages) (hvalid : Valid replaceSm)
    (hunknown : ∀ record ∈ records calendar storage,
      record.messageId ≠ replaceSm.strField "message_id") :
    ∃ e, memoryReplace calendar now storage replaceSm = (records calendar storage, .err e) := by
  have hnone : (find (replaceSm.strField "message_id") storage.messages).isNone = true := by
    rw [find_isNone_iff hproper]
    intro entry hentry
    exact hunknown _ (List.mem_map_of_mem hentry)
  refine ⟨⟨.notFound, "Message with id " ++ replaceSm.strField "message_id" ++ " not found"⟩, ?_⟩
  rw [memoryReplace, replaceMessage]
  simp only [if_neg hvalid.1, if_neg hvalid.2, if_pos hnone]

theorem records_replaceStored {times : Option Instant × Option Instant}
    (hproper : Proper storage.messages)
    (hobjects : ∀ record ∈ records calendar storage, ∃ map, record.message = .object map ∧
      Ordered map)
    (htimes : requestTimes calendar now replaceSm = .ok times) :
    records calendar { storage with
      messages := updateAt (replaceSm.strField "message_id")
        (fun list => list.map (replaceStored replaceSm times.1 times.2)) storage.messages } =
      (records calendar storage).map
        (replaceWhere (memorySelects replaceSm) replaceSm (texts calendar times)) := by
  obtain ⟨hschedule, hvalidity⟩ := requestTimes_isSome htimes
  have hentries := entries_updateAt_map hproper (replaceSm.strField "message_id")
    (replaceStored replaceSm times.1 times.2)
  rw [records, records, List.map_map]
  refine (congrArg (List.map (recordOf calendar)) hentries).trans ?_
  rw [List.map_map]
  apply List.map_congr_left
  intro entry hentry
  obtain ⟨map, hmessage, hordered⟩ := hobjects _ (List.mem_map_of_mem hentry)
  rw [Function.comp_apply, Function.comp_apply, replaceWhere]
  by_cases hid : entry.1 = replaceSm.strField "message_id"
  · rw [if_pos hid]
    by_cases hmatches : replaceMatches replaceSm entry.2.message = true
    · have hselects : memorySelects replaceSm (recordOf calendar entry) = true := by
        simp [memorySelects, recordOf, hid, hmatches]
      have hnew := memory_message hschedule hvalidity hmessage hordered hmatches
      rw [if_pos hselects]
      simp only [recordOf, replacedRecord, hnew]
      simp [replaceStored, hmatches, texts, Option.map_or]
    · have hselects : ¬ memorySelects replaceSm (recordOf calendar entry) = true := by
        simp [memorySelects, recordOf, hmatches]
      rw [if_neg hselects]
      simp [replaceStored, hmatches]
  · have hselects : ¬ memorySelects replaceSm (recordOf calendar entry) = true := by
      simp [memorySelects, recordOf, hid]
    rw [if_neg hid, if_neg hselects]

theorem memoryReplace_known (hproper : Proper storage.messages)
    (hobjects : ∀ record ∈ records calendar storage, ∃ map, record.message = .object map ∧
      Ordered map)
    (hvalid : Valid replaceSm)
    (hknown : ∃ record ∈ records calendar storage,
      record.messageId = replaceSm.strField "message_id") :
    (∃ e e', requestTimes calendar now replaceSm = .err e ∧
        memoryReplace calendar now storage replaceSm = (records calendar storage, .err e')) ∨
      (requestTimes calendar now replaceSm = .panicked ∧
        memoryReplace calendar now storage replaceSm = (records calendar storage, .panicked)) ∨
      ∃ times, requestTimes calendar now replaceSm = .ok times ∧
        memoryReplace calendar now storage replaceSm =
          ((records calendar storage).map
            (replaceWhere (memorySelects replaceSm) replaceSm (texts calendar times)),
           .ok true) := by
  have hsome : ¬ (find (replaceSm.strField "message_id") storage.messages).isNone = true := by
    rw [find_isNone_iff hproper]
    intro hnone
    obtain ⟨record, hrecord, hid⟩ := hknown
    obtain ⟨entry, hentry, rfl⟩ := List.mem_map.mp hrecord
    exact hnone entry hentry hid
  have hreplace : replaceMessage calendar now now storage replaceSm = (do
      let scheduleDeliveryTime ← replacingTime calendar now replaceSm "schedule_delivery_time"
        "Invalid schedule_delivery_time: "
      let validityPeriod ← replacingTime calendar now replaceSm "validity_period"
        "Invalid validity_period: "
      (fun times : Option Instant × Option Instant => Outcome.ok ({ storage with
        messages := updateAt (replaceSm.strField "message_id")
          (fun list => list.map (replaceStored replaceSm times.1 times.2)) storage.messages }, true))
        (scheduleDeliveryTime, validityPeriod)) := by
    rw [replaceMessage]
    simp only [if_neg hvalid.1, if_neg hvalid.2, if_neg hsome]
  unfold memoryReplace
  rw [hreplace]
  rcases bind_requestTimes (fun times : Option Instant × Option Instant =>
      Outcome.ok (({ storage with
        messages := updateAt (replaceSm.strField "message_id")
          (fun list => list.map (replaceStored replaceSm times.1 times.2)) storage.messages } :
        InMemoryMessageStorage), true)) with ⟨e, e', hfirst, hsecond⟩ | heq
  · rw [hfirst, hsecond]
    exact .inl ⟨e', e, rfl, rfl⟩
  · rw [heq]
    cases htimes : requestTimes calendar now replaceSm with
    | err e => exact .inl ⟨e, e, rfl, rfl⟩
    | panicked => exact .inr (.inl ⟨rfl, rfl⟩)
    | ok times =>
        refine .inr (.inr ⟨times, rfl, ?_⟩)
        rw [← records_replaceStored hproper hobjects htimes]
        rfl

end Memory

section Sql

theorem sqlReplace_refused (h : ¬ Valid replaceSm) :
    ∃ e, sqlReplace calendar now rows replaceSm = (rowRecords rows, .err e) := by
  obtain ⟨e, he⟩ := @replaceTimes_refused calendar _ h now now
  exact ⟨e, by simp only [sqlReplace, SqlStatements.replaceMessage, he]⟩

theorem sqlReplace_valid (hids : (rows.map Row.id).Nodup)
    (hcolumns : ∀ row ∈ rows, asRow (rowRecord row) = row) (hvalid : Valid replaceSm) :
    sqlReplace calendar now rows replaceSm =
      match requestTimes calendar now replaceSm with
      | .err e => (rowRecords rows, .err e)
      | .panicked => (rowRecords rows, .panicked)
      | .ok times =>
          ((rowRecords rows).map (replaceWhere (sqlSelects replaceSm) replaceSm
            (texts calendar times)), .ok ((rowRecords rows).any (sqlSelects replaceSm))) := by
  have hrow : ∀ row ∈ rows,
      SqlStatements.isReplaced replaceSm row = sqlSelects replaceSm (rowRecord row) := by
    intro row hrow
    rw [sqlSelects, hcolumns row hrow]
  rw [sqlReplace, SqlStatements.replaceMessage_eq hids, replaceTimes_eq hvalid]
  cases requestTimes calendar now replaceSm with
  | err e => rfl
  | panicked => rfl
  | ok times =>
      simp only [Outcome.bind, rowRecords, List.map_map, List.any_map, Prod.mk.injEq,
        Outcome.ok.injEq]
      constructor
      · apply List.map_congr_left
        intro row hmem
        rw [Function.comp_apply, Function.comp_apply, replaceWhere, ← hrow row hmem,
          SqlStatements.replacedRow]
        split <;> rfl
      · rw [Bool.eq_iff_iff, List.any_eq_true, List.any_eq_true]
        apply exists_congr
        intro row
        apply and_congr_right
        intro hmem
        rw [hrow row hmem, Function.comp_apply]

end Sql

section Agreement

/-- Two changes that keep the ids have the same result only if they are the same. -/
theorem map_perm_iff {α β : Type} {key : α → β} {f g : α → α} {as bs : List α}
    (hperm : as.Perm bs) (hnodup : (as.map key).Nodup) (hf : ∀ a, key (f a) = key a)
    (hg : ∀ a, key (g a) = key a) :
    (as.map f).Perm (bs.map g) ↔ ∀ a ∈ as, f a = g a := by
  constructor
  · intro hsame a ha
    obtain ⟨b, hb, hfound⟩ := List.mem_map.mp (hsame.mem_iff.mp (List.mem_map_of_mem ha))
    have hkey : key b = key a := by rw [← hg b, hfound, hf a]
    have heq := List.inj_on_of_nodup_map hnodup (hperm.mem_iff.mpr hb) ha hkey
    rw [← hfound, heq]
  · intro hall
    rw [List.map_congr_left hall]
    exact hperm.map g

theorem replaceWhere_id (selects : StoredRecord → Bool) (replaceSm : Value)
    (times : Option String × Option String) (record : StoredRecord) :
    (replaceWhere selects replaceSm times record).id = record.id := by
  unfold replaceWhere
  split <;> rfl

theorem replaceWhere_eq_iff (times : Option String × Option String) (record : StoredRecord) :
    replaceWhere (memorySelects replaceSm) replaceSm times record =
        replaceWhere (sqlSelects replaceSm) replaceSm times record ↔
      (Selected replaceSm record ↔ SqlSelected replaceSm record) ∨
        replacedRecord replaceSm times record = record := by
  rw [← memorySelects_iff, SqlSelected]
  change _ ↔ (_ ↔ sqlSelects replaceSm record = true) ∨ _
  unfold replaceWhere
  cases memorySelects replaceSm record with
  | true => cases sqlSelects replaceSm record <;> simp
  | false => cases sqlSelects replaceSm record <;> simp [eq_comm]

variable (calendar now storage replaceSm) in
/-- The messages that the replace_sm names can be replaced alike. -/
def Replaceable : Prop :=
  ((∀ record ∈ records calendar storage, record.messageId ≠ replaceSm.strField "message_id") →
      requestTimes calendar now replaceSm ≠ .panicked) ∧
    ((∃ record ∈ records calendar storage, record.messageId = replaceSm.strField "message_id") →
      ∀ times, requestTimes calendar now replaceSm = .ok times →
        (∃ record ∈ records calendar storage, Selected replaceSm record) ∧
        (∃ record ∈ records calendar storage, SqlSelected replaceSm record) ∧
        ∀ record ∈ records calendar storage,
          (Selected replaceSm record ↔ SqlSelected replaceSm record) ∨
            replacedRecord replaceSm (texts calendar times) record = record)

theorem ReplacesAlike.unchanged (hsame : SameMessages calendar storage rows)
    (hmemory : (memoryReplace calendar now storage replaceSm).1 = records calendar storage)
    (hsql : (sqlReplace calendar now rows replaceSm).1 = rowRecords rows)
    (houtcome : seen (memoryReplace calendar now storage replaceSm).2 =
      seen (sqlReplace calendar now rows replaceSm).2)
    (hnot : (memoryReplace calendar now storage replaceSm).2 ≠ .ok true)
    (hnone : ∀ record ∈ records calendar storage, ¬ ToReplace calendar now replaceSm record) :
    ReplacesAlike calendar now storage rows replaceSm where
  outcome := houtcome
  same := by
    rw [hmemory, hsql]
    exact hsame.same.symm
  exact := by
    rw [hmemory, List.forall₂_same]
    intro record hrecord
    exact ⟨fun h => absurd h (hnone record hrecord), fun _ => rfl⟩
  replaced := by
    constructor
    · intro h
      exact absurd h hnot
    · rintro ⟨record, hrecord, h⟩
      exact absurd h (hnone record hrecord)

theorem not_toReplace {record : StoredRecord}
    (h : ∀ times, requestTimes calendar now replaceSm ≠ .ok times) :
    ¬ ToReplace calendar now replaceSm record := by
  rintro ⟨-, ⟨times, htimes⟩, -⟩
  exact h times htimes

theorem replaces_alike_unknown (hsame : SameMessages calendar storage rows)
    (hvalid : Valid replaceSm)
    (hunknown : ∀ record ∈ records calendar storage,
      record.messageId ≠ replaceSm.strField "message_id") :
    ReplacesAlike calendar now storage rows replaceSm ↔
      requestTimes calendar now replaceSm ≠ .panicked := by
  have hsql := @sqlReplace_valid calendar now _ _ hsame.ids hsame.columns hvalid
  obtain ⟨e, hmemory⟩ :=
    @memoryReplace_unknown calendar now _ _ hsame.proper hvalid hunknown
  have hnone : ∀ record ∈ records calendar storage, ¬ ToReplace calendar now replaceSm record :=
    fun record hrecord h => hunknown record hrecord h.2.2.1
  have hselects : ∀ record ∈ rowRecords rows, ¬ sqlSelects replaceSm record = true :=
    fun record hrecord h =>
      hunknown record (hsame.same.mem_iff.mp hrecord) (SqlSelected.messageId h)
  cases htimes : requestTimes calendar now replaceSm with
  | panicked =>
      simp only [htimes] at hsql
      constructor
      · intro halike
        have houtcome := halike.outcome
        rw [hmemory, hsql] at houtcome
        cases houtcome
      · intro h
        exact absurd rfl h
  | err e' =>
      simp only [htimes] at hsql
      refine ⟨fun _ => by simp, fun _ => ?_⟩
      apply ReplacesAlike.unchanged hsame
      · rw [hmemory]
      · rw [hsql]
      · rw [hmemory, hsql]
        rfl
      · rw [hmemory]
        simp
      · exact hnone
  | ok times =>
      simp only [htimes] at hsql
      refine ⟨fun _ => by simp, fun _ => ?_⟩
      have hmap : (rowRecords rows).map (replaceWhere (sqlSelects replaceSm) replaceSm
          (texts calendar times)) = rowRecords rows := by
        refine (List.map_congr_left fun record hrecord => ?_).trans (List.map_id _)
        rw [replaceWhere, if_neg (hselects record hrecord)]
        rfl
      have hany : (rowRecords rows).any (sqlSelects replaceSm) = false := by
        rw [List.any_eq_false]
        exact hselects
      apply ReplacesAlike.unchanged hsame
      · rw [hmemory]
      · rw [hsql, hmap]
      · rw [hmemory, hsql, hany]
        rfl
      · rw [hmemory]
        simp
      · exact hnone

theorem replaced_replaceWhere (hvalid : Valid replaceSm)
    {times : Option Instant × Option Instant}
    (htimes : requestTimes calendar now replaceSm = .ok times) {record : StoredRecord}
    (hobject : ∃ map, record.message = .object map ∧ Ordered map) :
    (ToReplace calendar now replaceSm record → Replaced calendar now replaceSm record
        (replaceWhere (memorySelects replaceSm) replaceSm (texts calendar times) record)) ∧
      (¬ ToReplace calendar now replaceSm record →
        replaceWhere (memorySelects replaceSm) replaceSm (texts calendar times) record =
          record) := by
  constructor
  · rintro ⟨-, -, hselected⟩
    rw [replaceWhere, if_pos ((memorySelects_iff _ _).mpr hselected)]
    refine ⟨times, htimes, rfl, rfl, rfl, rfl, ?_⟩
    intro key
    obtain ⟨map, hmessage, hordered⟩ := hobject
    rw [replacedRecord, hmessage]
    exact get_updatedMessage replaceSm hordered key
  · intro hnot
    rw [replaceWhere, if_neg]
    intro hselects
    exact hnot ⟨hvalid, ⟨times, htimes⟩, (memorySelects_iff _ _).mp hselects⟩

theorem replaces_alike_ok (hsame : SameMessages calendar storage rows) (hvalid : Valid replaceSm)
    {times : Option Instant × Option Instant}
    (htimes : requestTimes calendar now replaceSm = .ok times)
    (hmemory : memoryReplace calendar now storage replaceSm =
      ((records calendar storage).map
        (replaceWhere (memorySelects replaceSm) replaceSm (texts calendar times)), .ok true)) :
    ReplacesAlike calendar now storage rows replaceSm ↔
      (∃ record ∈ records calendar storage, Selected replaceSm record) ∧
        (∃ record ∈ records calendar storage, SqlSelected replaceSm record) ∧
        ∀ record ∈ records calendar storage,
          (Selected replaceSm record ↔ SqlSelected replaceSm record) ∨
            replacedRecord replaceSm (texts calendar times) record = record := by
  have hsql := @sqlReplace_valid calendar now _ _ hsame.ids hsame.columns hvalid
  simp only [htimes] at hsql
  have hperm := @map_perm_iff StoredRecord Nat StoredRecord.id
    (replaceWhere (memorySelects replaceSm) replaceSm (texts calendar times))
    (replaceWhere (sqlSelects replaceSm) replaceSm (texts calendar times)) _ _ hsame.same.symm
    hsame.nodup_records (replaceWhere_id _ _ _) (replaceWhere_id _ _ _)
  simp only [replaceWhere_eq_iff] at hperm
  have hany : (∃ record ∈ records calendar storage, SqlSelected replaceSm record) ↔
      (rowRecords rows).any (sqlSelects replaceSm) = true := by
    rw [hsame.same.any_eq, List.any_eq_true]
    rfl
  rw [← hperm, hany]
  constructor
  · intro halike
    have houtcome := halike.outcome
    have hcarried := halike.same
    obtain ⟨record, hrecord, hreplaced⟩ := halike.replaced.mp (by rw [hmemory])
    rw [hmemory, hsql] at houtcome hcarried
    exact ⟨⟨record, hrecord, hreplaced.2.2⟩, (Option.some.inj houtcome).symm, hcarried⟩
  · rintro ⟨⟨record, hrecord, hselected⟩, hrows, hcarried⟩
    constructor
    · rw [hmemory, hsql, hrows]
    · rw [hmemory, hsql]
      exact hcarried
    · rw [hmemory, List.forall₂_map_right_iff, List.forall₂_same]
      intro record hrecord
      exact replaced_replaceWhere hvalid htimes (hsame.objects_records record hrecord)
    · rw [hmemory]
      exact ⟨fun _ => ⟨record, hrecord, hvalid, ⟨times, htimes⟩, hselected⟩, fun _ => rfl⟩

theorem replaces_alike_known (hsame : SameMessages calendar storage rows) (hvalid : Valid replaceSm)
    (hknown : ∃ record ∈ records calendar storage,
      record.messageId = replaceSm.strField "message_id") :
    ReplacesAlike calendar now storage rows replaceSm ↔
      ∀ times, requestTimes calendar now replaceSm = .ok times →
        (∃ record ∈ records calendar storage, Selected replaceSm record) ∧
        (∃ record ∈ records calendar storage, SqlSelected replaceSm record) ∧
        ∀ record ∈ records calendar storage,
          (Selected replaceSm record ↔ SqlSelected replaceSm record) ∨
            replacedRecord replaceSm (texts calendar times) record = record := by
  have hsql := @sqlReplace_valid calendar now _ _ hsame.ids hsame.columns hvalid
  rcases @memoryReplace_known calendar now _ _ hsame.proper hsame.objects_records hvalid hknown with
    ⟨e, e', htimes, hmemory⟩ | ⟨htimes, hmemory⟩ | ⟨times, htimes, hmemory⟩
  · simp only [htimes] at hsql
    have halike : ReplacesAlike calendar now storage rows replaceSm := by
      apply ReplacesAlike.unchanged hsame
      · rw [hmemory]
      · rw [hsql]
      · rw [hmemory, hsql]
        rfl
      · rw [hmemory]
        simp
      · exact fun record _ => not_toReplace (by simp [htimes])
    exact ⟨fun _ times hok => absurd (htimes.symm.trans hok) (by simp), fun _ => halike⟩
  · simp only [htimes] at hsql
    have halike : ReplacesAlike calendar now storage rows replaceSm := by
      apply ReplacesAlike.unchanged hsame
      · rw [hmemory]
      · rw [hsql]
      · rw [hmemory, hsql]
      · rw [hmemory]
        simp
      · exact fun record _ => not_toReplace (by simp [htimes])
    exact ⟨fun _ times hok => absurd (htimes.symm.trans hok) (by simp), fun _ => halike⟩
  · rw [replaces_alike_ok hsame hvalid htimes hmemory]
    constructor
    · intro h times' hok
      obtain rfl := Outcome.ok.inj (htimes.symm.trans hok)
      exact h
    · intro h
      exact h times htimes

/-- The two stores replace alike, and as they should, exactly when the replace_sm is refused or its
messages can be replaced alike. -/
theorem replaces_alike_iff (hsame : SameMessages calendar storage rows) :
    ReplacesAlike calendar now storage rows replaceSm ↔
      (Valid replaceSm → Replaceable calendar now storage replaceSm) := by
  by_cases hvalid : Valid replaceSm
  · rw [Replaceable]
    by_cases hknown : ∃ record ∈ records calendar storage,
        record.messageId = replaceSm.strField "message_id"
    · rw [replaces_alike_known hsame hvalid hknown]
      have hnot : ¬ ∀ record ∈ records calendar storage,
          record.messageId ≠ replaceSm.strField "message_id" := by
        intro hunknown
        obtain ⟨record, hrecord, hid⟩ := hknown
        exact hunknown record hrecord hid
      exact ⟨fun h _ => ⟨fun hunknown => absurd hunknown hnot, fun _ => h⟩,
        fun h => (h hvalid).2 hknown⟩
    · have hunknown : ∀ record ∈ records calendar storage,
          record.messageId ≠ replaceSm.strField "message_id" := by
        intro record hrecord hid
        exact hknown ⟨record, hrecord, hid⟩
      rw [replaces_alike_unknown hsame hvalid hunknown]
      exact ⟨fun h _ => ⟨fun _ => h, fun hsome => absurd hsome hknown⟩,
        fun h => (h hvalid).1 hunknown⟩
  · obtain ⟨e, hmemory⟩ := @memoryReplace_refused calendar now storage _ hvalid
    obtain ⟨e', hsql⟩ := @sqlReplace_refused calendar now rows _ hvalid
    have halike : ReplacesAlike calendar now storage rows replaceSm := by
      apply ReplacesAlike.unchanged hsame
      · rw [hmemory]
      · rw [hsql]
      · rw [hmemory, hsql]
        rfl
      · rw [hmemory]
        simp
      · exact fun record _ h => hvalid h.1
    exact ⟨fun _ h => absurd h hvalid, fun _ => halike⟩

/-- A replace_sm for the message with the id `1`. -/
def replaceSmFrom (sourceAddr : String) : Value :=
  .object [("message_id", .string "1"), ("short_message", .string "hi"),
    ("source_addr", .string sourceAddr)]

theorem requestTimes_replaceSmFrom (sourceAddr : String) :
    requestTimes relativeCalendar 0 (replaceSmFrom sourceAddr) = .ok (none, none) := rfl

theorem replaces_alike_one :
    ReplacesAlike relativeCalendar 0 oneMessage [asRow storedRecord] (replaceSmFrom "") := by
  have hselected : memorySelects (replaceSmFrom "") storedRecord = true := by decide +kernel
  have hsql : sqlSelects (replaceSmFrom "") storedRecord = true := by decide +kernel
  rw [memorySelects_iff] at hselected
  apply (replaces_alike_iff sameMessages_one).mpr
  intro _
  constructor
  · rw [requestTimes_replaceSmFrom]
    simp
  · intro _ times _
    refine ⟨⟨storedRecord, List.mem_singleton_self _, hselected⟩,
      ⟨storedRecord, List.mem_singleton_self _, hsql⟩, ?_⟩
    intro record hrecord
    obtain rfl := List.mem_singleton.mp hrecord
    exact .inl ⟨fun _ => hsql, fun _ => hselected⟩

/-- The in-memory store reports that it has replaced a message although the source address of none
matches. -/
theorem not_replaces_alike_source :
    ¬ ∀ (calendar : Calendar) (now : Instant) (storage : InMemoryMessageStorage) (rows : List Row)
      (replaceSm : Value), SameMessages calendar storage rows →
        ReplacesAlike calendar now storage rows replaceSm := by
  intro h
  have hreplaced := (h relativeCalendar 0 oneMessage [asRow storedRecord] (replaceSmFrom "7")
    sameMessages_one).replaced
  have hok : (memoryReplace relativeCalendar 0 oneMessage (replaceSmFrom "7")).2 = .ok true := by
    decide +kernel
  have hnot : ¬ memorySelects (replaceSmFrom "7") storedRecord = true := by decide +kernel
  obtain ⟨record, hrecord, -, -, hselected⟩ := hreplaced.mp hok
  obtain rfl := List.mem_singleton.mp hrecord
  rw [← memorySelects_iff] at hselected
  exact hnot hselected

end Agreement

end Replace

end SmppHerald.ReplaceAgreement
