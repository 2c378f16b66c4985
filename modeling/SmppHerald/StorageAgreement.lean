import SmppHerald.SqlStatements

namespace SmppHerald.StorageAgreement

open SmppHerald.InMemoryStorage
open SmppHerald.Io
open SmppHerald.Json
open SmppHerald.MultiMaps
open SmppHerald.SqlStorage (Row asI16 asI32 numberCondition textCondition)
open SmppHerald.Time

/-- A stored message, with its times as the texts that the table has of them. -/
structure StoredRecord where
  id : Nat
  messageId : String
  message : Value
  scheduleDeliveryTime : Option String
  validityPeriod : Option String

def recordOf (calendar : Calendar) (entry : String × StoredMessage) : StoredRecord where
  id := entry.2.serial
  messageId := entry.1
  message := entry.2.message
  scheduleDeliveryTime := entry.2.scheduleDeliveryTime.map calendar.toRfc3339
  validityPeriod := entry.2.validityPeriod.map calendar.toRfc3339

def records (calendar : Calendar) (storage : InMemoryMessageStorage) : List StoredRecord :=
  (entries storage.messages).map (recordOf calendar)

def rowRecord (row : Row) : StoredRecord where
  id := row.id
  messageId := row.messageId
  message := row.message
  scheduleDeliveryTime := row.scheduleDeliveryTime
  validityPeriod := row.validityPeriod

def rowRecords (rows : List Row) : List StoredRecord := rows.map rowRecord

section Same

/-- The row that is kept of a message. -/
def asRow (record : StoredRecord) : Row where
  id := record.id
  serviceType := record.message.strField "service_type"
  sourceAddrTon := asI16 (record.message.u64Field "source_addr_ton")
  sourceAddrNpi := asI16 (record.message.u64Field "source_addr_npi")
  sourceAddr := record.message.strField "source_addr"
  destAddrTon := asI16 (record.message.u64Field "dest_addr_ton")
  destAddrNpi := asI16 (record.message.u64Field "dest_addr_npi")
  destinationAddr := record.message.strField "destination_addr"
  messageId := record.messageId
  message := record.message
  scheduleDeliveryTime := record.scheduleDeliveryTime
  validityPeriod := record.validityPeriod

/-- Both stores have the same messages, all of them objects. The columns of a row are those of its
message, and no two rows have one id. -/
structure SameMessages (calendar : Calendar) (storage : InMemoryMessageStorage) (rows : List Row) :
    Prop where
  proper : Proper storage.messages
  ids : (rows.map Row.id).Nodup
  columns : ∀ row ∈ rows, asRow (rowRecord row) = row
  objects : ∀ row ∈ rows, ∃ map, row.message = .object map ∧ Ordered map
  same : (rowRecords rows).Perm (records calendar storage)

theorem SameMessages.objects_records {calendar : Calendar}
    {storage : InMemoryMessageStorage} {rows : List Row} (hsame : SameMessages calendar storage rows) :
    ∀ record ∈ records calendar storage, ∃ map, record.message = .object map ∧ Ordered map := by
  intro record hrecord
  obtain ⟨row, hrow, rfl⟩ := List.mem_map.mp (hsame.same.mem_iff.mpr hrecord)
  exact hsame.objects row hrow

theorem SameMessages.nodup_records {calendar : Calendar} {storage : InMemoryMessageStorage}
    {rows : List Row} (hsame : SameMessages calendar storage rows) :
    ((records calendar storage).map StoredRecord.id).Nodup := by
  have hperm := hsame.same.map StoredRecord.id
  rw [rowRecords, List.map_map] at hperm
  exact hperm.nodup_iff.mp hsame.ids

/-- A message that both stores have under the id `1`. -/
def storedRecord : StoredRecord :=
  ⟨0, "1", .object [("destination_addr", .string "49")], none, some ""⟩

def oneMessage : InMemoryMessageStorage :=
  ⟨[("1", [⟨0, "49", storedRecord.message, none, some 0⟩])], [("49", ["1"])]⟩

theorem sameMessages_one : SameMessages relativeCalendar oneMessage [asRow storedRecord] where
  proper := ⟨by simp [oneMessage], by simp [oneMessage]⟩
  ids := by simp
  columns := by
    rw [List.forall_mem_singleton]
    rfl
  objects := by
    rw [List.forall_mem_singleton]
    exact ⟨_, rfl, by simp [Ordered]⟩
  same := .refl _

theorem bmod_mod (n size : Nat) : Int.bmod (n % size : Nat) size = Int.bmod n size := by
  rw [Int.natCast_emod, Int.emod_bmod]

theorem asI32_eq (n : UInt64) : asI32 n = Int.bmod n.toNat (2 ^ 32) := by
  change n.toUInt32.toBitVec.toInt = _
  rw [BitVec.toInt_eq_toNat_bmod]
  simp only [UInt32.toNat_toBitVec, UInt64.toNat_toUInt32]
  exact bmod_mod _ _

theorem asI16_eq (n : UInt64) : asI16 n = Int.bmod n.toNat (2 ^ 16) := by
  change n.toUInt16.toBitVec.toInt = _
  rw [BitVec.toInt_eq_toNat_bmod]
  simp only [UInt16.toNat_toBitVec, UInt64.toNat_toUInt16]
  exact bmod_mod _ _

theorem textCondition_iff (text found : String) :
    (textCondition text found).getD true = true ↔ text = "" ∨ text = found := by
  unfold textCondition
  split
  · rename_i hempty
    simp [hempty]
  · rename_i hgiven
    rw [Option.getD_some, beq_iff_eq, or_iff_right hgiven]
    exact eq_comm

theorem numberCondition_iff (number found : Int) :
    (numberCondition number found).getD true = true ↔ number = 0 ∨ number = found := by
  unfold numberCondition
  split
  · rename_i hzero
    simp [hzero]
  · rename_i hgiven
    rw [Option.getD_some, beq_iff_eq, or_iff_right hgiven]
    exact eq_comm

theorem textMatches_iff (request message : Value) (field : String) :
    textMatches request message field = true ↔
      request.strField field = "" ∨ request.strField field = message.strField field := by
  simp [textMatches]

theorem numberMatches_iff (request message : Value) (field : String) :
    numberMatches request message field = true ↔ (request.u64Field field).toNat % 256 = 0 ∨
      (request.u64Field field).toNat % 256 = (message.u64Field field).toNat % 256 := by
  simp [numberMatches, ← UInt8.toNat_inj]

end Same

section Save

variable {calendar : Calendar} {defaultValidityPeriod : UInt32} {now : Instant}
  {storage : InMemoryMessageStorage} {rows : List Row} {messageId : String} {message : Value}
  {id : Nat}

variable (calendar defaultValidityPeriod now storage rows messageId message id) in
/-- Either both calls store the same message with the same times, or both return an error. -/
def SavesAlike : Prop :=
  (∃ storage' rows' record,
      save calendar defaultValidityPeriod ⟨now, now, now⟩ storage messageId message id =
        .ok storage' ∧
      SqlStatements.save calendar defaultValidityPeriod ⟨now, now, now⟩ now rows messageId message
        id = (rows', .ok ()) ∧
      (records calendar storage').Perm (record :: records calendar storage) ∧
      (rowRecords rows').Perm (record :: rowRecords rows)) ∨
    ∃ e e',
      save calendar defaultValidityPeriod ⟨now, now, now⟩ storage messageId message id = .err e ∧
      (SqlStatements.save calendar defaultValidityPeriod ⟨now, now, now⟩ now rows messageId message
        id).2 = .err e'

/-- What the in-memory store takes. -/
def Accepted (now : Instant) (schedule validity : Option Instant) : Prop :=
  (schedule ≠ none ∨ validity ≠ none) ∧ (∀ expiry, validity = some expiry → now ≤ expiry) ∧
    ∀ time expiry, schedule = some time → validity = some expiry → time ≤ expiry

/-- What the SQL store takes. -/
def Ahead (now : Instant) (schedule : Option Instant) : Prop :=
  ∀ time, schedule = some time → now ≤ time

variable (calendar defaultValidityPeriod now message) in
/-- The times of a message can be read, and they are either both past, or neither of them is, one at
least is there and they are in order. -/
def TimesAgree : Prop :=
  ∃ schedule validity : Option Instant,
    (getScheduleDeliveryTime calendar now message).optional = .ok schedule ∧
    (getValidityPeriod calendar now defaultValidityPeriod message).optional = .ok validity ∧
    ((∃ time expiry, schedule = some time ∧ validity = some expiry ∧ time < now ∧ expiry < now) ∨
      Ahead now schedule ∧ Accepted now schedule validity)

/-- The message as both stores have it. -/
def newRecord (calendar : Calendar) (messageId : String) (message : Value) (id : Nat)
    (schedule validity : Option Instant) : StoredRecord :=
  ⟨id, messageId, message, schedule.map calendar.toRfc3339, validity.map calendar.toRfc3339⟩

theorem optional_cases (x : Outcome Instant) :
    x.optional = .panicked ∨ ∃ time, x.optional = .ok time := by
  cases x with
  | ok time => exact .inr ⟨some time, rfl⟩
  | err e => exact .inr ⟨none, rfl⟩
  | panicked => exact .inl rfl

theorem memory_save (hdest : message.strField "destination_addr" ≠ "")
    {schedule validity : Option Instant}
    (hschedule : (getScheduleDeliveryTime calendar now message).optional = .ok schedule)
    (hvalidity : (getValidityPeriod calendar now defaultValidityPeriod message).optional =
      .ok validity) :
    (Accepted now schedule validity ∧ ∃ storage',
      save calendar defaultValidityPeriod ⟨now, now, now⟩ storage messageId message id =
        .ok storage' ∧
      (records calendar storage').Perm
        (newRecord calendar messageId message id schedule validity :: records calendar storage)) ∨
    (¬ Accepted now schedule validity ∧ ∃ e,
      save calendar defaultValidityPeriod ⟨now, now, now⟩ storage messageId message id =
        .err e) := by
  have hsave : save calendar defaultValidityPeriod ⟨now, now, now⟩ storage messageId message id =
      (if schedule.isNone ∧ validity.isNone then
        .err (invalidInput "Message has neither schedule_delivery_time nor validity_period")
      else if schedule.any (fun time =>
          validity.any fun expiry => decide (expiry < time)) = true then
        .err (invalidInput "schedule_delivery_time is later than validity_period")
      else if validity.any (fun expiry => decide (expiry < now)) = true then
        .err (invalidInput "Message has already expired")
      else
        .ok {
          messages := push messageId
            ⟨id, message.strField "destination_addr", message, schedule, validity⟩ storage.messages
          userMessageIds :=
            push (message.strField "destination_addr") messageId storage.userMessageIds }) := by
    unfold save
    simp only [if_neg hdest, hschedule, hvalidity]
    rfl
  rw [hsave]
  split
  · rename_i hmissing
    rw [Option.isNone_iff_eq_none, Option.isNone_iff_eq_none] at hmissing
    exact .inr ⟨fun h => h.1.elim (· hmissing.1) (· hmissing.2), _, rfl⟩
  · rename_i hmissing
    split
    · rename_i hinverted
      right
      refine ⟨fun h => ?_, _, rfl⟩
      obtain ⟨time, rfl, expiry, rfl, hlt⟩ : ∃ time, schedule = some time ∧ ∃ expiry,
          validity = some expiry ∧ expiry < time := by
        simpa only [Option.any_eq_true, decide_eq_true_eq] using hinverted
      exact absurd (h.2.2 time expiry rfl rfl) (Int.not_le.mpr hlt)
    · rename_i hinverted
      split
      · rename_i hexpired
        right
        refine ⟨fun h => ?_, _, rfl⟩
        obtain ⟨expiry, rfl, hlt⟩ : ∃ expiry, validity = some expiry ∧ expiry < now := by
          simpa [Option.any_eq_true] using hexpired
        exact absurd (h.2.1 expiry rfl) (Int.not_le.mpr hlt)
      · rename_i hexpired
        left
        refine ⟨⟨?_, ?_, ?_⟩, _, rfl, (entries_push _ _ _).map _⟩
        · rw [Option.isNone_iff_eq_none, Option.isNone_iff_eq_none] at hmissing
          tauto
        · rintro expiry rfl
          simpa using hexpired
        · rintro time expiry rfl rfl
          simpa using hinverted

theorem sql_save_past {schedule : Option Instant} (hdest : message.strField "destination_addr" ≠ "")
    (hschedule : (getScheduleDeliveryTime calendar now message).optional = .ok schedule)
    (hpast : ¬ Ahead now schedule) : ∃ e,
    (SqlStatements.save calendar defaultValidityPeriod ⟨now, now, now⟩ now rows messageId message
      id).2 = .err e := by
  have hany : schedule.any (fun time => decide (time < now)) = true := by
    simpa [Ahead, Option.any_eq_true] using hpast
  have hrow : SqlStorage.newRow calendar defaultValidityPeriod ⟨now, now, now⟩ now messageId message
      id = .err (invalidInput "schedule_delivery_time is in the past") := by
    unfold SqlStorage.newRow
    simp only [if_neg hdest, hschedule]
    exact if_pos hany
  refine ⟨invalidInput "schedule_delivery_time is in the past", ?_⟩
  simp only [SqlStatements.save, hrow]

theorem sql_save_ahead {schedule validity : Option Instant}
    (hflag : message.u64Field "replace_if_present_flag" = 0)
    (hdest : message.strField "destination_addr" ≠ "")
    (hschedule : (getScheduleDeliveryTime calendar now message).optional = .ok schedule)
    (hvalidity : (getValidityPeriod calendar now defaultValidityPeriod message).optional =
      .ok validity)
    (hahead : Ahead now schedule) : ∃ rows',
    SqlStatements.save calendar defaultValidityPeriod ⟨now, now, now⟩ now rows messageId message
      id = (rows', .ok ()) ∧
    (schedule ≠ none ∨ validity ≠ none → (rowRecords rows').Perm
      (newRecord calendar messageId message id schedule validity :: rowRecords rows)) := by
  have hany : ¬ schedule.any (fun time => decide (time < now)) = true := by
    simpa [Ahead, Option.any_eq_true] using hahead
  have hkept : SqlStorage.isReplaceIfPresent message = false := by
    rw [SqlStorage.isReplaceIfPresent, hflag]
    rfl
  obtain ⟨row, hrow, hrecord⟩ : ∃ row,
      SqlStorage.newRow calendar defaultValidityPeriod ⟨now, now, now⟩ now messageId message id =
        .ok row ∧ (schedule ≠ none ∨ validity ≠ none →
          rowRecord row = newRecord calendar messageId message id schedule validity) := by
    unfold SqlStorage.newRow
    simp only [if_neg hdest, hschedule, hvalidity]
    refine ⟨_, if_neg hany, ?_⟩
    intro htime
    have hnot : ¬ (schedule.isNone = true ∧ validity.isNone = true) := by
      rw [Option.isNone_iff_eq_none, Option.isNone_iff_eq_none]
      tauto
    rw [if_neg hnot]
    rfl
  refine ⟨rows ++ [row], ?_, ?_⟩
  · simp [SqlStatements.save, hkept, hrow]
  · intro htime
    rw [← hrecord htime, rowRecords, List.map_append]
    exact List.perm_append_singleton _ _

/-- The times agree when either both stores take a message with these times or none does. -/
theorem accepted_iff_ahead {schedule validity : Option Instant} :
    (Accepted now schedule validity ↔ Ahead now schedule) ↔
      (∃ time expiry, schedule = some time ∧ validity = some expiry ∧ time < now ∧ expiry < now) ∨
        Ahead now schedule ∧ Accepted now schedule validity := by
  constructor
  · intro hiff
    by_cases hahead : Ahead now schedule
    · exact .inr ⟨hahead, hiff.mpr hahead⟩
    · left
      obtain ⟨time, rfl, hpast⟩ : ∃ time, schedule = some time ∧ time < now := by
        simpa [Ahead] using hahead
      have hnot : ¬ Accepted now (some time) validity := fun h => hahead (hiff.mp h)
      cases validity with
      | none => simp [Accepted] at hnot
      | some expiry =>
          refine ⟨time, expiry, rfl, rfl, hpast, ?_⟩
          by_contra hexpired
          have hexpired := Int.not_lt.mp hexpired
          apply hnot
          refine ⟨.inl (by simp), ?_, ?_⟩
          · rintro _ ⟨⟩
            exact hexpired
          · rintro _ _ ⟨⟩ ⟨⟩
            exact Int.le_of_lt (Int.lt_of_lt_of_le hpast hexpired)
  · rintro (⟨time, expiry, rfl, rfl, hpast, hexpired⟩ | ⟨hahead, haccepted⟩)
    · constructor
      · rintro ⟨-, h, -⟩
        exact absurd (h expiry rfl) (Int.not_le.mpr hexpired)
      · intro h
        exact absurd (h time rfl) (Int.not_le.mpr hpast)
    · exact ⟨fun _ => hahead, fun _ => haccepted⟩

/-- The two stores take a message alike exactly when it has no destination or its times agree. -/
theorem saves_alike_iff (hflag : message.u64Field "replace_if_present_flag" = 0) :
    SavesAlike calendar defaultValidityPeriod now storage rows messageId message id ↔
      message.strField "destination_addr" = "" ∨
        TimesAgree calendar defaultValidityPeriod now message := by
  by_cases hdest : message.strField "destination_addr" = ""
  · have hmemory : save calendar defaultValidityPeriod ⟨now, now, now⟩ storage messageId message
        id = .err (invalidInput "Missing destination_addr in the message") := if_pos hdest
    have hrow : SqlStorage.newRow calendar defaultValidityPeriod ⟨now, now, now⟩ now messageId
        message id = .err (invalidInput "Missing destination_addr in the message") := if_pos hdest
    have halike : SavesAlike calendar defaultValidityPeriod now storage rows messageId message
        id := by
      refine .inr ⟨_, invalidInput "Missing destination_addr in the message", hmemory, ?_⟩
      simp only [SqlStatements.save, hrow]
    simp [hdest, halike]
  · rw [or_iff_right hdest]
    constructor
    · intro halike
      -- the in-memory store reads both times, so neither call is the one that panics
      have hreturns : save calendar defaultValidityPeriod ⟨now, now, now⟩ storage messageId message
          id ≠ .panicked := by
        rcases halike with ⟨_, -, -, h, -⟩ | ⟨_, -, h, -⟩ <;> rw [h] <;> simp
      obtain ⟨schedule, hschedule⟩ := (optional_cases
        (getScheduleDeliveryTime calendar now message)).resolve_left fun hpanic => hreturns (by
          simp only [save, if_neg hdest, hpanic]
          rfl)
      obtain ⟨validity, hvalidity⟩ := (optional_cases
        (getValidityPeriod calendar now defaultValidityPeriod message)).resolve_left
          fun hpanic => hreturns (by
            simp only [save, if_neg hdest, hschedule, hpanic]
            rfl)
      refine ⟨schedule, validity, hschedule, hvalidity, ?_⟩
      rw [← accepted_iff_ahead]
      rcases halike with ⟨storage', rows', -, hfirst, hsecond, -⟩ | ⟨e, e', hfirst, hsecond⟩
      · have haccepted : Accepted now schedule validity := by
          rcases memory_save hdest hschedule hvalidity with ⟨haccepted, -⟩ | ⟨-, e, herror⟩
          · exact haccepted
          · cases hfirst.symm.trans herror
        have hahead : Ahead now schedule := by
          by_contra hpast
          obtain ⟨e, herror⟩ := sql_save_past hdest hschedule hpast
          rw [hsecond] at herror
          cases herror
        exact ⟨fun _ => hahead, fun _ => haccepted⟩
      · have hrefused : ¬ Accepted now schedule validity := by
          rcases memory_save hdest hschedule hvalidity with ⟨-, storage', hok, -⟩ | ⟨hrefused, -⟩
          · cases hfirst.symm.trans hok
          · exact hrefused
        have hpast : ¬ Ahead now schedule := by
          intro hahead
          obtain ⟨rows', hok, -⟩ := sql_save_ahead hflag hdest hschedule hvalidity hahead
          rw [hok] at hsecond
          cases hsecond
        exact ⟨fun haccepted => absurd haccepted hrefused, fun hahead => absurd hahead hpast⟩
    · rintro ⟨schedule, validity, hschedule, hvalidity, hagree⟩
      rw [← accepted_iff_ahead] at hagree
      rcases memory_save hdest hschedule hvalidity with
        ⟨haccepted, storage', hfirst, hrecords⟩ | ⟨hrefused, e, hfirst⟩
      · obtain ⟨rows', hsecond, hrows⟩ :=
          sql_save_ahead hflag hdest hschedule hvalidity (hagree.mp haccepted)
        exact .inl ⟨storage', rows', _, hfirst, hsecond, hrecords, hrows haccepted.1⟩
      · obtain ⟨e', hsecond⟩ := sql_save_past hdest hschedule (mt hagree.mpr hrefused)
        exact .inr ⟨e, e', hfirst, hsecond⟩

/-- A message without times expires after the default validity period in both stores. -/
theorem saves_alike_default :
    SavesAlike relativeCalendar 3600 0 .new [] "1" (.object [("destination_addr", .string "49")])
      0 :=
  (saves_alike_iff rfl).mpr (.inr ⟨none, some (seconds 3600), by decide +kernel, by decide +kernel,
    .inr ⟨by simp [Ahead], by simp [Accepted, seconds]⟩⟩)

/-- A message with empty times, as they are in a submit_sm that gives none. -/
def emptyTimes : Value :=
  .object [("destination_addr", .string "49"), ("schedule_delivery_time", .string ""),
    ("validity_period", .string "")]

/-- The SQL store takes a message with empty times, and the in-memory store refuses it. -/
theorem not_saves_alike_emptyTimes :
    ¬ ∀ (calendar : Calendar) (defaultValidityPeriod : UInt32) (now : Instant)
      (storage : InMemoryMessageStorage) (rows : List Row) (messageId : String) (message : Value)
      (id : Nat), message.u64Field "replace_if_present_flag" = 0 →
        SavesAlike calendar defaultValidityPeriod now storage rows messageId message id := by
  intro h
  have hdest : emptyTimes.strField "destination_addr" ≠ "" := by decide +kernel
  have hschedule : (getScheduleDeliveryTime relativeCalendar 0 emptyTimes).optional = .ok none := by
    decide +kernel
  have hvalidity : (getValidityPeriod relativeCalendar 0 3600 emptyTimes).optional = .ok none := by
    decide +kernel
  have hsql := @sql_save_ahead _ 3600 _ [] "1" _ 0 _ _ rfl hdest hschedule hvalidity (by simp [Ahead])
  have hmemory := @memory_save _ 3600 _ .new "1" _ 0 hdest _ _ hschedule hvalidity
  obtain ⟨rows', hrows, -⟩ := hsql
  rcases h relativeCalendar 3600 0 .new [] "1" emptyTimes 0 rfl with
    ⟨storage', -, -, hfirst, -⟩ | ⟨-, e', -, hsecond⟩
  · rcases hmemory with ⟨haccepted, -⟩ | ⟨-, e, herror⟩
    · exact haccepted.1.elim (fun h => h rfl) fun h => h rfl
    · cases hfirst.symm.trans herror
  · rw [hrows] at hsecond
    cases hsecond

end Save

end SmppHerald.StorageAgreement
