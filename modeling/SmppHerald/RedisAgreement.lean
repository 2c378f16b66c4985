import SmppHerald.RedisStorage
import SmppHerald.ReplaceAgreement

namespace SmppHerald.RedisAgreement

open SmppHerald.InMemoryStorage (SaveClock replacingTime)
open SmppHerald.Io
open SmppHerald.Json
open SmppHerald.RedisStorage
open SmppHerald.ReplaceAgreement (Valid replaceTimes_refused seen)
open SmppHerald.SqlStorage (Row asI32 isCancelled replaceTimes updatedMessage)
open SmppHerald.SqlStatements (isReplaced replacedRow)
open SmppHerald.StorageAgreement (asRow rowRecord numberCondition_iff textCondition_iff)
open SmppHerald.Time

section Same

/-- The hash that is kept of a message. -/
def hashOf (row : Row) : EntryHash where
  destAddress := row.destinationAddr
  messageId := row.messageId
  message := row.message
  scheduleDeliveryTime := row.scheduleDeliveryTime.getD ""
  validityPeriod := row.validityPeriod.getD ""

theorem hashOf_messageId (row : Row) : (hashOf row).messageId = row.messageId := rfl

/-- Both stores have the same messages. The entry of a message is found by its message id, it is in
the schedule, and no later entry gets its id. The columns of a row are those of its message. -/
structure SameMessages (storage : RedisMessageStorage) (rows : List Row) : Prop where
  ids : (rows.map Row.id).Nodup
  columns : ∀ row ∈ rows, asRow (rowRecord row) = row
  entries : ∀ id hash, storage.entry id = some hash ↔ ∃ row ∈ rows, row.id = id ∧ hashOf row = hash
  nodup : ∀ messageId, (storage.msgid messageId).Nodup
  members : ∀ messageId id, id ∈ storage.msgid messageId ↔
    ∃ row ∈ rows, row.messageId = messageId ∧ row.id = id
  scheduled : ∀ id, id ∈ storage.schedule.map Prod.fst ↔ ∃ row ∈ rows, row.id = id
  counted : ∀ row ∈ rows, row.id ≤ storage.counter

variable {storage : RedisMessageStorage} {rows : List Row}

theorem SameMessages.eq_of_id (hsame : SameMessages storage rows) {row other : Row}
    (hrow : row ∈ rows) (hother : other ∈ rows) (hid : row.id = other.id) : row = other :=
  List.inj_on_of_nodup_map hsame.ids hrow hother hid

theorem SameMessages.entry_row (hsame : SameMessages storage rows) {row : Row}
    (hrow : row ∈ rows) : storage.entry row.id = some (hashOf row) :=
  (hsame.entries row.id (hashOf row)).mpr ⟨row, hrow, rfl, rfl⟩

theorem SameMessages.mem_iff {kept : List Row} (hids : (rows.map Row.id).Nodup)
    (hsublist : kept.Sublist rows) (hsame : SameMessages storage kept) {row : Row}
    (hrow : row ∈ rows) : row ∈ kept ↔ (storage.entry row.id).isSome = true := by
  constructor
  · intro hkept
    rw [hsame.entry_row hkept]
    rfl
  · intro hentry
    obtain ⟨hash, hhash⟩ := Option.isSome_iff_exists.mp hentry
    obtain ⟨other, hother, hid, -⟩ := (hsame.entries _ _).mp hhash
    have heq : other = row := List.inj_on_of_nodup_map hids (hsublist.subset hother) hrow hid
    exact heq ▸ hother

end Same

section Save

variable {calendar : Calendar} {defaultValidityPeriod : UInt32} {clock : SaveClock} {now : Instant}
  {storage storage' : RedisMessageStorage} {rows : List Row} {messageId : String} {message : Value}

theorem savedTimes_ok {times : Option Instant × Option Instant}
    (h : savedTimes calendar defaultValidityPeriod clock now message = .ok times) :
    message.strField "destination_addr" ≠ "" ∧
      (getScheduleDeliveryTime calendar clock.schedule message).optional = .ok times.1 ∧
      ¬ times.1.any (fun time => decide (time < now)) = true ∧
      (getValidityPeriod calendar clock.validity defaultValidityPeriod message).optional =
        .ok times.2 ∧
      ¬ (times.1.isNone = true ∧ times.2.isNone = true) := by
  unfold savedTimes at h
  split at h
  · cases h
  rename_i hdest
  obtain ⟨schedule, hschedule, h⟩ := Outcome.bind_eq_ok_iff.mp h
  split at h
  · cases h
  rename_i hahead
  obtain ⟨validity, hvalidity, h⟩ := Outcome.bind_eq_ok_iff.mp h
  split at h
  · cases h
  rename_i hgiven
  obtain rfl := Outcome.ok.inj h
  exact ⟨hdest, hschedule, hahead, hvalidity, hgiven⟩

theorem save_ok (hsave : save calendar defaultValidityPeriod clock now storage messageId message =
      .ok storage') :
    ∃ row, SqlStorage.newRow calendar defaultValidityPeriod clock now messageId message
        (storage.counter + 1) = .ok row ∧ row.id = storage.counter + 1 ∧
      row.messageId = messageId ∧ asRow (rowRecord row) = row ∧
      storage'.entry = setAt row.id (some (hashOf row)) storage.entry ∧
      storage'.msgid = setAt messageId (sadd row.id (storage.msgid messageId)) storage.msgid ∧
      storage'.counter = row.id ∧
      ∃ score, storage'.schedule = zadd row.id score storage.schedule := by
  obtain ⟨times, htimes, hstore⟩ := Outcome.bind_eq_ok_iff.mp hsave
  obtain rfl := Outcome.ok.inj hstore
  obtain ⟨hdest, hschedule, hahead, hvalidity, hgiven⟩ := savedTimes_ok htimes
  unfold SqlStorage.newRow
  simp only [if_neg hdest, hschedule, hvalidity]
  refine ⟨_, if_neg hahead, ?_⟩
  rw [if_neg hgiven]
  exact ⟨rfl, rfl, rfl, rfl, rfl, rfl, _, rfl⟩

theorem SameMessages.save (hsame : SameMessages storage rows)
    (hsave : save calendar defaultValidityPeriod clock now storage messageId message =
      .ok storage') :
    ∃ row, SqlStorage.newRow calendar defaultValidityPeriod clock now messageId message
        (storage.counter + 1) = .ok row ∧ SameMessages storage' (rows ++ [row]) := by
  obtain ⟨row, hrow, hid, rfl, hcolumns, hentry, hmsgid, hcounter, score, hschedule⟩ :=
    save_ok hsave
  have hnew : ∀ other ∈ rows, other.id ≠ row.id := by
    intro other hother
    have := hsame.counted other hother
    omega
  refine ⟨row, hrow, ?_⟩
  constructor
  · rw [List.map_append, List.nodup_append]
    refine ⟨hsame.ids, by simp, ?_⟩
    rintro id hmem _ hlast rfl
    obtain ⟨other, hother, hsameId⟩ := List.mem_map.mp hmem
    rw [List.map_singleton, List.mem_singleton] at hlast
    exact hnew other hother (hsameId.trans hlast)
  · rw [List.forall_mem_append, List.forall_mem_singleton]
    exact ⟨hsame.columns, hcolumns⟩
  · intro id hash
    simp only [hentry, List.mem_append, List.mem_singleton, or_and_right, exists_or,
      exists_eq_left]
    by_cases hid : id = row.id
    · subst hid
      rw [setAt_self, Option.some.injEq]
      constructor
      · intro hhash
        exact .inr ⟨rfl, hhash⟩
      · rintro (⟨other, hother, hsameId, -⟩ | ⟨-, hhash⟩)
        · exact absurd hsameId (hnew other hother)
        · exact hhash
    · rw [setAt_of_ne hid, hsame.entries]
      exact ⟨.inl, fun h => h.resolve_right fun hlast => hid hlast.1.symm⟩
  · intro messageId
    rw [hmsgid]
    by_cases hmessageId : messageId = row.messageId
    · subst hmessageId
      exact setAt_self row.messageId _ _ ▸ nodup_sadd (hsame.nodup row.messageId)
    · rw [setAt_of_ne hmessageId]
      exact hsame.nodup messageId
  · intro messageId id
    simp only [hmsgid, List.mem_append, List.mem_singleton, or_and_right, exists_or,
      exists_eq_left]
    by_cases hmessageId : messageId = row.messageId
    · subst hmessageId
      rw [setAt_self, mem_sadd, hsame.members]
      constructor
      · rintro (rfl | hold)
        · exact .inr ⟨rfl, rfl⟩
        · exact .inl hold
      · rintro (hold | ⟨-, rfl⟩)
        · exact .inr hold
        · exact .inl rfl
    · rw [setAt_of_ne hmessageId, hsame.members]
      exact ⟨.inl, fun h => h.resolve_right fun hlast => hmessageId hlast.1.symm⟩
  · intro id
    simp only [hschedule, mem_zadd, hsame.scheduled, List.mem_append, List.mem_singleton,
      or_and_right, exists_or, exists_eq_left]
    rw [or_comm, eq_comm]
  · rw [hcounter, List.forall_mem_append, List.forall_mem_singleton]
    refine ⟨fun other hother => ?_, Nat.le_refl _⟩
    have := hsame.counted other hother
    omega

end Save

section Delete

variable {storage : RedisMessageStorage} {rows : List Row}

theorem deleteEntry_of_entry {id : Nat} {hash : EntryHash} (h : storage.entry id = some hash) :
    (deleteEntry storage id).2 = true ∧
      (deleteEntry storage id).1.entry = setAt id none storage.entry ∧
      (deleteEntry storage id).1.msgid =
        setAt hash.messageId (srem id (storage.msgid hash.messageId)) storage.msgid ∧
      (deleteEntry storage id).1.schedule = zrem id storage.schedule ∧
      (deleteEntry storage id).1.counter = storage.counter := by
  simp [deleteEntry, h]

theorem deleteEntry_row (hsame : SameMessages storage rows) {row : Row} (hrow : row ∈ rows) :
    (deleteEntry storage row.id).2 = true ∧
      SameMessages (deleteEntry storage row.id).1
        (rows.filter fun other => other.id ≠ row.id) := by
  obtain ⟨hdeleted, hentry, hmsgid, hschedule, hcounter⟩ :=
    deleteEntry_of_entry (hsame.entry_row hrow)
  rw [hashOf_messageId] at hmsgid
  refine ⟨hdeleted, ?_⟩
  constructor
  · exact hsame.ids.sublist (List.filter_sublist.map _)
  · exact fun other hother => hsame.columns other (List.mem_of_mem_filter hother)
  · intro id hash
    rw [hentry]
    by_cases hid : id = row.id
    · subst hid
      rw [setAt_self]
      constructor
      · rintro ⟨⟩
      · rintro ⟨other, hother, hid, -⟩
        exact absurd hid (by simpa using (List.mem_filter.mp hother).2)
    · rw [setAt_of_ne hid, hsame.entries]
      apply exists_congr
      intro other
      rw [List.mem_filter, decide_eq_true_eq]
      constructor
      · rintro ⟨hother, rfl, hhash⟩
        exact ⟨⟨hother, hid⟩, rfl, hhash⟩
      · rintro ⟨⟨hother, -⟩, hother', hhash⟩
        exact ⟨hother, hother', hhash⟩
  · intro messageId
    rw [hmsgid]
    by_cases hmessageId : messageId = row.messageId
    · subst hmessageId
      exact setAt_self row.messageId _ _ ▸ (hsame.nodup row.messageId).filter _
    · rw [setAt_of_ne hmessageId]
      exact hsame.nodup messageId
  · intro messageId id
    simp only [hmsgid, List.mem_filter, decide_eq_true_eq]
    by_cases hmessageId : messageId = row.messageId
    · subst hmessageId
      rw [setAt_self, mem_srem, hsame.members]
      constructor
      · rintro ⟨hne, other, hother, hsameId, rfl⟩
        exact ⟨other, ⟨hother, hne⟩, hsameId, rfl⟩
      · rintro ⟨other, ⟨hother, hne⟩, hsameId, rfl⟩
        exact ⟨hne, other, hother, hsameId, rfl⟩
    · rw [setAt_of_ne hmessageId, hsame.members]
      constructor
      · rintro ⟨other, hother, hsameId, rfl⟩
        refine ⟨other, ⟨hother, ?_⟩, hsameId, rfl⟩
        intro hid
        rw [hsame.eq_of_id hother hrow hid] at hsameId
        exact hmessageId hsameId.symm
      · rintro ⟨other, ⟨hother, -⟩, hsameId, rfl⟩
        exact ⟨other, hother, hsameId, rfl⟩
  · intro id
    simp only [hschedule, List.mem_filter, decide_eq_true_eq, mem_zrem, hsame.scheduled]
    constructor
    · rintro ⟨hne, other, hother, rfl⟩
      exact ⟨other, ⟨hother, hne⟩, rfl⟩
    · rintro ⟨other, ⟨hother, hne⟩, rfl⟩
      exact ⟨hne, other, hother, rfl⟩
  · rw [hcounter]
    exact fun other hother => hsame.counted other (List.mem_of_mem_filter hother)

theorem deleteEntries_rows {entryIds : List Nat} (hnodup : entryIds.Nodup)
    (hsame : SameMessages storage rows) (hstored : ∀ id ∈ entryIds, ∃ row ∈ rows, row.id = id) :
    (deleteEntries storage entryIds).2 = !entryIds.isEmpty ∧
      SameMessages (deleteEntries storage entryIds).1
        (rows.filter fun row => row.id ∉ entryIds) := by
  induction entryIds generalizing storage rows with
  | nil =>
      refine ⟨rfl, ?_⟩
      have hall : (rows.filter fun row => row.id ∉ []) = rows := by simp
      rw [hall]
      exact hsame
  | cons id entryIds ih =>
      rw [List.nodup_cons] at hnodup
      rw [List.forall_mem_cons] at hstored
      obtain ⟨⟨row, hrow, rfl⟩, hstored⟩ := hstored
      obtain ⟨hdeleted, hafter⟩ := deleteEntry_row hsame hrow
      have hothers : ∀ id ∈ entryIds, ∃ other ∈ rows.filter fun other => other.id ≠ row.id,
          other.id = id := by
        intro id hid
        obtain ⟨other, hother, rfl⟩ := hstored id hid
        refine ⟨other, List.mem_filter.mpr ⟨hother, ?_⟩, rfl⟩
        rw [decide_eq_true_eq]
        intro hsameId
        exact hnodup.1 (hsameId ▸ hid)
      obtain ⟨-, hrest⟩ := ih hnodup.2 hafter hothers
      constructor
      · simp [deleteEntries, hdeleted]
      · have hfilter : (rows.filter fun other => other.id ∉ row.id :: entryIds) =
            (rows.filter fun other => other.id ≠ row.id).filter fun other =>
              other.id ∉ entryIds := by
          rw [List.filter_filter]
          apply List.filter_congr
          intro other _
          simp [Bool.and_comm]
        rw [hfilter]
        exact hrest

/-- The criteria other than the message id are not looked at. -/
theorem cancelMessage_eq (hsame : SameMessages storage rows) {cancelSm : Value}
    (hid : cancelSm.strField "message_id" ≠ "") :
    (cancelMessage storage cancelSm).2 =
        .ok (rows.any fun row => row.messageId == cancelSm.strField "message_id") ∧
      SameMessages (cancelMessage storage cancelSm).1
        (rows.filter fun row => row.messageId ≠ cancelSm.strField "message_id") := by
  have hmembers := hsame.members (cancelSm.strField "message_id")
  have hstored : ∀ id ∈ storage.msgid (cancelSm.strField "message_id"),
      ∃ row ∈ rows, row.id = id := by
    intro id hmem
    obtain ⟨row, hrow, -, hrowId⟩ := (hmembers id).mp hmem
    exact ⟨row, hrow, hrowId⟩
  obtain ⟨hany, hafter⟩ := deleteEntries_rows (hsame.nodup _) hsame hstored
  unfold cancelMessage
  simp only [if_neg hid]
  constructor
  · rw [hany, Outcome.ok.injEq, Bool.eq_iff_iff, Bool.not_eq_true', List.isEmpty_eq_false_iff,
      List.any_eq_true]
    constructor
    · intro hne
      obtain ⟨id, hmem⟩ := List.exists_mem_of_ne_nil _ hne
      obtain ⟨row, hrow, hmessageId, -⟩ := (hmembers id).mp hmem
      exact ⟨row, hrow, beq_iff_eq.mpr hmessageId⟩
    · rintro ⟨row, hrow, hmessageId⟩
      exact List.ne_nil_of_mem ((hmembers row.id).mpr ⟨row, hrow, beq_iff_eq.mp hmessageId, rfl⟩)
  · have hfilter : (rows.filter fun row => row.messageId ≠ cancelSm.strField "message_id") =
        rows.filter fun row => row.id ∉ storage.msgid (cancelSm.strField "message_id") := by
      apply List.filter_congr
      intro row hrow
      rw [Bool.eq_iff_iff, decide_eq_true_eq, decide_eq_true_eq, hmembers]
      constructor
      · rintro hne ⟨other, hother, hmessageId, hotherId⟩
        rw [hsame.eq_of_id hother hrow hotherId] at hmessageId
        exact hne hmessageId
      · intro hnot hmessageId
        exact hnot ⟨row, hrow, hmessageId, rfl⟩
    rw [hfilter]
    exact hafter

/-- A replace_sm changes nothing, and nothing is reported to be replaced. -/
theorem replaceMessage_eq (storage : RedisMessageStorage) {replaceSm : Value}
    (hid : replaceSm.strField "message_id" ≠ "") :
    replaceMessage storage replaceSm = (storage, .ok false) := by
  have hentries : ∀ entryIds, replaceEntries storage replaceSm false entryIds = (storage, false) := by
    intro entryIds
    induction entryIds with
    | nil => rfl
    | cons id entryIds ih =>
        rw [replaceEntries]
        split
        · exact ih
        · exact ih
  unfold replaceMessage
  simp only [if_neg hid, hentries]

end Delete

section Criteria

/-- A text that the request leaves empty may be any. -/
def TextAsked (request : Value) (field found : String) : Prop :=
  request.strField field = "" ∨ request.strField field = found

/-- A number that the request leaves zero may be any. -/
def NumberAsked (request : Value) (field : String) (found : Int) : Prop :=
  asI32 (request.u64Field field) = 0 ∨ asI32 (request.u64Field field) = found

def CancelCriteria (cancelSm : Value) (row : Row) : Prop :=
  TextAsked cancelSm "service_type" row.serviceType ∧
    NumberAsked cancelSm "source_addr_ton" row.sourceAddrTon ∧
    NumberAsked cancelSm "source_addr_npi" row.sourceAddrNpi ∧
    TextAsked cancelSm "source_addr" row.sourceAddr ∧
    NumberAsked cancelSm "dest_addr_ton" row.destAddrTon ∧
    NumberAsked cancelSm "dest_addr_npi" row.destAddrNpi ∧
    TextAsked cancelSm "destination_addr" row.destinationAddr

def ReplaceCriteria (replaceSm : Value) (row : Row) : Prop :=
  NumberAsked replaceSm "source_addr_ton" row.sourceAddrTon ∧
    NumberAsked replaceSm "source_addr_npi" row.sourceAddrNpi ∧
    TextAsked replaceSm "source_addr" row.sourceAddr

variable {row : Row}

theorem isCancelled_iff {cancelSm : Value} (hid : cancelSm.strField "message_id" ≠ "") :
    isCancelled cancelSm row = true ↔
      row.messageId = cancelSm.strField "message_id" ∧ CancelCriteria cancelSm row := by
  have hgiven : SqlStorage.cancelConditions cancelSm row ≠ [] := by
    intro hnone
    rw [SqlStorage.cancelConditions, List.filterMap_eq_nil_iff] at hnone
    simp only [List.forall_mem_cons, id_eq] at hnone
    exact absurd hnone.2.1 (by simp [SqlStorage.textCondition, hid])
  rw [isCancelled, Bool.and_eq_true, Bool.not_eq_true', List.isEmpty_eq_false_iff,
    SqlStorage.cancelConditions, SqlStatements.all_filterMap_id]
  rw [SqlStorage.cancelConditions] at hgiven
  simp only [List.forall_mem_cons, List.not_mem_nil, false_implies, implies_true, and_true,
    textCondition_iff, numberCondition_iff, CancelCriteria, TextAsked, NumberAsked]
  constructor
  · rintro ⟨-, hservice, hmessageId, hcriteria⟩
    exact ⟨(hmessageId.resolve_left hid).symm, hservice, hcriteria⟩
  · rintro ⟨hmessageId, hservice, hcriteria⟩
    exact ⟨hgiven, hservice, .inr hmessageId.symm, hcriteria⟩

theorem isReplaced_iff (replaceSm : Value) : isReplaced replaceSm row = true ↔
    row.messageId = replaceSm.strField "message_id" ∧ ReplaceCriteria replaceSm row := by
  rw [isReplaced, SqlStorage.replaceConditions, SqlStatements.all_filterMap_id]
  simp only [List.forall_mem_cons, List.not_mem_nil, false_implies, implies_true, and_true,
    textCondition_iff, numberCondition_iff, ReplaceCriteria, TextAsked, NumberAsked,
    Option.getD_some, beq_iff_eq]

end Criteria

section Agreement

variable {calendar : Calendar} {scheduleNow validityNow : Instant} {storage : RedisMessageStorage}
  {rows : List Row} {cancelSm replaceSm : Value}

inductive Command
  | cancel (cancelSm : Value)
  | replace (replaceSm : Value)

def Command.request : Command → Value
  | .cancel cancelSm => cancelSm
  | .replace replaceSm => replaceSm

/-- The Redis store after a command, and its result. -/
def redisCall (storage : RedisMessageStorage) : Command → RedisMessageStorage × Outcome Bool
  | .cancel cancelSm => cancelMessage storage cancelSm
  | .replace replaceSm => replaceMessage storage replaceSm

/-- The SQL store after a command, and its result. -/
def sqlCall (calendar : Calendar) (scheduleNow validityNow : Instant) (rows : List Row) :
    Command → List Row × Outcome Bool
  | .cancel cancelSm => SqlStatements.cancelMessage rows cancelSm
  | .replace replaceSm =>
      SqlStatements.replaceMessage calendar scheduleNow validityNow rows replaceSm

variable (calendar scheduleNow validityNow replaceSm) in
/-- The times that a replace_sm gives. -/
def givenTimes : Outcome (Option Instant × Option Instant) := do
  let scheduleDeliveryTime ←
    replacingTime calendar scheduleNow replaceSm "schedule_delivery_time" ""
  let validityPeriod ← replacingTime calendar validityNow replaceSm "validity_period" ""
  return (scheduleDeliveryTime, validityPeriod)

variable (calendar scheduleNow validityNow storage rows) in
/-- The server sees the same outcome, and the same messages are stored. Only what meets the criteria
is cancelled. A message that is to be replaced is, and it is delivered as it is then. -/
structure SameEffect (command : Command) : Prop where
  outcome : seen (redisCall storage command).2 =
    seen (sqlCall calendar scheduleNow validityNow rows command).2
  same : SameMessages (redisCall storage command).1
    (sqlCall calendar scheduleNow validityNow rows command).1
  cancelled : ∀ cancelSm, command = .cancel cancelSm → ∀ row ∈ rows,
    (redisCall storage command).1.entry row.id = none → CancelCriteria cancelSm row
  replaced : ∀ replaceSm, command = .replace replaceSm → Valid replaceSm →
    (∃ times, givenTimes calendar scheduleNow validityNow replaceSm = .ok times) → ∀ row ∈ rows,
      row.messageId = replaceSm.strField "message_id" → ReplaceCriteria replaceSm row →
        (redisCall storage command).2 = .ok true ∧
        ∀ parseRfc3339 now clock, ∀ delivery ∈
          (getDeliveryMessages parseRfc3339 now clock (redisCall storage command).1).2,
          delivery.1 = row.id → delivery.2 = updatedMessage replaceSm row.message

/-- Every message with the id meets all the criteria. -/
def CancelsAll (rows : List Row) (cancelSm : Value) : Prop :=
  ∀ row ∈ rows, row.messageId = cancelSm.strField "message_id" → CancelCriteria cancelSm row

/-- The request is refused or there is nothing to replace. -/
def ReplacesNone (calendar : Calendar) (scheduleNow validityNow : Instant) (rows : List Row)
    (replaceSm : Value) : Prop :=
  Valid replaceSm → givenTimes calendar scheduleNow validityNow replaceSm ≠ .panicked ∧
    ∀ times, givenTimes calendar scheduleNow validityNow replaceSm = .ok times → ∀ row ∈ rows,
      row.messageId = replaceSm.strField "message_id" → ¬ ReplaceCriteria replaceSm row

theorem seen_cancelMessage (rows : List Row) (cancelSm : Value) :
    seen (SqlStatements.cancelMessage rows cancelSm).2 = some (rows.any (isCancelled cancelSm)) := by
  have htrue := (SqlStatements.cancelMessage_eq rows cancelSm).2
  cases hany : rows.any (isCancelled cancelSm) with
  | true => rw [htrue.mpr hany, seen]
  | false =>
      rw [hany] at htrue
      unfold SqlStatements.cancelMessage at htrue ⊢
      simp only at htrue ⊢
      split
      · rfl
      · rename_i hgiven
        simp only [if_neg hgiven, Outcome.ok.injEq, Bool.false_eq_true, iff_false,
          Bool.not_eq_true] at htrue
        rw [htrue, seen]

theorem cancel_iff (hsame : SameMessages storage rows)
    (hid : cancelSm.strField "message_id" ≠ "") :
    SameEffect calendar scheduleNow validityNow storage rows (.cancel cancelSm) ↔
      CancelsAll rows cancelSm := by
  obtain ⟨hredis, hafter⟩ := cancelMessage_eq hsame hid
  constructor
  · intro heffect row hrow hmessageId
    apply heffect.cancelled cancelSm rfl row hrow
    change (cancelMessage storage cancelSm).1.entry row.id = none
    rw [← Option.not_isSome_iff_eq_none, ← hafter.mem_iff hsame.ids List.filter_sublist hrow,
      List.mem_filter]
    simp [hmessageId]
  · intro hall
    have hmatch : ∀ row ∈ rows, isCancelled cancelSm row =
        (row.messageId == cancelSm.strField "message_id") := by
      intro row hrow
      rw [Bool.eq_iff_iff, isCancelled_iff hid, beq_iff_eq]
      exact ⟨fun h => h.1, fun h => ⟨h, hall row hrow h⟩⟩
    constructor
    · change seen (cancelMessage storage cancelSm).2 =
        seen (SqlStatements.cancelMessage rows cancelSm).2
      rw [hredis, seen, seen_cancelMessage, Option.some.injEq, Bool.eq_iff_iff, List.any_eq_true,
        List.any_eq_true]
      apply exists_congr
      intro row
      apply and_congr_right
      intro hrow
      rw [hmatch row hrow]
    · change SameMessages (cancelMessage storage cancelSm).1
        (SqlStatements.cancelMessage rows cancelSm).1
      have hleft : (SqlStatements.cancelMessage rows cancelSm).1 =
          rows.filter fun row => row.messageId ≠ cancelSm.strField "message_id" := by
        rw [(SqlStatements.cancelMessage_eq rows cancelSm).1]
        apply List.filter_congr
        intro row hrow
        rw [hmatch row hrow, Bool.eq_iff_iff]
        simp
      rw [hleft]
      exact hafter
    · rintro _ ⟨⟩ row hrow hgone
      apply hall row hrow
      by_contra hother
      have hkept : row ∈ rows.filter fun row =>
          row.messageId ≠ cancelSm.strField "message_id" :=
        List.mem_filter.mpr ⟨hrow, by simpa using hother⟩
      rw [hafter.mem_iff hsame.ids List.filter_sublist hrow] at hkept
      change (cancelMessage storage cancelSm).1.entry row.id = none at hgone
      rw [hgone] at hkept
      cases hkept
    · rintro _ ⟨⟩

theorem sqlReplace_valid (hids : (rows.map Row.id).Nodup) (hvalid : Valid replaceSm) :
    seen (SqlStatements.replaceMessage calendar scheduleNow validityNow rows replaceSm).2 =
      match givenTimes calendar scheduleNow validityNow replaceSm with
      | .err _ => some false
      | .panicked => none
      | .ok _ => some (rows.any (isReplaced replaceSm)) := by
  have htimes : replaceTimes calendar scheduleNow validityNow replaceSm =
      (givenTimes calendar scheduleNow validityNow replaceSm).bind fun times =>
        .ok (times.1.map calendar.toRfc3339, times.2.map calendar.toRfc3339) := by
    unfold replaceTimes givenTimes
    rw [if_neg hvalid.1, if_neg hvalid.2]
    cases replacingTime calendar scheduleNow replaceSm "schedule_delivery_time" "" with
    | err e => rfl
    | panicked => rfl
    | ok scheduleDeliveryTime =>
        cases replacingTime calendar validityNow replaceSm "validity_period" "" <;> rfl
  rw [SqlStatements.replaceMessage_eq hids, htimes]
  cases givenTimes calendar scheduleNow validityNow replaceSm <;> rfl

theorem sqlReplace_unchanged (hids : (rows.map Row.id).Nodup)
    (hseen : seen (SqlStatements.replaceMessage calendar scheduleNow validityNow rows replaceSm).2 =
      some false) :
    (SqlStatements.replaceMessage calendar scheduleNow validityNow rows replaceSm).1 = rows := by
  rw [SqlStatements.replaceMessage_eq hids] at hseen ⊢
  split
  · rfl
  · rfl
  · rename_i times htimes
    simp only [htimes, seen, Option.some.injEq, List.any_eq_false] at hseen
    refine (List.map_congr_left fun row hrow => ?_).trans (List.map_id _)
    rw [replacedRow, if_neg (hseen row hrow)]
    rfl

theorem seen_replace_iff (hids : (rows.map Row.id).Nodup) :
    seen (SqlStatements.replaceMessage calendar scheduleNow validityNow rows replaceSm).2 =
        some false ↔
      ReplacesNone calendar scheduleNow validityNow rows replaceSm := by
  by_cases hvalid : Valid replaceSm
  · rw [sqlReplace_valid hids hvalid, ReplacesNone]
    cases givenTimes calendar scheduleNow validityNow replaceSm with
    | err e => simp [hvalid]
    | panicked => simp [hvalid]
    | ok times => simp [hvalid, isReplaced_iff]
  · obtain ⟨e, he⟩ := @replaceTimes_refused calendar _ hvalid scheduleNow validityNow
    simp [SqlStatements.replaceMessage, he, seen, ReplacesNone, hvalid]

theorem replace_iff (hsame : SameMessages storage rows)
    (hid : replaceSm.strField "message_id" ≠ "") :
    SameEffect calendar scheduleNow validityNow storage rows (.replace replaceSm) ↔
      ReplacesNone calendar scheduleNow validityNow rows replaceSm := by
  rw [← seen_replace_iff hsame.ids]
  have hredis := replaceMessage_eq storage hid
  constructor
  · intro heffect
    have houtcome := heffect.outcome
    simp only [redisCall, hredis] at houtcome
    exact houtcome.symm
  · intro hseen
    constructor
    · simp only [redisCall, hredis]
      exact hseen.symm
    · simp only [redisCall, hredis, sqlCall, sqlReplace_unchanged hsame.ids hseen]
      exact hsame
    · rintro _ ⟨⟩
    · rintro _ ⟨⟩ hvalid ⟨times, htimes⟩ row hrow hmessageId hcriteria
      have hnone := (seen_replace_iff hsame.ids).mp hseen hvalid
      exact absurd hcriteria (hnone.2 times htimes row hrow hmessageId)

/-- A command with a message id has the same effect exactly when a cancel_sm asks for nothing else
that a message with the id does not meet, and a replace_sm has nothing to replace. -/
theorem same_effect_iff (hsame : SameMessages storage rows) {command : Command}
    (hid : command.request.strField "message_id" ≠ "") :
    SameEffect calendar scheduleNow validityNow storage rows command ↔
      match command with
      | .cancel cancelSm => CancelsAll rows cancelSm
      | .replace replaceSm => ReplacesNone calendar scheduleNow validityNow rows replaceSm := by
  cases command with
  | cancel cancelSm => exact cancel_iff hsame hid
  | replace replaceSm => exact replace_iff hsame hid

/-- A message that both stores have under the id `1`. -/
def storedRow : Row :=
  asRow ⟨1, "1", .object [("destination_addr", .string "49")], none, some ""⟩

def oneEntry : RedisMessageStorage where
  entry := setAt 1 (some (hashOf storedRow)) fun _ => none
  msgid := setAt "1" [1] fun _ => []
  user := setAt "49" ["1"] fun _ => []
  counter := 1
  schedule := [(1, 0)]
  expiry := [(1, 3600000)]

theorem sameMessages_one : SameMessages oneEntry [storedRow] := by
  constructor
  · simp
  · rw [List.forall_mem_singleton]
    rfl
  · intro id hash
    by_cases hid : id = 1
    · subst hid
      simp [oneEntry, storedRow, asRow]
    · simp [oneEntry, setAt_of_ne hid, storedRow, asRow, Ne.symm hid]
  · intro messageId
    by_cases hmessageId : messageId = "1"
    · subst hmessageId
      simp [oneEntry]
    · simp [oneEntry, setAt_of_ne hmessageId]
  · intro messageId id
    by_cases hmessageId : messageId = "1"
    · subst hmessageId
      simp [oneEntry, storedRow, asRow, eq_comm]
    · simp [oneEntry, setAt_of_ne hmessageId, storedRow, asRow, Ne.symm hmessageId]
  · simp [oneEntry, storedRow, asRow, eq_comm]
  · simp [oneEntry, storedRow, asRow]

/-- A cancel_sm for the message with the id `1`. -/
def cancelSmFrom (sourceAddr : String) : Value :=
  .object [("message_id", .string "1"), ("source_addr", .string sourceAddr)]

/-- Without other criteria the effect is the same. -/
theorem same_effect_messageId :
    SameEffect relativeCalendar 0 0 oneEntry [storedRow] (.cancel (cancelSmFrom "")) := by
  apply (@same_effect_iff relativeCalendar 0 0 oneEntry [storedRow] sameMessages_one
    (.cancel (cancelSmFrom "")) (by decide +kernel)).mpr
  intro row hrow _
  obtain rfl := List.mem_singleton.mp hrow
  refine ⟨?_, ?_, ?_, ?_, ?_, ?_, ?_⟩ <;> exact .inl (by decide +kernel)

/-- The Redis store cancels the message although its source address does not match. -/
theorem not_same_effect_source :
    ¬ ∀ (calendar : Calendar) (scheduleNow validityNow : Instant) (storage : RedisMessageStorage)
      (rows : List Row) (command : Command), SameMessages storage rows →
        command.request.strField "message_id" ≠ "" →
        SameEffect calendar scheduleNow validityNow storage rows command := by
  intro h
  have heffect := h relativeCalendar 0 0 oneEntry [storedRow] (.cancel (cancelSmFrom "7"))
    sameMessages_one (by decide +kernel)
  have hgone : (redisCall oneEntry (.cancel (cancelSmFrom "7"))).1.entry storedRow.id = none := rfl
  obtain ⟨-, -, -, hsource, -⟩ :=
    heffect.cancelled _ rfl storedRow (List.mem_singleton_self storedRow) hgone
  have hother : ¬ TextAsked (cancelSmFrom "7") "source_addr" storedRow.sourceAddr := by
    rintro (hnone | hsame)
    · exact absurd hnone (by decide +kernel)
    · exact absurd hsame (by decide +kernel)
  exact hother hsource

end Agreement

end SmppHerald.RedisAgreement
