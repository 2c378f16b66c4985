import SmppHerald.Library.ParameterizedQuery
import SmppHerald.SqlStorage

/-!
The calls of `SqlMessageStorage` from their first statement to their last, with the `WHERE` clauses
as they are put together: numbered placeholders and the values bound to them.
-/

namespace SmppHerald.SqlStatements

open SmppHerald.InMemoryStorage (SaveClock)
open SmppHerald.Io
open SmppHerald.Json
open SmppHerald.ParameterizedQuery
open SmppHerald.SqlStorage
open SmppHerald.Time

inductive SqlValue
  | text (s : String)
  | integer (n : Int)
deriving DecidableEq

/-- The columns that the statements compare. -/
def column (row : Row) : String → Option SqlValue
  | "service_type" => some (.text row.serviceType)
  | "message_id" => some (.text row.messageId)
  | "source_addr_ton" => some (.integer row.sourceAddrTon)
  | "source_addr_npi" => some (.integer row.sourceAddrNpi)
  | "source_addr" => some (.text row.sourceAddr)
  | "dest_addr_ton" => some (.integer row.destAddrTon)
  | "dest_addr_npi" => some (.integer row.destAddrNpi)
  | "destination_addr" => some (.text row.destinationAddr)
  | _ => none

/-- A text of a request, if it is not empty. -/
def givenText (request : Value) (field : String) : Option SqlValue :=
  if request.strField field = "" then none else some (.text (request.strField field))

/-- A number of a request, if it is not zero. -/
def givenNumber (request : Value) (field : String) : Option SqlValue :=
  if asI32 (request.u64Field field) = 0 then none
  else some (.integer (asI32 (request.u64Field field)))

def cancelCriteria (cancelSm : Value) : List (Criterion SqlValue) :=
  [("service_type", givenText cancelSm "service_type"),
   ("message_id", givenText cancelSm "message_id"),
   ("source_addr_ton", givenNumber cancelSm "source_addr_ton"),
   ("source_addr_npi", givenNumber cancelSm "source_addr_npi"),
   ("source_addr", givenText cancelSm "source_addr"),
   ("dest_addr_ton", givenNumber cancelSm "dest_addr_ton"),
   ("dest_addr_npi", givenNumber cancelSm "dest_addr_npi"),
   ("destination_addr", givenText cancelSm "destination_addr")]

def replaceCriteria (replaceSm : Value) : List (Criterion SqlValue) :=
  [("message_id", some (.text (replaceSm.strField "message_id"))),
   ("source_addr_ton", givenNumber replaceSm "source_addr_ton"),
   ("source_addr_npi", givenNumber replaceSm "source_addr_npi"),
   ("source_addr", givenText replaceSm "source_addr")]

section Calls

/-- The table after `save`, and its result. The rows that a message supersedes are deleted before
the message is looked at. -/
def save (calendar : Calendar) (defaultValidityPeriod : UInt32) (clock : SaveClock) (now : Instant)
    (rows : List Row) (messageId : String) (message : Value) (id : Nat) :
    List Row × Outcome Unit :=
  let rows :=
    if isReplaceIfPresent message = true then rows.filter fun row => !isSuperseded message row
    else rows
  match newRow calendar defaultValidityPeriod clock now messageId message id with
  | .ok row => (rows ++ [row], .ok ())
  | .err e => (rows, .err e)
  | .panicked => (rows, .panicked)

/-- `DELETE FROM message_queue WHERE ...` -/
def cancelMessage (rows : List Row) (cancelSm : Value) : List Row × Outcome Bool :=
  let criteria := cancelCriteria cancelSm
  if queryFields criteria = [] then
    (rows, .err (invalidInput "At least one query field must be provided"))
  else
    (rows.filter fun row => !(query criteria).selects (column row),
     .ok (rows.any fun row => (query criteria).selects (column row)))

/-- `SELECT id, message FROM message_queue WHERE ...`, and an `UPDATE` for each row. -/
def replaceMessage (calendar : Calendar) (scheduleNow validityNow : Instant) (rows : List Row)
    (replaceSm : Value) : List Row × Outcome Bool :=
  match replaceTimes calendar scheduleNow validityNow replaceSm with
  | .err e => (rows, .err e)
  | .panicked => (rows, .panicked)
  | .ok times =>
      let selected := rows.filter fun row =>
        (query (replaceCriteria replaceSm)).selects (column row)
      let updates := selected.map fun row =>
        (⟨row.id, updatedMessage replaceSm row.message, times.1, times.2⟩ : Update)
      (updates.foldl (fun rows update => rows.map update.apply) rows, .ok !updates.isEmpty)

end Calls

section Selections

theorem nodup_cancelCriteria (cancelSm : Value) :
    ((cancelCriteria cancelSm).map Prod.fst).Nodup := by
  have hnames : ["service_type", "message_id", "source_addr_ton", "source_addr_npi", "source_addr",
      "dest_addr_ton", "dest_addr_npi", "destination_addr"].Nodup := by decide
  exact hnames

theorem nodup_replaceCriteria (replaceSm : Value) :
    ((replaceCriteria replaceSm).map Prod.fst).Nodup := by
  have hnames : ["message_id", "source_addr_ton", "source_addr_npi", "source_addr"].Nodup := by
    decide
  exact hnames

theorem givenText_iff (request : Value) (field found : String) :
    (∀ value, givenText request field = some value → some (SqlValue.text found) = some value) ↔
      (textCondition (request.strField field) found).getD true = true := by
  unfold givenText textCondition
  split <;> simp

theorem givenNumber_iff (request : Value) (field : String) (found : Int) :
    (∀ value, givenNumber request field = some value →
        some (SqlValue.integer found) = some value) ↔
      (numberCondition (asI32 (request.u64Field field)) found).getD true = true := by
  unfold givenNumber numberCondition
  split <;> simp

theorem all_filterMap_id (conditions : List (Option Bool)) :
    (conditions.filterMap id).all id = true ↔
      ∀ condition ∈ conditions, condition.getD true = true := by
  induction conditions with
  | nil => simp
  | cons condition conditions ih =>
      rw [List.forall_mem_cons, ← ih]
      cases condition <;> simp

theorem selects_cancel_iff (cancelSm : Value) (row : Row) :
    (query (cancelCriteria cancelSm)).selects (column row) = true ↔
      (cancelConditions cancelSm row).all id = true := by
  rw [selects_query_iff (nodup_cancelCriteria cancelSm), cancelConditions, all_filterMap_id, Meets,
    cancelCriteria]
  simp only [List.forall_mem_cons, column, givenText_iff, givenNumber_iff, List.not_mem_nil,
    false_implies, implies_true]

theorem queryFields_cancel_iff (cancelSm : Value) (row : Row) :
    queryFields (cancelCriteria cancelSm) = [] ↔ cancelConditions cancelSm row = [] := by
  have htext : ∀ field found, givenText cancelSm field = none ↔
      textCondition (cancelSm.strField field) found = none := by
    intro field found
    unfold givenText textCondition
    split <;> simp
  have hnumber : ∀ field found, givenNumber cancelSm field = none ↔
      numberCondition (asI32 (cancelSm.u64Field field)) found = none := by
    intro field found
    unfold givenNumber numberCondition
    split <;> simp
  rw [queryFields, cancelConditions, List.filterMap_eq_nil_iff, List.filterMap_eq_nil_iff,
    cancelCriteria]
  simp only [List.forall_mem_cons, Option.map_eq_none_iff, List.not_mem_nil, false_implies,
    implies_true, id_eq]
  rw [← htext, ← htext, ← hnumber, ← hnumber, ← htext, ← hnumber, ← hnumber, ← htext]

theorem selects_replace_iff (replaceSm : Value) (row : Row) :
    (query (replaceCriteria replaceSm)).selects (column row) = true ↔
      (replaceConditions replaceSm row).all id = true := by
  rw [selects_query_iff (nodup_replaceCriteria replaceSm), replaceConditions, all_filterMap_id,
    Meets, replaceCriteria]
  simp only [List.forall_mem_cons, column, givenText_iff, givenNumber_iff, List.not_mem_nil,
    false_implies, implies_true]
  simp

theorem cancelMessage_eq (rows : List Row) (cancelSm : Value) :
    (cancelMessage rows cancelSm).1 = rows.filter (fun row => !isCancelled cancelSm row) ∧
      ((cancelMessage rows cancelSm).2 = .ok true ↔
        rows.any (isCancelled cancelSm) = true) := by
  unfold cancelMessage
  simp only
  have hempty := queryFields_cancel_iff cancelSm
  split
  · rename_i hnone
    have hnothing : ∀ row, isCancelled cancelSm row = false := by
      intro row
      rw [isCancelled, (hempty row).mp hnone]
      rfl
    simp [hnothing]
  · rename_i hsome
    have hsame : ∀ row, (query (cancelCriteria cancelSm)).selects (column row) =
        isCancelled cancelSm row := by
      intro row
      rw [Bool.eq_iff_iff, selects_cancel_iff, isCancelled, Bool.and_eq_true, Bool.not_eq_true',
        List.isEmpty_eq_false_iff]
      exact ⟨fun h => ⟨fun hnil => hsome ((hempty row).mpr hnil), h⟩, fun h => h.2⟩
    simp [hsame]

end Selections

section Updates

/-- The rows that a replace_sm selects. -/
def isReplaced (replaceSm : Value) (row : Row) : Bool := (replaceConditions replaceSm row).all id

/-- A selected row after its update. -/
def replacedRow (replaceSm : Value) (times : Option String × Option String) (row : Row) : Row :=
  if isReplaced replaceSm row = true then
    { row with
      message := updatedMessage replaceSm row.message
      scheduleDeliveryTime := times.1.or row.scheduleDeliveryTime
      validityPeriod := times.2.or row.validityPeriod }
  else row

theorem id_apply (update : Update) (row : Row) : (update.apply row).id = row.id := by
  unfold Update.apply
  split <;> rfl

theorem map_apply_of_notMem {update : Update} {rows : List Row}
    (h : update.id ∉ rows.map Row.id) : rows.map update.apply = rows := by
  refine (List.map_congr_left fun row hrow => ?_).trans (List.map_id _)
  rw [Update.apply, if_neg]
  · rfl
  · intro hid
    exact h (hid ▸ List.mem_map_of_mem hrow)

theorem foldl_apply_cons {updates : List Update} {row : Row}
    (h : ∀ update ∈ updates, update.id ≠ row.id) (rows : List Row) :
    updates.foldl (fun rows update => rows.map update.apply) (row :: rows) =
      row :: updates.foldl (fun rows update => rows.map update.apply) rows := by
  induction updates generalizing rows with
  | nil => rfl
  | cons update updates ih =>
      rw [List.forall_mem_cons] at h
      have hthis : update.apply row = row := by
        rw [Update.apply, if_neg (Ne.symm h.1)]
      rw [List.foldl_cons, List.foldl_cons, List.map_cons, hthis, ih h.2]

theorem foldl_updates {rows : List Row} (hids : (rows.map Row.id).Nodup) (replaceSm : Value)
    (times : Option String × Option String) :
    (updates replaceSm times rows).foldl (fun rows update => rows.map update.apply) rows =
      rows.map (replacedRow replaceSm times) := by
  induction rows with
  | nil => rfl
  | cons row rows ih =>
      rw [List.map_cons, List.nodup_cons] at hids
      obtain ⟨hid, hids⟩ := hids
      have hothers : ∀ update ∈ updates replaceSm times rows, update.id ≠ row.id := by
        intro update hupdate hsame
        obtain ⟨other, hother, rfl⟩ := List.mem_map.mp hupdate
        exact hid (hsame ▸ List.mem_map_of_mem (List.mem_of_mem_filter hother))
      have ih := ih hids
      unfold updates at ih hothers ⊢
      rw [List.map_cons, List.filter_cons, replacedRow, isReplaced]
      split
      · rename_i hselected
        rw [List.map_cons, List.foldl_cons, List.map_cons, map_apply_of_notMem hid,
          foldl_apply_cons, ih]
        · rw [Update.apply, if_pos rfl]
        · intro update hupdate
          rw [id_apply]
          exact hothers update hupdate
      · rw [foldl_apply_cons hothers, ih]

theorem replaceMessage_eq {calendar : Calendar} {scheduleNow validityNow : Instant}
    {rows : List Row} (hids : (rows.map Row.id).Nodup) (replaceSm : Value) :
    replaceMessage calendar scheduleNow validityNow rows replaceSm =
      match replaceTimes calendar scheduleNow validityNow replaceSm with
      | .err e => (rows, .err e)
      | .panicked => (rows, .panicked)
      | .ok times =>
          (rows.map (replacedRow replaceSm times), .ok (rows.any (isReplaced replaceSm))) := by
  unfold replaceMessage
  split
  · rfl
  · rfl
  · rename_i times _
    have hsame : (fun row => (query (replaceCriteria replaceSm)).selects (column row)) =
        isReplaced replaceSm := by
      funext row
      rw [Bool.eq_iff_iff, selects_replace_iff]
      rfl
    have hupdates := foldl_updates hids replaceSm times
    unfold updates at hupdates
    simp only [hsame]
    change (List.foldl _ _ _, _) = _
    rw [Prod.mk.injEq]
    refine ⟨hupdates, ?_⟩
    congr 1
    rw [List.isEmpty_map, Bool.eq_iff_iff, Bool.not_eq_true', List.isEmpty_eq_false_iff, ne_eq,
      List.filter_eq_nil_iff]
    simp

end Updates

end SmppHerald.SqlStatements
