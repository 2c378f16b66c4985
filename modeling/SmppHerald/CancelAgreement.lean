import SmppHerald.DecodedMessage
import SmppHerald.StorageAgreement

namespace SmppHerald.CancelAgreement

open SmppHerald.Buffer
open SmppHerald.ByteParser
open SmppHerald.DecodedMessage
open SmppHerald.FieldCodecs
open SmppHerald.InMemoryStorage
open SmppHerald.Io
open SmppHerald.Json
open SmppHerald.Message
open SmppHerald.MultiMaps
open SmppHerald.PduFormat
open SmppHerald.SqlStorage (Row asI16 asI32 cancelConditions numberCondition textCondition)
open SmppHerald.StorageAgreement
open SmppHerald.Time

section Octets

/-- The types of number and the numbering plans of a message. -/
def addressNumbers : List String :=
  ["source_addr_ton", "source_addr_npi", "dest_addr_ton", "dest_addr_npi"]

theorem yields_readU8 {ε : Type} {p : Parser ε UInt8} :
    Yields (p >>= fun n => pure (Value.ofNat n.toNat)) fun value =>
      ∃ n : UInt8, value = .ofNat n.toNat :=
  (yields_true p).bind fun n _ => yields_pure _ ⟨n, rfl⟩

theorem yields_decodeMandatory (fields : List CommandField) :
    Yields (decodeMandatory fields) fun entries => ∀ entry ∈ entries,
      fieldCodecs entry.1 = some .u8 → ∃ n : UInt8, entry.2 = .ofNat n.toNat := by
  induction fields with
  | nil => exact yields_pure [] (by simp)
  | cons field fields ih =>
      have hfield : Yields (decodeField field) fun entry =>
          fieldCodecs entry.1 = some .u8 → ∃ n : UInt8, entry.2 = .ofNat n.toNat := by
        unfold decodeField
        cases hcodec : fieldCodecs field.1 with
        | none =>
            intro buffer rest entry hrun
            simp [Parser.fail] at hrun
        | some codec =>
            by_cases hoctet : codec = .u8
            · subst hoctet
              refine (yields_readU8.mapError _).bind fun value hvalue => yields_pure _ ?_
              exact fun _ => hvalue
            · refine (yields_true _).bind fun value _ => yields_pure _ ?_
              intro hsame
              exact absurd (Option.some.inj (hcodec.symm.trans hsame)) hoctet
      refine hfield.bind fun entry hentry => ih.bind fun entries hentries =>
        yields_pure (entry :: entries) ?_
      rw [List.forall_mem_cons]
      exact ⟨hentry, hentries⟩

theorem octet_of_toJson {pdu : SMPPMessage} {message : Value} (h : toJson pdu = .ok message)
    {name : String} (hname : name ∈ addressNumbers) : (message.u64Field name).toNat < 256 := by
  have htable : ∀ name ∈ addressNumbers, fieldCodecs name = some .u8 ∧ name ∉ headerNames ∧
      isValidTlvField name = false := by
    intro name hname
    simp only [addressNumbers, List.mem_cons, List.not_mem_nil, or_false] at hname
    rcases hname with rfl | rfl | rfl | rfl <;> exact ⟨rfl, by decide, by decide⟩
  obtain ⟨hcodec, hheader, hnotTlv⟩ := htable name hname
  simp only [toJson] at h
  split at h
  · cases h
  unfold decodeBody at h
  split at h
  · cases h
  split at h
  · cases h
  rename_i entries rest hmandatory
  cases htlvs : decodeTlvs rest.length rest with
  | error e => simp [htlvs, Except.map] at h
  | ok tlvs =>
      rw [htlvs] at h
      obtain rfl := Except.ok.inj h
      unfold Value.u64Field
      cases hget : (Value.object _).get name with
      | none => exact (by decide : (0 : UInt64).toNat < 256)
      | some value =>
          have hmem := mem_of_lookup_insertAll hget
          rw [List.mem_append, List.mem_append] at hmem
          rcases hmem with (hmem | hmem) | hmem
          · exact absurd (headerEntries_names hmem) hheader
          · obtain ⟨n, rfl⟩ := yields_decodeMandatory _ hmandatory _ hmem hcodec
            have hlt := n.toNat_lt
            simp only [Value.ofNat, Value.asU64, Number.asU64, Option.bind_some, Option.getD_some,
              UInt64.toNat_ofNat']
            omega
          · obtain ⟨codec, hmemCodec, hcodecName, -⟩ := decodeTlvs_ok htlvs _ hmem
            have hvalid : isValidTlvField name = true := by
              rw [isValidTlvField, List.any_eq_true]
              exact ⟨codec, hmemCodec, by simpa using hcodecName⟩
            simp [hnotTlv] at hvalid

end Octets

section Criteria

/-- The texts that a cancel_sm may ask for. -/
def cancelTexts : List String := ["service_type", "message_id", "source_addr", "destination_addr"]

def HasCriterion (cancelSm : Value) : Prop :=
  (∃ field ∈ cancelTexts, cancelSm.strField field ≠ "") ∨
    ∃ field ∈ addressNumbers, cancelSm.u64Field field ≠ 0

/-- The numbers of a message that a cancel_sm asks for are octets, as they are kept in the table. -/
def Comparable (cancelSm message : Value) : Prop :=
  ∀ field ∈ addressNumbers, cancelSm.u64Field field ≠ 0 →
    (message.u64Field field).toNat % 65536 < 256

/-- Whether the in-memory store cancels a message. -/
def memoryCancels (cancelSm : Value) (record : StoredRecord) : Bool :=
  (cancelSm.strField "message_id" == "" || cancelSm.strField "message_id" == record.messageId) &&
    cancelMatches cancelSm record.message

/-- Whether the SQL store cancels a message. -/
def sqlCancels (cancelSm : Value) (record : StoredRecord) : Bool :=
  SqlStorage.isCancelled cancelSm (asRow record)

/-- The table compares the number itself, the in-memory store its last octet. -/
theorem numberCondition_octet_iff {number : UInt64} (hoctet : number.toNat < 256)
    (found : UInt64) : (numberCondition (asI32 number) (asI16 found)).getD true = true ↔
      (number.toNat % 256 = 0 ∨ number.toNat % 256 = found.toNat % 256) ∧
        (number ≠ 0 → found.toNat % 65536 < 256) := by
  have hzero : number ≠ 0 ↔ number.toNat ≠ 0 := by
    rw [ne_eq, ne_eq, ← UInt64.toNat_inj]
    rfl
  rw [numberCondition_iff, asI32_eq, asI16_eq, hzero]
  simp only [Int.bmod]
  omega

variable {cancelSm : Value}

theorem cancelConditions_eq_nil_iff (hoctets : ∀ field ∈ addressNumbers,
    (cancelSm.u64Field field).toNat < 256) (row : Row) :
    cancelConditions cancelSm row = [] ↔ ¬ HasCriterion cancelSm := by
  have htext : ∀ text found, textCondition text found = none ↔ text = "" := by
    intro text found
    unfold textCondition
    split <;> simp [*]
  have hnumber : ∀ number : UInt64, number.toNat < 256 → ∀ found,
      numberCondition (asI32 number) found = none ↔ number = 0 := by
    intro number hoctet found
    have hzero : asI32 number = 0 ↔ number = 0 := by
      rw [asI32_eq, ← UInt64.toNat_inj]
      simp only [Int.bmod]
      have : (0 : UInt64).toNat = 0 := rfl
      omega
    rw [← hzero]
    unfold numberCondition
    split
    · rename_i hnone
      simp [hnone]
    · rename_i hgiven
      simp [hgiven]
  simp only [addressNumbers, List.forall_mem_cons, List.not_mem_nil, false_implies, implies_true,
    and_true] at hoctets
  obtain ⟨hsourceTon, hsourceNpi, hdestTon, hdestNpi⟩ := hoctets
  rw [cancelConditions, List.filterMap_eq_nil_iff]
  simp only [List.forall_mem_cons, List.not_mem_nil, false_implies, implies_true, and_true, id_eq,
    htext, hnumber _ hsourceTon, hnumber _ hsourceNpi, hnumber _ hdestTon, hnumber _ hdestNpi,
    HasCriterion, cancelTexts, addressNumbers, List.exists_mem_cons_iff]
  simp only [false_and, exists_false, or_false, not_or, not_not]
  constructor
  · rintro ⟨hservice, hid, hton, hnpi, hsource, hton', hnpi', hdest⟩
    exact ⟨⟨hservice, hid, hsource, hdest⟩, hton, hnpi, hton', hnpi'⟩
  · rintro ⟨⟨hservice, hid, hsource, hdest⟩, hton, hnpi, hton', hnpi'⟩
    exact ⟨hservice, hid, hton, hnpi, hsource, hton', hnpi', hdest⟩

/-- The SQL store cancels what the in-memory store cancels, but nothing without a criterion and
nothing with a number that is no octet. -/
theorem sqlCancels_iff (hoctets : ∀ field ∈ addressNumbers,
    (cancelSm.u64Field field).toNat < 256) (record : StoredRecord) :
    sqlCancels cancelSm record = true ↔
      memoryCancels cancelSm record = true ∧ HasCriterion cancelSm ∧
        Comparable cancelSm record.message := by
  have hempty := cancelConditions_eq_nil_iff hoctets (asRow record)
  rw [sqlCancels, SqlStorage.isCancelled, Bool.and_eq_true, Bool.not_eq_true',
    List.isEmpty_eq_false_iff, ne_eq, hempty, not_not, cancelConditions,
    SqlStatements.all_filterMap_id]
  simp only [addressNumbers, List.forall_mem_cons, List.not_mem_nil, false_implies, implies_true,
    and_true] at hoctets
  obtain ⟨hsourceTon, hsourceNpi, hdestTon, hdestNpi⟩ := hoctets
  simp only [List.forall_mem_cons, List.not_mem_nil, false_implies, implies_true, and_true, asRow,
    textCondition_iff, numberCondition_octet_iff hsourceTon, numberCondition_octet_iff hsourceNpi,
    numberCondition_octet_iff hdestTon, numberCondition_octet_iff hdestNpi, memoryCancels,
    cancelMatches, Bool.and_eq_true, Bool.or_eq_true, beq_iff_eq, textMatches_iff,
    numberMatches_iff, Comparable, addressNumbers]
  constructor
  · rintro ⟨hcriterion, hservice, hid, ⟨hsourceTon, hton⟩, ⟨hsourceNpi, hnpi⟩, hsource,
      ⟨hdestTon, hton'⟩, ⟨hdestNpi, hnpi'⟩, hdest⟩
    exact ⟨⟨hid, ⟨⟨⟨⟨⟨hservice, hsource⟩, hdest⟩, hsourceTon⟩, hsourceNpi⟩, hdestTon⟩, hdestNpi⟩,
      hcriterion, hton, hnpi, hton', hnpi'⟩
  · rintro ⟨⟨hid, ⟨⟨⟨⟨⟨hservice, hsource⟩, hdest⟩, hsourceTon⟩, hsourceNpi⟩, hdestTon⟩, hdestNpi⟩,
      hcriterion, hton, hnpi, hton', hnpi'⟩
    exact ⟨hcriterion, hservice, hid, ⟨hsourceTon, hton⟩, ⟨hsourceNpi, hnpi⟩, hsource,
      ⟨hdestTon, hton'⟩, ⟨hdestNpi, hnpi'⟩, hdest⟩

theorem memoryCancels_of_not_hasCriterion (h : ¬ HasCriterion cancelSm) (record : StoredRecord) :
    memoryCancels cancelSm record = true := by
  have htext : ∀ field ∈ cancelTexts, cancelSm.strField field = "" := by
    intro field hfield
    by_contra hgiven
    exact h (.inl ⟨field, hfield, hgiven⟩)
  have hnumber : ∀ field ∈ addressNumbers, cancelSm.u64Field field = 0 := by
    intro field hfield
    by_contra hgiven
    exact h (.inr ⟨field, hfield, hgiven⟩)
  simp only [cancelTexts, addressNumbers, List.forall_mem_cons, List.not_mem_nil, false_implies,
    implies_true, and_true] at htext hnumber
  simp [memoryCancels, cancelMatches, textMatches, numberMatches, htext, hnumber]

end Criteria

section Cancel

variable {calendar : Calendar} {storage : InMemoryMessageStorage} {rows : List Row}
  {cancelSm : Value}

theorem records_cancelMessage (calendar : Calendar) (storage : InMemoryMessageStorage)
    (cancelSm : Value) : records calendar (cancelMessage storage cancelSm).1 =
      (records calendar storage).filter fun record => !memoryCancels cancelSm record := by
  have hentries := entries_filterLists
    (fun messageId stored => !isCancelled cancelSm messageId stored) storage.messages
  rw [records, records, cancelMessage, removeWhere, hentries, List.filter_map]
  rfl

theorem cancelMessage_any (calendar : Calendar) (storage : InMemoryMessageStorage)
    (cancelSm : Value) :
    (cancelMessage storage cancelSm).2 =
      (records calendar storage).any (memoryCancels cancelSm) := by
  rw [cancelMessage, any_entries, records, List.any_map]
  rfl

theorem isCancelled_row {row : Row} (hcolumns : asRow (rowRecord row) = row) (cancelSm : Value) :
    SqlStorage.isCancelled cancelSm row = sqlCancels cancelSm (rowRecord row) := by
  rw [sqlCancels, hcolumns]

theorem rowRecords_cancelMessage (hcolumns : ∀ row ∈ rows, asRow (rowRecord row) = row)
    (cancelSm : Value) : rowRecords (SqlStatements.cancelMessage rows cancelSm).1 =
      (rowRecords rows).filter fun record => !sqlCancels cancelSm record := by
  rw [(SqlStatements.cancelMessage_eq rows cancelSm).1, rowRecords, rowRecords, List.filter_map]
  congr 1
  apply List.filter_congr
  intro row hrow
  rw [isCancelled_row (hcolumns row hrow)]
  rfl

theorem cancelMessage_rows_any (hcolumns : ∀ row ∈ rows, asRow (rowRecord row) = row)
    (cancelSm : Value) : (SqlStatements.cancelMessage rows cancelSm).2 = .ok true ↔
      (rowRecords rows).any (sqlCancels cancelSm) = true := by
  rw [(SqlStatements.cancelMessage_eq rows cancelSm).2, rowRecords, List.any_map,
    List.any_eq_true, List.any_eq_true]
  apply exists_congr
  intro row
  constructor
  · rintro ⟨hrow, hcancelled⟩
    refine ⟨hrow, ?_⟩
    rwa [isCancelled_row (hcolumns row hrow)] at hcancelled
  · rintro ⟨hrow, hcancelled⟩
    refine ⟨hrow, ?_⟩
    rwa [isCancelled_row (hcolumns row hrow)]

variable (calendar storage rows cancelSm) in
/-- The same messages are left, and the server sees the same outcome. -/
def CancelsAlike : Prop :=
  (records calendar (cancelMessage storage cancelSm).1).Perm
      (rowRecords (SqlStatements.cancelMessage rows cancelSm).1) ∧
    ((cancelMessage storage cancelSm).2 = true ↔
      (SqlStatements.cancelMessage rows cancelSm).2 = .ok true)

theorem filter_perm_iff {α : Type} {p q : α → Bool} {as bs : List α} (hperm : as.Perm bs)
    (hle : ∀ a, q a = true → p a = true) :
    (as.filter fun a => !p a).Perm (bs.filter fun a => !q a) ↔
      ∀ a ∈ as, p a = true → q a = true := by
  have hsublist : (as.filter fun a => !p a).Sublist (as.filter fun a => !q a) := by
    apply List.monotone_filter_right
    intro a ha
    rw [Bool.not_eq_true'] at ha ⊢
    by_contra hq
    rw [Bool.not_eq_false] at hq
    rw [hle a hq] at ha
    cases ha
  constructor
  · intro hsame a ha hp
    have hlength := (hsame.trans (hperm.symm.filter _)).length_eq
    have heq := hsublist.eq_of_length hlength
    by_contra hq
    have hmem : a ∈ as.filter fun a => !q a :=
      List.mem_filter.mpr ⟨ha, by simpa using hq⟩
    rw [← heq] at hmem
    simp [hp] at hmem
  · intro hall
    have hfilter : (as.filter fun a => !p a) = as.filter fun a => !q a := by
      apply List.filter_congr
      intro a ha
      rw [Bool.eq_iff_iff.mpr ⟨hall a ha, hle a⟩]
    rw [hfilter]
    exact hperm.filter _

/-- The two stores cancel alike exactly when a criterion is given, unless there is nothing stored,
and every message that the in-memory store cancels can be compared in the table. -/
theorem cancels_alike_iff (hsame : SameMessages calendar storage rows) {pdu : SMPPMessage}
    (hdecode : toJson pdu = .ok cancelSm) :
    CancelsAlike calendar storage rows cancelSm ↔
      (HasCriterion cancelSm ∨ storage.messages = []) ∧
        ∀ entry ∈ entries storage.messages, isCancelled cancelSm entry.1 entry.2 = true →
          Comparable cancelSm entry.2.message := by
  have hoctets : ∀ field ∈ addressNumbers, (cancelSm.u64Field field).toNat < 256 :=
    fun field hfield => octet_of_toJson hdecode hfield
  have hle : ∀ record, sqlCancels cancelSm record = true → memoryCancels cancelSm record = true :=
    fun record h => ((sqlCancels_iff hoctets record).mp h).1
  have hall : (∀ record ∈ records calendar storage, memoryCancels cancelSm record = true →
        sqlCancels cancelSm record = true) ↔
      (HasCriterion cancelSm ∨ storage.messages = []) ∧
        ∀ entry ∈ entries storage.messages, isCancelled cancelSm entry.1 entry.2 = true →
          Comparable cancelSm entry.2.message := by
    constructor
    · intro h
      constructor
      · by_contra hnot
        rw [not_or] at hnot
        obtain ⟨entry, messages, hmessages⟩ := List.exists_cons_of_ne_nil hnot.2
        have hproper := hsame.proper
        rw [hmessages] at hproper
        obtain ⟨stored, list, hlist⟩ := List.exists_cons_of_ne_nil hproper.tail.2.1
        have hmem : recordOf calendar (entry.1, stored) ∈ records calendar storage := by
          rw [records, hmessages, entries_cons, hlist]
          exact List.mem_cons_self
        have hsql := h _ hmem (memoryCancels_of_not_hasCriterion hnot.1 _)
        exact hnot.1 ((sqlCancels_iff hoctets _).mp hsql).2.1
      · intro entry hentry hcancelled
        exact ((sqlCancels_iff hoctets _).mp
          (h (recordOf calendar entry) (List.mem_map_of_mem hentry) hcancelled)).2.2
    · rintro ⟨hcriterion, hcomparable⟩ record hrecord hcancelled
      obtain ⟨entry, hentry, rfl⟩ := List.mem_map.mp hrecord
      refine (sqlCancels_iff hoctets _).mpr ⟨hcancelled, ?_, hcomparable entry hentry hcancelled⟩
      refine hcriterion.resolve_right fun hnone => ?_
      rw [hnone] at hentry
      cases hentry
  rw [← hall, CancelsAlike, records_cancelMessage, cancelMessage_any calendar,
    rowRecords_cancelMessage hsame.columns, cancelMessage_rows_any hsame.columns,
    filter_perm_iff hsame.same.symm hle]
  constructor
  · exact fun h => h.1
  · intro h
    refine ⟨h, ?_⟩
    rw [hsame.same.any_eq, List.any_eq_true, List.any_eq_true]
    apply exists_congr
    intro record
    constructor
    · rintro ⟨hrecord, hcancelled⟩
      exact ⟨hrecord, h record hrecord hcancelled⟩
    · rintro ⟨hrecord, hcancelled⟩
      exact ⟨hrecord, hle record hcancelled⟩

/-- A cancel_sm with this message id and nothing else. -/
def cancelPdu (messageId : Bytes) : SMPPMessage :=
  [0, 0, 0, 0, 0, 0, 0, 8, 0, 0, 0, 0, 0, 0, 0, 1, 0] ++ messageId ++ [0, 0, 0, 0, 0, 0, 0]

/-- The cancel_sm as it is decoded. -/
def cancelSmWith (messageId : String) : Value :=
  .object [("command_id", .string "0x00000008"), ("command_name", .string "CancelSm"),
    ("command_status", .ofNat 0), ("dest_addr_npi", .ofNat 0), ("dest_addr_ton", .ofNat 0),
    ("destination_addr", .string ""), ("message_id", .string messageId),
    ("sequence_number", .ofNat 1), ("service_type", .string ""), ("source_addr", .string ""),
    ("source_addr_npi", .ofNat 0), ("source_addr_ton", .ofNat 0)]

theorem cancels_alike_messageId :
    CancelsAlike relativeCalendar oneMessage [asRow storedRecord] (cancelSmWith "1") := by
  have hdecode : toJson (cancelPdu [0x31]) = .ok (cancelSmWith "1") := rfl
  apply (cancels_alike_iff sameMessages_one hdecode).mpr
  refine ⟨.inl (.inl ⟨"message_id", by simp [cancelTexts], by decide +kernel⟩), ?_⟩
  simp only [Comparable]
  decide +kernel

/-- A cancel_sm without any criterion empties the in-memory store and is refused by the SQL
store. -/
theorem not_cancels_alike_empty :
    ¬ ∀ (calendar : Calendar) (storage : InMemoryMessageStorage) (rows : List Row)
      (pdu : SMPPMessage) (cancelSm : Value), SameMessages calendar storage rows →
        toJson pdu = .ok cancelSm → CancelsAlike calendar storage rows cancelSm := by
  intro h
  have halike := h relativeCalendar oneMessage [asRow storedRecord] (cancelPdu []) (cancelSmWith "")
    sameMessages_one rfl
  have hmemory : (cancelMessage oneMessage (cancelSmWith "")).2 = true := by decide +kernel
  have hsql : (SqlStatements.cancelMessage [asRow storedRecord] (cancelSmWith "")).2 ≠
      .ok true := by decide +kernel
  exact hsql (halike.2.mp hmemory)

end Cancel

end SmppHerald.CancelAgreement
