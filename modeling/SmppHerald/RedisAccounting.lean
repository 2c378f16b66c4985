import SmppHerald.Library.Ledger
import SmppHerald.RedisAgreement
import SmppHerald.RedisDelivery

namespace SmppHerald.RedisAccounting

open SmppHerald.InMemoryStorage (SaveClock)
open SmppHerald.Io
open SmppHerald.Json
open SmppHerald.Ledger
open SmppHerald.RedisDelivery
open SmppHerald.RedisStorage
open SmppHerald.Time
open SmppHerald.TransitionSystem

section Record

/-- How an entry left the store, with the time that it was compared with. -/
inductive Fate
  | delivered (asked : Instant)
  | overdue (clock : Instant)
  | cleaned (asked : Instant)
  | cancelled (cancelSm : Value)

/-- A state with its history: when the loop last asked for entries, what was saved, which entries
the handler took, and what left the store. -/
structure RedisRecord where
  state : RedisState
  asked : Instant
  accepted : List (Nat × EntryHash)
  delivered : List Nat
  settled : List ((Nat × EntryHash) × Fate)

/-- The entries in the order of their ids. -/
def stored (storage : RedisMessageStorage) : List (Nat × EntryHash) :=
  (List.range (storage.counter + 1)).filterMap fun entryId =>
    (storage.entry entryId).map fun hash => (entryId, hash)

/-- The entries of the first store that the second one has not. -/
def lost (storage storage' : RedisMessageStorage) : List (Nat × EntryHash) :=
  (stored storage).filter fun item => (storage'.entry item.1).isNone

/-- The entries of the second store that the first one has not. -/
def acceptedBy (storage storage' : RedisMessageStorage) : List (Nat × EntryHash) :=
  (stored storage').filter fun item => (storage.entry item.1).isNone

def askedBy (asked : Instant) : RedisEvent → Instant
  | .cleanTick now => now
  | .deliveryTick now => now
  | _ => asked

def deliveredBy (s : RedisState) (event : RedisEvent) : List Nat :=
  match event, s.phase with
  | .handled (.ok ()), .handling value _ => [value.1]
  | _, _ => []

/-- What the entries meet with that leave the store at the event. -/
def fateOf (s : RedisState) (asked : Instant) (event : RedisEvent) : Fate :=
  match event, s.phase with
  | .cancel cancelSm, _ => .cancelled cancelSm
  | .collect elapsed, .collecting now _ _ => .overdue (now + elapsed)
  | .next, _ => .cleaned asked
  | _, _ => .delivered asked

variable (calendar : Calendar) (defaultValidityPeriod : UInt32)
  (parseRfc3339 : String → Option Instant)

def RedisRecord.step (r : RedisRecord) (event : RedisEvent) : Option RedisRecord := do
  let state ← r.state.step calendar defaultValidityPeriod parseRfc3339 event
  return {
    state
    asked := askedBy r.asked event
    accepted := r.accepted ++ acceptedBy r.state.storage state.storage
    delivered := r.delivered ++ deliveredBy r.state event
    settled := r.settled ++ (lost r.state.storage state.storage).map fun item =>
      (item, fateOf r.state r.asked event) }

def recordedRedis (start : Instant) : System RedisRecord RedisEvent where
  initial := ⟨(redisSystem calendar defaultValidityPeriod parseRfc3339).initial, start, [], [], []⟩
  step := RedisRecord.step calendar defaultValidityPeriod parseRfc3339

/-- The score of the entry in the schedule. -/
def ScheduledAt (score : Int) (hash : EntryHash) : Prop :=
  (hash.scheduleDeliveryTime = "" ∧ score = 0) ∨
    ∃ time, hash.scheduleDeliveryTime = calendar.toRfc3339 time ∧ score = timestampMillis time

/-- The score of the entry among those that expire. -/
def ExpiresAt (score : Int) (hash : EntryHash) : Prop :=
  ∃ time, hash.validityPeriod = calendar.toRfc3339 time ∧ score = timestampMillis time

/-- The delivery time, if the message has one, has come. -/
def Due (now : Instant) (hash : EntryHash) : Prop :=
  ∃ score ≤ timestampMillis now, ScheduledAt calendar score hash

/-- The validity period has come to its end. -/
def Over (now : Instant) (hash : EntryHash) : Prop :=
  ∃ score ≤ timestampMillis now, ExpiresAt calendar score hash

/-- What is true of an entry that met with this. -/
def Suits (delivered : List Nat) (item : Nat × EntryHash) : Fate → Prop
  | .delivered asked => item.1 ∈ delivered ∧ Due calendar asked item.2
  | .overdue clock =>
      (parseRfc3339 item.2.validityPeriod).any (fun time => decide (time < clock)) = true
  | .cleaned asked => Over calendar asked item.2
  | .cancelled cancelSm =>
      item.2.messageId = cancelSm.strField "message_id" ∧ item.2.messageId ≠ ""

/-- The handler has been given the message of an entry that was due, and has not taken it before. -/
def Handed (r : RedisRecord) (value : Nat × Value) : Prop :=
  value.1 ∉ r.delivered ∧
    ∃ hash, (value.1, hash) ∈ r.accepted ∧ hash.message = value.2 ∧ Due calendar r.asked hash

end Record

section Stored

variable {storage storage' : RedisMessageStorage}

theorem mem_stored (hcounted : ∀ id hash, storage.entry id = some hash → id ≤ storage.counter)
    {item : Nat × EntryHash} : item ∈ stored storage ↔ storage.entry item.1 = some item.2 := by
  simp only [stored, List.mem_filterMap, List.mem_range, Option.map_eq_some_iff]
  constructor
  · rintro ⟨id, -, hash, hentry, rfl⟩
    exact hentry
  · intro hentry
    have hle := hcounted _ _ hentry
    exact ⟨item.1, by omega, item.2, hentry, rfl⟩

/-- Entries go, with what the sets say about them, and nothing else happens. -/
structure Shrinks (storage storage' : RedisMessageStorage) : Prop where
  counter : storage'.counter = storage.counter
  entry : ∀ id, storage'.entry id = storage.entry id ∨ storage'.entry id = none
  msgid : ∀ messageId, storage'.msgid messageId ⊆ storage.msgid messageId
  schedule : storage'.schedule.Sublist storage.schedule
  expiry : storage'.expiry ⊆ storage.expiry

theorem Shrinks.refl (storage : RedisMessageStorage) : Shrinks storage storage :=
  ⟨rfl, fun _ => .inl rfl, fun _ => List.Subset.refl _, .refl _, List.Subset.refl _⟩

theorem Shrinks.trans {storage'' : RedisMessageStorage} (h : Shrinks storage storage')
    (h' : Shrinks storage' storage'') : Shrinks storage storage'' := by
  refine ⟨h'.counter.trans h.counter, fun id => ?_, ?_, h'.schedule.trans h.schedule, ?_⟩
  · rcases h'.entry id with hsame | hgone
    · rw [hsame]
      exact h.entry id
    · exact .inr hgone
  · exact fun messageId => List.Subset.trans (h'.msgid messageId) (h.msgid messageId)
  · exact List.Subset.trans h'.expiry h.expiry

theorem Shrinks.entry_of (h : Shrinks storage storage') {id : Nat} {hash : EntryHash}
    (hentry : storage'.entry id = some hash) : storage.entry id = some hash := by
  rcases h.entry id with hsame | hgone
  · rwa [← hsame]
  · rw [hgone] at hentry
    cases hentry

theorem Shrinks.stored (h : Shrinks storage storage') :
    stored storage' = (stored storage).filter fun item => (storage'.entry item.1).isSome := by
  rw [RedisAccounting.stored, RedisAccounting.stored, h.counter, List.filter_filterMap]
  apply List.filterMap_congr
  intro id _
  rcases h.entry id with hsame | hgone
  · cases hentry : storage.entry id with
    | none => simp [hsame, hentry]
    | some hash => simp [hsame, hentry, Option.filter]
  · cases hentry : storage.entry id with
    | none => simp [hgone]
    | some hash => simp [hgone, Option.filter]

theorem Shrinks.perm (h : Shrinks storage storage') :
    (RedisAccounting.stored storage).Perm
      (lost storage storage' ++ RedisAccounting.stored storage') := by
  rw [h.stored, lost]
  apply (List.filter_append_perm (fun item => (storage'.entry item.1).isNone) _).symm.trans
  apply List.Perm.append_left
  apply List.Perm.of_eq
  apply List.filter_congr
  intro item _
  cases storage'.entry item.1 <;> rfl

theorem Shrinks.acceptedBy (h : Shrinks storage storage') : acceptedBy storage storage' = [] := by
  rw [RedisAccounting.acceptedBy, List.filter_eq_nil_iff, h.stored]
  intro item hmem hnone
  have hsome : (storage'.entry item.1).isSome = true := (List.mem_filter.mp hmem).2
  rcases h.entry item.1 with hsame | hgone
  · rw [hsame] at hsome
    cases hentry : storage.entry item.1 <;> simp [hentry] at hsome hnone
  · simp [hgone] at hsome

theorem lost_self (storage : RedisMessageStorage)
    (hcounted : ∀ id hash, storage.entry id = some hash → id ≤ storage.counter) :
    lost storage storage = [] := by
  rw [lost, List.filter_eq_nil_iff]
  intro item hmem
  simp [(mem_stored hcounted).mp hmem]

theorem mem_lost (hcounted : ∀ id hash, storage.entry id = some hash → id ≤ storage.counter)
    {item : Nat × EntryHash} : item ∈ lost storage storage' ↔
      storage.entry item.1 = some item.2 ∧ storage'.entry item.1 = none := by
  rw [lost, List.mem_filter, mem_stored hcounted, Option.isNone_iff_eq_none]

theorem deleteEntry_entry (storage : RedisMessageStorage) (entryId id : Nat) :
    (deleteEntry storage entryId).1.entry id = if id = entryId then none else storage.entry id := by
  cases hentry : storage.entry entryId with
  | none =>
      simp only [deleteEntry, hentry]
      split
      · rename_i heq
        exact heq ▸ hentry
      · rfl
  | some hash =>
      simp only [deleteEntry, hentry]
      rfl

theorem shrinks_deleteEntry (storage : RedisMessageStorage) (entryId : Nat) :
    Shrinks storage (deleteEntry storage entryId).1 := by
  have hentries : ∀ id, (deleteEntry storage entryId).1.entry id = storage.entry id ∨
      (deleteEntry storage entryId).1.entry id = none := by
    intro id
    rw [deleteEntry_entry]
    split
    · exact .inr rfl
    · exact .inl rfl
  cases hentry : storage.entry entryId with
  | none =>
      simp only [deleteEntry, hentry]
      exact .refl storage
  | some hash =>
      simp only [deleteEntry, hentry] at hentries ⊢
      refine ⟨rfl, hentries, fun messageId => ?_, List.filter_sublist, List.filter_subset_self _⟩
      simp only [setAt]
      split
      · rename_i hsame
        rw [hsame]
        exact List.filter_subset_self _
      · exact List.Subset.refl _

theorem shrinks_deleteEntries (storage : RedisMessageStorage) (entryIds : List Nat) :
    Shrinks storage (deleteEntries storage entryIds).1 := by
  induction entryIds generalizing storage with
  | nil => exact .refl storage
  | cons entryId entryIds ih => exact (shrinks_deleteEntry storage entryId).trans (ih _)

theorem deleteEntries_entry {entryIds : List Nat} {id : Nat} (hid : id ∉ entryIds) :
    (deleteEntries storage entryIds).1.entry id = storage.entry id := by
  induction entryIds generalizing storage with
  | nil => rfl
  | cons entryId entryIds ih =>
      rw [List.mem_cons, not_or] at hid
      exact (ih hid.2).trans ((deleteEntry_entry storage entryId id).trans (if_neg hid.1))

theorem replaceMessage_eq (storage : RedisMessageStorage) (replaceSm : Value) :
    (replaceMessage storage replaceSm).1 = storage := by
  cases hid : decide (replaceSm.strField "message_id" = "") with
  | true => simp only [replaceMessage, if_pos (of_decide_eq_true hid)]
  | false => rw [RedisAgreement.replaceMessage_eq storage (of_decide_eq_false hid)]

end Stored

section Kept

variable {calendar : Calendar} {defaultValidityPeriod : UInt32}
  {parseRfc3339 : String → Option Instant} {storage storage' : RedisMessageStorage}

/-- The id was given to an entry that is gone or is like this. -/
def Known (storage : RedisMessageStorage) (id : Nat) (P : EntryHash → Prop) : Prop :=
  id ≤ storage.counter ∧ ∀ hash, storage.entry id = some hash → P hash

/-- What the sets of the store say about its entries. -/
structure Kept (calendar : Calendar) (storage : RedisMessageStorage) : Prop where
  counted : ∀ id hash, storage.entry id = some hash → id ≤ storage.counter
  named : ∀ messageId, ∀ id ∈ storage.msgid messageId,
    Known storage id fun hash => hash.messageId = messageId
  scheduled : ∀ member ∈ storage.schedule, Known storage member.1 (ScheduledAt calendar member.2)
  scheduledOnce : (storage.schedule.map Prod.fst).Nodup
  expiring : ∀ member ∈ storage.expiry, Known storage member.1 (ExpiresAt calendar member.2)

/-- No entry changes or comes back. -/
structure Later (storage storage' : RedisMessageStorage) : Prop where
  counter : storage.counter ≤ storage'.counter
  entry : ∀ id ≤ storage.counter, storage'.entry id = storage.entry id ∨ storage'.entry id = none

theorem Known.later {id : Nat} {P : EntryHash → Prop} (h : Known storage id P)
    (hlater : Later storage storage') : Known storage' id P := by
  refine ⟨h.1.trans hlater.counter, fun hash hentry => ?_⟩
  rcases hlater.entry id h.1 with hsame | hgone
  · exact h.2 hash (hsame ▸ hentry)
  · rw [hgone] at hentry
    cases hentry

theorem Known.mono {id : Nat} {P Q : EntryHash → Prop} (h : Known storage id P)
    (hmono : ∀ hash, P hash → Q hash) : Known storage id Q :=
  ⟨h.1, fun hash hentry => hmono hash (h.2 hash hentry)⟩

theorem Shrinks.later (h : Shrinks storage storage') : Later storage storage' :=
  ⟨h.counter.ge, fun id _ => h.entry id⟩

theorem Kept.shrinks (hkept : Kept calendar storage) (h : Shrinks storage storage') :
    Kept calendar storage' where
  counted id hash hentry := by
    rw [h.counter]
    exact hkept.counted id hash (h.entry_of hentry)
  named messageId id hmem := (hkept.named messageId id (h.msgid messageId hmem)).later h.later
  scheduled member hmem := (hkept.scheduled member (h.schedule.subset hmem)).later h.later
  scheduledOnce := hkept.scheduledOnce.sublist (h.schedule.map Prod.fst)
  expiring member hmem := (hkept.expiring member (h.expiry hmem)).later h.later

/-- One entry has been added under the next id. -/
structure Saved (calendar : Calendar) (messageId : String) (hash : EntryHash)
    (storage storage' : RedisMessageStorage) : Prop where
  name : hash.messageId = messageId
  counter : storage'.counter = storage.counter + 1
  entry : storage'.entry = setAt (storage.counter + 1) (some hash) storage.entry
  msgid : storage'.msgid =
    setAt messageId (sadd (storage.counter + 1) (storage.msgid messageId)) storage.msgid
  schedule : ∃ score, ScheduledAt calendar score hash ∧
    storage'.schedule = zadd (storage.counter + 1) score storage.schedule
  expiry : storage'.expiry = storage.expiry ∨ ∃ score, ExpiresAt calendar score hash ∧
    storage'.expiry = zadd (storage.counter + 1) score storage.expiry

theorem saved_of_save {clock : SaveClock} {now : Instant} {messageId : String} {message : Value}
    (h : save calendar defaultValidityPeriod clock now storage messageId message = .ok storage') :
    ∃ hash, Saved calendar messageId hash storage storage' := by
  obtain ⟨times, -, hstore⟩ := Outcome.bind_eq_ok_iff.mp h
  obtain rfl := Outcome.ok.inj hstore
  refine ⟨_, rfl, rfl, rfl, rfl, ⟨_, ?_, rfl⟩, ?_⟩
  · cases times.1 with
    | none => exact .inl ⟨rfl, rfl⟩
    | some time => exact .inr ⟨time, rfl, rfl⟩
  · cases times.2 with
    | none => exact .inl rfl
    | some time => exact .inr ⟨_, ⟨time, rfl, rfl⟩, rfl⟩

variable {messageId : String} {hash : EntryHash}

theorem Saved.entry_old (h : Saved calendar messageId hash storage storage') {id : Nat}
    (hid : id ≤ storage.counter) : storage'.entry id = storage.entry id := by
  rw [h.entry, setAt_of_ne (by omega)]

theorem Saved.entry_new (h : Saved calendar messageId hash storage storage') :
    storage'.entry (storage.counter + 1) = some hash := by
  rw [h.entry, setAt_self]

theorem Saved.later (h : Saved calendar messageId hash storage storage') : Later storage storage' :=
  ⟨by rw [h.counter]; omega, fun _ hid => .inl (h.entry_old hid)⟩

theorem Saved.known (h : Saved calendar messageId hash storage storage') {P : EntryHash → Prop}
    (hnew : P hash) : Known storage' (storage.counter + 1) P := by
  refine ⟨h.counter.ge, fun hash' hentry => ?_⟩
  rw [h.entry_new] at hentry
  exact Option.some.inj hentry ▸ hnew

theorem mem_zadd_pair {id : Nat} {score : Int} {members : List (Nat × Int)} {member : Nat × Int}
    (h : member ∈ zadd id score members) : member ∈ members ∨ member = (id, score) := by
  rcases List.mem_append.mp h with hold | hnew
  · exact .inl (List.mem_filter.mp hold).1
  · exact .inr (List.mem_singleton.mp hnew)

theorem nodup_zadd {id : Nat} {score : Int} {members : List (Nat × Int)}
    (h : (members.map Prod.fst).Nodup) : ((zadd id score members).map Prod.fst).Nodup := by
  rw [zadd, List.map_append]
  refine List.nodup_append.mpr ⟨h.sublist (List.filter_sublist.map _), by simp, ?_⟩
  rintro other hmem last hlast rfl
  obtain ⟨member, hmember, rfl⟩ := List.mem_map.mp hmem
  have hne : member.1 ≠ id := by simpa using (List.mem_filter.mp hmember).2
  exact hne (List.mem_singleton.mp hlast)

theorem Kept.saved (hkept : Kept calendar storage)
    (h : Saved calendar messageId hash storage storage') : Kept calendar storage' where
  counted id hash' hentry := by
    rw [h.counter]
    by_contra hlarge
    rw [h.entry, setAt_of_ne (by omega)] at hentry
    have := hkept.counted id hash' hentry
    omega
  named messageId' id hmem := by
    rw [h.msgid] at hmem
    simp only [setAt] at hmem
    split at hmem
    · rename_i hsame
      rcases mem_sadd.mp hmem with rfl | hold
      · exact h.known (h.name.trans hsame.symm)
      · exact hsame ▸ (hkept.named messageId id hold).later h.later
    · exact (hkept.named messageId' id hmem).later h.later
  scheduled member hmem := by
    obtain ⟨score, hscore, hschedule⟩ := h.schedule
    rw [hschedule] at hmem
    rcases mem_zadd_pair hmem with hold | rfl
    · exact (hkept.scheduled member hold).later h.later
    · exact h.known hscore
  scheduledOnce := by
    obtain ⟨score, -, hschedule⟩ := h.schedule
    rw [hschedule]
    exact nodup_zadd hkept.scheduledOnce
  expiring member hmem := by
    rcases h.expiry with hsame | ⟨score, hscore, hexpiry⟩
    · exact (hkept.expiring member (hsame ▸ hmem)).later h.later
    · rw [hexpiry] at hmem
      rcases mem_zadd_pair hmem with hold | rfl
      · exact (hkept.expiring member hold).later h.later
      · exact h.known hscore

theorem Saved.stored (h : Saved calendar messageId hash storage storage') :
    stored storage' = stored storage ++ [(storage.counter + 1, hash)] := by
  rw [RedisAccounting.stored, h.counter, List.range_succ, List.filterMap_append]
  apply congrArg₂
  · apply List.filterMap_congr
    intro id hid
    rw [h.entry_old (by rw [List.mem_range] at hid; omega)]
  · simp [h.entry_new]

theorem Saved.lost (h : Saved calendar messageId hash storage storage')
    (hkept : Kept calendar storage) : lost storage storage' = [] := by
  rw [RedisAccounting.lost, List.filter_eq_nil_iff]
  intro item hmem
  have hentry := (mem_stored hkept.counted).mp hmem
  simp [h.entry_old (hkept.counted _ _ hentry), hentry]

theorem Saved.acceptedBy (h : Saved calendar messageId hash storage storage')
    (hkept : Kept calendar storage) :
    acceptedBy storage storage' = [(storage.counter + 1, hash)] := by
  have hnew : storage.entry (storage.counter + 1) = none := by
    cases hentry : storage.entry (storage.counter + 1) with
    | none => rfl
    | some hash' =>
        have := hkept.counted _ _ hentry
        omega
  have hold := lost_self storage hkept.counted
  rw [RedisAccounting.lost] at hold
  rw [RedisAccounting.acceptedBy, h.stored, List.filter_append, hold]
  simp [hnew]

end Kept

section Invariant

variable {calendar : Calendar} {defaultValidityPeriod : UInt32}
  {parseRfc3339 : String → Option Instant} {r r' : RedisRecord} {s s' : RedisState}
  {event : RedisEvent}

/-- The messages that the loop is still going to hand over. -/
def Pending (calendar : Calendar) (r : RedisRecord) (values : List (Nat × Value)) : Prop :=
  (values.map Prod.fst).Nodup ∧ ∀ value ∈ values, Handed calendar r value

/-- What the loop knows of the entries that it works on. -/
def PhaseRight (calendar : Calendar) (r : RedisRecord) : Prop :=
  match r.state.phase with
  | .waiting => True
  | .cleaning expiredIds =>
      ∀ id ∈ expiredIds, Known r.state.storage id (Over calendar r.asked)
  | .collecting now entryIds messages =>
      now = r.asked ∧ (messages.map Prod.fst ++ entryIds).Nodup ∧
        (∀ id ∈ entryIds, Known r.state.storage id (Due calendar now)) ∧
        ∀ value ∈ messages, Handed calendar r value
  | .delivering values => Pending calendar r values
  | .handling value values => Pending calendar r (value :: values)
  | .deleting entryId values =>
      entryId ∈ r.delivered ∧ Known r.state.storage entryId (Due calendar r.asked) ∧
        Pending calendar r values
  | .panicked => True

/-- The entry that the loop is about to delete. -/
def deletingId : LoopPhase → Option Nat
  | .deleting entryId _ => some entryId
  | _ => none

/-- Entries are taken away, and each meets with its fate. -/
structure Removes (calendar : Calendar) (parseRfc3339 : String → Option Instant) (r : RedisRecord)
    (fate : Fate) (storage' : RedisMessageStorage) : Prop where
  shrinks : Shrinks r.state.storage storage'
  suits : ∀ item ∈ lost r.state.storage storage', Suits calendar parseRfc3339 r.delivered item fate

theorem removes_nothing (hkept : Kept calendar r.state.storage) (fate : Fate) :
    Removes calendar parseRfc3339 r fate r.state.storage := by
  refine ⟨.refl _, fun item hitem => ?_⟩
  rw [lost_self _ hkept.counted] at hitem
  cases hitem

theorem removes_entry (hkept : Kept calendar r.state.storage) {fate : Fate} {entryId : Nat}
    (hsuits : ∀ hash, r.state.storage.entry entryId = some hash →
      Suits calendar parseRfc3339 r.delivered (entryId, hash) fate) :
    Removes calendar parseRfc3339 r fate (deleteEntry r.state.storage entryId).1 := by
  refine ⟨shrinks_deleteEntry _ _, ?_⟩
  rintro ⟨id, hash⟩ hitem
  obtain ⟨hentry, hgone⟩ := (mem_lost hkept.counted).mp hitem
  rw [deleteEntry_entry] at hgone
  split at hgone
  · rename_i hid
    obtain rfl : id = entryId := hid
    exact hsuits hash hentry
  · rw [hentry] at hgone
    cases hgone

theorem removes_cancelled (hkept : Kept calendar r.state.storage) (cancelSm : Value) :
    Removes calendar parseRfc3339 r (.cancelled cancelSm)
      (cancelMessage r.state.storage cancelSm).1 := by
  simp only [cancelMessage]
  split
  · exact removes_nothing hkept _
  · rename_i hid
    refine ⟨shrinks_deleteEntries _ _, fun item hitem => ?_⟩
    obtain ⟨hentry, hgone⟩ := (mem_lost hkept.counted).mp hitem
    have hnamed : item.1 ∈ r.state.storage.msgid (cancelSm.strField "message_id") := by
      by_contra hnot
      rw [deleteEntries_entry hnot, hentry] at hgone
      cases hgone
    have hname : item.2.messageId = cancelSm.strField "message_id" :=
      (hkept.named _ _ hnamed).2 _ hentry
    exact ⟨hname, hname ▸ hid⟩

theorem removes_collected (hkept : Kept calendar r.state.storage) (clock : Instant)
    (entryId : Nat) : Removes calendar parseRfc3339 r (.overdue clock)
      (collectOne parseRfc3339 clock r.state.storage entryId).1 := by
  unfold collectOne
  cases hentry : r.state.storage.entry entryId with
  | none => exact removes_nothing hkept _
  | some hash =>
      simp only
      split
      · rename_i hexpired
        apply removes_entry hkept
        intro hash' hentry'
        obtain rfl := Option.some.inj (hentry.symm.trans hentry')
        exact hexpired
      · exact removes_nothing hkept _

/-- An event adds an entry, or takes entries away that meet with their fate. -/
theorem storage_step (hkept : Kept calendar r.state.storage) (hright : PhaseRight calendar r)
    (h : r.state.step calendar defaultValidityPeriod parseRfc3339 event = some s') :
    (∃ messageId hash, Saved calendar messageId hash r.state.storage s'.storage) ∨
      Removes calendar parseRfc3339 r (fateOf r.state r.asked event) s'.storage := by
  obtain ⟨⟨storage, phase⟩, asked, accepted, delivered, settled⟩ := r
  cases redisMoves_of_step h with
  | saved hsave => exact .inl ⟨_, saved_of_save hsave⟩
  | cancelled => exact .inr (removes_cancelled hkept _)
  | replaced =>
      right
      simp only [replaceMessage_eq]
      exact removes_nothing hkept _
  | expired => exact .inr (removes_entry hkept (hright _ (.head _)).2)
  | collected => exact .inr (removes_collected hkept _ _)
  | deleted =>
      obtain ⟨hdelivered, hdue, -⟩ := hright
      exact .inr (removes_entry hkept fun hash hentry => ⟨hdelivered, hdue.2 hash hentry⟩)
  | _ => exact .inr (removes_nothing hkept _)

theorem Suits.mono {delivered delivered' : List Nat} {item : Nat × EntryHash} {fate : Fate}
    (h : Suits calendar parseRfc3339 delivered item fate) (hmono : delivered ⊆ delivered') :
    Suits calendar parseRfc3339 delivered' item fate := by
  cases fate with
  | delivered asked => exact ⟨hmono h.1, h.2⟩
  | overdue clock => exact h
  | cleaned asked => exact h
  | cancelled cancelSm => exact h

/-- What was accepted is stored or settled, and its ids are those that the counter gave. -/
structure Balances (r : RedisRecord) : Prop where
  balanced : Balanced r.accepted (stored r.state.storage) (r.settled.map Prod.fst)
  once : (r.accepted.map Prod.fst).Nodup
  numbered : ∀ item ∈ r.accepted, item.1 ≤ r.state.storage.counter

/-- What is recorded of an event, whose new state is `s'`. -/
def RedisRecord.after (r : RedisRecord) (event : RedisEvent) (s' : RedisState) : RedisRecord where
  state := s'
  asked := askedBy r.asked event
  accepted := r.accepted ++ acceptedBy r.state.storage s'.storage
  delivered := r.delivered ++ deliveredBy r.state event
  settled := r.settled ++ (lost r.state.storage s'.storage).map fun item =>
    (item, fateOf r.state r.asked event)

theorem step_eq_after (h : r.step calendar defaultValidityPeriod parseRfc3339 event = some r') :
    r.state.step calendar defaultValidityPeriod parseRfc3339 event = some r'.state ∧
      r' = r.after event r'.state := by
  obtain ⟨s', hstep, hafter⟩ := Option.bind_eq_some_iff.mp h
  obtain rfl := Option.some.inj hafter
  exact ⟨hstep, rfl⟩

theorem stored_step (hkept : Kept calendar r.state.storage) (hright : PhaseRight calendar r)
    (hstep : r.state.step calendar defaultValidityPeriod parseRfc3339 event = some s') :
    (acceptedBy r.state.storage s'.storage ++ stored r.state.storage).Perm
      (lost r.state.storage s'.storage ++ stored s'.storage) := by
  rcases storage_step hkept hright hstep with ⟨messageId, hash, hsaved⟩ | hremoves
  · rw [hsaved.acceptedBy hkept, hsaved.lost hkept, hsaved.stored, List.nil_append]
    exact List.perm_append_comm
  · rw [hremoves.shrinks.acceptedBy, List.nil_append]
    exact hremoves.shrinks.perm

theorem accepted_step (hkept : Kept calendar r.state.storage) (hright : PhaseRight calendar r)
    (hstep : r.state.step calendar defaultValidityPeriod parseRfc3339 event = some s') :
    ∃ new : List (Nat × EntryHash), acceptedBy r.state.storage s'.storage = new ∧
      s'.storage.counter = r.state.storage.counter + new.length ∧
      new.map Prod.fst = List.range' (r.state.storage.counter + 1) new.length := by
  rcases storage_step hkept hright hstep with ⟨messageId, hash, hsaved⟩ | hremoves
  · exact ⟨_, hsaved.acceptedBy hkept, hsaved.counter, rfl⟩
  · exact ⟨[], hremoves.shrinks.acceptedBy, hremoves.shrinks.counter, rfl⟩

theorem Balances.after (h : Balances r) (hkept : Kept calendar r.state.storage)
    (hright : PhaseRight calendar r)
    (hstep : r.state.step calendar defaultValidityPeriod parseRfc3339 event = some s') :
    Balances (r.after event s') := by
  obtain ⟨new, hnew, hcounter, hids⟩ := accepted_step hkept hright hstep
  have haccepted : (r.after event s').accepted = r.accepted ++ new := by
    rw [RedisRecord.after, hnew]
  have hsettled : (r.after event s').settled.map Prod.fst =
      r.settled.map Prod.fst ++ lost r.state.storage s'.storage := by
    simp [RedisRecord.after, Function.comp_def]
  refine ⟨?_, ?_, ?_⟩
  · rw [haccepted, hsettled, ← hnew]
    exact h.balanced.move (stored_step hkept hright hstep)
  · rw [haccepted, List.map_append, hids]
    refine List.nodup_append.mpr ⟨h.once, List.nodup_range', ?_⟩
    rintro id hid _ hlast rfl
    obtain ⟨item, hitem, rfl⟩ := List.mem_map.mp hid
    have hle := h.numbered item hitem
    have hlarge := (List.mem_range'_1.mp hlast).1
    omega
  · rw [haccepted]
    intro item hitem
    show item.1 ≤ s'.storage.counter
    rw [hcounter]
    rcases List.mem_append.mp hitem with hold | hnew
    · have := h.numbered item hold
      omega
    · have hmem := List.mem_map_of_mem (f := Prod.fst) hnew
      rw [hids] at hmem
      have := (List.mem_range'_1.mp hmem).2
      omega

theorem Handed.later {value : Nat × Value} (h : Handed calendar r value)
    (hdelivered : value.1 ∉ r'.delivered) (haccepted : r.accepted ⊆ r'.accepted)
    (hasked : r'.asked = r.asked) : Handed calendar r' value := by
  obtain ⟨-, hash, hmem, hmessage, hdue⟩ := h
  exact ⟨hdelivered, hash, haccepted hmem, hmessage, hasked ▸ hdue⟩

theorem Pending.later {values : List (Nat × Value)} (h : Pending calendar r values)
    (hdelivered : r'.delivered = r.delivered) (haccepted : r.accepted ⊆ r'.accepted)
    (hasked : r'.asked = r.asked) : Pending calendar r' values :=
  ⟨h.1, fun value hvalue =>
    (h.2 value hvalue).later (hdelivered ▸ (h.2 value hvalue).1) haccepted hasked⟩

theorem PhaseRight.later (h : PhaseRight calendar r)
    (hstorage : Later r.state.storage r'.state.storage) (hphase : r'.state.phase = r.state.phase)
    (hdelivered : r'.delivered = r.delivered) (haccepted : r.accepted ⊆ r'.accepted)
    (hasked : r'.asked = r.asked) : PhaseRight calendar r' := by
  unfold PhaseRight at h ⊢
  rw [hphase]
  cases hwhere : r.state.phase with
  | waiting => trivial
  | cleaning expiredIds =>
      rw [hwhere] at h
      intro id hid
      rw [hasked]
      exact (h id hid).later hstorage
  | collecting now entryIds messages =>
      rw [hwhere] at h
      obtain ⟨hnow, hnodup, hdue, hhanded⟩ := h
      exact ⟨hasked ▸ hnow, hnodup, fun id hid => (hdue id hid).later hstorage,
        fun value hvalue => (hhanded value hvalue).later
          (hdelivered ▸ (hhanded value hvalue).1) haccepted hasked⟩
  | delivering values =>
      rw [hwhere] at h
      exact Pending.later h hdelivered haccepted hasked
  | handling value values =>
      rw [hwhere] at h
      exact Pending.later h hdelivered haccepted hasked
  | deleting entryId values =>
      rw [hwhere] at h
      obtain ⟨hmem, hdue, hpending⟩ := h
      exact ⟨hdelivered ▸ hmem, hasked ▸ hdue.later hstorage,
        hpending.later hdelivered haccepted hasked⟩
  | panicked => trivial

theorem mem_zrangebyscore {max : Int} {members : List (Nat × Int)} {id : Nat}
    (h : id ∈ zrangebyscore max members) : ∃ score ≤ max, (id, score) ∈ members := by
  obtain ⟨member, hmember, rfl⟩ := List.mem_map.mp h
  obtain ⟨hmem, hscore⟩ := List.mem_filter.mp (List.mem_mergeSort.mp hmember)
  exact ⟨member.2, of_decide_eq_true hscore, hmem⟩

theorem nodup_zrangebyscore {members : List (Nat × Int)} (h : (members.map Prod.fst).Nodup)
    (max : Int) : (zrangebyscore max members).Nodup := by
  refine (((List.mergeSort_perm _ _).map Prod.fst).nodup_iff).mpr ?_
  exact h.sublist (List.filter_sublist.map Prod.fst)

/-- The handler takes an entry once, and the entry is deleted then. -/
structure DeliversOnce (r : RedisRecord) : Prop where
  once : r.delivered.Nodup
  numbered : ∀ id ∈ r.delivered, id ≤ r.state.storage.counter
  gone : ∀ id ∈ r.delivered,
    r.state.storage.entry id = none ∨ deletingId r.state.phase = some id

theorem later_of_step (hkept : Kept calendar r.state.storage) (hright : PhaseRight calendar r)
    (hstep : r.state.step calendar defaultValidityPeriod parseRfc3339 event = some s') :
    Later r.state.storage s'.storage := by
  rcases storage_step hkept hright hstep with ⟨messageId, hash, hsaved⟩ | hremoves
  · exact hsaved.later
  · exact hremoves.shrinks.later

theorem Handed.id_le {value : Nat × Value} (h : Handed calendar r value) (hbalances : Balances r) :
    value.1 ≤ r.state.storage.counter := by
  obtain ⟨-, hash, hmem, -, -⟩ := h
  exact hbalances.numbered _ hmem

theorem Handed.known {value : Nat × Value} (h : Handed calendar r value) (hbalances : Balances r)
    (hkept : Kept calendar r.state.storage) :
    Known r.state.storage value.1 (Due calendar r.asked) := by
  refine ⟨h.id_le hbalances, fun hash' hentry => ?_⟩
  obtain ⟨-, hash, hmem, -, hdue⟩ := h
  have hmem' : (value.1, hash') ∈ r.accepted :=
    hbalances.balanced.mem_iff.mpr
      (List.mem_append.mpr (.inl ((mem_stored hkept.counted).mpr hentry)))
  have hsame := List.inj_on_of_nodup_map hbalances.once hmem hmem' rfl
  obtain rfl : hash = hash' := congrArg Prod.snd hsame
  exact hdue

theorem of_mem_found {clock : Instant} {storage : RedisMessageStorage} {entryId : Nat}
    {value : Nat × Value}
    (h : value ∈ found entryId (collectOne parseRfc3339 clock storage entryId).2) :
    ∃ hash, storage.entry entryId = some hash ∧ (entryId, hash.message) = value := by
  unfold collectOne at h
  cases hentry : storage.entry entryId with
  | none => simp [hentry, found] at h
  | some hash =>
      simp only [hentry] at h
      split at h
      · simp [found] at h
      · exact ⟨hash, rfl, (List.mem_singleton.mp h).symm⟩

theorem collected_sublist (messages : List (Nat × Value)) (entryId : Nat) (entryIds : List Nat)
    (hash : Option EntryHash) :
    ((messages ++ found entryId hash).map Prod.fst ++ entryIds).Sublist
      (messages.map Prod.fst ++ entryId :: entryIds) := by
  cases hash with
  | none => simp [found]
  | some hash => simp [found]

theorem phase_step (hkept : Kept calendar r.state.storage) (hbalances : Balances r)
    (honce : DeliversOnce r) (hright : PhaseRight calendar r)
    (h : r.state.step calendar defaultValidityPeriod parseRfc3339 event = some s') :
    PhaseRight calendar (r.after event s') := by
  have hlater := later_of_step hkept hright h
  have hkeeps : s'.phase = r.state.phase → deliveredBy r.state event = [] →
      askedBy r.asked event = r.asked → PhaseRight calendar (r.after event s') := by
    intro hphase hdelivered hasked
    refine hright.later hlater hphase ?_ (List.subset_append_left _ _) hasked
    rw [RedisRecord.after, hdelivered, List.append_nil]
  obtain ⟨⟨storage, phase⟩, asked, accepted, delivered, settled⟩ := r
  cases redisMoves_of_step h with
  | saved _ => exact hkeeps rfl rfl rfl
  | notSaved => exact hkeeps rfl rfl rfl
  | cancelled => exact hkeeps rfl rfl rfl
  | replaced => exact hkeeps rfl rfl rfl
  | cleaning =>
      intro id hid
      obtain ⟨score, hscore, hmem⟩ := mem_zrangebyscore hid
      exact (hkept.expiring _ hmem).mono fun hash hexpires => ⟨score, hscore, hexpires⟩
  | cleaned => trivial
  | expired => exact fun id hid => (hright id (.tail _ hid)).later hlater
  | collecting =>
      refine ⟨rfl, nodup_zrangebyscore hkept.scheduledOnce _, fun id hid => ?_, by simp⟩
      obtain ⟨score, hscore, hmem⟩ := mem_zrangebyscore hid
      exact (hkept.scheduled _ hmem).mono fun hash hexpires => ⟨score, hscore, hexpires⟩
  | @collected elapsed now _ entryId entryIds messages =>
      obtain ⟨rfl, hnodup, hdue, hhanded⟩ := hright
      have hsame : delivered ++ [] = delivered := List.append_nil _
      have hlast := hdue entryId (.head _)
      have hothers : ∀ id ∈ entryIds, Known storage id (Due calendar now) :=
        fun id hid => hdue id (.tail _ hid)
      refine ⟨rfl, ?_, fun id hid => (hothers id hid).later hlater, ?_⟩
      · exact hnodup.sublist (collected_sublist _ _ _ _)
      · intro value hvalue
        rcases List.mem_append.mp hvalue with hold | hnew
        · have hbefore := hhanded value hold
          refine hbefore.later ?_ (List.subset_append_left _ _) rfl
          show value.1 ∉ delivered ++ []
          rw [hsame]
          exact hbefore.1
        · obtain ⟨hash, hentry, rfl⟩ := of_mem_found hnew
          refine ⟨?_, hash, ?_, rfl, hlast.2 hash hentry⟩
          · show entryId ∉ delivered ++ []
            rw [hsame]
            intro hmem
            rcases honce.gone entryId hmem with hgone | hdeleting
            · rw [hentry] at hgone
              cases hgone
            · cases hdeleting
          · apply List.mem_append_left
            apply hbalances.balanced.mem_iff.mpr
            exact List.mem_append_left _ ((mem_stored hkept.counted).mpr hentry)
  | delivering =>
      obtain ⟨-, hnodup, -, hhanded⟩ := hright
      rw [List.append_nil] at hnodup
      exact Pending.later ⟨hnodup, hhanded⟩ (List.append_nil _) (List.subset_append_left _ _) rfl
  | ended => trivial
  | taken => exact Pending.later hright (List.append_nil _) (List.subset_append_left _ _) rfl
  | @succeeded _ value values =>
      obtain ⟨hnodup, hhanded⟩ := hright
      obtain ⟨hfresh, hnodup⟩ := List.nodup_cons.mp hnodup
      refine ⟨List.mem_append_right _ (.head _), ?_, hnodup, fun other hother => ?_⟩
      · exact ((hhanded value (.head _)).known hbalances hkept).later hlater
      · have hbefore := hhanded other (.tail _ hother)
        refine hbefore.later ?_ (List.subset_append_left _ _) rfl
        rw [RedisRecord.after, List.mem_append, not_or]
        refine ⟨hbefore.1, fun hsame => hfresh ?_⟩
        rw [← List.mem_singleton.mp hsame]
        exact List.mem_map_of_mem hother
  | failed =>
      obtain ⟨hnodup, hhanded⟩ := hright
      exact Pending.later ⟨(List.nodup_cons.mp hnodup).2,
        fun other hother => hhanded other (.tail _ hother)⟩ (List.append_nil _)
          (List.subset_append_left _ _) rfl
  | panicked => trivial
  | deleted =>
      obtain ⟨-, -, hpending⟩ := hright
      exact hpending.later (List.append_nil _) (List.subset_append_left _ _) rfl

/-- The loop stays at an entry that it is about to delete until the entry is gone. -/
theorem deleting_step {id : Nat} (hdeleting : deletingId s.phase = some id)
    (h : s.step calendar defaultValidityPeriod parseRfc3339 event = some s') :
    deletingId s'.phase = some id ∨ s'.storage.entry id = none := by
  cases redisMoves_of_step h with
  | saved _ => exact .inl hdeleting
  | notSaved => exact .inl hdeleting
  | cancelled => exact .inl hdeleting
  | replaced => exact .inl hdeleting
  | @deleted storage entryId values =>
      obtain rfl := Option.some.inj hdeleting
      exact .inr ((deleteEntry_entry storage entryId entryId).trans (if_pos rfl))
  | _ => cases hdeleting

theorem delivered_step (h : s.step calendar defaultValidityPeriod parseRfc3339 event = some s') :
    deliveredBy s event = [] ∨ ∃ value values, s.phase = .handling value values ∧
      deliveredBy s event = [value.1] ∧ deletingId s'.phase = some value.1 := by
  cases redisMoves_of_step h with
  | @succeeded storage value values => exact .inr ⟨value, values, rfl, rfl, rfl⟩
  | _ => exact .inl rfl

theorem once_step (hkept : Kept calendar r.state.storage) (hbalances : Balances r)
    (honce : DeliversOnce r) (hright : PhaseRight calendar r)
    (h : r.state.step calendar defaultValidityPeriod parseRfc3339 event = some s') :
    DeliversOnce (r.after event s') := by
  have hlater := later_of_step hkept hright h
  have hstays : ∀ id ∈ r.delivered, s'.storage.entry id = none ∨ deletingId s'.phase = some id := by
    intro id hid
    rcases honce.gone id hid with hgone | hdeleting
    · rcases hlater.entry id (honce.numbered id hid) with hsame | hnone
      · exact .inl (hsame.trans hgone)
      · exact .inl hnone
    · exact (deleting_step hdeleting h).symm
  have hle : ∀ id ∈ r.delivered, id ≤ s'.storage.counter :=
    fun id hid => (honce.numbered id hid).trans hlater.counter
  rcases delivered_step h with hnone | ⟨value, values, hphase, hone, hdeleting⟩
  · have hsame : (r.after event s').delivered = r.delivered := by
      rw [RedisRecord.after, hnone, List.append_nil]
    exact ⟨hsame ▸ honce.once, hsame ▸ hle, hsame ▸ hstays⟩
  · have hhanded : Handed calendar r value := by
      unfold PhaseRight at hright
      rw [hphase] at hright
      exact hright.2 value (.head _)
    have hmore : (r.after event s').delivered = r.delivered ++ [value.1] := by
      rw [RedisRecord.after, hone]
    refine ⟨?_, ?_, ?_⟩
    · rw [hmore]
      refine List.nodup_append.mpr ⟨honce.once, List.nodup_singleton _, ?_⟩
      rintro id hid _ hlast rfl
      exact hhanded.1 (List.mem_singleton.mp hlast ▸ hid)
    · rw [hmore]
      intro id hid
      rcases List.mem_append.mp hid with hold | hnew
      · exact hle id hold
      · rw [List.mem_singleton.mp hnew]
        exact (hhanded.id_le hbalances).trans hlater.counter
    · rw [hmore]
      intro id hid
      rcases List.mem_append.mp hid with hold | hnew
      · exact hstays id hold
      · rw [List.mem_singleton.mp hnew]
        exact .inr hdeleting

/-- What is true in every state of a run. -/
structure Right (calendar : Calendar) (parseRfc3339 : String → Option Instant) (r : RedisRecord) :
    Prop where
  kept : Kept calendar r.state.storage
  balances : Balances r
  once : DeliversOnce r
  phase : PhaseRight calendar r
  suits : ∀ entry ∈ r.settled, Suits calendar parseRfc3339 r.delivered entry.1 entry.2

theorem right_step (hright : Right calendar parseRfc3339 r)
    (h : r.step calendar defaultValidityPeriod parseRfc3339 event = some r') :
    Right calendar parseRfc3339 r' := by
  obtain ⟨hkept, hbalances, honce, hphase, hsuits⟩ := hright
  obtain ⟨hstep, hafter⟩ := step_eq_after h
  rw [hafter]
  have hdelivered : r.delivered ⊆ (r.after event r'.state).delivered :=
    List.subset_append_left _ _
  refine ⟨?_, hbalances.after hkept hphase hstep, once_step hkept hbalances honce hphase hstep,
    phase_step hkept hbalances honce hphase hstep, fun entry hentry => ?_⟩
  · rcases storage_step hkept hphase hstep with ⟨messageId, hash, hsaved⟩ | hremoves
    · exact hkept.saved hsaved
    · exact hkept.shrinks hremoves.shrinks
  · rcases List.mem_append.mp hentry with hold | hnew
    · exact (hsuits entry hold).mono hdelivered
    · obtain ⟨item, hitem, rfl⟩ := List.mem_map.mp hnew
      rcases storage_step hkept hphase hstep with ⟨messageId, hash, hsaved⟩ | hremoves
      · rw [hsaved.lost hkept] at hitem
        cases hitem
      · exact (hremoves.suits item hitem).mono hdelivered

theorem right_of_reachable {start : Instant}
    (h : (recordedRedis calendar defaultValidityPeriod parseRfc3339 start).Reachable r) :
    Right calendar parseRfc3339 r := by
  induction h with
  | initial =>
      have hkept : Kept calendar
          (recordedRedis calendar defaultValidityPeriod parseRfc3339 start).initial.state.storage := by
        refine ⟨fun id hash hentry => ?_, ?_, ?_, .nil, ?_⟩
        · cases hentry
        all_goals simp [recordedRedis, redisSystem]
      exact ⟨hkept, ⟨.refl _, .nil, by simp [recordedRedis]⟩,
        ⟨.nil, by simp [recordedRedis], by simp [recordedRedis]⟩, trivial,
        by simp [recordedRedis]⟩
  | step _ _ hstep ih => exact right_step ih hstep

/-- In every run each entry that was saved is stored or has left the store, once: the handler took
it when it was due, it expired, or it was cancelled. The handler takes no entry twice, the loop
deletes what it took before anything else is handed over, and only entries that were due are. -/
theorem redis_accounts (start : Instant)
    (h : (recordedRedis calendar defaultValidityPeriod parseRfc3339 start).Reachable r) :
    r.accepted.Perm (stored r.state.storage ++ r.settled.map Prod.fst) ∧
      (r.accepted.map Prod.fst).Nodup ∧
      (∀ entry ∈ r.settled, Suits calendar parseRfc3339 r.delivered entry.1 entry.2) ∧
      r.delivered.Nodup ∧
      (∀ id ∈ r.delivered,
        r.state.storage.entry id = none ∨ ∃ values, r.state.phase = .deleting id values) ∧
      ∀ value values, r.state.phase = .handling value values → Handed calendar r value := by
  obtain ⟨hkept, hbalances, honce, hphase, hsuits⟩ := right_of_reachable h
  refine ⟨hbalances.balanced, hbalances.once, hsuits, honce.once, fun id hid => ?_, ?_⟩
  · refine (honce.gone id hid).imp_right fun hdeleting => ?_
    cases hwhere : r.state.phase with
    | deleting entryId values =>
        rw [hwhere] at hdeleting
        exact ⟨values, Option.some.inj hdeleting ▸ rfl⟩
    | _ =>
        rw [hwhere] at hdeleting
        cases hdeleting
  · intro value values hwhere
    unfold PhaseRight at hphase
    rw [hwhere] at hphase
    exact hphase.2 value (.head _)

/-- Of three messages the first is delivered, the second is cancelled while the handler has the
first, and the third expires. -/
def threeFates : List RedisEvent :=
  let message := Value.object [("destination_addr", .string "49")]
  [.save ⟨0, 0, 0⟩ 0 "m" message, .deliveryTick 1, .collect 0, .next, .next,
    .save ⟨0, 0, 0⟩ 0 "n" message, .cancel (.object [("message_id", .string "n")]),
    .handled (.ok ()), .delete, .next, .save ⟨0, 0, 0⟩ 0 "o" message, .cleanTick (seconds 6), .next]

theorem redis_accounts_threeFates :
    ∃ r, (recordedRedis epochCalendar 5 parseEpoch 0).run threeFates = some r ∧
      (r.delivered, r.settled.map fun entry => entry.1.1) = ([1], [2, 1, 3]) ∧
      r.accepted.Perm (stored r.state.storage ++ r.settled.map Prod.fst) ∧
      (r.accepted.map Prod.fst).Nodup ∧
      (∀ entry ∈ r.settled,
        Suits epochCalendar parseEpoch r.delivered entry.1 entry.2) ∧
      r.delivered.Nodup ∧
      (∀ id ∈ r.delivered,
        r.state.storage.entry id = none ∨ ∃ values, r.state.phase = .deleting id values) ∧
      ∀ value values, r.state.phase = .handling value values →
        Handed epochCalendar r value := by
  have hrun : ((recordedRedis epochCalendar 5 parseEpoch 0).run threeFates).map
      (fun r => (r.delivered, r.settled.map fun entry => entry.1.1)) =
      some ([1], [2, 1, 3]) := by decide +kernel
  obtain ⟨r, hr, hsettled⟩ := Option.map_eq_some_iff.mp hrun
  exact ⟨r, hr, hsettled, redis_accounts 0 (System.reachable_of_run hr)⟩

end Invariant

end SmppHerald.RedisAccounting
