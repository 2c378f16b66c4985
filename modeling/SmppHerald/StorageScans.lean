import SmppHerald.UserIndex

/-!
What a cancel and a selection of due messages come to over whole lists. Both loops start from a
length that is cast to 32 bits, and what stands behind the cast length is not looked at.
-/

namespace SmppHerald.StorageScans

open SmppHerald.InMemoryLoops
open SmppHerald.InMemoryRun
open SmppHerald.InMemoryStorage hiding cancelMessage cleanExpiredMessages getDeliveryMessages
  replaceMessage
open SmppHerald.Json
open SmppHerald.MultiMaps
open SmppHerald.Sweeps
open SmppHerald.Time
open SmppHerald.UserIndex

variable {storage storage' : InMemoryMessageStorage}

section Cancel

variable {cancelSm : Value} {cancelled : Bool}

/-- The entries that match every criterion are removed, the others stay in their order, and the
result says whether there were any. -/
structure Cancels (storage : InMemoryMessageStorage) (cancelSm : Value)
    (storage' : InMemoryMessageStorage) (cancelled : Bool) : Prop where
  proper : Proper storage'.messages
  messages : ∀ messageId, listAt messageId storage'.messages =
    (listAt messageId storage.messages).filter fun stored => !isCancelled cancelSm messageId stored
  outcome : cancelled = true ↔
    ∃ messageId, ∃ stored ∈ listAt messageId storage.messages,
      isCancelled cancelSm messageId stored = true

/-- The cast length does not underflow, and no match stands behind it. -/
def Scanned (cancelSm : Value) (list : List StoredMessage) : Prop :=
  fits list = true ∧ ∀ stored ∈ list.drop (rounds list), cancelMatches cancelSm stored.message = false

theorem rounds_le (list : List StoredMessage) : rounds list ≤ list.length := by
  have hle := asI32_le list.length
  rw [rounds]
  omega

theorem scanned_of_lt {list : List StoredMessage} (h : list.length < 2 ^ 31) :
    Scanned cancelSm list := by
  refine ⟨fits_of_lt h, ?_⟩
  rw [rounds_of_lt h, List.drop_length]
  simp

theorem isCancelled_eq (cancelSm : Value) (messageId : String) (stored : StoredMessage) :
    isCancelled cancelSm messageId stored =
      (isAsked cancelSm messageId && cancelMatches cancelSm stored.message) := rfl

theorem swept_cancelVerdicts {messageId : String} (h : isAsked cancelSm messageId = true)
    (list : List StoredMessage) :
    swept (cancelVerdicts cancelSm messageId list) list =
      ⟨((list.take (rounds list)).filter fun stored => !cancelMatches cancelSm stored.message) ++
          list.drop (rounds list),
        (list.take (rounds list)).reverse.filter fun stored =>
          cancelMatches cancelSm stored.message, none⟩ := by
  have hverdict : cancelVerdicts cancelSm messageId list = within (rounds list) fun _ stored =>
      if cancelMatches cancelSm stored.message = true then .remove else .keep := by
    funext index stored
    rw [cancelVerdicts, if_pos h]
    rfl
  rw [hverdict, swept_within_filter _ (rounds_le list)]

/-- Filtering the front of a list filters the list where the rest has nothing to remove. -/
theorem filter_take_append_drop_iff {β : Type} (p : β → Bool) (n : Nat) (list : List β) :
    (list.take n).filter p ++ list.drop n = list.filter p ↔
      ∀ item ∈ list.drop n, p item = true := by
  have hsplit : list.filter p = (list.take n).filter p ++ (list.drop n).filter p := by
    rw [← List.filter_append, List.take_append_drop]
  rw [hsplit, List.append_cancel_left_eq, eq_comm, List.filter_eq_self]

theorem left_cancelVerdicts_iff {messageId : String} {list : List StoredMessage}
    (hfits : isAsked cancelSm messageId = true → fits list = true) :
    (swept (cancelVerdicts cancelSm messageId list) list).left =
        list.filter (fun stored => !isCancelled cancelSm messageId stored) ↔
      (isAsked cancelSm messageId = true → Scanned cancelSm list) := by
  cases hasked : isAsked cancelSm messageId with
  | false =>
      rw [swept_cancelVerdicts_of_not cancelSm hasked]
      simp [isCancelled_eq, hasked]
  | true =>
      rw [swept_cancelVerdicts hasked]
      simp only [isCancelled_eq, hasked, Bool.true_and, forall_const]
      rw [filter_take_append_drop_iff, Scanned]
      simp [hfits hasked]

theorem all_fits_iff (h : Proper storage.messages) :
    (storage.messages.all fun entry => !isAsked cancelSm entry.1 || fits entry.2) = true ↔
      ∀ messageId, isAsked cancelSm messageId = true →
        fits (listAt messageId storage.messages) = true := by
  rw [List.all_eq_true]
  constructor
  · intro hall messageId hasked
    by_cases hnone : listAt messageId storage.messages = []
    · rw [hnone]
      rfl
    · have hfits := hall _ (mem_of_listAt_ne_nil hnone)
      simpa [hasked] using hfits
  · intro hlists entry hentry
    cases hasked : isAsked cancelSm entry.1 with
    | false => rfl
    | true =>
        have hfits := hlists entry.1 hasked
        rw [listAt_of_mem h hentry] at hfits
        simpa using hfits

theorem mem_removed_cancelVerdicts {messageId : String} {list : List StoredMessage}
    (hscanned : isAsked cancelSm messageId = true → Scanned cancelSm list) (stored : StoredMessage) :
    stored ∈ (swept (cancelVerdicts cancelSm messageId list) list).removed ↔
      stored ∈ list ∧ isCancelled cancelSm messageId stored = true := by
  cases hasked : isAsked cancelSm messageId with
  | false =>
      rw [swept_cancelVerdicts_of_not cancelSm hasked]
      simp [isCancelled_eq, hasked]
  | true =>
      obtain ⟨-, hrest⟩ := hscanned hasked
      rw [swept_cancelVerdicts hasked, List.mem_filter, List.mem_reverse, isCancelled_eq, hasked,
        Bool.true_and]
      refine and_congr_left fun hmatches => ?_
      constructor
      · exact List.mem_of_mem_take
      · intro hmem
        rw [← List.take_append_drop (rounds list) list, List.mem_append] at hmem
        exact hmem.resolve_right fun hdrop => by simp [hrest stored hdrop] at hmatches

theorem cancels_of_scanned (h : Proper storage.messages)
    (hscanned : ∀ messageId, isAsked cancelSm messageId = true →
      Scanned cancelSm (listAt messageId storage.messages)) :
    Cancels storage cancelSm (sweepAll storage (cancelVerdicts cancelSm))
      (storage.messages.any fun entry =>
        !(swept (cancelVerdicts cancelSm entry.1 entry.2) entry.2).removed.isEmpty) where
  proper := proper_sweepAll h _
  messages messageId := by
    rw [listAt_sweepAll h messageId]
    exact (left_cancelVerdicts_iff fun hasked => (hscanned messageId hasked).1).mpr
      (hscanned messageId)
  outcome := by
    rw [List.any_eq_true]
    constructor
    · rintro ⟨entry, hentry, hremoved⟩
      have hlist := listAt_of_mem h hentry
      have hentryScanned := hscanned entry.1
      rw [hlist] at hentryScanned
      obtain ⟨stored, hstored⟩ := List.exists_mem_of_ne_nil _ (by simpa using hremoved)
      rw [mem_removed_cancelVerdicts hentryScanned] at hstored
      exact ⟨entry.1, stored, hlist.symm ▸ hstored.1, hstored.2⟩
    · rintro ⟨messageId, stored, hstored, hcancelled⟩
      refine ⟨_, mem_of_listAt_ne_nil (List.ne_nil_of_mem hstored), ?_⟩
      have hremoved := (mem_removed_cancelVerdicts (hscanned messageId) stored).mpr
        ⟨hstored, hcancelled⟩
      simpa using List.ne_nil_of_mem hremoved

theorem scanned_of_cancels (h : Proper storage.messages)
    (hresult : InMemoryLoops.cancelMessage storage cancelSm = .ok (storage', cancelled))
    (hcancels : Cancels storage cancelSm storage' cancelled) (messageId : String)
    (hasked : isAsked cancelSm messageId = true) :
    Scanned cancelSm (listAt messageId storage.messages) := by
  rw [cancelMessage_eq h] at hresult
  split_ifs at hresult with hall
  obtain ⟨rfl, -⟩ := Prod.mk.inj (Except.ok.inj hresult)
  have hfits := (all_fits_iff h).mp hall
  have hleft := hcancels.messages messageId
  rw [listAt_sweepAll h messageId, left_cancelVerdicts_iff (hfits messageId)] at hleft
  exact hleft hasked

/-- A cancel removes what matches, and says whether there was any, exactly when no list that it goes
through has a match behind the cast length, or a length that the cast cannot take 1 from. -/
theorem cancels_iff (h : Proper storage.messages) (cancelSm : Value) :
    (∃ storage' cancelled,
      InMemoryLoops.cancelMessage storage cancelSm = .ok (storage', cancelled) ∧
        Cancels storage cancelSm storage' cancelled) ↔
      ∀ messageId, isAsked cancelSm messageId = true →
        Scanned cancelSm (listAt messageId storage.messages) := by
  constructor
  · rintro ⟨storage', cancelled, hresult, hcancels⟩
    exact scanned_of_cancels h hresult hcancels
  · intro hscanned
    have hall := (all_fits_iff h).mpr fun messageId hasked => (hscanned messageId hasked).1
    exact ⟨_, _, (cancelMessage_eq h cancelSm).trans (if_pos hall), cancels_of_scanned h hscanned⟩

/-- A message to an address, valid until a minute from 0. -/
def storedTo (serial : Nat) (destAddress : String) : StoredMessage where
  serial := serial
  userAddress := destAddress
  message := .object [("destination_addr", .string destAddress)]
  scheduleDeliveryTime := none
  validityPeriod := some (60 * 1000000000)

/-- One message to 49 and one to 50 under the same id. -/
def twoDestinations : InMemoryMessageStorage where
  messages := [("m", [storedTo 0 "49", storedTo 1 "50"])]
  userMessageIds := [("49", ["m"]), ("50", ["m"])]

theorem length_twoDestinations (messageId : String) :
    (listAt messageId twoDestinations.messages).length ≤ 2 := by
  rw [twoDestinations, listAt, find_cons]
  split <;> simp [find]

/-- A cancel of what goes to 50 takes the second message only. -/
theorem cancels_fifty :
    ∃ storage' cancelled,
      InMemoryLoops.cancelMessage twoDestinations (.object [("destination_addr", .string "50")]) =
          .ok (storage', cancelled) ∧
        Cancels twoDestinations (.object [("destination_addr", .string "50")]) storage' cancelled :=
  (cancels_iff ⟨by decide, by simp [twoDestinations]⟩ _).mpr fun messageId _ =>
    scanned_of_lt (Nat.lt_of_le_of_lt (length_twoDestinations messageId) (by decide))

/-- `n` messages to 49 under the same id. -/
def crowded (n : Nat) : InMemoryMessageStorage where
  messages := [("m", (List.range n).map fun serial => storedTo serial "49")]
  userMessageIds := [("49", List.replicate n "m")]

theorem proper_crowded {n : Nat} (h : 0 < n) : Proper (crowded n).messages where
  keys := List.nodup_singleton "m"
  nonempty := by
    intro entry hentry
    rw [List.mem_singleton.mp hentry]
    simpa using Nat.ne_of_gt h

theorem listAt_crowded (n : Nat) : listAt "m" (crowded n).messages =
    (List.range n).map fun serial => storedTo serial "49" := rfl

theorem first_mem_crowded {n : Nat} (h : 0 < n) :
    storedTo 0 "49" ∈ listAt "m" (crowded n).messages := by
  rw [listAt_crowded]
  exact List.mem_map_of_mem (List.mem_range.mpr h)

theorem length_crowded (n : Nat) : (listAt "m" (crowded n).messages).length = n := by
  rw [listAt_crowded, List.length_map, List.length_range]

theorem not_cancels_crowded {n : Nat} (h : 0 < n) (hcast : asI32 n ≤ 0) :
    ¬ ∃ storage' cancelled,
      InMemoryLoops.cancelMessage (crowded n) (.object [("message_id", .string "m")]) =
          .ok (storage', cancelled) ∧
        Cancels (crowded n) (.object [("message_id", .string "m")]) storage' cancelled := by
  rintro ⟨storage', cancelled, hresult, hcancels⟩
  obtain ⟨-, hhidden⟩ := scanned_of_cancels (proper_crowded h) hresult hcancels "m" (by decide)
  have hrounds : rounds (listAt "m" (crowded n).messages) = 0 := by
    rw [rounds, length_crowded, Int.toNat_of_nonpos hcast]
  rw [hrounds, List.drop_zero] at hhidden
  exact absurd (hhidden _ (first_mem_crowded h)) (by decide)

/-- With 2^31 + 1 messages under the id the loop has no round, and nothing is cancelled. -/
theorem not_cancels_overlong :
    ¬ ∃ storage' cancelled,
      InMemoryLoops.cancelMessage (crowded (2 ^ 31 + 1)) (.object [("message_id", .string "m")]) =
          .ok (storage', cancelled) ∧
        Cancels (crowded (2 ^ 31 + 1)) (.object [("message_id", .string "m")]) storage' cancelled :=
  not_cancels_crowded (by decide) (by decide)

end Cancel

section Delivery

variable {now : Instant} {deliveries : List Delivery} {messageId : String}
  {list : List StoredMessage}

/-- The time to deliver has come and the validity has not ended. -/
def deliverable (now : Instant) (stored : StoredMessage) : Bool :=
  !stored.isFuture now && !stored.isExpired now

/-- At most one entry of each id is returned, each where it stands afterwards and deliverable; each
id with a deliverable entry has one; and only expired entries are removed. -/
structure Selects (now : Instant) (storage storage' : InMemoryMessageStorage)
    (deliveries : List Delivery) : Prop where
  atMostOne : (deliveries.map Delivery.messageId).Nodup
  placed : ∀ delivery ∈ deliveries,
    (listAt delivery.messageId storage'.messages)[delivery.index]? = some delivery.stored ∧
      deliverable now delivery.stored = true
  represented : ∀ messageId, ∀ stored ∈ listAt messageId storage.messages,
    deliverable now stored = true → ∃ delivery ∈ deliveries, delivery.messageId = messageId
  sublist : ∀ messageId,
    (listAt messageId storage'.messages).Sublist (listAt messageId storage.messages)
  unexpired : ∀ messageId,
    ((listAt messageId storage'.messages).filter fun stored => !stored.isExpired now) =
      (listAt messageId storage.messages).filter fun stored => !stored.isExpired now

/-- A list with deliverable entries has one before the cast length. -/
def Reached (now : Instant) (list : List StoredMessage) : Prop :=
  ∀ stored ∈ list, deliverable now stored = true →
    ∃ reached ∈ list.take (lastRounds list), deliverable now reached = true

/-- What the loops do with each entry when the clock stands still. -/
def verdictsAt (now : Instant) : Verdicts :=
  fromLast (deliveryVerdict (fun _ _ => now) fun _ _ => now)

theorem reached_of_lt (h : list.length < 2 ^ 31) : Reached now list := by
  intro stored hstored hdeliverable
  refine ⟨stored, ?_, hdeliverable⟩
  rwa [lastRounds_of_lt (List.ne_nil_of_mem hstored) h, List.take_length]

theorem deliveryVerdict_eq_stop_iff {index : Nat} {stored : StoredMessage} :
    deliveryVerdict (fun _ _ => now) (fun _ _ => now) messageId index stored = .stop ↔
      deliverable now stored = true := by
  rw [deliveryVerdict, deliverable]
  split_ifs with hfuture hexpired <;> simp [*]

theorem isExpired_of_remove {index : Nat} {stored : StoredMessage}
    (h : verdictsAt now messageId list index stored = .remove) : stored.isExpired now = true := by
  unfold verdictsAt fromLast within deliveryVerdict at h
  split_ifs at h with hindex hfuture hexpired
  exact hexpired

theorem stoppedAt_eq_none_iff_reached :
    (swept (verdictsAt now messageId list) list).stoppedAt = none ↔
      ∀ reached ∈ list.take (lastRounds list), deliverable now reached = false := by
  have htake : ∀ index : Nat, (list.take (lastRounds list))[index]? =
      if index < lastRounds list then list[index]? else none := fun _ => List.getElem?_take
  rw [stoppedAt_eq_none_iff]
  constructor
  · intro hgoes reached hreached
    obtain ⟨index, hindex⟩ := List.mem_iff_getElem?.mp hreached
    rw [htake] at hindex
    split_ifs at hindex with hlt
    have hverdict := hgoes index reached hindex
    rw [verdictsAt, fromLast, within, if_pos hlt, ne_eq, deliveryVerdict_eq_stop_iff] at hverdict
    simpa using hverdict
  · intro hnone index stored hstored hstop
    unfold verdictsAt fromLast within at hstop
    split_ifs at hstop with hlt
    have hmem := List.mem_of_getElem? ((htake index).trans ((if_pos hlt).trans hstored))
    rw [deliveryVerdict_eq_stop_iff, hnone stored hmem] at hstop
    cases hstop

theorem getDeliveryMessages_at (h : Proper storage.messages) (now : Instant) :
    InMemoryLoops.getDeliveryMessages storage (fun _ _ => now) (fun _ _ => now) =
      .ok (sweepAll storage (verdictsAt now), stops (verdictsAt now) storage.messages) :=
  getDeliveryMessages_eq h _ _

theorem mem_stops_iff (h : Proper storage.messages) {verdict : Verdicts} {delivery : Delivery} :
    delivery ∈ stops verdict storage.messages ↔
      listAt delivery.messageId storage.messages ≠ [] ∧
        (swept (verdict delivery.messageId (listAt delivery.messageId storage.messages))
          (listAt delivery.messageId storage.messages)).stoppedAt =
            some (delivery.index, delivery.stored) := by
  rw [stops, List.mem_filterMap]
  constructor
  · rintro ⟨entry, hentry, hfound⟩
    obtain ⟨found, hstopped, rfl⟩ := Option.map_eq_some_iff.mp hfound
    rw [listAt_of_mem h hentry]
    exact ⟨h.nonempty entry hentry, hstopped⟩
  · rintro ⟨hnonempty, hstopped⟩
    exact ⟨_, mem_of_listAt_ne_nil hnonempty, Option.map_eq_some_iff.mpr ⟨_, hstopped, rfl⟩⟩

theorem nodup_stops (h : Proper storage.messages) (verdict : Verdicts) :
    ((stops verdict storage.messages).map Delivery.messageId).Nodup := by
  refine h.keys.sublist (keys_filterMap_sublist ?_ storage.messages)
  intro entry value hvalue
  obtain ⟨found, -, rfl⟩ := Option.map_eq_some_iff.mp hvalue
  rfl

theorem placed_stops (h : Proper storage.messages) {delivery : Delivery}
    (hdelivery : delivery ∈ stops (verdictsAt now) storage.messages) :
    (listAt delivery.messageId (sweepAll storage (verdictsAt now)).messages)[delivery.index]? =
        some delivery.stored ∧ deliverable now delivery.stored = true := by
  obtain ⟨-, hstopped⟩ := (mem_stops_iff h).mp hdelivery
  obtain ⟨-, hstop⟩ := stoppedAt_eq_some hstopped
  rw [listAt_sweepAll h]
  refine ⟨getElem?_left_of_stoppedAt hstopped, ?_⟩
  unfold verdictsAt fromLast within at hstop
  split_ifs at hstop
  exact deliveryVerdict_eq_stop_iff.mp hstop

theorem represented_stops_iff (h : Proper storage.messages) (messageId : String) :
    (∃ delivery ∈ stops (verdictsAt now) storage.messages, delivery.messageId = messageId) ↔
      ∃ reached ∈ (listAt messageId storage.messages).take
        (lastRounds (listAt messageId storage.messages)), deliverable now reached = true := by
  constructor
  · rintro ⟨delivery, hdelivery, rfl⟩
    obtain ⟨-, hstopped⟩ := (mem_stops_iff h).mp hdelivery
    by_contra hnone
    rw [stoppedAt_eq_none_iff_reached.mpr (by simpa using hnone)] at hstopped
    cases hstopped
  · rintro ⟨reached, hreached, hdeliverable⟩
    cases hstopped : (swept (verdictsAt now messageId (listAt messageId storage.messages))
        (listAt messageId storage.messages)).stoppedAt with
    | none =>
        have hfalse := stoppedAt_eq_none_iff_reached.mp hstopped reached hreached
        rw [hdeliverable] at hfalse
        cases hfalse
    | some found =>
        have hnonempty := List.ne_nil_of_mem (List.mem_of_mem_take hreached)
        exact ⟨⟨messageId, found.1, found.2⟩, (mem_stops_iff h).mpr ⟨hnonempty, hstopped⟩, rfl⟩

theorem selects_of_reached (h : Proper storage.messages)
    (hreached : ∀ messageId, Reached now (listAt messageId storage.messages)) :
    Selects now storage (sweepAll storage (verdictsAt now))
      (stops (verdictsAt now) storage.messages) where
  atMostOne := nodup_stops h _
  placed _ := placed_stops h
  represented messageId stored hstored hdeliverable :=
    (represented_stops_iff h messageId).mpr (hreached messageId stored hstored hdeliverable)
  sublist messageId := by
    rw [listAt_sweepAll h]
    exact left_sublist (noPut_deliveryVerdict _ _ _ _) _
  unexpired messageId := by
    rw [listAt_sweepAll h]
    refine filter_left (noPut_deliveryVerdict _ _ _ _) ?_ _
    intro index stored hremove
    rw [isExpired_of_remove hremove, Bool.not_true]

theorem reached_of_selects (h : Proper storage.messages)
    (hresult : InMemoryLoops.getDeliveryMessages storage (fun _ _ => now) (fun _ _ => now) =
      .ok (storage', deliveries))
    (hselects : Selects now storage storage' deliveries) (messageId : String) :
    Reached now (listAt messageId storage.messages) := by
  rw [getDeliveryMessages_at h] at hresult
  obtain ⟨rfl, rfl⟩ := Prod.mk.inj (Except.ok.inj hresult)
  intro stored hstored hdeliverable
  exact (represented_stops_iff h messageId).mp
    (hselects.represented messageId stored hstored hdeliverable)

/-- A selection takes a deliverable entry of each id that has one, and removes expired entries only,
exactly when no list has all its deliverable entries behind the cast length. -/
theorem selects_iff (h : Proper storage.messages) (now : Instant) :
    (∃ storage' deliveries,
      InMemoryLoops.getDeliveryMessages storage (fun _ _ => now) (fun _ _ => now) =
          .ok (storage', deliveries) ∧
        Selects now storage storage' deliveries) ↔
      ∀ messageId, Reached now (listAt messageId storage.messages) := by
  constructor
  · rintro ⟨storage', deliveries, hresult, hselects⟩
    exact reached_of_selects h hresult hselects
  · intro hreached
    exact ⟨_, _, getDeliveryMessages_at h now, selects_of_reached h hreached⟩

/-- Of two deliverable messages under an id one is selected. -/
theorem selects_one :
    ∃ storage' deliveries,
      InMemoryLoops.getDeliveryMessages twoDestinations (fun _ _ => 0) (fun _ _ => 0) =
          .ok (storage', deliveries) ∧
        Selects 0 twoDestinations storage' deliveries :=
  (selects_iff ⟨by decide, by simp [twoDestinations]⟩ 0).mpr fun messageId =>
    reached_of_lt (Nat.lt_of_le_of_lt (length_twoDestinations messageId) (by decide))

theorem not_selects_crowded {n : Nat} (h : 0 < n) (hcast : asI32 (n - 1) + 1 ≤ 0) :
    ¬ ∃ storage' deliveries,
      InMemoryLoops.getDeliveryMessages (crowded n) (fun _ _ => 0) (fun _ _ => 0) =
          .ok (storage', deliveries) ∧
        Selects 0 (crowded n) storage' deliveries := by
  rintro ⟨storage', deliveries, hresult, hselects⟩
  have hreached := reached_of_selects (proper_crowded h) hresult hselects "m"
  obtain ⟨reached, hmem, -⟩ := hreached _ (first_mem_crowded h) (by decide)
  rw [lastRounds, length_crowded, Int.toNat_of_nonpos hcast, List.take_zero] at hmem
  cases hmem

/-- With 2^31 + 1 messages under the id the loop has no round, and nothing is selected. -/
theorem not_selects_overlong :
    ¬ ∃ storage' deliveries,
      InMemoryLoops.getDeliveryMessages (crowded (2 ^ 31 + 1)) (fun _ _ => 0) (fun _ _ => 0) =
          .ok (storage', deliveries) ∧
        Selects 0 (crowded (2 ^ 31 + 1)) storage' deliveries :=
  not_selects_crowded (by decide) (by decide)

end Delivery

end SmppHerald.StorageScans
