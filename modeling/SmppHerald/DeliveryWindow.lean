import SmppHerald.InMemoryRun

namespace SmppHerald.DeliveryWindow

open SmppHerald.InMemoryLoops
open SmppHerald.InMemoryRun
open SmppHerald.InMemoryStorage hiding cancelMessage cleanExpiredMessages getDeliveryMessages
  replaceMessage
open SmppHerald.Io
open SmppHerald.Json
open SmppHerald.MultiMaps
open SmppHerald.Sweeps
open SmppHerald.Time
open SmppHerald.TransitionSystem

section Windows

def inWindow (scheduleDeliveryTime validityPeriod : Option Instant) : Bool :=
  scheduleDeliveryTime.all fun time => validityPeriod.all fun expiry => decide (time ≤ expiry)

theorem inWindow_iff {scheduleDeliveryTime validityPeriod : Option Instant} :
    inWindow scheduleDeliveryTime validityPeriod = true ↔ ∀ time expiry,
      scheduleDeliveryTime = some time → validityPeriod = some expiry → time ≤ expiry := by
  cases scheduleDeliveryTime <;> cases validityPeriod <;> simp [inWindow]

/-- A stored message with both times does not expire before its schedule. -/
def InWindow (stored : StoredMessage) : Prop :=
  ∀ time expiry, stored.scheduleDeliveryTime = some time → stored.validityPeriod = some expiry →
    time ≤ expiry

def AllInWindow (storage : InMemoryMessageStorage) : Prop :=
  ∀ stored ∈ items storage.messages, InWindow stored

/-- A replace that is carried out leaves each message that it matches in the window from the
schedule to the expiry, of which each is the one that it gives or else the one of the message. -/
def keepsWindow (calendar : Calendar) (storage : InMemoryMessageStorage) : StorageOp → Bool
  | .replace scheduleNow validityNow replaceSm =>
      match replacingTime calendar scheduleNow replaceSm "schedule_delivery_time"
          "Invalid schedule_delivery_time: ",
        replacingTime calendar validityNow replaceSm "validity_period"
          "Invalid validity_period: " with
      | .ok time, .ok expiry =>
          !asksReplacement replaceSm ||
            (find (replaceSm.strField "message_id") storage.messages).all fun list =>
              list.all fun stored => !replaceMatches replaceSm stored.message ||
                inWindow (time.or stored.scheduleDeliveryTime) (expiry.or stored.validityPeriod)
      | _, _ => true
  | _ => true

variable {calendar : Calendar} {defaultValidityPeriod : UInt32}
  {storage storage' : InMemoryMessageStorage}

theorem mem_items_iff {messages : MultiMap String StoredMessage} {stored : StoredMessage} :
    stored ∈ items messages ↔ ∃ entry ∈ messages, stored ∈ entry.2 := List.mem_flatMap

theorem items_sweepAll_subset {verdict : Verdicts}
    (hput : ∀ messageId list, NoPut (verdict messageId list)) :
    ∀ stored ∈ items (sweepAll storage verdict).messages, stored ∈ items storage.messages := by
  intro stored hstored
  rw [sweepAll, items_mapLists, List.mem_flatMap] at hstored
  obtain ⟨entry, hentry, hleft⟩ := hstored
  rcases mem_left hleft with hmem | ⟨index, before, -, hverdict⟩
  · exact mem_items_iff.mpr ⟨entry, hentry, hmem⟩
  · exact absurd hverdict (hput entry.1 entry.2 index before stored)

theorem replaceStored_of_matches {replaceSm : Value} {time expiry : Option Instant}
    {stored : StoredMessage} (h : replaceMatches replaceSm stored.message = true) :
    (replaceStored replaceSm time expiry stored).scheduleDeliveryTime =
        time.or stored.scheduleDeliveryTime ∧
      (replaceStored replaceSm time expiry stored).validityPeriod =
        expiry.or stored.validityPeriod := by
  rw [replaceStored, if_pos h]
  exact ⟨rfl, rfl⟩

theorem AllInWindow.replaced (h : AllInWindow storage) {replaceSm : Value}
    {list : List StoredMessage} {time expiry : Option Instant}
    (hfind : find (replaceSm.strField "message_id") storage.messages = some list)
    (hkeeps : ∀ stored ∈ list, replaceMatches replaceSm stored.message = true →
      inWindow (time.or stored.scheduleDeliveryTime) (expiry.or stored.validityPeriod) = true) :
    AllInWindow (replaced storage replaceSm list time expiry) := by
  have hlist : ∀ stored ∈ list, stored ∈ items storage.messages := by
    obtain ⟨entry, hentry, rfl⟩ := Option.map_eq_some_iff.mp hfind
    exact fun stored hstored => mem_items_iff.mpr ⟨entry, List.mem_of_find?_eq_some hentry, hstored⟩
  intro stored hstored
  obtain ⟨entry, hentry, hmem⟩ := mem_items_iff.mp hstored
  obtain ⟨before, hbefore, rfl⟩ := List.mem_map.mp hentry
  split at hmem
  · rcases mem_left hmem with hkept | ⟨index, old, hold, hput⟩
    · exact h stored (hlist stored hkept)
    · obtain ⟨hmatches, rfl⟩ := replaceVerdicts_put hput
      obtain ⟨hschedule, hvalidity⟩ :=
        @replaceStored_of_matches replaceSm time expiry old hmatches
      have hwindow := hkeeps old (List.mem_of_getElem? hold) hmatches
      rw [← hschedule, ← hvalidity] at hwindow
      exact inWindow_iff.mp hwindow
  · exact h stored (mem_items_iff.mpr ⟨before, hbefore, hmem⟩)

theorem keepsWindow_replace {scheduleNow validityNow : Instant} {replaceSm : Value}
    {list : List StoredMessage} {time expiry : Option Instant}
    (htimes : replaceTimes calendar scheduleNow validityNow storage replaceSm =
      .ok (list, time, expiry)) :
    keepsWindow calendar storage (.replace scheduleNow validityNow replaceSm) = true ↔
      ∀ stored ∈ list, replaceMatches replaceSm stored.message = true →
        inWindow (time.or stored.scheduleDeliveryTime) (expiry.or stored.validityPeriod) = true := by
  obtain ⟨hasks, hfind, hschedule, hvalidity⟩ := replaceTimes_eq_ok_iff.mp htimes
  simp only [keepsWindow, hschedule, hvalidity, hasks, hfind, Bool.not_true, Bool.false_or,
    Option.all_some, List.all_eq_true, Bool.or_eq_true, Bool.not_eq_true']
  refine forall_congr' fun stored => forall_congr' fun _ => ?_
  cases replaceMatches replaceSm stored.message <;> simp

/-- Every operation but a replace keeps all messages in their windows. -/
theorem AllInWindow.after (h : AllInWindow storage) {op : StorageOp}
    (hkeeps : keepsWindow calendar storage op = true) :
    AllInWindow (after calendar defaultValidityPeriod storage op) := by
  cases op with
  | save clock messageId message serial =>
      rw [InMemoryRun.after]
      split
      · rename_i hsave
        obtain ⟨time, expiry, -, -, -, -, hwindow, -, rfl⟩ := save_eq_ok hsave
        intro stored hstored
        rcases List.mem_cons.mp ((items_push _ _ _).mem_iff.mp hstored) with rfl | hbefore
        · exact hwindow
        · exact h stored hbefore
      · exact h
  | cancel cancelSm =>
      exact fun stored hstored =>
        h stored (items_sweepAll_subset (noPut_cancelVerdicts cancelSm) stored hstored)
  | replace scheduleNow validityNow replaceSm =>
      rw [InMemoryRun.after]
      split
      · rename_i list time expiry htimes
        exact h.replaced (replaceTimes_eq_ok_iff.mp htimes).2.1
          ((keepsWindow_replace htimes).mp hkeeps)
      · exact h
  | clean clock =>
      exact fun stored hstored =>
        h stored (items_sweepAll_subset (noPut_cleanVerdict clock) stored hstored)
  | getDelivery scheduleClock validityClock =>
      exact fun stored hstored => h stored
        (items_sweepAll_subset (noPut_deliveryVerdict scheduleClock validityClock) stored hstored)
  | removeById messageId index =>
      intro stored hstored
      have hsub : (items (updateAt messageId (fun list => list.eraseIdx index)
          storage.messages)).Sublist (items storage.messages) :=
        items_updateAt_sublist (fun list => List.eraseIdx_sublist list index) _ _
      exact h stored (hsub.subset hstored)

theorem keepsWindow_of_not_ok {scheduleNow validityNow : Instant} {replaceSm : Value}
    (h : ∀ result,
      replaceTimes calendar scheduleNow validityNow storage replaceSm ≠ .ok result) :
    keepsWindow calendar storage (.replace scheduleNow validityNow replaceSm) = true := by
  rw [keepsWindow]
  split
  · rename_i time expiry hschedule hvalidity
    by_cases hasks : asksReplacement replaceSm = true
    · cases hfind : find (replaceSm.strField "message_id") storage.messages with
      | none => simp
      | some list =>
          have htimes := replaceTimes_eq_ok_iff.mpr ⟨hasks, hfind, hschedule, hvalidity⟩
          exact absurd htimes (h _)
    · simp [hasks]
  · rfl

theorem keepsWindow_of_allInWindow {op : StorageOp} (hshort : short storage = true)
    (h : AllInWindow (InMemoryRun.after calendar defaultValidityPeriod storage op)) :
    keepsWindow calendar storage op = true := by
  cases op with
  | replace scheduleNow validityNow replaceSm =>
      cases htimes : replaceTimes calendar scheduleNow validityNow storage replaceSm with
      | ok result =>
          obtain ⟨list, time, expiry⟩ := result
          obtain ⟨entry, hentry, rfl⟩ :=
            Option.map_eq_some_iff.mp (replaceTimes_eq_ok_iff.mp htimes).2.1
          have hmem := List.mem_of_find?_eq_some hentry
          have hid : entry.1 = replaceSm.strField "message_id" := by
            simpa using List.find?_some hentry
          rw [InMemoryRun.after, htimes] at h
          refine (keepsWindow_replace htimes).mpr fun stored hstored hmatches => ?_
          have hleft := swept_replaceVerdicts replaceSm time expiry (length_lt_of_short hshort hmem)
          have hreplaced := h (replaceStored replaceSm time expiry stored) (mem_items_iff.mpr
            ⟨(replaceSm.strField "message_id", _),
              List.mem_map.mpr ⟨entry, hmem, if_pos hid⟩, by
                rw [hleft]
                exact List.mem_map_of_mem hstored⟩)
          obtain ⟨hschedule, hvalidity⟩ := @replaceStored_of_matches replaceSm time expiry stored
            hmatches
          rw [InWindow, hschedule, hvalidity] at hreplaced
          exact inWindow_iff.mpr hreplaced
      | err e =>
          exact keepsWindow_of_not_ok fun result heq => by simp [htimes] at heq
      | panicked =>
          exact keepsWindow_of_not_ok fun result heq => by simp [htimes] at heq
  | _ => rfl

/-- In every run whose replaces keep the windows, each stored message is in its window; and a step
from a store with lists of less than 2^31 messages leads to such a store only if it keeps them. -/
theorem all_in_window (calendar : Calendar) (defaultValidityPeriod : UInt32)
    {storage : InMemoryMessageStorage}
    (h : (storageSystem calendar defaultValidityPeriod).Reaches
      (fun storage op => keepsWindow calendar storage op = true) storage) :
    AllInWindow storage ∧ ∀ op storage', short storage = true →
      perform calendar defaultValidityPeriod storage op = .ok storage' →
        (AllInWindow storage' ↔ keepsWindow calendar storage op = true) := by
  have hproper := proper_of_reaches h
  have hwindow : AllInWindow storage := by
    have hboth : Proper storage.messages ∧ AllInWindow storage := by
      refine @System.Reaches.invariant _ _ _ _
        (fun storage => Proper storage.messages ∧ AllInWindow storage) ?_ ?_ storage h
      · exact ⟨proper_nil, fun stored hstored => by simp [storageSystem, InMemoryMessageStorage.new,
          items] at hstored⟩
      · rintro storage op storage' ⟨hproper, hwindow⟩ hkeeps hstep
        obtain rfl := step_eq_some hproper hstep
        exact ⟨proper_after hproper op, hwindow.after hkeeps⟩
    exact hboth.2
  refine ⟨hwindow, fun op storage' hshort hperform => ?_⟩
  have hstep : (storageSystem calendar defaultValidityPeriod).step storage op = some storage' := by
    change (perform calendar defaultValidityPeriod storage op).toOption = _
    rw [hperform]
    rfl
  obtain rfl := step_eq_some hproper hstep
  exact ⟨keepsWindow_of_allInWindow hshort, hwindow.after⟩

end Windows

section Example

/-- A message that expires after an hour. -/
def savedForAnHour : StorageOp :=
  .save ⟨0, 0, 0⟩ "m"
    (.object [("destination_addr", .string "49"), ("validity_period", .string "000000010000000R")]) 0

/-- Its delivery is put off. -/
def postponed (time : String) : StorageOp :=
  .replace 0 0 (.object [("message_id", .string "m"), ("short_message", .string "later"),
    ("schedule_delivery_time", .string time)])

def windows (storage : InMemoryMessageStorage) : List (Option Instant × Option Instant) :=
  (items storage.messages).map fun stored => (stored.scheduleDeliveryTime, stored.validityPeriod)

/-- It is put off by half an hour. -/
theorem all_in_window_postponed :
    ∃ storage, ((storageSystem relativeCalendar 60).runAllowed (keepsWindow relativeCalendar)
        [savedForAnHour, postponed "000000003000000R"]).map windows = some (windows storage) ∧
      windows storage = [(some (seconds 1800), some (seconds 3600))] ∧ AllInWindow storage ∧
      ∀ op storage', short storage = true → perform relativeCalendar 60 storage op = .ok storage' →
        (AllInWindow storage' ↔ keepsWindow relativeCalendar storage op = true) := by
  have hrun : ((storageSystem relativeCalendar 60).runAllowed (keepsWindow relativeCalendar)
      [savedForAnHour, postponed "000000003000000R"]).map windows =
      some [(some (seconds 1800), some (seconds 3600))] := by decide +kernel
  obtain ⟨storage, hstorage, hwindows⟩ := Option.map_eq_some_iff.mp hrun
  exact ⟨storage, hwindows ▸ hrun, hwindows,
    all_in_window relativeCalendar 60 (System.reaches_of_runAllowed hstorage)⟩

/-- It is put off by two hours. -/
theorem not_all_in_window :
    ¬ ∀ storage, (storageSystem relativeCalendar 60).Reachable storage → AllInWindow storage := by
  intro h
  have hrun : ((storageSystem relativeCalendar 60).run
      [savedForAnHour, postponed "000000020000000R"]).map windows =
      some [(some (seconds 7200), some (seconds 3600))] := by decide +kernel
  obtain ⟨storage, hstorage, hwindows⟩ := Option.map_eq_some_iff.mp hrun
  obtain ⟨stored, hstored, htimes⟩ := List.mem_map.mp
    (hwindows ▸ List.mem_singleton_self (some (seconds 7200), some (seconds 3600)))
  obtain ⟨hschedule, hvalidity⟩ := Prod.mk.inj htimes
  have hlate := h storage (System.reachable_of_run hstorage) stored hstored _ _ hschedule hvalidity
  exact absurd hlate (by decide)

end Example

end SmppHerald.DeliveryWindow
