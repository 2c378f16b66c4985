import SmppHerald.InMemoryRun

namespace SmppHerald.UserIndex

open SmppHerald.InMemoryLoops
open SmppHerald.InMemoryRun
open SmppHerald.InMemoryStorage hiding cancelMessage cleanExpiredMessages getDeliveryMessages
  replaceMessage
open SmppHerald.Io
open SmppHerald.Json
open SmppHerald.MultiMaps
open SmppHerald.Sweeps
open SmppHerald.Time
open SmppHerald.TransitionSystem

section Consistency

/-- An address has an id as often as there are messages to it under the id. -/
def Consistent (storage : InMemoryMessageStorage) : Prop :=
  ∀ userAddress messageId, (listAt userAddress storage.userMessageIds).count messageId =
    ((listAt messageId storage.messages).map StoredMessage.userAddress).count userAddress

/-- Where the loops remove a message they remove all to its address in the list. -/
def WholeAddresses (verdict : Verdicts) (storage : InMemoryMessageStorage) : Prop :=
  ∀ entry ∈ storage.messages, ∀ i, (hi : i < entry.2.length) → ∀ j, (hj : j < entry.2.length) →
    entry.2[i].userAddress = entry.2[j].userAddress →
      Drops (verdict entry.1 entry.2) entry.2 i → Drops (verdict entry.1 entry.2) entry.2 j

/-- A `remove_message_by_id` removes nothing, and the other operations remove, with a message, all
to the same address under its id. -/
def KeepsIndex (storage : InMemoryMessageStorage) : StorageOp → Prop
  | .save _ _ _ _ | .replace _ _ _ => True
  | .cancel cancelSm => WholeAddresses (cancelVerdicts cancelSm) storage
  | .clean clock => WholeAddresses (fromLast (cleanVerdict clock)) storage
  | .getDelivery scheduleClock validityClock =>
      WholeAddresses (fromLast (deliveryVerdict scheduleClock validityClock)) storage
  | .removeById messageId index => (listAt messageId storage.messages)[index]? = none

instance (verdict : Verdicts) (storage : InMemoryMessageStorage) :
    Decidable (WholeAddresses verdict storage) :=
  inferInstanceAs (Decidable (∀ entry ∈ storage.messages, ∀ i, (hi : i < entry.2.length) →
    ∀ j, (hj : j < entry.2.length) → entry.2[i].userAddress = entry.2[j].userAddress →
      Drops (verdict entry.1 entry.2) entry.2 i → Drops (verdict entry.1 entry.2) entry.2 j))

instance (storage : InMemoryMessageStorage) (op : StorageOp) : Decidable (KeepsIndex storage op) :=
  match op with
  | .save _ _ _ _ | .replace _ _ _ => isTrue trivial
  | .cancel cancelSm =>
      inferInstanceAs (Decidable (WholeAddresses (cancelVerdicts cancelSm) storage))
  | .clean clock =>
      inferInstanceAs (Decidable (WholeAddresses (fromLast (cleanVerdict clock)) storage))
  | .getDelivery scheduleClock validityClock => inferInstanceAs (Decidable
      (WholeAddresses (fromLast (deliveryVerdict scheduleClock validityClock)) storage))
  | .removeById messageId index =>
      decidable_of_iff ((listAt messageId storage.messages)[index]?.isNone = true)
        Option.isNone_iff_eq_none

/-- Both maps are as they are built, and they agree. -/
structure Indexed (storage : InMemoryMessageStorage) : Prop where
  messages : Proper storage.messages
  userMessageIds : Proper storage.userMessageIds
  consistent : Consistent storage

variable {calendar : Calendar} {defaultValidityPeriod : UInt32} {storage : InMemoryMessageStorage}

theorem proper_removeUserMessageIds {userMessageIds : MultiMap String String}
    (h : Proper userMessageIds) (removed : List (String × StoredMessage)) :
    Proper (removeUserMessageIds userMessageIds removed) := by
  induction removed generalizing userMessageIds with
  | nil => exact h
  | cons entry removed ih => exact ih (h.updateAt _ _)

/-- One removed message takes all occurrences of its id from its address. -/
theorem count_removeUserMessageIds {userMessageIds : MultiMap String String}
    (h : Proper userMessageIds) (removed : List (String × StoredMessage))
    (userAddress messageId : String) :
    (listAt userAddress (removeUserMessageIds userMessageIds removed)).count messageId =
      if ∃ entry ∈ removed, entry.1 = messageId ∧ entry.2.userAddress = userAddress then 0
      else (listAt userAddress userMessageIds).count messageId := by
  induction removed generalizing userMessageIds with
  | nil => simp [removeUserMessageIds]
  | cons entry removed ih =>
      have hfirst : (listAt userAddress
          (removeUserMessageId userMessageIds entry.2.userAddress entry.1)).count messageId =
          if entry.1 = messageId ∧ entry.2.userAddress = userAddress then 0
          else (listAt userAddress userMessageIds).count messageId := by
        rw [removeUserMessageId, listAt_updateAt h _ rfl]
        by_cases haddress : userAddress = entry.2.userAddress
        · by_cases hid : entry.1 = messageId
          · rw [if_pos haddress, if_pos ⟨hid, haddress.symm⟩, ← hid]
            exact List.count_eq_zero.mpr (by simp)
          · rw [if_pos haddress, if_neg (fun hboth => hid hboth.1)]
            exact List.count_filter (by simpa using Ne.symm hid)
        · rw [if_neg haddress, if_neg (fun hboth => haddress hboth.2.symm)]
      have hrest := ih (h.updateAt entry.2.userAddress fun ids => ids.filter fun id => id != entry.1)
      rw [removeUserMessageIds] at hrest ⊢
      rw [List.foldl_cons]
      refine hrest.trans ?_
      rw [removeUserMessageId] at hfirst
      rw [hfirst]
      simp only [List.exists_mem_cons_iff]
      by_cases hlater : ∃ entry ∈ removed, entry.1 = messageId ∧ entry.2.userAddress = userAddress
      · rw [if_pos hlater, if_pos (.inr hlater)]
      · rw [if_neg hlater]
        simp [hlater]

theorem mem_of_listAt_ne_nil {messages : MultiMap String StoredMessage} {messageId : String}
    (h : listAt messageId messages ≠ []) : (messageId, listAt messageId messages) ∈ messages := by
  cases hfind : find messageId messages with
  | none => simp [listAt, hfind] at h
  | some list =>
      rw [listAt, hfind]
      exact mem_of_find_eq_some hfind

variable {verdict : Verdicts}

theorem wholeAddresses_iff (h : Proper storage.messages)
    (hput : ∀ messageId list, NoPut (verdict messageId list)) :
    WholeAddresses verdict storage ↔ ∀ messageId,
      ∀ gone ∈ (swept (verdict messageId (listAt messageId storage.messages))
        (listAt messageId storage.messages)).removed,
      ∀ stored ∈ (swept (verdict messageId (listAt messageId storage.messages))
        (listAt messageId storage.messages)).left, gone.userAddress ≠ stored.userAddress := by
  constructor
  · intro hwhole messageId gone hgone stored hstored hsame
    obtain ⟨i, hi, hdrops⟩ := mem_removed_iff.mp hgone
    obtain ⟨j, hj, hkept⟩ := (mem_left_iff (hput _ _)).mp hstored
    have hentry := mem_of_listAt_ne_nil (List.ne_nil_of_mem (List.mem_of_getElem? hi))
    obtain ⟨hiLt, rfl⟩ := List.getElem?_eq_some_iff.mp hi
    obtain ⟨hjLt, rfl⟩ := List.getElem?_eq_some_iff.mp hj
    exact hkept (hwhole _ hentry i hiLt j hjLt hsame hdrops)
  · intro hseparate entry hentry i hi j hj hsame hdrops
    have hlist := listAt_of_mem h hentry
    have hlists := hseparate entry.1
    rw [hlist] at hlists
    by_contra hkept
    exact hlists _ (mem_removed_iff.mpr ⟨i, List.getElem?_eq_getElem hi, hdrops⟩) _
      ((mem_left_iff (hput _ _)).mpr ⟨j, List.getElem?_eq_getElem hj, hkept⟩) hsame

theorem listAt_sweepAll (h : Proper storage.messages) (messageId : String) :
    listAt messageId (sweepAll storage verdict).messages =
      (swept (verdict messageId (listAt messageId storage.messages))
        (listAt messageId storage.messages)).left :=
  @listAt_mapLists _ _ _ _ h (fun messageId list => (swept (verdict messageId list) list).left)
    (fun _ => rfl) messageId

theorem count_sweepAll (h : Proper storage.messages) (hids : Proper storage.userMessageIds)
    (userAddress messageId : String) :
    (listAt userAddress (sweepAll storage verdict).userMessageIds).count messageId =
      if ∃ gone ∈ (swept (verdict messageId (listAt messageId storage.messages))
          (listAt messageId storage.messages)).removed, gone.userAddress = userAddress then 0
      else (listAt userAddress storage.userMessageIds).count messageId := by
  have hremoved : (∃ gone ∈ storage.messages.flatMap fun entry =>
      (swept (verdict entry.1 entry.2) entry.2).removed.map fun stored => (entry.1, stored),
        gone.1 = messageId ∧ gone.2.userAddress = userAddress) ↔
      ∃ gone ∈ (swept (verdict messageId (listAt messageId storage.messages))
        (listAt messageId storage.messages)).removed, gone.userAddress = userAddress := by
    constructor
    · rintro ⟨gone, hgone, rfl, haddress⟩
      obtain ⟨entry, hentry, hmem⟩ := List.mem_flatMap.mp hgone
      obtain ⟨stored, hstored, rfl⟩ := List.mem_map.mp hmem
      rw [listAt_of_mem h hentry]
      exact ⟨stored, hstored, haddress⟩
    · rintro ⟨gone, hgone, haddress⟩
      obtain ⟨i, hi, -⟩ := mem_removed_iff.mp hgone
      have hentry := mem_of_listAt_ne_nil (List.ne_nil_of_mem (List.mem_of_getElem? hi))
      exact ⟨(messageId, gone), List.mem_flatMap.mpr
        ⟨_, hentry, List.mem_map.mpr ⟨gone, hgone, rfl⟩⟩, rfl, haddress⟩
  rw [sweepAll, count_removeUserMessageIds hids]
  simp only [hremoved]

/-- A pass over all lists keeps the counts exactly when it removes whole addresses. -/
theorem consistent_sweepAll_iff (h : Indexed storage)
    (hput : ∀ messageId list, NoPut (verdict messageId list)) :
    Consistent (sweepAll storage verdict) ↔ WholeAddresses verdict storage := by
  rw [wholeAddresses_iff h.messages hput]
  have hcounts : ∀ userAddress messageId,
      (listAt userAddress (sweepAll storage verdict).userMessageIds).count messageId =
        ((listAt messageId (sweepAll storage verdict).messages).map
          StoredMessage.userAddress).count userAddress ↔
      ((∃ gone ∈ (swept (verdict messageId (listAt messageId storage.messages))
          (listAt messageId storage.messages)).removed, gone.userAddress = userAddress) →
        ∀ stored ∈ (swept (verdict messageId (listAt messageId storage.messages))
          (listAt messageId storage.messages)).left, stored.userAddress ≠ userAddress) := by
    intro userAddress messageId
    have hperm := ((left_append_removed_perm (hput messageId (listAt messageId storage.messages))
      (listAt messageId storage.messages)).map StoredMessage.userAddress).count_eq userAddress
    rw [List.map_append, List.count_append] at hperm
    rw [count_sweepAll h.messages h.userMessageIds, listAt_sweepAll h.messages,
      h.consistent userAddress messageId, ← hperm]
    split
    · rename_i hgone
      have hzero := @List.count_eq_zero _ _ _ userAddress
        ((swept (verdict messageId (listAt messageId storage.messages))
          (listAt messageId storage.messages)).left.map StoredMessage.userAddress)
      rw [eq_comm, hzero]
      simp only [hgone, true_imp_iff, List.mem_map, not_exists, not_and]
    · rename_i hnone
      have hzero : ((swept (verdict messageId (listAt messageId storage.messages))
          (listAt messageId storage.messages)).removed.map
            StoredMessage.userAddress).count userAddress = 0 := by
        rw [List.count_eq_zero, List.mem_map]
        exact hnone
      simp [hzero, hnone]
  constructor
  · intro hconsistent messageId gone hgone stored hstored
    exact Ne.symm ((hcounts gone.userAddress messageId).mp (hconsistent _ _) ⟨gone, hgone, rfl⟩
      stored hstored)
  · intro hseparate userAddress messageId
    rw [hcounts]
    rintro ⟨gone, hgone, rfl⟩ stored hstored
    exact Ne.symm (hseparate messageId gone hgone stored hstored)

theorem listAt_setList {messages : MultiMap String StoredMessage} {messageId : String}
    {list : List StoredMessage} (hfind : find messageId messages = some list)
    (list' : List StoredMessage) (other : String) :
    listAt other (setList messageId list' messages) =
      if other = messageId then list' else listAt other messages := by
  induction messages with
  | nil => simp [find] at hfind
  | cons entry messages ih =>
      rw [find_cons] at hfind
      rw [listAt, listAt, setList, List.map_cons, find_cons, find_cons]
      by_cases hentry : entry.1 = messageId
      · rw [if_pos hentry]
        by_cases hother : other = messageId
        · simp [hother]
        · have hrest : ∀ messages : MultiMap String StoredMessage,
              find other (setList messageId list' messages) = find other messages := by
            intro messages
            induction messages with
            | nil => rfl
            | cons entry messages ih =>
                rw [setList, List.map_cons, find_cons, find_cons, ← setList, ih]
                by_cases hid : entry.1 = messageId <;> simp [hid, Ne.symm hother]
          rw [← setList, hrest]
          simp [hentry, hother, Ne.symm hother]
      · rw [if_neg hentry] at hfind ⊢
        have hrest := ih hfind
        unfold listAt setList at hrest
        by_cases hother : entry.1 = other
        · have hne : other ≠ messageId := fun heq => hentry (hother.trans heq)
          simp [hother, hne]
        · rw [if_neg hother, if_neg hother, hrest]

theorem consistent_after_iff (h : Indexed storage) (op : StorageOp) :
    Consistent (after calendar defaultValidityPeriod storage op) ↔ KeepsIndex storage op := by
  cases op with
  | save clock messageId message serial =>
      refine iff_of_true ?_ trivial
      rw [after]
      split
      · rename_i hsave
        obtain ⟨_, _, -, -, -, -, -, -, rfl⟩ := save_eq_ok hsave
        intro userAddress other
        have hbefore := h.consistent userAddress other
        simp only [listAt_push]
        by_cases haddress : userAddress = message.strField "destination_addr"
        · subst haddress
          by_cases hid : other = messageId
          · subst hid
            simp [hbefore]
          · simp [hid, hbefore, List.count_append, Ne.symm hid]
        · by_cases hid : other = messageId
          · subst hid
            simp [haddress, hbefore, List.count_append, Ne.symm haddress]
          · simp [haddress, hid, hbefore]
      · exact h.consistent
  | cancel cancelSm => exact consistent_sweepAll_iff h (noPut_cancelVerdicts cancelSm)
  | replace scheduleNow validityNow replaceSm =>
      refine iff_of_true ?_ trivial
      rw [after]
      split
      · rename_i list time expiry htimes
        have hfind := (replaceTimes_eq_ok_iff.mp htimes).2.1
        intro userAddress messageId
        rw [replaced, listAt_setList hfind]
        have hbefore := h.consistent userAddress messageId
        split
        · rename_i heq
          subst heq
          rw [map_userAddress_replaced, hbefore, listAt, hfind]
          rfl
        · exact hbefore
      · exact h.consistent
  | clean clock => exact consistent_sweepAll_iff h (noPut_cleanVerdict clock)
  | getDelivery scheduleClock validityClock =>
      exact consistent_sweepAll_iff h (noPut_deliveryVerdict scheduleClock validityClock)
  | removeById messageId index =>
      have hlist : ∀ other, listAt other (after calendar defaultValidityPeriod storage
          (.removeById messageId index)).messages =
          if other = messageId then (listAt other storage.messages).eraseIdx index
          else listAt other storage.messages :=
        fun other => listAt_updateAt h.messages messageId (by simp) other
      rw [KeepsIndex]
      constructor
      · intro hconsistent
        by_contra hsome
        obtain ⟨stored, hstored⟩ := Option.ne_none_iff_exists'.mp hsome
        obtain ⟨hindex, rfl⟩ := List.getElem?_eq_some_iff.mp hstored
        have hcount := hconsistent (listAt messageId storage.messages)[index].userAddress messageId
        have hperm := ((List.getElem_cons_eraseIdx_perm hindex).map
          StoredMessage.userAddress).count_eq (listAt messageId storage.messages)[index].userAddress
        rw [List.map_cons, List.count_cons_self] at hperm
        rw [hlist, if_pos rfl] at hcount
        have hbefore := h.consistent
          (listAt messageId storage.messages)[index].userAddress messageId
        have hsame : (listAt (listAt messageId storage.messages)[index].userAddress
            (after calendar defaultValidityPeriod storage
              (.removeById messageId index)).userMessageIds) =
            listAt (listAt messageId storage.messages)[index].userAddress storage.userMessageIds := rfl
        rw [hsame] at hcount
        omega
      · intro hnone userAddress other
        rw [hlist]
        split
        · rename_i heq
          subst heq
          rw [List.eraseIdx_of_length_le (List.getElem?_eq_none_iff.mp hnone)]
          exact h.consistent userAddress other
        · exact h.consistent userAddress other

theorem proper_userMessageIds_after (h : Proper storage.userMessageIds) (op : StorageOp) :
    Proper (after calendar defaultValidityPeriod storage op).userMessageIds := by
  cases op with
  | save clock messageId message serial =>
      rw [after]
      split
      · rename_i hsave
        obtain ⟨_, _, -, -, -, -, -, -, rfl⟩ := save_eq_ok hsave
        exact h.push _ _
      · exact h
  | cancel cancelSm => exact proper_removeUserMessageIds h _
  | replace scheduleNow validityNow replaceSm =>
      rw [after]
      split <;> exact h
  | clean clock => exact proper_removeUserMessageIds h _
  | getDelivery scheduleClock validityClock => exact proper_removeUserMessageIds h _
  | removeById messageId index => exact h

/-- In every run whose removals take whole addresses the index agrees with the messages; and a step
from there keeps it so only if it does. -/
theorem index_consistent (calendar : Calendar) (defaultValidityPeriod : UInt32)
    {storage : InMemoryMessageStorage}
    (h : (storageSystem calendar defaultValidityPeriod).Reaches KeepsIndex storage) :
    Consistent storage ∧ ∀ op storage',
      perform calendar defaultValidityPeriod storage op = .ok storage' →
        (Consistent storage' ↔ KeepsIndex storage op) := by
  have hindexed : Indexed storage := by
    refine @System.Reaches.invariant _ _ _ _ Indexed ?_ ?_ storage h
    · exact ⟨proper_nil, proper_nil, fun _ _ => rfl⟩
    · intro storage op storage' hindexed hkeeps hstep
      obtain rfl := step_eq_some hindexed.messages hstep
      exact ⟨proper_after hindexed.messages op,
        proper_userMessageIds_after hindexed.userMessageIds op,
        (consistent_after_iff hindexed op).mpr hkeeps⟩
  refine ⟨hindexed.consistent, fun op storage' hperform => ?_⟩
  have hstep : (storageSystem calendar defaultValidityPeriod).step storage op = some storage' := by
    change (perform calendar defaultValidityPeriod storage op).toOption = _
    rw [hperform]
    rfl
  obtain rfl := step_eq_some hindexed.messages hstep
  exact consistent_after_iff hindexed op

end Consistency

section Example

/-- One message id stored for two addresses, one of them twice. -/
def submittedToThree : List StorageOp :=
  [.save ⟨0, 0, 0⟩ "m" (.object [("destination_addr", .string "49")]) 0,
    .save ⟨0, 0, 0⟩ "m" (.object [("destination_addr", .string "50")]) 1,
    .save ⟨0, 0, 0⟩ "m" (.object [("destination_addr", .string "49")]) 2]

/-- The ids of the addresses, and the addresses of the messages. -/
def indexed (storage : InMemoryMessageStorage) :
    List (String × List String) × List (String × List String) :=
  (storage.userMessageIds, storage.messages.map fun entry =>
    (entry.1, entry.2.map StoredMessage.userAddress))

/-- Both messages to 49 are cancelled. -/
theorem index_consistent_cancelled :
    ∃ storage, ((storageSystem relativeCalendar 60).runAllowed
        (fun storage op => decide (KeepsIndex storage op)) (submittedToThree ++
          [.cancel (.object [("destination_addr", .string "49")])])).map indexed =
        some (indexed storage) ∧
      indexed storage = ([("50", ["m"])], [("m", ["50"])]) ∧ Consistent storage ∧
      ∀ op storage', perform relativeCalendar 60 storage op = .ok storage' →
        (Consistent storage' ↔ KeepsIndex storage op) := by
  have hrun : ((storageSystem relativeCalendar 60).runAllowed
      (fun storage op => decide (KeepsIndex storage op)) (submittedToThree ++
        [.cancel (.object [("destination_addr", .string "49")])])).map indexed =
      some ([("50", ["m"])], [("m", ["50"])]) := by decide +kernel
  obtain ⟨storage, hstorage, hindexed⟩ := Option.map_eq_some_iff.mp hrun
  refine ⟨storage, hindexed ▸ hrun, hindexed, index_consistent relativeCalendar 60 ?_⟩
  exact (System.reaches_of_runAllowed hstorage).mono fun _ _ hkeeps => of_decide_eq_true hkeeps

/-- The handler refuses the last message: it goes, and its id stays with its address. -/
theorem not_index_consistent :
    ¬ ∀ storage, (storageSystem relativeCalendar 60).Reachable storage → Consistent storage := by
  intro h
  have hrun : ((storageSystem relativeCalendar 60).run
      (submittedToThree ++ [.removeById "m" 2])).map (fun storage =>
        ((listAt "49" storage.userMessageIds).count "m",
          ((listAt "m" storage.messages).map StoredMessage.userAddress).count "49")) =
      some (2, 1) := by decide +kernel
  obtain ⟨storage, hstorage, hcounts⟩ := Option.map_eq_some_iff.mp hrun
  obtain ⟨hids, hmessages⟩ := Prod.mk.inj hcounts
  have hsame := h storage (System.reachable_of_run hstorage) "49" "m"
  omega

end Example

end SmppHerald.UserIndex
