import Mathlib.Data.List.Nodup
import SmppHerald.InMemoryDelivery

namespace SmppHerald.HandedRemoval

open SmppHerald.InMemoryDelivery
open SmppHerald.InMemoryStorage
open SmppHerald.Io
open SmppHerald.Json
open SmppHerald.Ledger
open SmppHerald.MultiMaps
open SmppHerald.Time
open SmppHerald.TransitionSystem

section Places

/-- The messages with their places that the loop has selected and not settled. -/
def unsettled : LoopPhase → List Delivery
  | .delivering values => values
  | .handling value values => value :: values
  | .removing value values => value :: values
  | _ => []

/-- Removing by the place of a message returns, and nothing but this message is gone. -/
structure SafeRemoval (storage : InMemoryMessageStorage) (value : Delivery) : Prop where
  returns : (removeMessageById storage value.messageId value.index).isSome = true
  only : ∀ storage', removeMessageById storage value.messageId value.index = some storage' →
    ∀ serial ∈ lost storage.serials storage'.serials, serial = value.stored.serial

/-- The list of the id is gone, or the message is at its place. -/
def InPlace (storage : InMemoryMessageStorage) (value : Delivery) : Prop :=
  listAt value.messageId storage.messages = [] ∨
    (listAt value.messageId storage.messages)[value.index]?.map StoredMessage.serial =
      some value.stored.serial

/-- While a message is not settled, a cancel takes no message at or before its place out of its list,
unless it takes the whole list, and nothing is saved under its id once the list is gone. -/
def keepsPlaces (calendar : Calendar) (defaultValidityPeriod : UInt32) (s : DeliveryState) :
    DeliveryEvent → Bool
  | .cancel cancelSm =>
      (unsettled s.phase).all fun value =>
        let list := listAt value.messageId s.storage.messages
        list.all (isCancelled cancelSm value.messageId) ||
          (list.take (value.index + 1)).all fun stored =>
            !isCancelled cancelSm value.messageId stored
  | .save clock messageId message =>
      match save calendar defaultValidityPeriod clock s.storage messageId message s.nextSerial with
      | .ok _ => (unsettled s.phase).all fun value =>
          value.messageId != messageId || !(listAt messageId s.storage.messages).isEmpty
      | _ => true
  | _ => true

variable {calendar : Calendar} {defaultValidityPeriod : UInt32} {storage : InMemoryMessageStorage}
  {s s' : DeliveryState}

theorem removeMessageById_perm {messageId : String} {index : Nat} {list : List StoredMessage}
    (hfind : find messageId storage.messages = some list) (hindex : index < list.length) :
    ∃ storage', removeMessageById storage messageId index = some storage' ∧
      storage.serials.Perm (list[index].serial :: storage'.serials) := by
  rw [removeMessageById, hfind]
  simp only
  rw [if_pos hindex]
  refine ⟨_, rfl, ?_⟩
  obtain ⟨front, back, hitems, hupdate⟩ :=
    items_updateAt_of_find hfind fun list => list.eraseIdx index
  have hlist := List.getElem_cons_eraseIdx_perm hindex
  have hperm : (items storage.messages).Perm
      (list[index] :: (front ++ list.eraseIdx index ++ back)) := by
    rw [hitems, List.append_assoc, List.append_assoc]
    exact ((hlist.symm.append_right back).append_left front).trans List.perm_middle
  rw [← hupdate] at hperm
  exact hperm.map StoredMessage.serial

theorem safeRemoval_iff (h : Proper storage.messages) (honce : storage.serials.Nodup)
    {value : Delivery} : SafeRemoval storage value ↔ InPlace storage value := by
  cases hfind : find value.messageId storage.messages with
  | none =>
      have hsame : removeMessageById storage value.messageId value.index = some storage := by
        rw [removeMessageById, hfind]
      refine iff_of_true ⟨by rw [hsame]; rfl, ?_⟩ (.inl (by rw [listAt, hfind]; rfl))
      intro storage' hremove serial hserial
      obtain rfl := Option.some.inj (hsame.symm.trans hremove)
      simp [lost] at hserial
  | some list =>
      obtain ⟨hlist, hnonempty⟩ := (find_eq_some_iff h).mp hfind
      rw [InPlace, hlist]
      by_cases hindex : value.index < list.length
      · obtain ⟨storage', hremove, hperm⟩ := removeMessageById_perm hfind hindex
        have hgone : ∀ serial, serial ∈ lost storage.serials storage'.serials ↔
            serial = list[value.index].serial := by
          intro serial
          have hnodup := List.nodup_cons.mp (hperm.nodup_iff.mp honce)
          rw [lost, List.mem_filter, hperm.mem_iff, List.mem_cons, decide_eq_true_eq]
          constructor
          · rintro ⟨rfl | hmem, hnot⟩
            · rfl
            · exact absurd hmem hnot
          · rintro rfl
            exact ⟨.inl rfl, hnodup.1⟩
        have hplace : list[value.index]?.map StoredMessage.serial =
            some list[value.index].serial := by
          rw [List.getElem?_eq_getElem hindex, Option.map_some]
        rw [hplace, Option.some.injEq]
        constructor
        · intro hsafe
          exact .inr (hsafe.only storage' hremove _ ((hgone _).mpr rfl))
        · rintro (hnil | hserial)
          · exact absurd hnil hnonempty
          · refine ⟨by rw [hremove]; rfl, fun storage'' hremove' serial hserial' => ?_⟩
            obtain rfl := Option.some.inj (hremove.symm.trans hremove')
            exact ((hgone serial).mp hserial').trans hserial
      · have hpanic : removeMessageById storage value.messageId value.index = none := by
          rw [removeMessageById, hfind]
          exact if_neg hindex
        refine iff_of_false ?_ ?_
        · intro hsafe
          have hreturns := hsafe.returns
          simp [hpanic] at hreturns
        · rintro (hnil | hserial)
          · exact hnonempty hnil
          · simp [List.getElem?_eq_none (Nat.le_of_not_lt hindex)] at hserial

end Places

section Steps

variable {calendar : Calendar} {defaultValidityPeriod : UInt32}
  {storage storage' : InMemoryMessageStorage} {value : Delivery}

theorem InPlace.save (hplace : InPlace storage value) {clock : SaveClock} {messageId : String}
    {message : Value} {serial : Nat}
    (hsave : save calendar defaultValidityPeriod clock storage messageId message serial =
      .ok storage')
    (hother : value.messageId ≠ messageId ∨ listAt messageId storage.messages ≠ []) :
    InPlace storage' value := by
  obtain ⟨_, _, -, -, -, -, -, -, rfl⟩ := save_eq_ok hsave
  rw [InPlace] at hplace ⊢
  simp only [listAt_push]
  split
  · rename_i hid
    rw [← hid] at hother
    have hnonempty := hother.resolve_left (fun hne => hne rfl)
    have hserial := hplace.resolve_left hnonempty
    have hindex : value.index < (listAt value.messageId storage.messages).length := by
      by_contra hnot
      simp [List.getElem?_eq_none (Nat.le_of_not_lt hnot)] at hserial
    right
    rw [List.getElem?_append_left hindex, hserial]
  · exact hplace

theorem getElem?_filter_of_take {α : Type} {p : α → Bool} {list : List α} {index : Nat}
    (h : (list.take (index + 1)).all p = true) : (list.filter p)[index]? = list[index]? := by
  induction list generalizing index with
  | nil => rfl
  | cons item list ih =>
      rw [List.take_succ_cons, List.all_cons, Bool.and_eq_true] at h
      rw [List.filter_cons_of_pos h.1]
      cases index with
      | zero => rfl
      | succ index => exact ih h.2

theorem proper_removeWhere (h : Proper storage.messages) (removes : String → StoredMessage → Bool) :
    Proper (removeWhere storage removes).messages :=
  h.mapLists fun messageId list => list.filter fun stored => !removes messageId stored

theorem listAt_cancelMessage (h : Proper storage.messages) (cancelSm : Value) (messageId : String) :
    listAt messageId (cancelMessage storage cancelSm).1.messages =
      (listAt messageId storage.messages).filter fun stored =>
        !isCancelled cancelSm messageId stored :=
  @listAt_mapLists _ _ _ _ h (fun messageId list =>
    list.filter fun stored => !isCancelled cancelSm messageId stored) (fun _ => rfl) messageId

theorem InPlace.cancel (h : Proper storage.messages) (hplace : InPlace storage value)
    {cancelSm : Value}
    (hkeeps : (listAt value.messageId storage.messages).all
        (isCancelled cancelSm value.messageId) = true ∨
      ((listAt value.messageId storage.messages).take (value.index + 1)).all (fun stored =>
        !isCancelled cancelSm value.messageId stored) = true) :
    InPlace (cancelMessage storage cancelSm).1 value := by
  rw [InPlace, listAt_cancelMessage h]
  rcases hkeeps with hall | hfront
  · left
    rw [List.filter_eq_nil_iff]
    intro stored hstored
    simp [List.all_eq_true.mp hall stored hstored]
  · rw [getElem?_filter_of_take hfront]
    refine hplace.imp_left fun hnil => ?_
    rw [hnil]
    rfl

theorem InPlace.replace (h : Proper storage.messages) (hplace : InPlace storage value)
    {scheduleNow validityNow : Instant} {replaceSm : Value} {replaced : Bool}
    (hreplace : replaceMessage calendar scheduleNow validityNow storage replaceSm =
      .ok (storage', replaced)) : InPlace storage' value := by
  obtain ⟨schedule, validity, -, -, rfl⟩ := replaceMessage_eq_ok hreplace
  have hlist := @listAt_updateAt _ _ _ _ h (replaceSm.strField "message_id")
    (fun list => list.map (replaceStored replaceSm schedule validity)) rfl value.messageId
  rw [InPlace] at hplace ⊢
  rw [hlist]
  split
  · rw [List.map_eq_nil_iff, List.getElem?_map, Option.map_map]
    have hserial : StoredMessage.serial ∘ replaceStored replaceSm schedule validity =
        StoredMessage.serial := by
      funext stored
      exact serial_replaceStored replaceSm schedule validity stored
    rw [hserial]
    exact hplace
  · exact hplace

/-- The index at which the loop stops is the one of the message in what is left of its list. -/
theorem selectDelivery_getElem? {clock : SweepClock} {list : List StoredMessage} {index : Nat}
    {found : StoredMessage} (h : (selectDelivery clock list).2.2 = some (index, found)) :
    (selectDelivery clock list).1[index]? = some found := by
  induction list generalizing index with
  | nil => simp [selectDelivery] at h
  | cons stored list ih =>
      unfold selectDelivery at h ⊢
      split at h
      · rename_i left removed index' found' heq
        simp only [Option.some.injEq, Prod.mk.injEq] at h
        obtain ⟨rfl, rfl⟩ := h
        simpa [heq] using @ih index' (by rw [heq])
      · rename_i left removed heq
        split at h
        · cases h
        · split at h
          · cases h
          · rename_i hfuture hexpired
            simp only [Option.some.injEq, Prod.mk.injEq] at h
            obtain ⟨rfl, rfl⟩ := h
            simp [hfuture, hexpired]

theorem inPlace_deliveries (h : Proper storage.messages) {clock : SweepClock}
    (hvalue : value ∈ deliveries clock storage.messages) :
    InPlace (getDeliveryMessages storage clock).1 value := by
  obtain ⟨entry, hentry, hfound⟩ := List.mem_filterMap.mp hvalue
  obtain ⟨found, hselect, rfl⟩ := Option.map_eq_some_iff.mp hfound
  have hlist : listAt entry.1 (getDeliveryMessages storage clock).1.messages =
      (selectDelivery clock (listAt entry.1 storage.messages)).1 :=
    @listAt_mapLists _ _ _ _ h (fun _ list => (selectDelivery clock list).1) (fun _ => rfl) entry.1
  right
  rw [hlist, listAt_of_mem h hentry, selectDelivery_getElem? hselect]
  rfl

theorem nodup_deliveries (h : Proper storage.messages) (clock : SweepClock) :
    ((deliveries clock storage.messages).map Delivery.messageId).Nodup := by
  refine h.keys.sublist (keys_filterMap_sublist ?_ storage.messages)
  intro entry value hvalue
  obtain ⟨found, -, rfl⟩ := Option.map_eq_some_iff.mp hvalue
  rfl

theorem listAt_removeMessageById (h : Proper storage.messages) {messageId other : String}
    {index : Nat} (hother : other ≠ messageId)
    (hremove : removeMessageById storage messageId index = some storage') :
    listAt other storage'.messages = listAt other storage.messages := by
  rw [removeMessageById] at hremove
  split at hremove
  · obtain rfl := Option.some.inj hremove
    rfl
  · split at hremove
    · obtain rfl := Option.some.inj hremove
      have hlist := @listAt_updateAt _ _ _ _ h messageId (fun list => list.eraseIdx index)
        (by simp) other
      exact hlist.trans (if_neg hother)
    · cases hremove

end Steps

section Runs

/-- Messages are told apart by their serials, no two that are not settled have one id, and each is
in its place. -/
structure Settling (storage : InMemoryMessageStorage) (nextSerial : Nat) (phase : LoopPhase) :
    Prop where
  proper : Proper storage.messages
  storedOnce : storage.serials.Nodup
  storedBelow : ∀ serial ∈ storage.serials, serial < nextSerial
  ids : ((unsettled phase).map Delivery.messageId).Nodup
  placed : ∀ value ∈ unsettled phase, InPlace storage value
  below : ∀ value ∈ unsettled phase, value.stored.serial < nextSerial

variable {calendar : Calendar} {defaultValidityPeriod : UInt32}
  {storage storage' : InMemoryMessageStorage} {nextSerial : Nat} {phase phase' : LoopPhase}

theorem Settling.store (h : Settling storage nextSerial phase) (hproper : Proper storage'.messages)
    (hsub : storage'.serials.Sublist storage.serials)
    (hplaced : ∀ value ∈ unsettled phase, InPlace storage' value) :
    Settling storage' nextSerial phase where
  proper := hproper
  storedOnce := hsub.nodup h.storedOnce
  storedBelow := fun serial hserial => h.storedBelow serial (hsub.subset hserial)
  ids := h.ids
  placed := hplaced
  below := h.below

theorem Settling.settle (h : Settling storage nextSerial phase)
    (hsub : (unsettled phase').Sublist (unsettled phase)) : Settling storage nextSerial phase' where
  proper := h.proper
  storedOnce := h.storedOnce
  storedBelow := h.storedBelow
  ids := (hsub.map _).nodup h.ids
  placed := fun value hvalue => h.placed value (hsub.subset hvalue)
  below := fun value hvalue => h.below value (hsub.subset hvalue)

theorem Settling.save {s : DeliveryState} (h : Settling s.storage s.nextSerial s.phase)
    {clock : SaveClock} {messageId : String} {message : Value}
    (hsave : save calendar defaultValidityPeriod clock s.storage messageId message s.nextSerial =
      .ok storage')
    (hkeeps : keepsPlaces calendar defaultValidityPeriod s (.save clock messageId message) = true) :
    Settling storage' (s.nextSerial + 1) s.phase := by
  have hperm := serials_save hsave
  have hfresh : s.nextSerial ∉ s.storage.serials :=
    fun hmem => absurd (h.storedBelow _ hmem) (Nat.lt_irrefl _)
  simp only [keepsPlaces, hsave, List.all_eq_true, Bool.or_eq_true, bne_iff_ne, Bool.not_eq_true',
    List.isEmpty_eq_false_iff] at hkeeps
  constructor
  · obtain ⟨_, _, -, -, -, -, -, -, rfl⟩ := save_eq_ok hsave
    exact h.proper.push _ _
  · exact hperm.nodup_iff.mpr (List.nodup_cons.mpr ⟨hfresh, h.storedOnce⟩)
  · intro serial hserial
    rcases List.mem_cons.mp (hperm.subset hserial) with rfl | hbefore
    · exact Nat.lt_succ_self _
    · exact Nat.lt_succ_of_lt (h.storedBelow serial hbefore)
  · exact h.ids
  · exact fun value hvalue => (h.placed value hvalue).save hsave (hkeeps value hvalue)
  · exact fun value hvalue => Nat.lt_succ_of_lt (h.below value hvalue)

theorem Settling.cancel {s : DeliveryState} (h : Settling s.storage s.nextSerial s.phase)
    {cancelSm : Value}
    (hkeeps : keepsPlaces calendar defaultValidityPeriod s (.cancel cancelSm) = true) :
    Settling (cancelMessage s.storage cancelSm).1 s.nextSerial s.phase := by
  simp only [keepsPlaces, List.all_eq_true (l := unsettled s.phase), Bool.or_eq_true] at hkeeps
  refine h.store (proper_removeWhere h.proper _) (serials_removeWhere _ _) fun value hvalue => ?_
  exact (h.placed value hvalue).cancel h.proper (hkeeps value hvalue)

theorem Settling.deliveryTick (h : Settling storage nextSerial .waiting) (clock : SweepClock)
    {order : List Nat}
    (horder : order.Perm (List.range (deliveries clock storage.messages).length)) :
    Settling (getDeliveryMessages storage clock).1 nextSerial
      (.delivering (order.filterMap fun i => (deliveries clock storage.messages)[i]?)) := by
  have hperm := perm_filterMap_getElem? horder
  have hproper : Proper (getDeliveryMessages storage clock).1.messages :=
    h.proper.mapLists fun _ list => (selectDelivery clock list).1
  have hstored := h.store hproper (serials_getDeliveryMessages storage clock) (by simp [unsettled])
  exact {
    proper := hstored.proper
    storedOnce := hstored.storedOnce
    storedBelow := hstored.storedBelow
    ids := (hperm.map _).nodup_iff.mpr (nodup_deliveries h.proper clock)
    placed := fun value hvalue => inPlace_deliveries h.proper (hperm.subset hvalue)
    below := by
      intro value hvalue
      have hsub := (deliveries_sublist clock storage.messages).map StoredMessage.serial
      rw [List.map_map] at hsub
      exact h.storedBelow _ (hsub.subset (List.mem_map_of_mem (hperm.subset hvalue))) }

theorem Settling.remove {value : Delivery} {values : List Delivery}
    (h : Settling storage nextSerial (.removing value values))
    (hremove : removeMessageById storage value.messageId value.index = some storage') :
    Settling storage' nextSerial (.delivering values) := by
  have hids := List.nodup_cons.mp h.ids
  have hrest : Settling storage nextSerial (.delivering values) :=
    h.settle (List.sublist_cons_self _ _)
  refine hrest.store (proper_removeMessageById h.proper hremove)
    (serials_removeMessageById hremove).1 fun other hother => ?_
  have hne : other.messageId ≠ value.messageId :=
    fun hsame => hids.1 (hsame ▸ List.mem_map_of_mem hother)
  rw [InPlace, listAt_removeMessageById h.proper hne hremove]
  exact hrest.placed other hother

theorem Settling.step {s s' : DeliveryState} {event : DeliveryEvent}
    (h : Settling s.storage s.nextSerial s.phase)
    (hkeeps : keepsPlaces calendar defaultValidityPeriod s event = true)
    (hstep : s.step calendar defaultValidityPeriod event = some s') :
    Settling s'.storage s'.nextSerial s'.phase := by
  cases deliveryMoves_of_step hstep with
  | saved hsave => exact h.save hsave hkeeps
  | notSaved => exact h
  | cancelled => exact h.cancel hkeeps
  | replaced hreplace =>
      have hserials := serials_replaceMessage hreplace
      refine h.store ?_ (hserials ▸ List.Sublist.refl _) fun value hvalue =>
        (h.placed value hvalue).replace h.proper hreplace
      obtain ⟨_, _, -, -, rfl⟩ := replaceMessage_eq_ok hreplace
      exact h.proper.updateAt _ _
  | notReplaced => exact h
  | cleaned hphase =>
      refine h.store (proper_removeWhere h.proper _) (serials_removeWhere _ _) ?_
      simp [DeliveryState.withdraw, hphase, unsettled]
  | selected hphase horder => exact (hphase ▸ h).deliveryTick _ horder
  | ended _ => exact h.settle (List.nil_sublist _)
  | taken hphase =>
      refine h.settle ?_
      rw [hphase]
      exact List.Sublist.refl _
  | succeeded hphase =>
      refine h.settle ?_
      rw [hphase]
      exact List.sublist_cons_self _ _
  | failed hphase =>
      refine h.settle ?_
      rw [hphase]
      exact List.Sublist.refl _
  | panicked _ => exact h.settle (List.nil_sublist _)
  | removed hphase hremove => exact (hphase ▸ h).remove hremove
  | notRemoved _ => exact h.settle (List.nil_sublist _)

end Runs

section Misplaced

variable {calendar : Calendar} {defaultValidityPeriod : UInt32}
  {storage storage' : InMemoryMessageStorage} {nextSerial : Nat} {value : Delivery}

theorem take_all_of_getElem?_filter {α ι : Type} {id : α → ι} {p : α → Bool} {list : List α}
    (honce : (list.map id).Nodup) {index : Nat} {i : ι}
    (hfilter : (list.filter p)[index]?.map id = some i) (hlist : list[index]?.map id = some i) :
    (list.take (index + 1)).all p = true := by
  obtain ⟨item, hitem, rfl⟩ := Option.map_eq_some_iff.mp hlist
  obtain ⟨other, hother, hsame⟩ := Option.map_eq_some_iff.mp hfilter
  obtain ⟨hindex, rfl⟩ := List.getElem?_eq_some_iff.mp hitem
  obtain ⟨hmem, hkept⟩ := List.mem_filter.mp (List.mem_of_getElem? hother)
  obtain rfl := List.inj_on_of_nodup_map honce hmem (List.getElem_mem hindex) hsame
  -- the item comes after what is left of the items before it
  have hsplit : list.filter p =
      (list.take index).filter p ++ list[index] :: (list.drop (index + 1)).filter p := by
    conv_lhs => rw [← List.take_append_drop index list, List.drop_eq_getElem_cons hindex]
    rw [List.filter_append, List.filter_cons_of_pos hkept]
  have hplace : ((list.filter p).map id)[((list.take index).filter p).length]? =
      ((list.filter p).map id)[index]? := by
    rw [List.getElem?_map, List.getElem?_map, hother, hsplit]
    simp
  have hlength : ((list.take index).filter p).length = index := by
    refine (List.getElem?_inj ?_ ((List.filter_sublist.map id).nodup honce)).mp hplace
    rw [hsplit]
    simp
  have hbefore : ∀ item ∈ list.take index, p item = true := by
    rw [← List.length_filter_eq_length_iff, hlength, List.length_take_of_le (Nat.le_of_lt hindex)]
  rw [List.take_succ_eq_append_getElem hindex, List.all_append, Bool.and_eq_true]
  exact ⟨List.all_eq_true.mpr hbefore, by simpa using hkept⟩

theorem nodup_serials_listAt (honce : storage.serials.Nodup) (messageId : String) :
    ((listAt messageId storage.messages).map StoredMessage.serial).Nodup := by
  cases hfind : find messageId storage.messages with
  | none => simp [listAt, hfind]
  | some list =>
      have hmem := mem_of_find_eq_some hfind
      have hsub : list.Sublist (items storage.messages) :=
        List.sublist_flatten_of_mem (List.mem_map_of_mem hmem)
      rw [listAt, hfind]
      exact (hsub.map StoredMessage.serial).nodup honce

theorem not_inPlace_cancel (h : Proper storage.messages) (honce : storage.serials.Nodup)
    (hplace : InPlace storage value) {cancelSm : Value}
    (hsome : (listAt value.messageId storage.messages).all
      (isCancelled cancelSm value.messageId) = false)
    (hfront : ((listAt value.messageId storage.messages).take (value.index + 1)).all (fun stored =>
      !isCancelled cancelSm value.messageId stored) = false) :
    ¬ InPlace (cancelMessage storage cancelSm).1 value := by
  have hnonempty : listAt value.messageId storage.messages ≠ [] := by
    intro hnil
    simp [hnil] at hsome
  have hserial := hplace.resolve_left hnonempty
  rw [InPlace, listAt_cancelMessage h]
  rintro (hnil | hsame)
  · rw [List.filter_eq_nil_iff] at hnil
    have hall : (listAt value.messageId storage.messages).all
        (isCancelled cancelSm value.messageId) = true :=
      List.all_eq_true.mpr fun stored hstored => by simpa using hnil stored hstored
    rw [hsome] at hall
    cases hall
  · have hkept := take_all_of_getElem?_filter (nodup_serials_listAt honce value.messageId) hsame
      hserial
    rw [hfront] at hkept
    cases hkept

theorem not_inPlace_save {clock : SaveClock} {messageId : String} {message : Value}
    (hsave : save calendar defaultValidityPeriod clock storage messageId message nextSerial =
      .ok storage') (hid : value.messageId = messageId)
    (hgone : listAt messageId storage.messages = [])
    (hbelow : value.stored.serial < nextSerial) : ¬ InPlace storage' value := by
  obtain ⟨_, _, -, -, -, -, -, -, rfl⟩ := save_eq_ok hsave
  rw [InPlace]
  simp only [listAt_push]
  rw [if_pos hid, hid, hgone, List.nil_append]
  rintro (hnil | hserial)
  · cases hnil
  · obtain ⟨stored, hstored, hsame⟩ := Option.map_eq_some_iff.mp hserial
    obtain rfl := List.mem_singleton.mp (List.mem_of_getElem? hstored)
    exact absurd hsame (Nat.ne_of_gt hbelow)

/-- A request that does not keep the places leaves one to another message. -/
theorem exists_not_inPlace {s s' : DeliveryState} {event : DeliveryEvent}
    (h : Settling s.storage s.nextSerial s.phase)
    (hkeeps : keepsPlaces calendar defaultValidityPeriod s event = false)
    (hstep : s.step calendar defaultValidityPeriod event = some s') :
    Proper s'.storage.messages ∧ s'.storage.serials.Nodup ∧
      ((unsettled s'.phase).map Delivery.messageId).Nodup ∧
        ∃ value ∈ unsettled s'.phase, ¬ InPlace s'.storage value := by
  cases event with
  | cancel cancelSm =>
      obtain rfl := Option.some.inj hstep
      rw [keepsPlaces, List.all_eq_false] at hkeeps
      obtain ⟨value, hvalue, hbroken⟩ := hkeeps
      rw [Bool.not_eq_true, Bool.or_eq_false_iff] at hbroken
      exact ⟨proper_removeWhere h.proper _, (serials_removeWhere _ _).nodup h.storedOnce, h.ids,
        value, hvalue, not_inPlace_cancel h.proper h.storedOnce (h.placed value hvalue) hbroken.1
          hbroken.2⟩
  | save clock messageId message =>
      simp only [keepsPlaces] at hkeeps
      cases hsave : save calendar defaultValidityPeriod clock s.storage messageId message
          s.nextSerial with
      | err e => simp [hsave] at hkeeps
      | panicked => simp [hsave] at hkeeps
      | ok storage =>
          simp only [hsave] at hkeeps
          rw [List.all_eq_false] at hkeeps
          obtain ⟨value, hvalue, hbroken⟩ := hkeeps
          simp only [Bool.or_eq_true, bne_iff_ne, Bool.not_eq_true', List.isEmpty_eq_false_iff,
            not_or, not_not] at hbroken
          simp only [DeliveryState.step, hsave, Option.some.injEq] at hstep
          obtain rfl := hstep
          have hperm := serials_save hsave
          have hfresh : s.nextSerial ∉ s.storage.serials :=
            fun hmem => absurd (h.storedBelow _ hmem) (Nat.lt_irrefl _)
          refine ⟨?_, hperm.nodup_iff.mpr (List.nodup_cons.mpr ⟨hfresh, h.storedOnce⟩), h.ids, value,
            hvalue, not_inPlace_save hsave hbroken.1 hbroken.2 (h.below value hvalue)⟩
          obtain ⟨_, _, -, -, -, -, -, -, rfl⟩ := save_eq_ok hsave
          exact h.proper.push _ _
  | _ => simp [keepsPlaces] at hkeeps

/-- A run leads from one state to another. -/
def Leads (calendar : Calendar) (defaultValidityPeriod : UInt32) (s s' : DeliveryState) : Prop :=
  ∃ events, List.foldlM (DeliveryState.step calendar defaultValidityPeriod) s events = some s'

theorem Leads.cons {s s' s'' : DeliveryState} {event : DeliveryEvent}
    (hstep : s.step calendar defaultValidityPeriod event = some s')
    (h : Leads calendar defaultValidityPeriod s' s'') :
    Leads calendar defaultValidityPeriod s s'' := by
  obtain ⟨events, hrun⟩ := h
  refine ⟨event :: events, ?_⟩
  rw [List.foldlM_cons, hstep]
  exact hrun

theorem leads_delivering {s : DeliveryState} {values : List Delivery}
    (hphase : s.phase = .delivering values) (hvalue : value ∈ values) :
    ∃ s' values', Leads calendar defaultValidityPeriod s s' ∧
      s'.phase = .removing value values' ∧ s'.storage = s.storage := by
  induction values generalizing s with
  | nil => cases hvalue
  | cons first values ih =>
      have hnext : s.step calendar defaultValidityPeriod .next =
          some { s with phase := .handling first values } := by
        simp [DeliveryState.step, hphase]
      rcases List.mem_cons.mp hvalue with rfl | hlater
      · refine ⟨_, values, .cons hnext (@Leads.cons _ _ _ _ _ (.handled (.err (otherError ""))) rfl
          ⟨[], rfl⟩), rfl, rfl⟩
      · obtain ⟨s', values', hleads, hremoving, hstorage⟩ := @ih
          { s with
            phase := .delivering values, delivered := first.stored.serial :: s.delivered } rfl hlater
        exact ⟨s', values', .cons hnext (@Leads.cons _ _ _ _ _ (.handled (.ok ())) rfl hleads),
          hremoving, hstorage⟩

/-- A message that is not in its place may come to be removed by it, or another one before it. -/
theorem leads_not_safeRemoval {s : DeliveryState} (hproper : Proper s.storage.messages)
    (honce : s.storage.serials.Nodup) (hids : ((unsettled s.phase).map Delivery.messageId).Nodup)
    (hvalue : value ∈ unsettled s.phase) (hplace : ¬ InPlace s.storage value) :
    ∃ s' value' values', Leads calendar defaultValidityPeriod s s' ∧
      s'.phase = .removing value' values' ∧ ¬ SafeRemoval s'.storage value' := by
  have hfrom : ∀ (s : DeliveryState) (values : List Delivery), Proper s.storage.messages →
      s.storage.serials.Nodup → s.phase = .delivering values → value ∈ values →
        ¬ InPlace s.storage value →
      ∃ s' value' values', Leads calendar defaultValidityPeriod s s' ∧
        s'.phase = .removing value' values' ∧ ¬ SafeRemoval s'.storage value' := by
    intro s values hproper honce hphase hmem hplace
    obtain ⟨s', values', hleads, hremoving, hstorage⟩ :=
      @leads_delivering calendar defaultValidityPeriod value s values hphase hmem
    refine ⟨s', value, values', hleads, hremoving, ?_⟩
    rw [hstorage, safeRemoval_iff hproper honce]
    exact hplace
  cases hphase : s.phase with
  | waiting => simp [hphase, unsettled] at hvalue
  | panicked => simp [hphase, unsettled] at hvalue
  | delivering values =>
      rw [hphase] at hvalue
      exact hfrom s values hproper honce hphase hvalue hplace
  | handling first values =>
      rw [hphase] at hvalue hids
      rcases List.mem_cons.mp hvalue with rfl | hlater
      · have hstep : s.step calendar defaultValidityPeriod (.handled (.err (otherError ""))) =
            some { s with
              phase := .removing value values, failed := value.stored.serial :: s.failed } := by
          simp [DeliveryState.step, hphase]
        refine ⟨_, value, values, .cons hstep ⟨[], rfl⟩, rfl, ?_⟩
        rw [safeRemoval_iff hproper honce]
        exact hplace
      · have hstep : s.step calendar defaultValidityPeriod (.handled (.ok ())) =
            some { s with
              phase := .delivering values
              delivered := first.stored.serial :: s.delivered } := by
          simp [DeliveryState.step, hphase]
        obtain ⟨s', value', values', hleads, hrest⟩ := hfrom
          { s with
            phase := .delivering values, delivered := first.stored.serial :: s.delivered }
          values hproper honce rfl hlater hplace
        exact ⟨s', value', values', .cons hstep hleads, hrest⟩
  | removing first values =>
      rw [hphase] at hvalue hids
      have hfirst := @safeRemoval_iff s.storage hproper honce first
      by_cases hsafe : SafeRemoval s.storage first
      · have hlater : value ∈ values := by
          rcases List.mem_cons.mp hvalue with rfl | hlater
          · exact absurd (hfirst.mp hsafe) hplace
          · exact hlater
        obtain ⟨storage, hremove⟩ := Option.isSome_iff_exists.mp hsafe.returns
        have hstep : s.step calendar defaultValidityPeriod .remove =
            some { s with storage := storage, phase := .delivering values } := by
          simp [DeliveryState.step, hphase, hremove]
        have hne : value.messageId ≠ first.messageId :=
          fun hsame => (List.nodup_cons.mp hids).1 (hsame ▸ List.mem_map_of_mem hlater)
        rw [InPlace, ← listAt_removeMessageById hproper hne hremove] at hplace
        obtain ⟨s', value', values', hleads, hrest⟩ := hfrom
          { s with storage := storage, phase := .delivering values } values
          (proper_removeMessageById hproper hremove)
          ((serials_removeMessageById hremove).1.nodup honce) rfl hlater hplace
        exact ⟨s', value', values', .cons hstep hleads, hrest⟩
      · exact ⟨s, first, values, ⟨[], rfl⟩, hphase, hsafe⟩

end Misplaced

section Main

theorem settling_initial (calendar : Calendar) (defaultValidityPeriod : UInt32) :
    Settling (deliverySystem calendar defaultValidityPeriod).initial.storage
      (deliverySystem calendar defaultValidityPeriod).initial.nextSerial
      (deliverySystem calendar defaultValidityPeriod).initial.phase := by
  constructor <;> simp [deliverySystem, InMemoryMessageStorage.new, InMemoryMessageStorage.serials,
    items, unsettled, proper_nil]

/-- In every run whose requests keep the places, a message that the handler has refused is removed
by its place and nothing else is. A request that does not keep them may be followed by steps that
come to another removal or a panic. -/
theorem removal_takes_handed (calendar : Calendar) (defaultValidityPeriod : UInt32)
    {s : DeliveryState} (h : (deliverySystem calendar defaultValidityPeriod).Reaches
      (fun s event => keepsPlaces calendar defaultValidityPeriod s event = true) s) :
    (∀ value values, s.phase = .removing value values → SafeRemoval s.storage value) ∧
      ∀ event s', s.step calendar defaultValidityPeriod event = some s' →
        keepsPlaces calendar defaultValidityPeriod s event = false →
          ∃ s'' value values, Leads calendar defaultValidityPeriod s' s'' ∧
            s''.phase = .removing value values ∧ ¬ SafeRemoval s''.storage value := by
  have hsettling : Settling s.storage s.nextSerial s.phase := by
    refine @System.Reaches.invariant _ _ _ _
      (fun s : DeliveryState => Settling s.storage s.nextSerial s.phase)
      (settling_initial calendar defaultValidityPeriod) ?_ s h
    exact fun s event s' hsettling hkeeps hstep => hsettling.step hkeeps hstep
  refine ⟨fun value values hphase => ?_, fun event s' hstep hkeeps => ?_⟩
  · rw [safeRemoval_iff hsettling.proper hsettling.storedOnce]
    apply hsettling.placed
    rw [hphase]
    exact List.mem_cons_self
  · obtain ⟨hproper, honce, hids, value, hvalue, hplace⟩ := exists_not_inPlace hsettling hkeeps hstep
    exact leads_not_safeRemoval hproper honce hids hvalue hplace

/-- Two messages under one id, of which the second is handed over. -/
def secondHandedOver : List DeliveryEvent :=
  [.save ⟨0, 0, 0⟩ "m" (.object [("destination_addr", .string "49")]),
    .save ⟨0, 0, 0⟩ "m" (.object [("destination_addr", .string "50")]), .deliveryTick (.still 0) [0],
    .next]

/-- A third message is saved under the id while the handler has the second. -/
theorem removal_takes_handed_saved :
    ∃ s, ((deliverySystem relativeCalendar 60).runAllowed (keepsPlaces relativeCalendar 60)
        (secondHandedOver ++ [.save ⟨0, 0, 0⟩ "m" (.object [("destination_addr", .string "51")]),
          .handled (.err (otherError "no client"))])).map observed = some (observed s) ∧
      observed s = (([], [1], []), [0, 1, 2], []) ∧
      (∀ value values, s.phase = .removing value values → SafeRemoval s.storage value) ∧
        ∀ event s', s.step relativeCalendar 60 event = some s' →
          keepsPlaces relativeCalendar 60 s event = false →
            ∃ s'' value values, Leads relativeCalendar 60 s' s'' ∧
              s''.phase = .removing value values ∧ ¬ SafeRemoval s''.storage value := by
  have hrun : ((deliverySystem relativeCalendar 60).runAllowed (keepsPlaces relativeCalendar 60)
      (secondHandedOver ++ [.save ⟨0, 0, 0⟩ "m" (.object [("destination_addr", .string "51")]),
        .handled (.err (otherError "no client"))])).map observed =
      some (([], [1], []), [0, 1, 2], []) := by decide +kernel
  obtain ⟨s, hs, hobserved⟩ := Option.map_eq_some_iff.mp hrun
  exact ⟨s, hobserved ▸ hrun, hobserved,
    removal_takes_handed relativeCalendar 60 (System.reaches_of_runAllowed hs)⟩

/-- Whether the removal that comes next returns. -/
def nextRemovalReturns (s : DeliveryState) : Option Bool :=
  match s.phase with
  | .removing value _ => some (removeMessageById s.storage value.messageId value.index).isSome
  | _ => none

/-- The first message is cancelled while the handler has the second, which it refuses: the index is
out of range. -/
theorem not_removal_takes_handed :
    ¬ ∀ s, (deliverySystem relativeCalendar 60).Reachable s →
      ∀ value values, s.phase = .removing value values → SafeRemoval s.storage value := by
  intro h
  have hrun : ((deliverySystem relativeCalendar 60).run (secondHandedOver ++
      [.cancel (.object [("destination_addr", .string "49")]),
        .handled (.err (otherError "no client"))])).map nextRemovalReturns = some (some false) := by
    decide +kernel
  obtain ⟨s, hs, hphase⟩ := Option.map_eq_some_iff.mp hrun
  unfold nextRemovalReturns at hphase
  split at hphase
  · rename_i value values hremoving
    have hreturns := (h s (System.reachable_of_run hs) value values hremoving).returns
    rw [Option.some.inj hphase] at hreturns
    cases hreturns
  · cases hphase

end Main

end SmppHerald.HandedRemoval
