import Mathlib.Logic.Function.Basic
import Mathlib.Tactic.SplitIfs

/-!
Tables of one-shot callbacks. Whoever waits for something that comes with a key leaves a callback
under that key; the first delivery with the key takes the callback out and calls it. A wait ends
when it takes what its callback was called with, or when it expires.
-/

namespace SmppHerald.Callbacks

/-- What came with a key; deliveries are numbered in their order. -/
structure Delivery (κ β : Type) where
  index : Nat
  key : κ
  value : β

/-- A wait that is `expiring` has given up but not returned. -/
inductive Status
  | waiting | completed | closed | expiring | expired
deriving DecidableEq, Repr

/-- A wait: what its callback was called with, whether the callback was dropped, and how many
deliveries there were when it was registered and when it expired. -/
structure Wait (κ β : Type) where
  key : κ
  since : Nat
  sent : Option (Delivery κ β) := none
  orphaned : Bool := false
  status : Status := .waiting
  expiredAt : Option Nat := none

variable {κ β : Type}

namespace Wait

/-- The wait has not returned. -/
def Open (w : Wait κ β) : Prop := w.status = .waiting ∨ w.status = .expiring

instance (w : Wait κ β) : Decidable w.Open := inferInstanceAs (Decidable (_ ∨ _))

/-- The callback is called. Nothing is received by a wait that has given up. -/
def accept (delivery : Delivery κ β) (w : Wait κ β) : Wait κ β :=
  if w.status = .waiting then { w with sent := some delivery } else w

def orphan (w : Wait κ β) : Wait κ β := { w with orphaned := true }

/-- The wait looks for what its callback was called with. -/
def take (w : Wait κ β) : Wait κ β :=
  if w.status = .waiting then
    if w.sent.isSome = true then { w with status := .completed }
    else if w.orphaned = true then { w with status := .closed }
    else w
  else w

def expire (now : Nat) (status : Status) (w : Wait κ β) : Wait κ β :=
  if w.status = .waiting then { w with status := status, expiredAt := some now } else w

/-- The wait returns after it has given up. -/
def returned (w : Wait κ β) : Wait κ β :=
  if w.status = .expiring then { w with status := .expired } else w

/-- What the wait returns: the value that its callback was called with, if it took it. -/
def outcome (w : Wait κ β) : Option β :=
  if w.status = .completed then w.sent.map Delivery.value else none

/-- The first delivery with the key of the wait while it was registered and had not expired. -/
def first [DecidableEq κ] (w : Wait κ β) (deliveries : List (Delivery κ β)) :
    Option (Delivery κ β) :=
  ((w.expiredAt.elim deliveries deliveries.take).drop w.since).find? fun d => d.key = w.key

end Wait

/-- The callbacks under their keys, by the number of their wait, and all waits and deliveries so
far. -/
structure Table (κ β : Type) where
  callbacks : κ → Option Nat
  waits : Nat → Option (Wait κ β)
  size : Nat
  deliveries : List (Delivery κ β)

namespace Table

def empty : Table κ β := ⟨fun _ => none, fun _ => none, 0, []⟩

def modify (t : Table κ β) (i : Nat) (f : Wait κ β → Wait κ β) : Table κ β :=
  { t with waits := Function.update t.waits i ((t.waits i).map f) }

variable [DecidableEq κ]

/-- Take the callback out of the table and do something to its wait. -/
def remove (t : Table κ β) (k : κ) (f : Wait κ β → Wait κ β) : Table κ β :=
  let t' := (t.callbacks k).elim t fun i => t.modify i f
  { t' with callbacks := Function.update t.callbacks k none }

def add (t : Table κ β) (k : κ) : Table κ β :=
  { t with
    callbacks := Function.update t.callbacks k (some t.size)
    waits := Function.update t.waits t.size (some { key := k, since := t.deliveries.length })
    size := t.size + 1 }

/-- A callback that was under the key is dropped. -/
def register (t : Table κ β) (k : κ) : Table κ β := (t.remove k Wait.orphan).add k

def deliver (t : Table κ β) (k : κ) (v : β) : Table κ β :=
  let delivery := ⟨t.deliveries.length, k, v⟩
  { t.remove k (Wait.accept delivery) with deliveries := t.deliveries ++ [delivery] }

def take (t : Table κ β) (i : Nat) : Table κ β := t.modify i Wait.take

def expire (t : Table κ β) (i : Nat) (status : Status) : Table κ β :=
  t.modify i (Wait.expire t.deliveries.length status)

/-- A wait that has given up drops what is under its key, and returns. -/
def forget (t : Table κ β) (i : Nat) (w : Wait κ β) : Table κ β :=
  (t.remove w.key Wait.orphan).modify i Wait.returned

end Table

section Changes

/-- What is done to a wait without sending it anything. -/
structure Keeps (w w' : Wait κ β) : Prop where
  key : w'.key = w.key
  since : w'.since = w.since
  sent : w'.sent = w.sent
  open_ : w'.Open → w.Open
  completed : w'.status = .completed → w.status = .completed ∨ w.sent.isSome = true

theorem keeps_self (w : Wait κ β) : Keeps w w := ⟨rfl, rfl, rfl, id, .inl⟩

theorem keeps_orphan (w : Wait κ β) : Keeps w w.orphan := ⟨rfl, rfl, rfl, id, .inl⟩

theorem keeps_take (w : Wait κ β) : Keeps w w.take := by
  unfold Wait.take
  split_ifs with hwaiting hsent
  · exact ⟨rfl, rfl, rfl, fun _ => .inl hwaiting, fun _ => .inr hsent⟩
  · exact ⟨rfl, rfl, rfl, fun _ => .inl hwaiting, fun h => by simp at h⟩
  · exact keeps_self w
  · exact keeps_self w

/-- A wait gives up, and returns at once or later. -/
def GivesUp (status : Status) : Prop := status = .expiring ∨ status = .expired

theorem keeps_expire (w : Wait κ β) (now : Nat) {status : Status} (hstatus : GivesUp status) :
    Keeps w (w.expire now status) := by
  unfold Wait.expire
  split_ifs with hwaiting
  · refine ⟨rfl, rfl, rfl, fun _ => .inl hwaiting, ?_⟩
    rintro rfl
    simp [GivesUp] at hstatus
  · exact keeps_self w

theorem keeps_returned (w : Wait κ β) : Keeps w w.returned := by
  unfold Wait.returned
  split_ifs with hexpiring
  · exact ⟨rfl, rfl, rfl, fun _ => .inr hexpiring, fun h => by simp at h⟩
  · exact keeps_self w

theorem accept_key (d : Delivery κ β) (w : Wait κ β) : (w.accept d).key = w.key := by
  unfold Wait.accept
  split_ifs <;> rfl

theorem accept_open (d : Delivery κ β) (w : Wait κ β) : (w.accept d).Open ↔ w.Open := by
  unfold Wait.accept
  split_ifs <;> rfl

theorem accept_since (d : Delivery κ β) (w : Wait κ β) : (w.accept d).since = w.since := by
  unfold Wait.accept
  split_ifs <;> rfl

theorem accept_status (d : Delivery κ β) (w : Wait κ β) : (w.accept d).status = w.status := by
  unfold Wait.accept
  split_ifs <;> rfl

theorem accept_orphaned (d : Delivery κ β) (w : Wait κ β) :
    (w.accept d).orphaned = w.orphaned := by
  unfold Wait.accept
  split_ifs <;> rfl

theorem accept_sent {d d' : Delivery κ β} {w : Wait κ β} (h : (w.accept d).sent = some d') :
    w.sent = some d' ∨ d' = d := by
  unfold Wait.accept at h
  split_ifs at h
  · exact .inr (Option.some.inj h).symm
  · exact .inl h

theorem accept_sent_of_waiting (d : Delivery κ β) {w : Wait κ β} (h : w.status = .waiting) :
    (w.accept d).sent = some d := by
  rw [Wait.accept, if_pos h]

end Changes

section Lookups

variable {t : Table κ β} {i j : Nat} {f : Wait κ β → Wait κ β} {w : Wait κ β}

theorem waits_modify_eq_some_iff :
    (t.modify i f).waits j = some w ↔
      ∃ w', t.waits j = some w' ∧ w = if j = i then f w' else w' := by
  unfold Table.modify
  by_cases h : j = i
  · subst h
    simp only [Function.update_self, Option.map_eq_some_iff, if_true]
    constructor
    · rintro ⟨w', hw', rfl⟩
      exact ⟨w', hw', rfl⟩
    · rintro ⟨w', hw', rfl⟩
      exact ⟨w', hw', rfl⟩
  · simp [h]

theorem key_modify (hf : ∀ w, (f w).key = w.key) (h : (t.modify i f).waits j = some w) :
    ∃ w', t.waits j = some w' ∧ w'.key = w.key := by
  obtain ⟨w', hw', rfl⟩ := waits_modify_eq_some_iff.mp h
  refine ⟨w', hw', ?_⟩
  split_ifs
  · exact (hf w').symm
  · rfl

variable [DecidableEq κ]

theorem waits_remove_eq_some_iff {k : κ} :
    (t.remove k f).waits j = some w ↔
      ∃ w', t.waits j = some w' ∧ w = if t.callbacks k = some j then f w' else w' := by
  unfold Table.remove
  cases hcallback : t.callbacks k with
  | none => simp
  | some i =>
      change (t.modify i f).waits j = some w ↔ _
      rw [waits_modify_eq_some_iff]
      simp only [Option.some.injEq, eq_comm]

@[simp] theorem callbacks_remove (k : κ) :
    (t.remove k f).callbacks = Function.update t.callbacks k none := rfl

@[simp] theorem size_remove (k : κ) : (t.remove k f).size = t.size := by
  unfold Table.remove
  cases t.callbacks k <;> rfl

@[simp] theorem deliveries_remove (k : κ) : (t.remove k f).deliveries = t.deliveries := by
  unfold Table.remove
  cases t.callbacks k <;> rfl

theorem callbacks_deliver (k : κ) (v : β) :
    (t.deliver k v).callbacks = Function.update t.callbacks k none := rfl

theorem key_remove {k : κ} (hf : ∀ w, (f w).key = w.key) (h : (t.remove k f).waits j = some w) :
    ∃ w', t.waits j = some w' ∧ w'.key = w.key := by
  obtain ⟨w', hw', rfl⟩ := waits_remove_eq_some_iff.mp h
  refine ⟨w', hw', ?_⟩
  split_ifs
  · exact (hf w').symm
  · rfl

theorem waits_add_eq_some_iff {k : κ} :
    (t.add k).waits j = some w ↔
      (j = t.size ∧ w = { key := k, since := t.deliveries.length }) ∨
        (j ≠ t.size ∧ t.waits j = some w) := by
  change Function.update t.waits t.size _ j = some w ↔ _
  by_cases hj : j = t.size
  · subst hj
    simp [eq_comm]
  · simp [hj]

theorem callbacks_register (k : κ) :
    (t.register k).callbacks = Function.update t.callbacks k (some t.size) := by
  change Function.update (Function.update t.callbacks k none) k
    (some (t.remove k Wait.orphan).size) = _
  rw [Function.update_idem, size_remove]

theorem size_register (k : κ) : (t.register k).size = t.size + 1 := by
  change (t.remove k Wait.orphan).size + 1 = _
  rw [size_remove]

theorem waits_deliver_eq_some_iff {k : κ} {v : β} :
    (t.deliver k v).waits j = some w ↔ ∃ w', t.waits j = some w' ∧
      w = if t.callbacks k = some j then w'.accept ⟨t.deliveries.length, k, v⟩ else w' :=
  waits_remove_eq_some_iff

theorem key_register {k : κ} (h : (t.register k).waits j = some w) :
    (j = t.size ∧ w.key = k) ∨ ∃ w', t.waits j = some w' ∧ w'.key = w.key := by
  rcases waits_add_eq_some_iff.mp h with ⟨hj, rfl⟩ | ⟨-, hw⟩
  · exact .inl ⟨by rwa [size_remove] at hj, rfl⟩
  · exact .inr (@key_remove _ _ _ _ Wait.orphan _ _ _ (fun _ => rfl) hw)

end Lookups

section Matching

variable [DecidableEq κ]

/-- Every callback belongs to a wait for its key, and what a wait has been sent came with its key
after its registration, and was sent to no other. -/
structure Keyed (t : Table κ β) : Prop where
  bounded : ∀ i w, t.waits i = some w → i < t.size
  indexed : ∀ (j : Nat) (d : Delivery κ β), t.deliveries[j]? = some d → d.index = j
  since_le : ∀ i w, t.waits i = some w → w.since ≤ t.deliveries.length
  registered : ∀ k i, t.callbacks k = some i → ∃ w, t.waits i = some w ∧ w.key = k ∧ w.sent = none
  sent : ∀ i w d, t.waits i = some w → w.sent = some d →
    t.deliveries[d.index]? = some d ∧ d.key = w.key ∧ w.since ≤ d.index
  completed : ∀ i w, t.waits i = some w → w.status = .completed → w.sent.isSome = true
  unique : ∀ i j w w' d, t.waits i = some w → t.waits j = some w' → w.sent = some d →
    w'.sent = some d → i = j

omit [DecidableEq κ] in
theorem keyed_empty : Keyed (Table.empty : Table κ β) := by
  constructor <;> simp [Table.empty]

variable {t : Table κ β} {i : Nat} {k : κ} {v : β}

omit [DecidableEq κ] in
theorem Keyed.index_lt (h : Keyed t) {d : Delivery κ β} (hd : d ∈ t.deliveries) :
    d.index < t.deliveries.length := by
  obtain ⟨j, hj⟩ := List.mem_iff_getElem?.mp hd
  rw [h.indexed j d hj]
  exact (List.getElem?_eq_some_iff.mp hj).1

omit [DecidableEq κ] in
theorem Keyed.change (h : Keyed t) {t' : Table κ β} {f : Nat → Wait κ β → Wait κ β}
    (hsize : t'.size = t.size) (hdeliveries : t'.deliveries = t.deliveries)
    (hwaits : ∀ i w, t'.waits i = some w ↔ ∃ w', t.waits i = some w' ∧ w = f i w')
    (hcallbacks : ∀ k i, t'.callbacks k = some i → t.callbacks k = some i)
    (hkeeps : ∀ i w, t.waits i = some w → Keeps w (f i w)) : Keyed t' := by
  constructor
  · intro i w hw
    obtain ⟨w', hw', rfl⟩ := (hwaits i w).mp hw
    rw [hsize]
    exact h.bounded i w' hw'
  · rw [hdeliveries]
    exact h.indexed
  · intro i w hw
    obtain ⟨w', hw', rfl⟩ := (hwaits i w).mp hw
    rw [hdeliveries, (hkeeps i w' hw').since]
    exact h.since_le i w' hw'
  · intro k i hcallback
    obtain ⟨w, hw, hkey, hsent⟩ := h.registered k i (hcallbacks k i hcallback)
    have hkeep := hkeeps i w hw
    exact ⟨f i w, (hwaits i _).mpr ⟨w, hw, rfl⟩, hkeep.key.trans hkey, hkeep.sent.trans hsent⟩
  · intro i w d hw hsent
    obtain ⟨w', hw', rfl⟩ := (hwaits i w).mp hw
    have hkeep := hkeeps i w' hw'
    rw [hkeep.sent] at hsent
    rw [hdeliveries, hkeep.key, hkeep.since]
    exact h.sent i w' d hw' hsent
  · intro i w hw hcompleted
    obtain ⟨w', hw', rfl⟩ := (hwaits i w).mp hw
    have hkeep := hkeeps i w' hw'
    rw [hkeep.sent]
    rcases hkeep.completed hcompleted with hbefore | hsent
    · exact h.completed i w' hw' hbefore
    · exact hsent
  · intro i j w₁ w₂ d hw₁ hw₂ hsent₁ hsent₂
    obtain ⟨w₁, hwait₁, rfl⟩ := (hwaits i w₁).mp hw₁
    obtain ⟨w₂, hwait₂, rfl⟩ := (hwaits j w₂).mp hw₂
    rw [(hkeeps i w₁ hwait₁).sent] at hsent₁
    rw [(hkeeps j w₂ hwait₂).sent] at hsent₂
    exact h.unique i j w₁ w₂ d hwait₁ hwait₂ hsent₁ hsent₂

omit [DecidableEq κ] in
theorem Keyed.modify (h : Keyed t) {f : Wait κ β → Wait κ β}
    (hkeeps : ∀ w, t.waits i = some w → Keeps w (f w)) : Keyed (t.modify i f) := by
  refine @Keyed.change _ _ _ h _ (fun j w => if j = i then f w else w) rfl rfl
    (fun j w => waits_modify_eq_some_iff) (fun _ _ hcallback => hcallback) ?_
  intro j w hw
  split_ifs with hj
  · exact hkeeps w (hj ▸ hw)
  · exact keeps_self w

omit [DecidableEq κ] in
theorem Keyed.take (h : Keyed t) (i : Nat) : Keyed (t.take i) :=
  h.modify fun w _ => keeps_take w

omit [DecidableEq κ] in
theorem Keyed.expire (h : Keyed t) (i : Nat) {status : Status} (hstatus : GivesUp status) :
    Keyed (t.expire i status) :=
  h.modify fun w _ => keeps_expire w _ hstatus

theorem Keyed.removeOrphan (h : Keyed t) (k : κ) : Keyed (t.remove k Wait.orphan) := by
  refine @Keyed.change _ _ _ h _ (fun j w => if t.callbacks k = some j then w.orphan else w)
    (size_remove k) (deliveries_remove k) (fun j w => waits_remove_eq_some_iff) ?_ ?_
  · intro k' j hcallback
    rw [callbacks_remove, Function.update_apply] at hcallback
    split_ifs at hcallback
    exact hcallback
  · intro j w _
    split_ifs
    · exact keeps_orphan w
    · exact keeps_self w

theorem Keyed.forget (h : Keyed t) (i : Nat) (w : Wait κ β) : Keyed (t.forget i w) :=
  (h.removeOrphan w.key).modify fun w _ => keeps_returned w

theorem Keyed.add (h : Keyed t) (k : κ) : Keyed (t.add k) := by
  constructor
  · intro i w hw
    change i < t.size + 1
    rcases waits_add_eq_some_iff.mp hw with ⟨rfl, -⟩ | ⟨-, hw⟩
    · exact Nat.lt_succ_self _
    · exact Nat.lt_succ_of_lt (h.bounded i w hw)
  · exact h.indexed
  · intro i w hw
    change w.since ≤ t.deliveries.length
    rcases waits_add_eq_some_iff.mp hw with ⟨-, rfl⟩ | ⟨-, hw⟩
    · exact Nat.le_refl _
    · exact h.since_le i w hw
  · intro k' i hcallback
    change Function.update t.callbacks k (some t.size) k' = some i at hcallback
    by_cases hk : k' = k
    · subst hk
      rw [Function.update_self] at hcallback
      obtain rfl := Option.some.inj hcallback
      exact ⟨_, waits_add_eq_some_iff.mpr (.inl ⟨rfl, rfl⟩), rfl, rfl⟩
    · rw [Function.update_of_ne hk] at hcallback
      obtain ⟨w, hw, hkey, hsent⟩ := h.registered k' i hcallback
      exact ⟨w, waits_add_eq_some_iff.mpr (.inr ⟨Nat.ne_of_lt (h.bounded i w hw), hw⟩), hkey, hsent⟩
  · intro i w d hw hsent
    rcases waits_add_eq_some_iff.mp hw with ⟨-, rfl⟩ | ⟨-, hw⟩
    · simp at hsent
    · exact h.sent i w d hw hsent
  · intro i w hw hcompleted
    rcases waits_add_eq_some_iff.mp hw with ⟨-, rfl⟩ | ⟨-, hw⟩
    · simp at hcompleted
    · exact h.completed i w hw hcompleted
  · intro i j w w' d hw hw' hsent hsent'
    rcases waits_add_eq_some_iff.mp hw with ⟨-, rfl⟩ | ⟨-, hw⟩
    · simp at hsent
    · rcases waits_add_eq_some_iff.mp hw' with ⟨-, rfl⟩ | ⟨-, hw'⟩
      · simp at hsent'
      · exact h.unique i j w w' d hw hw' hsent hsent'

theorem Keyed.register (h : Keyed t) (k : κ) : Keyed (t.register k) :=
  (h.removeOrphan k).add k

theorem getElem?_deliver {j : Nat} {d : Delivery κ β} :
    (t.deliver k v).deliveries[j]? = some d ↔
      t.deliveries[j]? = some d ∨ (j = t.deliveries.length ∧ d = ⟨t.deliveries.length, k, v⟩) := by
  change (t.deliveries ++ [_])[j]? = some d ↔ _
  rw [List.getElem?_append]
  split_ifs with hlt
  · simp [Nat.ne_of_lt hlt]
  · have hnone : t.deliveries[j]? = none := List.getElem?_eq_none (Nat.not_lt.mp hlt)
    rw [hnone, List.getElem?_singleton]
    split_ifs with hzero
    · simp [show j = t.deliveries.length by omega, eq_comm]
    · simp [show j ≠ t.deliveries.length by omega]

theorem Keyed.deliver (h : Keyed t) (k : κ) (v : β) : Keyed (t.deliver k v) := by
  -- what a wait has been sent after the call, it was sent before or is the delivery
  have hcases : ∀ i w d, t.waits i = some w →
      (if t.callbacks k = some i then w.accept ⟨t.deliveries.length, k, v⟩ else w).sent = some d →
        w.sent = some d ∨ (t.callbacks k = some i ∧ d = ⟨t.deliveries.length, k, v⟩) := by
    intro i w d hw hsent
    split_ifs at hsent with hcallback
    · rcases accept_sent hsent with hsent | hd
      · exact .inl hsent
      · exact .inr ⟨hcallback, hd⟩
    · exact .inl hsent
  have hnew : ∀ i w, t.waits i = some w → w.sent ≠ some ⟨t.deliveries.length, k, v⟩ := by
    intro i w hw hsent
    simpa using (h.sent i w _ hw hsent).1
  constructor
  · intro i w hw
    obtain ⟨w', hw', -⟩ := waits_deliver_eq_some_iff.mp hw
    change i < (t.remove k _).size
    rw [size_remove]
    exact h.bounded i w' hw'
  · intro j d hd
    rcases getElem?_deliver.mp hd with hd | ⟨rfl, rfl⟩
    · exact h.indexed j d hd
    · rfl
  · intro i w hw
    obtain ⟨w', hw', rfl⟩ := waits_deliver_eq_some_iff.mp hw
    have hlength : t.deliveries.length ≤ (t.deliver k v).deliveries.length := by
      simp [Table.deliver]
    rw [apply_ite Wait.since, accept_since, ite_self]
    exact Nat.le_trans (h.since_le i w' hw') hlength
  · intro k' i hcallback
    rw [callbacks_deliver, Function.update_apply] at hcallback
    split_ifs at hcallback with hk
    obtain ⟨w, hw, hkey, hsent⟩ := h.registered k' i hcallback
    refine ⟨w, waits_deliver_eq_some_iff.mpr ⟨w, hw, ?_⟩, hkey, hsent⟩
    rw [if_neg]
    intro hcallback'
    obtain ⟨w', hw', hkey', -⟩ := h.registered k i hcallback'
    obtain rfl : w = w' := Option.some.inj (hw.symm.trans hw')
    exact hk (hkey.symm.trans hkey')
  · intro i w d hw hsent
    obtain ⟨w', hw', rfl⟩ := waits_deliver_eq_some_iff.mp hw
    rw [apply_ite Wait.key, accept_key, ite_self, apply_ite Wait.since, accept_since, ite_self]
    rcases hcases i w' d hw' hsent with hold | ⟨hcallback, rfl⟩
    · obtain ⟨hd, hkey, hsince⟩ := h.sent i w' d hw' hold
      exact ⟨getElem?_deliver.mpr (.inl hd), hkey, hsince⟩
    · obtain ⟨w, hw, hkey, -⟩ := h.registered k i hcallback
      obtain rfl : w' = w := Option.some.inj (hw'.symm.trans hw)
      exact ⟨getElem?_deliver.mpr (.inr ⟨rfl, rfl⟩), hkey.symm, h.since_le i w' hw'⟩
  · intro i w hw hcompleted
    obtain ⟨w', hw', rfl⟩ := waits_deliver_eq_some_iff.mp hw
    rw [apply_ite Wait.status, accept_status, ite_self] at hcompleted
    have hsent := h.completed i w' hw' hcompleted
    split_ifs
    · rwa [Wait.accept, if_neg (by simp [hcompleted])]
    · exact hsent
  · intro i j w₁ w₂ d hw₁ hw₂ hsent₁ hsent₂
    obtain ⟨w₁, hwait₁, rfl⟩ := waits_deliver_eq_some_iff.mp hw₁
    obtain ⟨w₂, hwait₂, rfl⟩ := waits_deliver_eq_some_iff.mp hw₂
    rcases hcases i w₁ d hwait₁ hsent₁ with hold₁ | ⟨hcallback₁, rfl⟩
    · rcases hcases j w₂ d hwait₂ hsent₂ with hold₂ | ⟨-, rfl⟩
      · exact h.unique i j w₁ w₂ d hwait₁ hwait₂ hold₁ hold₂
      · exact absurd hold₁ (hnew i w₁ hwait₁)
    · rcases hcases j w₂ _ hwait₂ hsent₂ with hold₂ | ⟨hcallback₂, -⟩
      · exact absurd hold₂ (hnew j w₂ hwait₂)
      · exact Option.some.inj (hcallback₁.symm.trans hcallback₂)

/-- What the waits of a table have received: only what came with their key after their registration,
and nothing that another wait has received. -/
structure Answered (t : Table κ β) : Prop where
  own : ∀ i w, t.waits i = some w → w.status = .completed → ∃ d, w.sent = some d ∧
    t.deliveries[d.index]? = some d ∧ d.key = w.key ∧ w.since ≤ d.index
  once : ∀ i j w w', t.waits i = some w → t.waits j = some w' → w.status = .completed →
    w'.status = .completed → w.sent = w'.sent → i = j

omit [DecidableEq κ] in
theorem Keyed.answered (h : Keyed t) : Answered t := by
  constructor
  · intro i w hw hcompleted
    obtain ⟨d, hsent⟩ := Option.isSome_iff_exists.mp (h.completed i w hw hcompleted)
    exact ⟨d, hsent, h.sent i w d hw hsent⟩
  · intro i j w w' hw hw' hcompleted _ hsame
    obtain ⟨d, hsent⟩ := Option.isSome_iff_exists.mp (h.completed i w hw hcompleted)
    exact h.unique i j w w' d hw hw' hsent (hsame ▸ hsent)

end Matching

section Soundness

variable [DecidableEq κ]

/-- A wait has been sent the first delivery with its key, and nothing if there was none. -/
structure Intact (deliveries : List (Delivery κ β)) (w : Wait κ β) : Prop where
  sent : w.sent = w.first deliveries
  notClosed : w.status ≠ .closed
  expired : GivesUp w.status ↔ w.expiredAt.isSome = true
  expiredAt_le : ∀ e, w.expiredAt = some e → e ≤ deliveries.length

theorem Intact.expiredAt_eq_none {deliveries : List (Delivery κ β)} {w : Wait κ β}
    (h : Intact deliveries w) (hstatus : ¬ GivesUp w.status) : w.expiredAt = none := by
  rw [h.expired] at hstatus
  simpa using hstatus

/-- The waits that have not returned have different keys, and each of them is in the table until it
is sent something. -/
structure Sound (t : Table κ β) : Prop where
  keyed : Keyed t
  intact : ∀ i w, t.waits i = some w → Intact t.deliveries w
  waiting : ∀ i w, t.waits i = some w → w.status = .waiting →
    w.orphaned = false ∧ (w.sent = none → t.callbacks w.key = some i)
  distinct : ∀ i j w w', t.waits i = some w → t.waits j = some w' → w.Open → w'.Open →
    w.key = w'.key → i = j

/-- Nobody who has not returned waits for the key. -/
def Fresh (t : Table κ β) (k : κ) : Prop :=
  ∀ i w, t.waits i = some w → w.Open → w.key ≠ k

theorem sound_empty : Sound (Table.empty : Table κ β) := by
  refine ⟨keyed_empty, ?_, ?_, ?_⟩ <;> simp [Table.empty]

section Waits

variable {deliveries : List (Delivery κ β)} {w : Wait κ β}

theorem intact_new (k : κ) (deliveries : List (Delivery κ β)) :
    Intact deliveries { key := k, since := deliveries.length } := by
  constructor <;> simp [Wait.first, GivesUp]

theorem Intact.orphan (h : Intact deliveries w) : Intact deliveries w.orphan :=
  ⟨h.sent, h.notClosed, h.expired, h.expiredAt_le⟩

theorem Intact.take (h : Intact deliveries w) (horphaned : w.status = .waiting → w.orphaned = false) :
    Intact deliveries w.take := by
  unfold Wait.take
  split_ifs with hwaiting hsent hclosed
  · have hnone := h.expiredAt_eq_none (by simp [hwaiting, GivesUp])
    exact ⟨h.sent, by simp, by simp [GivesUp, hnone], h.expiredAt_le⟩
  · simp [horphaned hwaiting] at hclosed
  · exact h
  · exact h

theorem Intact.expire (h : Intact deliveries w) {status : Status} (hstatus : GivesUp status) :
    Intact deliveries (w.expire deliveries.length status) := by
  unfold Wait.expire
  split_ifs with hwaiting
  · have hnone := h.expiredAt_eq_none (by simp [hwaiting, GivesUp])
    refine ⟨?_, ?_, by simpa using hstatus, by simp⟩
    · rw [h.sent]
      simp [Wait.first, hnone]
    · rintro rfl
      simp [GivesUp] at hstatus
  · exact h

theorem Intact.returned (h : Intact deliveries w) : Intact deliveries w.returned := by
  unfold Wait.returned
  split_ifs with hexpiring
  · have hexpired := h.expired.mp (.inl hexpiring)
    exact ⟨h.sent, by simp, by simp [GivesUp, hexpired], h.expiredAt_le⟩
  · exact h

theorem first_append (d : Delivery κ β) (hsince : w.since ≤ deliveries.length)
    (hexpired : ∀ e, w.expiredAt = some e → e ≤ deliveries.length) :
    w.first (deliveries ++ [d]) =
      (w.first deliveries).or
        (if w.expiredAt = none ∧ d.key = w.key then some d else none) := by
  unfold Wait.first
  cases hat : w.expiredAt with
  | none =>
      simp only [Option.elim_none, List.drop_append_of_le_length hsince, List.find?_append]
      by_cases hkey : d.key = w.key <;> simp [hkey]
  | some e =>
      simp only [Option.elim_some, List.take_append_of_le_length (hexpired e hat)]
      simp

theorem Intact.append (h : Intact deliveries w) {d : Delivery κ β}
    (hsince : w.since ≤ deliveries.length)
    (hcompleted : w.status = .completed → w.sent.isSome = true)
    (hother : w.status = .waiting → w.sent = none → d.key ≠ w.key) :
    Intact (deliveries ++ [d]) w := by
  refine ⟨?_, h.notClosed, h.expired, fun e he => Nat.le_trans (h.expiredAt_le e he) (by simp)⟩
  rw [first_append d hsince h.expiredAt_le, ← h.sent]
  cases hsent : w.sent with
  | some found => rfl
  | none =>
      rw [if_neg]
      · rfl
      · rintro ⟨hnone, hkey⟩
        have hexpired := h.expired
        rw [hnone] at hexpired
        cases hstatus : w.status with
        | waiting => exact hother hstatus hsent hkey
        | completed => simpa [hsent] using hcompleted hstatus
        | closed => exact h.notClosed hstatus
        | expiring => simp [hstatus, GivesUp] at hexpired
        | expired => simp [hstatus, GivesUp] at hexpired

theorem Intact.accept (h : Intact deliveries w) {d : Delivery κ β}
    (hsince : w.since ≤ deliveries.length) (hwaiting : w.status = .waiting) (hkey : d.key = w.key)
    (hsent : w.sent = none) : Intact (deliveries ++ [d]) (w.accept d) := by
  have hnone := h.expiredAt_eq_none (by simp [hwaiting, GivesUp])
  rw [Wait.accept, if_pos hwaiting]
  refine ⟨?_, h.notClosed, h.expired, fun e he => Nat.le_trans (h.expiredAt_le e he) (by simp)⟩
  change some d = w.first (deliveries ++ [d])
  rw [first_append d hsince h.expiredAt_le, ← h.sent, hsent, if_pos ⟨hnone, hkey⟩]
  rfl

end Waits

variable {t : Table κ β} {i : Nat} {k : κ} {v : β}

/-- Waits are changed, and callbacks are taken out, so that every wait that is still waiting keeps
its callback. -/
theorem Sound.change (h : Sound t) {t' : Table κ β} {f : Nat → Wait κ β → Wait κ β}
    (hkeyed : Keyed t') (hdeliveries : t'.deliveries = t.deliveries)
    (hwaits : ∀ i w, t'.waits i = some w ↔ ∃ w', t.waits i = some w' ∧ w = f i w')
    (hkeeps : ∀ i w, t.waits i = some w → Keeps w (f i w) ∧ Intact t.deliveries (f i w))
    (hwaiting : ∀ i w, t.waits i = some w → (f i w).status = .waiting →
      (f i w).orphaned = false ∧ (w.sent = none → t'.callbacks w.key = some i)) : Sound t' := by
  refine ⟨hkeyed, ?_, ?_, ?_⟩
  · intro i w hw
    obtain ⟨w', hw', rfl⟩ := (hwaits i w).mp hw
    rw [hdeliveries]
    exact (hkeeps i w' hw').2
  · intro i w hw hstatus
    obtain ⟨w', hw', rfl⟩ := (hwaits i w).mp hw
    obtain ⟨hkeep, -⟩ := hkeeps i w' hw'
    rw [hkeep.key, hkeep.sent]
    exact hwaiting i w' hw' hstatus
  · intro i j w₁ w₂ hw₁ hw₂ hopen₁ hopen₂ hkey
    obtain ⟨w₁, hwait₁, rfl⟩ := (hwaits i w₁).mp hw₁
    obtain ⟨w₂, hwait₂, rfl⟩ := (hwaits j w₂).mp hw₂
    obtain ⟨hkeep₁, -⟩ := hkeeps i w₁ hwait₁
    obtain ⟨hkeep₂, -⟩ := hkeeps j w₂ hwait₂
    rw [hkeep₁.key, hkeep₂.key] at hkey
    exact h.distinct i j w₁ w₂ hwait₁ hwait₂ (hkeep₁.open_ hopen₁) (hkeep₂.open_ hopen₂) hkey

/-- Only the wait `i` is changed, and only if it does not go on waiting. -/
theorem Sound.modify (h : Sound t) {f : Wait κ β → Wait κ β}
    (hkeeps : ∀ w, t.waits i = some w → Keeps w (f w) ∧ Intact t.deliveries (f w))
    (hwaiting : ∀ w, (f w).status = .waiting → f w = w) : Sound (t.modify i f) := by
  refine @Sound.change _ _ _ _ h _ (fun j w => if j = i then f w else w)
    (h.keyed.modify fun w hw => (hkeeps w hw).1) rfl (fun j w => waits_modify_eq_some_iff) ?_ ?_
  · intro j w hw
    split_ifs with hj
    · exact hkeeps w (hj ▸ hw)
    · exact ⟨keeps_self w, h.intact j w hw⟩
  · intro j w hw hstatus
    split_ifs at hstatus ⊢
    · have hsame := hwaiting w hstatus
      rw [hsame]
      exact h.waiting j w hw (hsame ▸ hstatus)
    · exact h.waiting j w hw hstatus

theorem Sound.take (h : Sound t) (i : Nat) : Sound (t.take i) := by
  refine h.modify ?_ ?_
  · intro w hw
    exact ⟨keeps_take w, (h.intact i w hw).take fun hwaiting => (h.waiting i w hw hwaiting).1⟩
  · intro w
    unfold Wait.take
    split_ifs <;> simp

theorem Sound.expire (h : Sound t) (i : Nat) {status : Status} (hstatus : GivesUp status) :
    Sound (t.expire i status) := by
  refine h.modify ?_ ?_
  · intro w hw
    exact ⟨keeps_expire w _ hstatus, (h.intact i w hw).expire hstatus⟩
  · intro w
    unfold Wait.expire
    split_ifs
    · rintro rfl
      simp [GivesUp] at hstatus
    · simp

theorem Sound.removeOrphan (h : Sound t)
    (hnobody : ∀ i w, t.waits i = some w → w.status = .waiting → w.key ≠ k) :
    Sound (t.remove k Wait.orphan) := by
  refine @Sound.change _ _ _ _ h _ (fun j w => if t.callbacks k = some j then w.orphan else w)
    (h.keyed.removeOrphan k) (deliveries_remove k) (fun j w => waits_remove_eq_some_iff) ?_ ?_
  · intro j w hw
    split_ifs
    · exact ⟨keeps_orphan w, (h.intact j w hw).orphan⟩
    · exact ⟨keeps_self w, h.intact j w hw⟩
  · intro j w hw hstatus
    have hwaiting : w.status = .waiting := by
      split_ifs at hstatus <;> exact hstatus
    have hkey := hnobody j w hw hwaiting
    have hsome : t.callbacks k ≠ some j := by
      intro hk
      obtain ⟨w', hw', hkey', -⟩ := h.keyed.registered k j hk
      obtain rfl : w = w' := Option.some.inj (hw.symm.trans hw')
      exact hkey hkey'
    rw [if_neg hsome, callbacks_remove, Function.update_of_ne hkey]
    exact h.waiting j w hw hwaiting

theorem Sound.add (h : Sound t) (hfresh : Fresh t k) : Sound (t.add k) := by
  refine ⟨h.keyed.add k, ?_, ?_, ?_⟩
  · intro i w hw
    rcases waits_add_eq_some_iff.mp hw with ⟨-, rfl⟩ | ⟨-, hw⟩
    · exact intact_new k t.deliveries
    · exact h.intact i w hw
  · intro i w hw hwaiting
    change _ ∧ (_ → Function.update t.callbacks k (some t.size) w.key = some i)
    rcases waits_add_eq_some_iff.mp hw with ⟨rfl, rfl⟩ | ⟨-, hw⟩
    · exact ⟨rfl, fun _ => Function.update_self ..⟩
    · rw [Function.update_of_ne (hfresh i w hw (.inl hwaiting))]
      exact h.waiting i w hw hwaiting
  · intro i j w w' hw hw' hopen hopen' hkey
    rcases waits_add_eq_some_iff.mp hw with ⟨rfl, rfl⟩ | ⟨-, hw⟩
    · rcases waits_add_eq_some_iff.mp hw' with ⟨rfl, -⟩ | ⟨-, hw'⟩
      · rfl
      · exact absurd hkey.symm (hfresh j w' hw' hopen')
    · rcases waits_add_eq_some_iff.mp hw' with ⟨-, rfl⟩ | ⟨-, hw'⟩
      · exact absurd hkey (hfresh i w hw hopen)
      · exact h.distinct i j w w' hw hw' hopen hopen' hkey

theorem Sound.register (h : Sound t) (hfresh : Fresh t k) : Sound (t.register k) := by
  have hremoved : Sound (t.remove k Wait.orphan) :=
    h.removeOrphan fun i w hw hwaiting => hfresh i w hw (.inl hwaiting)
  apply hremoved.add
  intro i w hw hopen
  obtain ⟨w', hw', rfl⟩ := waits_remove_eq_some_iff.mp hw
  split_ifs at hopen ⊢
  · exact hfresh i w' hw' hopen
  · exact hfresh i w' hw' hopen

theorem Sound.deliver (h : Sound t) (k : κ) (v : β) : Sound (t.deliver k v) := by
  have hother : ∀ i w, t.waits i = some w → t.callbacks k ≠ some i → w.status = .waiting →
      w.sent = none → k ≠ w.key := by
    rintro i w hw hcallback hwaiting hsent rfl
    exact hcallback ((h.waiting i w hw hwaiting).2 hsent)
  refine ⟨h.keyed.deliver k v, ?_, ?_, ?_⟩
  · intro i w hw
    obtain ⟨w', hw', rfl⟩ := waits_deliver_eq_some_iff.mp hw
    have hintact := h.intact i w' hw'
    have hsince := h.keyed.since_le i w' hw'
    have hcompleted := h.keyed.completed i w' hw'
    split_ifs with hcallback
    · obtain ⟨w, hw, hkey, hsent⟩ := h.keyed.registered k i hcallback
      obtain rfl : w' = w := Option.some.inj (hw'.symm.trans hw)
      by_cases hwaiting : w'.status = .waiting
      · exact hintact.accept hsince hwaiting hkey.symm hsent
      · rw [Wait.accept, if_neg hwaiting]
        exact hintact.append hsince hcompleted fun h' => absurd h' hwaiting
    · exact hintact.append hsince hcompleted (hother i w' hw' hcallback)
  · intro i w hw hwaiting
    obtain ⟨w', hw', rfl⟩ := waits_deliver_eq_some_iff.mp hw
    rw [callbacks_deliver]
    split_ifs at hwaiting ⊢ with hcallback
    · rw [accept_status] at hwaiting
      rw [accept_orphaned, accept_sent_of_waiting _ hwaiting]
      exact ⟨(h.waiting i w' hw' hwaiting).1, fun hnone => by simp at hnone⟩
    · obtain ⟨horphaned, hregistered⟩ := h.waiting i w' hw' hwaiting
      refine ⟨horphaned, fun hsent => ?_⟩
      rw [Function.update_of_ne (Ne.symm (hother i w' hw' hcallback hwaiting hsent))]
      exact hregistered hsent
  · intro i j w₁ w₂ hw₁ hw₂ hopen₁ hopen₂ hkey
    obtain ⟨w₁, hwait₁, rfl⟩ := waits_deliver_eq_some_iff.mp hw₁
    obtain ⟨w₂, hwait₂, rfl⟩ := waits_deliver_eq_some_iff.mp hw₂
    rw [apply_ite Wait.key, apply_ite Wait.key, accept_key, accept_key, ite_self, ite_self] at hkey
    rw [apply_ite Wait.Open, accept_open, ite_self] at hopen₁ hopen₂
    exact h.distinct i j w₁ w₂ hwait₁ hwait₂ hopen₁ hopen₂ hkey

theorem Sound.forget (h : Sound t) {w : Wait κ β} (hw : t.waits i = some w)
    (hexpiring : w.status = .expiring) : Sound (t.forget i w) := by
  have hremoved : Sound (t.remove w.key Wait.orphan) := by
    apply h.removeOrphan
    intro j w' hw' hwaiting hkey
    obtain rfl := h.distinct j i w' w hw' hw (.inl hwaiting) (.inr hexpiring) hkey
    obtain rfl : w' = w := Option.some.inj (hw'.symm.trans hw)
    simp [hexpiring] at hwaiting
  refine hremoved.modify ?_ ?_
  · intro w' hw'
    exact ⟨keeps_returned w', (hremoved.intact i w' hw').returned⟩
  · intro w'
    unfold Wait.returned
    split_ifs <;> simp

end Soundness

section Returned

/-- A wait keeps its key and the time of its registration, and once it has returned, also how it
ended. -/
structure Evolves (w w' : Wait κ β) : Prop where
  key : w'.key = w.key
  since : w'.since = w.since
  ended : ¬ w.Open → w'.status = w.status ∧ w'.sent = w.sent ∧ w'.expiredAt = w.expiredAt

theorem Evolves.trans {w₁ w₂ w₃ : Wait κ β} (h : Evolves w₁ w₂) (h' : Evolves w₂ w₃) :
    Evolves w₁ w₃ := by
  refine ⟨h'.key.trans h.key, h'.since.trans h.since, fun hopen => ?_⟩
  obtain ⟨hstatus, hsent, hexpired⟩ := h.ended hopen
  obtain ⟨hstatus', hsent', hexpired'⟩ := h'.ended (by rwa [Wait.Open, hstatus])
  exact ⟨hstatus'.trans hstatus, hsent'.trans hsent, hexpired'.trans hexpired⟩

theorem evolves_self (w : Wait κ β) : Evolves w w := ⟨rfl, rfl, fun _ => ⟨rfl, rfl, rfl⟩⟩

theorem evolves_orphan (w : Wait κ β) : Evolves w w.orphan := ⟨rfl, rfl, fun _ => ⟨rfl, rfl, rfl⟩⟩

theorem evolves_accept (d : Delivery κ β) (w : Wait κ β) : Evolves w (w.accept d) := by
  unfold Wait.accept
  split_ifs with hwaiting
  · exact ⟨rfl, rfl, fun hopen => absurd (.inl hwaiting) hopen⟩
  · exact evolves_self w

theorem evolves_take (w : Wait κ β) : Evolves w w.take := by
  unfold Wait.take
  split_ifs with hwaiting
  · exact ⟨rfl, rfl, fun hopen => absurd (.inl hwaiting) hopen⟩
  · exact ⟨rfl, rfl, fun hopen => absurd (.inl hwaiting) hopen⟩
  · exact evolves_self w
  · exact evolves_self w

theorem evolves_expire (now : Nat) (status : Status) (w : Wait κ β) :
    Evolves w (w.expire now status) := by
  unfold Wait.expire
  split_ifs with hwaiting
  · exact ⟨rfl, rfl, fun hopen => absurd (.inl hwaiting) hopen⟩
  · exact evolves_self w

theorem evolves_returned (w : Wait κ β) : Evolves w w.returned := by
  unfold Wait.returned
  split_ifs with hexpiring
  · exact ⟨rfl, rfl, fun hopen => absurd (.inr hexpiring) hopen⟩
  · exact evolves_self w

variable {t : Table κ β} {i j : Nat} {f : Wait κ β → Wait κ β} {w : Wait κ β}

theorem evolves_modify (hf : ∀ w, Evolves w (f w)) (hw : t.waits j = some w) :
    ∃ w', (t.modify i f).waits j = some w' ∧ Evolves w w' := by
  refine ⟨_, waits_modify_eq_some_iff.mpr ⟨w, hw, rfl⟩, ?_⟩
  split_ifs
  · exact hf w
  · exact evolves_self w

variable [DecidableEq κ]

theorem evolves_remove {k : κ} (hf : ∀ w, Evolves w (f w)) (hw : t.waits j = some w) :
    ∃ w', (t.remove k f).waits j = some w' ∧ Evolves w w' := by
  refine ⟨_, waits_remove_eq_some_iff.mpr ⟨w, hw, rfl⟩, ?_⟩
  split_ifs
  · exact hf w
  · exact evolves_self w

theorem evolves_register (h : Keyed t) (k : κ) (hw : t.waits j = some w) :
    ∃ w', (t.register k).waits j = some w' ∧ Evolves w w' := by
  obtain ⟨w', hw', hevolves⟩ := @evolves_remove _ _ _ _ Wait.orphan _ _ k evolves_orphan hw
  refine ⟨w', waits_add_eq_some_iff.mpr (.inr ⟨?_, hw'⟩), hevolves⟩
  rw [size_remove]
  exact Nat.ne_of_lt (h.bounded j w hw)

theorem evolves_forget {w₀ : Wait κ β} (hw : t.waits j = some w) :
    ∃ w', (t.forget i w₀).waits j = some w' ∧ Evolves w w' := by
  obtain ⟨w', hw', hevolves⟩ := @evolves_remove _ _ _ _ Wait.orphan _ _ w₀.key evolves_orphan hw
  obtain ⟨w'', hw'', hevolves'⟩ := @evolves_modify _ _ _ i _ _ _ evolves_returned hw'
  exact ⟨w'', hw'', hevolves.trans hevolves'⟩

end Returned

section Pending

/-- The wait has been sent nothing, and its callback may still be called. -/
def Wait.pending (w : Wait κ β) : Bool :=
  decide (w.status = .waiting) && w.sent.isNone && !w.orphaned

def Table.pending (t : Table κ β) (i : Nat) : Bool := (t.waits i).any Wait.pending

theorem pending_eq_true_iff {w : Wait κ β} :
    w.pending = true ↔ w.status = .waiting ∧ w.sent = none ∧ w.orphaned = false := by
  simp [Wait.pending, and_assoc]

theorem pending_of_orphan {w : Wait κ β} (h : w.orphan.pending = true) : w.pending = true := by
  simp [pending_eq_true_iff, Wait.orphan] at h

theorem pending_of_accept {d : Delivery κ β} {w : Wait κ β} (h : (w.accept d).pending = true) :
    w.pending = true := by
  unfold Wait.accept at h
  split_ifs at h
  · simp [pending_eq_true_iff] at h
  · exact h

theorem pending_of_take {w : Wait κ β} (h : w.take.pending = true) : w.pending = true := by
  unfold Wait.take at h
  split_ifs at h
  · simp [pending_eq_true_iff] at h
  · simp [pending_eq_true_iff] at h
  · exact h
  · exact h

theorem pending_of_expire {now : Nat} {status : Status} {w : Wait κ β} (hstatus : GivesUp status)
    (h : (w.expire now status).pending = true) : w.pending = true := by
  unfold Wait.expire at h
  split_ifs at h
  · obtain rfl : status = .waiting := (pending_eq_true_iff.mp h).1
    simp [GivesUp] at hstatus
  · exact h

theorem pending_of_returned {w : Wait κ β} (h : w.returned.pending = true) : w.pending = true := by
  unfold Wait.returned at h
  split_ifs at h
  · simp [pending_eq_true_iff] at h
  · exact h

variable {t : Table κ β} {i j : Nat} {f : Wait κ β → Wait κ β}

theorem pending_of_modify (hf : ∀ w, (f w).pending = true → w.pending = true)
    (h : (t.modify i f).pending j = true) : t.pending j = true := by
  obtain ⟨w, hw, hpending⟩ := (Option.any_eq_true _ _).mp h
  obtain ⟨w', hw', rfl⟩ := waits_modify_eq_some_iff.mp hw
  refine (Option.any_eq_true _ _).mpr ⟨w', hw', ?_⟩
  split_ifs at hpending
  · exact hf w' hpending
  · exact hpending

variable [DecidableEq κ]

theorem pending_of_remove {k : κ} (hf : ∀ w, (f w).pending = true → w.pending = true)
    (h : (t.remove k f).pending j = true) : t.pending j = true := by
  obtain ⟨w, hw, hpending⟩ := (Option.any_eq_true _ _).mp h
  obtain ⟨w', hw', rfl⟩ := waits_remove_eq_some_iff.mp hw
  refine (Option.any_eq_true _ _).mpr ⟨w', hw', ?_⟩
  split_ifs at hpending
  · exact hf w' hpending
  · exact hpending

theorem pending_of_register {k : κ} (hj : j < t.size) (h : (t.register k).pending j = true) :
    t.pending j = true := by
  obtain ⟨w, hw, hpending⟩ := (Option.any_eq_true _ _).mp h
  rcases waits_add_eq_some_iff.mp hw with ⟨hsize, -⟩ | ⟨-, hremoved⟩
  · rw [size_remove] at hsize
    omega
  · exact pending_of_remove (fun _ => pending_of_orphan)
      ((Option.any_eq_true _ _).mpr ⟨w, hremoved, hpending⟩)

theorem pending_of_deliver {k : κ} {v : β} (h : (t.deliver k v).pending j = true) :
    t.pending j = true :=
  @pending_of_remove _ _ _ _ (Wait.accept ⟨t.deliveries.length, k, v⟩) _ k
    (fun _ => pending_of_accept) h

end Pending

section Skipping

/-- The first wanted delivery from a time on, until the wait expired. -/
def Wait.firstFrom (w : Wait κ β) (start : Nat) (wanted : Delivery κ β → Bool)
    (deliveries : List (Delivery κ β)) : Option (Delivery κ β) :=
  ((w.expiredAt.elim deliveries deliveries.take).drop start).find? wanted

theorem Wait.mem_of_firstFrom {w : Wait κ β} {start : Nat} {wanted : Delivery κ β → Bool}
    {deliveries : List (Delivery κ β)} {d : Delivery κ β}
    (h : w.firstFrom start wanted deliveries = some d) : d ∈ deliveries := by
  have hmem := List.mem_of_mem_drop (List.mem_of_find?_eq_some h)
  cases hexpired : w.expiredAt with
  | none =>
      rw [hexpired] at hmem
      exact hmem
  | some e =>
      rw [hexpired] at hmem
      exact List.mem_of_mem_take hmem

/-- No wanted delivery came from one time to another. -/
structure Skipped (deliveries : List (Delivery κ β)) (wanted : Delivery κ β → Bool)
    (start stop : Nat) : Prop where
  le : start ≤ stop
  other : ∀ (j : Nat) (d : Delivery κ β), start ≤ j → j < stop → deliveries[j]? = some d →
    wanted d = false

variable {deliveries : List (Delivery κ β)} {wanted wanted' : Delivery κ β → Bool}
  {start stop : Nat}

theorem skipped_self (deliveries : List (Delivery κ β)) (wanted : Delivery κ β → Bool)
    (start : Nat) : Skipped deliveries wanted start start :=
  ⟨Nat.le_refl _, fun _ _ hle hlt => absurd hle (Nat.not_le.mpr hlt)⟩

theorem Skipped.append (h : Skipped deliveries wanted start stop) (hstop : stop ≤ deliveries.length)
    (hsame : ∀ d ∈ deliveries, wanted' d = wanted d) (d : Delivery κ β) :
    Skipped (deliveries ++ [d]) wanted' start stop := by
  refine ⟨h.le, fun j d' hle hlt hd' => ?_⟩
  rw [List.getElem?_append_left (Nat.lt_of_lt_of_le hlt hstop)] at hd'
  rw [hsame d' (List.mem_of_getElem? hd')]
  exact h.other j d' hle hlt hd'

theorem Skipped.extend (h : Skipped deliveries wanted start deliveries.length)
    (hsame : ∀ d ∈ deliveries, wanted' d = wanted d) {d : Delivery κ β} (hd : wanted' d = false) :
    Skipped (deliveries ++ [d]) wanted' start (deliveries ++ [d]).length := by
  have hbefore := h.append (Nat.le_refl _) hsame d
  refine ⟨Nat.le_trans h.le (by simp), fun j d' hle hlt hd' => ?_⟩
  rw [List.length_append, List.length_singleton] at hlt
  rcases Nat.lt_succ_iff_lt_or_eq.mp hlt with hold | rfl
  · exact hbefore.other j d' hle hold hd'
  · rw [List.getElem?_concat_length, Option.some.injEq] at hd'
    rw [← hd']
    exact hd

theorem find?_drop_of_le {α : Type} {p : α → Bool} {l : List α} (hle : start ≤ stop)
    (hother : ∀ (j : Nat) a, start ≤ j → j < stop → l[j]? = some a → p a = false) :
    (l.drop start).find? p = (l.drop stop).find? p := by
  have hsplit : l.drop start = (l.drop start).take (stop - start) ++ l.drop stop := by
    have hdrop : l.drop stop = (l.drop start).drop (stop - start) := by
      rw [List.drop_drop, Nat.add_sub_cancel' hle]
    rw [hdrop, List.take_append_drop]
  have hnone : ((l.drop start).take (stop - start)).find? p = none := by
    apply List.find?_eq_none.mpr
    intro a ha
    obtain ⟨j, hj⟩ := List.mem_iff_getElem?.mp ha
    rw [List.getElem?_take] at hj
    split_ifs at hj with hlt
    rw [List.getElem?_drop] at hj
    rw [hother (start + j) a (Nat.le_add_right _ _) (by omega) hj]
    exact Bool.false_ne_true
  rw [hsplit, List.find?_append, hnone, Option.none_or]

/-- Where nothing wanted was skipped, it makes no difference when one begins to look. -/
theorem Skipped.firstFrom (h : Skipped deliveries wanted start stop) (w : Wait κ β) :
    w.firstFrom start wanted deliveries = w.firstFrom stop wanted deliveries := by
  apply find?_drop_of_le h.le
  intro j d hle hlt hd
  have hdelivered : deliveries[j]? = some d := by
    cases hexpired : w.expiredAt with
    | none => simpa [hexpired] using hd
    | some e =>
        simp only [hexpired, Option.elim_some, List.getElem?_take] at hd
        split_ifs at hd
        exact hd
  exact h.other j d hle hlt hdelivered

theorem firstFrom_of_first [DecidableEq κ] {w : Wait κ β} {d d' : Delivery κ β}
    (hfirst : w.first deliveries = some d) (hwanted : wanted d = true)
    (h : w.firstFrom w.since (fun d => decide (d.key = w.key) && wanted d) deliveries = some d') :
    d' = d := by
  obtain ⟨hkey, front, back, hsplit, hfront⟩ := List.find?_eq_some_iff_append.mp hfirst
  have hboth : w.firstFrom w.since (fun d => decide (d.key = w.key) && wanted d) deliveries =
      some d := by
    refine List.find?_eq_some_iff_append.mpr ⟨?_, front, back, hsplit, fun other hother => ?_⟩
    · rw [hkey, hwanted]
      rfl
    · have hother := hfront other hother
      rw [Bool.not_eq_true'] at hother ⊢
      rw [hother, Bool.false_and]
  exact Option.some.inj (h.symm.trans hboth)

end Skipping

section Promptness

/-- No wait has given up what it had been sent. -/
def Patient (t : Table κ β) : Prop :=
  ∀ i w, t.waits i = some w → w.expiredAt.isSome = true → w.sent = none

theorem patient_empty : Patient (Table.empty : Table κ β) := by
  simp [Patient, Table.empty]

variable {t t' : Table κ β} {i : Nat} {f : Wait κ β → Wait κ β}

theorem Patient.keep (h : Patient t)
    (hwaits : ∀ i w, t'.waits i = some w → w.expiredAt.isSome = true → w.sent = none ∨
      ∃ w', t.waits i = some w' ∧ w'.expiredAt.isSome = true ∧ w.sent = w'.sent) : Patient t' := by
  intro i w hw hexpired
  rcases hwaits i w hw hexpired with hnone | ⟨w', hw', hexpired', hsent⟩
  · exact hnone
  · rw [hsent]
    exact h i w' hw' hexpired'

theorem Patient.modify (h : Patient t)
    (hf : ∀ w, t.waits i = some w → (f w).expiredAt.isSome = true → (f w).sent = none ∨
      w.expiredAt.isSome = true ∧ (f w).sent = w.sent) : Patient (t.modify i f) := by
  refine h.keep ?_
  intro j w hw hexpired
  obtain ⟨w', hw', rfl⟩ := waits_modify_eq_some_iff.mp hw
  split_ifs at hexpired ⊢ with hj
  · subst hj
    rcases hf w' hw' hexpired with hnone | hsame
    · exact .inl hnone
    · exact .inr ⟨w', hw', hsame⟩
  · exact .inr ⟨w', hw', hexpired, rfl⟩

theorem Patient.take (h : Patient t) (i : Nat) : Patient (t.take i) := by
  refine h.modify ?_
  intro w _ hexpired
  refine .inr ⟨?_, (keeps_take w).sent⟩
  unfold Wait.take at hexpired
  split_ifs at hexpired <;> exact hexpired

theorem Patient.expire (h : Patient t) (status : Status)
    (hnone : ∀ w, t.waits i = some w → w.status = .waiting → w.sent = none) :
    Patient (t.expire i status) := by
  refine h.modify ?_
  intro w hw hexpired
  unfold Wait.expire at hexpired ⊢
  split_ifs at hexpired ⊢ with hwaiting
  · exact .inl (hnone w hw hwaiting)
  · exact .inr ⟨hexpired, rfl⟩

variable [DecidableEq κ]

theorem Patient.remove (h : Patient t) {k : κ}
    (hf : ∀ i w, t.waits i = some w → (f w).expiredAt.isSome = true →
      w.expiredAt.isSome = true ∧ (f w).sent = w.sent) : Patient (t.remove k f) := by
  refine h.keep ?_
  intro j w hw hexpired
  obtain ⟨w', hw', rfl⟩ := waits_remove_eq_some_iff.mp hw
  split_ifs at hexpired ⊢
  · exact .inr ⟨w', hw', hf j w' hw' hexpired⟩
  · exact .inr ⟨w', hw', hexpired, rfl⟩

theorem Patient.register (h : Patient t) (k : κ) : Patient (t.register k) := by
  have hremoved : Patient (t.remove k Wait.orphan) := h.remove fun _ _ _ hexpired => ⟨hexpired, rfl⟩
  refine hremoved.keep ?_
  intro i w hw hexpired
  rcases waits_add_eq_some_iff.mp hw with ⟨-, rfl⟩ | ⟨-, hw⟩
  · exact .inl rfl
  · exact .inr ⟨w, hw, hexpired, rfl⟩

theorem Patient.deliver (h : Patient t) (hsound : Sound t) (k : κ) (v : β) :
    Patient (t.deliver k v) := by
  refine h.remove ?_
  intro i w hw hexpired
  unfold Wait.accept at hexpired ⊢
  split_ifs at hexpired ⊢ with hwaiting
  · have hnone := (hsound.intact i w hw).expiredAt_eq_none (by simp [hwaiting, GivesUp])
    have hbefore : w.expiredAt.isSome = true := hexpired
    simp [hnone] at hbefore
  · exact ⟨hexpired, rfl⟩

theorem Patient.forget (h : Patient t) (i : Nat) (w : Wait κ β) : Patient (t.forget i w) := by
  have hremoved : Patient (t.remove w.key Wait.orphan) :=
    h.remove fun _ _ _ hexpired => ⟨hexpired, rfl⟩
  refine hremoved.modify ?_
  intro w' _ hexpired
  unfold Wait.returned at hexpired ⊢
  split_ifs at hexpired ⊢
  · exact .inr ⟨hexpired, rfl⟩
  · exact .inr ⟨hexpired, rfl⟩

theorem Sound.status_of_sent (h : Sound t) (hpatient : Patient t) {w : Wait κ β}
    (hw : t.waits i = some w) (hsent : w.sent.isSome = true) :
    w.status = .waiting ∨ w.status = .completed := by
  have hintact := h.intact i w hw
  have hexpired : ¬ GivesUp w.status := by
    intro hstatus
    rw [hpatient i w hw (hintact.expired.mp hstatus)] at hsent
    simp at hsent
  cases hstatus : w.status with
  | waiting => exact .inl rfl
  | completed => exact .inr rfl
  | closed => exact absurd hstatus hintact.notClosed
  | expiring => exact absurd (.inl hstatus) hexpired
  | expired => exact absurd (.inr hstatus) hexpired

/-- A wait that has returned has returned the first delivery with its key. -/
theorem Sound.outcome (h : Sound t) (hpatient : Patient t) {w : Wait κ β}
    (hw : t.waits i = some w) (hopen : ¬ w.Open) :
    w.outcome = (w.first t.deliveries).map Delivery.value := by
  rw [← (h.intact i w hw).sent, Wait.outcome]
  cases hsent : w.sent with
  | none => simp
  | some d =>
      rcases h.status_of_sent hpatient hw (by simp [hsent]) with hwaiting | hcompleted
      · exact absurd (.inl hwaiting) hopen
      · rw [if_pos hcompleted]

/-- A wait that is registered and has not expired when something comes with its key for the first
time completes with it, the next time it looks. -/
def Prompt (t : Table κ β) : Prop :=
  ∀ i w d, t.waits i = some w → w.first t.deliveries = some d → w.sent = some d ∧
    ∃ w', (t.take i).waits i = some w' ∧ w'.status = .completed ∧ w'.sent = some d

theorem Sound.prompt (h : Sound t) (hpatient : Patient t) : Prompt t := by
  intro i w d hw hfirst
  have hsent : w.sent = some d := by rw [(h.intact i w hw).sent, hfirst]
  refine ⟨hsent, w.take, waits_modify_eq_some_iff.mpr ⟨w, hw, (if_pos rfl).symm⟩, ?_, ?_⟩
  · unfold Wait.take
    rcases h.status_of_sent hpatient hw (by simp [hsent]) with hstatus | hstatus
    · simp [hstatus, hsent]
    · simp [hstatus]
  · rw [(keeps_take w).sent, hsent]

end Promptness

section Presence

/-- The callback of a wait that may still be sent something is in the table. -/
def Present (t : Table κ β) : Prop :=
  ∀ i w, t.waits i = some w → w.pending = true → t.callbacks w.key = some i

theorem present_empty : Present (Table.empty : Table κ β) := by
  simp [Present, Table.empty]

variable {t : Table κ β}

theorem Present.modify (h : Present t) {i : Nat} {f : Wait κ β → Wait κ β}
    (hkey : ∀ w, (f w).key = w.key) (hpending : ∀ w, (f w).pending = true → w.pending = true) :
    Present (t.modify i f) := by
  intro j w hw hpend
  obtain ⟨w', hw', rfl⟩ := waits_modify_eq_some_iff.mp hw
  rw [apply_ite Wait.key, hkey, ite_self]
  refine h j w' hw' ?_
  split_ifs at hpend
  · exact hpending w' hpend
  · exact hpend

theorem Present.take (h : Present t) (i : Nat) : Present (t.take i) :=
  h.modify (fun w => (keeps_take w).key) fun _ => pending_of_take

theorem Present.expire (h : Present t) (i : Nat) {status : Status} (hstatus : GivesUp status) :
    Present (t.expire i status) :=
  h.modify (fun w => (keeps_expire w _ hstatus).key) fun _ => pending_of_expire hstatus

theorem not_pending_orphan (w : Wait κ β) : w.orphan.pending = false := by
  simp [Wait.pending, Wait.orphan]

theorem not_pending_accept (d : Delivery κ β) (w : Wait κ β) : (w.accept d).pending = false := by
  unfold Wait.accept
  split_ifs with hwaiting
  · simp [Wait.pending]
  · simp [Wait.pending, hwaiting]

variable [DecidableEq κ]

theorem Present.remove (h : Present t) {k : κ} {f : Wait κ β → Wait κ β}
    (hkey : ∀ w, (f w).key = w.key) (hpending : ∀ w, (f w).pending = false) :
    Present (t.remove k f) := by
  intro i w hw hpend
  obtain ⟨w', hw', rfl⟩ := waits_remove_eq_some_iff.mp hw
  rw [apply_ite Wait.key, hkey, ite_self, callbacks_remove]
  split_ifs at hpend with hcallback
  · rw [hpending] at hpend
    cases hpend
  · have hbefore := h i w' hw' hpend
    rw [Function.update_of_ne, hbefore]
    rintro rfl
    exact hcallback hbefore

theorem Present.register (h : Present t) (k : κ) : Present (t.register k) := by
  have hremoved : Present (t.remove k Wait.orphan) := h.remove (fun _ => rfl) not_pending_orphan
  intro i w hw hpending
  rcases waits_add_eq_some_iff.mp hw with ⟨rfl, rfl⟩ | ⟨hi, hw⟩
  · exact Function.update_self ..
  · have hbefore := hremoved i w hw hpending
    rw [callbacks_remove, Function.update_apply] at hbefore
    split_ifs at hbefore with hk
    rw [callbacks_register, Function.update_of_ne hk]
    exact hbefore

theorem Present.deliver (h : Present t) (k : κ) (v : β) : Present (t.deliver k v) :=
  @Present.remove _ _ _ _ h k _ (accept_key _) (not_pending_accept _)

theorem Present.forget (h : Present t) (i : Nat) (w : Wait κ β) : Present (t.forget i w) := by
  have hremoved : Present (t.remove w.key Wait.orphan) :=
    h.remove (fun _ => rfl) not_pending_orphan
  exact hremoved.modify (fun w => (keeps_returned w).key) fun _ => pending_of_returned

/-- What comes with its key is sent to a pending wait, which takes it the next time it looks. -/
theorem Present.deliver_take (h : Present t) {i : Nat} {w : Wait κ β} (hw : t.waits i = some w)
    (hpending : w.pending = true) (v : β) :
    ∃ w', ((t.deliver w.key v).take i).waits i = some w' ∧ w'.status = .completed ∧
      w'.sent = some ⟨t.deliveries.length, w.key, v⟩ := by
  have hcallback := h i w hw hpending
  obtain ⟨hwaiting, -, -⟩ := pending_eq_true_iff.mp hpending
  have hdelivered : (t.deliver w.key v).waits i =
      some (w.accept ⟨t.deliveries.length, w.key, v⟩) :=
    waits_deliver_eq_some_iff.mpr ⟨w, hw, (if_pos hcallback).symm⟩
  have hsent := accept_sent_of_waiting ⟨t.deliveries.length, w.key, v⟩ hwaiting
  refine ⟨_, waits_modify_eq_some_iff.mpr ⟨_, hdelivered, (if_pos rfl).symm⟩, ?_, ?_⟩
  · rw [Wait.take, accept_status, if_pos hwaiting, hsent]
    rfl
  · rw [(keeps_take _).sent, hsent]

end Presence

section Attachment

/-- Whose callbacks the table has: the newest wait for a key, until its callback is taken out. A
callback is dropped for a newer one only, and a wait is closed only when its callback was dropped. -/
structure Attached (t : Table κ β) : Prop where
  registered : ∀ k i w, t.callbacks k = some i → t.waits i = some w → w.orphaned = false
  newest : ∀ k i j w, t.callbacks k = some i → t.waits j = some w → w.key = k → j ≤ i
  present : ∀ i w, t.waits i = some w → w.pending = true → t.callbacks w.key = some i
  superseded : ∀ i w, t.waits i = some w → w.orphaned = true →
    ∃ j w', i < j ∧ t.waits j = some w' ∧ w'.key = w.key
  closed : ∀ i w, t.waits i = some w → w.status = .closed → w.orphaned = true

theorem attached_empty : Attached (Table.empty : Table κ β) := by
  constructor <;> simp [Table.empty]

/-- A wait that keeps its key and what it knows of its callback, and is closed only without one. -/
structure Holds (w w' : Wait κ β) : Prop where
  key : w'.key = w.key
  orphaned : w'.orphaned = w.orphaned
  closed : w'.status = .closed → w.status = .closed ∨ w.orphaned = true

theorem holds_self (w : Wait κ β) : Holds w w := ⟨rfl, rfl, .inl⟩

theorem holds_accept (d : Delivery κ β) (w : Wait κ β) : Holds w (w.accept d) :=
  ⟨accept_key d w, accept_orphaned d w, fun hclosed => .inl (accept_status d w ▸ hclosed)⟩

theorem holds_take (w : Wait κ β) : Holds w w.take := by
  unfold Wait.take
  split_ifs with _ _ horphaned
  · exact ⟨rfl, rfl, fun hclosed => nomatch hclosed⟩
  · exact ⟨rfl, rfl, fun _ => .inr horphaned⟩
  · exact holds_self w
  · exact holds_self w

theorem holds_expire (w : Wait κ β) (now : Nat) {status : Status} (hstatus : GivesUp status) :
    Holds w (w.expire now status) := by
  unfold Wait.expire
  split_ifs
  · refine ⟨rfl, rfl, fun hclosed => ?_⟩
    change status = .closed at hclosed
    subst hclosed
    rcases hstatus with h | h <;> cases h
  · exact holds_self w

variable {t t' : Table κ β}

theorem Attached.change (h : Attached t) {f : Nat → Wait κ β → Wait κ β}
    (hwaits : ∀ i w, t'.waits i = some w ↔ ∃ w', t.waits i = some w' ∧ w = f i w')
    (hcallbacks : ∀ k i, t'.callbacks k = some i → t.callbacks k = some i)
    (hholds : ∀ i w, Holds w (f i w))
    (hpresent : ∀ i w, t.waits i = some w → (f i w).pending = true →
      t'.callbacks w.key = some i) : Attached t' := by
  constructor
  · intro k i w hcallback hw
    obtain ⟨w', hw', rfl⟩ := (hwaits i w).mp hw
    rw [(hholds i w').orphaned]
    exact h.registered k i w' (hcallbacks k i hcallback) hw'
  · intro k i j w hcallback hw hkey
    obtain ⟨w', hw', rfl⟩ := (hwaits j w).mp hw
    rw [(hholds j w').key] at hkey
    exact h.newest k i j w' (hcallbacks k i hcallback) hw' hkey
  · intro i w hw hpending
    obtain ⟨w', hw', rfl⟩ := (hwaits i w).mp hw
    rw [(hholds i w').key]
    exact hpresent i w' hw' hpending
  · intro i w hw horphaned
    obtain ⟨w', hw', rfl⟩ := (hwaits i w).mp hw
    rw [(hholds i w').orphaned] at horphaned
    obtain ⟨j, newer, hj, hnewer, hkey⟩ := h.superseded i w' hw' horphaned
    refine ⟨j, f j newer, hj, (hwaits j _).mpr ⟨newer, hnewer, rfl⟩, ?_⟩
    rw [(hholds j newer).key, (hholds i w').key]
    exact hkey
  · intro i w hw hclosed
    obtain ⟨w', hw', rfl⟩ := (hwaits i w).mp hw
    rw [(hholds i w').orphaned]
    exact ((hholds i w').closed hclosed).elim (h.closed i w' hw') id

theorem Attached.modify (h : Attached t) {i : Nat} {f : Wait κ β → Wait κ β}
    (hholds : ∀ w, Holds w (f w)) (hpending : ∀ w, (f w).pending = true → w.pending = true) :
    Attached (t.modify i f) := by
  refine @Attached.change _ _ _ _ h (fun j w => if j = i then f w else w)
    (fun j w => waits_modify_eq_some_iff) (fun _ _ => id) (fun j w => ?_) fun j w hw hpend => ?_
  · split_ifs
    · exact hholds w
    · exact holds_self w
  · refine h.present j w hw ?_
    split_ifs at hpend
    · exact hpending w hpend
    · exact hpend

theorem Attached.take (h : Attached t) (i : Nat) : Attached (t.take i) :=
  h.modify holds_take fun _ => pending_of_take

theorem Attached.expire (h : Attached t) (i : Nat) {status : Status} (hstatus : GivesUp status) :
    Attached (t.expire i status) :=
  h.modify (fun w => holds_expire w _ hstatus) fun _ => pending_of_expire hstatus

variable [DecidableEq κ]

theorem Attached.deliver (h : Attached t) (k : κ) (v : β) : Attached (t.deliver k v) := by
  refine @Attached.change _ _ _ _ h
    (fun j w => if t.callbacks k = some j then w.accept ⟨t.deliveries.length, k, v⟩ else w)
    (fun j w => waits_deliver_eq_some_iff) ?_ (fun j w => ?_) fun j w hw hpending => ?_
  · intro k' j hcallback
    rw [callbacks_deliver, Function.update_apply] at hcallback
    split_ifs at hcallback
    exact hcallback
  · split_ifs
    · exact holds_accept _ w
    · exact holds_self w
  · split_ifs at hpending with hcallback
    · have hstatus := (pending_eq_true_iff.mp hpending).1
      rw [accept_status] at hstatus
      have hsent := (pending_eq_true_iff.mp hpending).2.1
      rw [accept_sent_of_waiting _ hstatus] at hsent
      cases hsent
    · have hbefore := h.present j w hw hpending
      rw [callbacks_deliver, Function.update_of_ne, hbefore]
      rintro rfl
      exact hcallback hbefore

theorem Attached.register (h : Attached t) (hkeyed : Keyed t) (k : κ) : Attached (t.register k) := by
  have hremoved : ∀ i w, (t.remove k Wait.orphan).waits i = some w →
      ∃ w', t.waits i = some w' ∧ w = if t.callbacks k = some i then w'.orphan else w' :=
    fun i w hw => waits_remove_eq_some_iff.mp hw
  have hown : ∀ k' i w, t.callbacks k' = some i → t.waits i = some w → w.key = k' := by
    intro k' i w hcallback hw
    obtain ⟨w', hw', hkey, -⟩ := hkeyed.registered k' i hcallback
    obtain rfl := Option.some.inj (hw.symm.trans hw')
    exact hkey
  have hbelow : ∀ i w, t.waits i = some w → i < (t.remove k Wait.orphan).size := by
    intro i w hw
    rw [size_remove]
    exact hkeyed.bounded i w hw
  constructor
  · intro k' i w hcallback hw
    rw [callbacks_register, Function.update_apply] at hcallback
    rcases waits_add_eq_some_iff.mp hw with ⟨-, rfl⟩ | ⟨hne, hw⟩
    · rfl
    · obtain ⟨w', hw', rfl⟩ := hremoved i w hw
      split_ifs at hcallback with hk
      · rw [size_remove] at hne
        exact absurd (Option.some.inj hcallback).symm hne
      · rw [if_neg]
        · exact h.registered k' i w' hcallback hw'
        · intro hsame
          exact hk ((hown k' i w' hcallback hw').symm.trans (hown k i w' hsame hw'))
  · intro k' i j w hcallback hw hkey
    rw [callbacks_register, Function.update_apply] at hcallback
    rcases waits_add_eq_some_iff.mp hw with ⟨hj, rfl⟩ | ⟨-, hw⟩
    · rw [if_pos hkey.symm, Option.some.injEq] at hcallback
      rw [hj, size_remove]
      exact Nat.le_of_eq hcallback
    · obtain ⟨w', hw', rfl⟩ := hremoved j w hw
      have hkey' : w'.key = k' := by
        rw [apply_ite Wait.key, Wait.orphan, ite_self] at hkey
        exact hkey
      split_ifs at hcallback
      · obtain rfl := Option.some.inj hcallback
        exact Nat.le_of_lt (hkeyed.bounded j w' hw')
      · exact h.newest k' i j w' hcallback hw' hkey'
  · exact Present.register h.present k
  · intro i w hw horphaned
    have hnew : (t.register k).waits (t.remove k Wait.orphan).size =
        some { key := k, since := (t.remove k Wait.orphan).deliveries.length } :=
      waits_add_eq_some_iff.mpr (.inl ⟨rfl, rfl⟩)
    rcases waits_add_eq_some_iff.mp hw with ⟨-, rfl⟩ | ⟨-, hw⟩
    · cases horphaned
    · obtain ⟨w', hw', rfl⟩ := hremoved i w hw
      split_ifs at horphaned ⊢ with hcallback
      · exact ⟨_, _, hbelow i w' hw', hnew, (hown k i w' hcallback hw').symm⟩
      · obtain ⟨j, newer, hj, hnewer, hkey⟩ := h.superseded i w' hw' horphaned
        obtain ⟨newer', hnewer', hevolves⟩ := evolves_register hkeyed k hnewer
        exact ⟨j, newer', hj, hnewer', hevolves.key.trans hkey⟩
  · intro i w hw hclosed
    rcases waits_add_eq_some_iff.mp hw with ⟨-, rfl⟩ | ⟨-, hw⟩
    · cases hclosed
    · obtain ⟨w', hw', rfl⟩ := hremoved i w hw
      split_ifs at hclosed ⊢
      · rfl
      · exact h.closed i w' hw' hclosed

omit [DecidableEq κ] in
/-- A wait that has returned with its response, or without it because its callback was dropped, has
no callback in the table. -/
theorem Attached.not_registered (h : Attached t) (hkeyed : Keyed t) {i : Nat} {w : Wait κ β}
    (hw : t.waits i = some w) (hstatus : w.status = .completed ∨ w.status = .closed) (k : κ) :
    t.callbacks k ≠ some i := by
  intro hcallback
  rcases hstatus with hcompleted | hclosed
  · obtain ⟨w', hw', -, hsent⟩ := hkeyed.registered k i hcallback
    obtain rfl := Option.some.inj (hw.symm.trans hw')
    have hsome := hkeyed.completed i w hw hcompleted
    simp [hsent] at hsome
  · have hattached := h.registered k i w hcallback hw
    simp [h.closed i w hw hclosed] at hattached

omit [DecidableEq κ] in
/-- A wait that waits and has been sent nothing has a callback, unless there is a newer wait for its
key. -/
theorem Attached.callback_iff (h : Attached t) {i : Nat} {w : Wait κ β} (hw : t.waits i = some w)
    (hwaiting : w.status = .waiting) (hsent : w.sent = none) :
    t.callbacks w.key = some i ↔ ∀ j w', i < j → t.waits j = some w' → w'.key ≠ w.key := by
  constructor
  · intro hcallback j w' hj hw' hkey
    exact absurd (h.newest w.key i j w' hcallback hw' hkey) (Nat.not_le_of_lt hj)
  · intro hnewest
    refine h.present i w hw (pending_eq_true_iff.mpr ⟨hwaiting, hsent, ?_⟩)
    by_contra horphaned
    obtain ⟨j, w', hj, hw', hkey⟩ := h.superseded i w hw (by simpa using horphaned)
    exact hnewest j w' hj hw' hkey

end Attachment

end SmppHerald.Callbacks
