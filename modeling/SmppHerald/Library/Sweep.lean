import Mathlib.Data.List.Induction
import Mathlib.Data.List.Perm.Basic

/-!
Loops over a list by index from its end to its front. Each round may replace or remove the item at
hand or end the loop.
-/

namespace SmppHerald.Sweeps

variable {β σ : Type}

section Loop

/-- What a round does with the item at hand. -/
inductive Verdict (β : Type)
  | keep | put (item : β) | remove | stop

/-- The rounds from index `n - 1` down to 0. There is no result where an index is out of range. -/
def sweep (verdict : Nat → β → Verdict β) (onRemove : β → σ → σ) (onStop : Nat → β → σ → σ) :
    Nat → List β → σ → Option (List β × σ)
  | 0, list, acc => some (list, acc)
  | index + 1, list, acc =>
      match list[index]? with
      | none => none
      | some item =>
          match verdict index item with
          | .keep => sweep verdict onRemove onStop index list acc
          | .put item => sweep verdict onRemove onStop index (list.set index item) acc
          | .remove => sweep verdict onRemove onStop index (list.eraseIdx index) (onRemove item acc)
          | .stop => some (list, onStop index item acc)

end Loop

section Result

/-- What a loop leaves, what it has removed, in this order, and where it has ended early. -/
structure Swept (β : Type) where
  left : List β
  removed : List β
  stoppedAt : Option (Nat × β)

def Swept.account (onRemove : β → σ → σ) (onStop : Nat → β → σ → σ) (swept : Swept β) (acc : σ) : σ :=
  let acc := swept.removed.foldl (fun acc item => onRemove item acc) acc
  match swept.stoppedAt with
  | none => acc
  | some (index, item) => onStop index item acc

def swept : (Nat → β → Verdict β) → List β → Swept β
  | _, [] => ⟨[], [], none⟩
  | verdict, item :: list =>
      let rest := swept (fun index => verdict (index + 1)) list
      match rest.stoppedAt with
      | some (index, found) => ⟨item :: rest.left, rest.removed, some (index + 1, found)⟩
      | none =>
          match verdict 0 item with
          | .keep => ⟨item :: rest.left, rest.removed, none⟩
          | .put item => ⟨item :: rest.left, rest.removed, none⟩
          | .remove => ⟨rest.left, rest.removed ++ [item], none⟩
          | .stop => ⟨item :: rest.left, rest.removed, some (0, item)⟩

theorem swept_concat (verdict : Nat → β → Verdict β) (list : List β) (item : β) :
    swept verdict (list ++ [item]) =
      match verdict list.length item with
      | .keep => { swept verdict list with left := (swept verdict list).left ++ [item] }
      | .put item => { swept verdict list with left := (swept verdict list).left ++ [item] }
      | .remove => { swept verdict list with removed := item :: (swept verdict list).removed }
      | .stop => ⟨list ++ [item], [], some (list.length, item)⟩ := by
  induction list generalizing verdict with
  | nil => simp only [List.nil_append, List.length_nil, swept]
  | cons first list ih =>
      rw [List.cons_append, swept, ih, List.length_cons, swept]
      cases verdict (list.length + 1) item with
      | stop => rfl
      | _ =>
          simp only
          cases (swept (fun index => verdict (index + 1)) list).stoppedAt with
          | some found => rfl
          | none => cases verdict 0 first <;> rfl

variable {verdict : Nat → β → Verdict β} {onRemove : β → σ → σ} {onStop : Nat → β → σ → σ}

theorem sweep_append (front rest : List β) (acc : σ) :
    sweep verdict onRemove onStop front.length (front ++ rest) acc =
      some ((swept verdict front).left ++ rest,
        (swept verdict front).account onRemove onStop acc) := by
  induction front using List.reverseRecOn generalizing rest acc with
  | nil => rfl
  | append_singleton front item ih =>
      have hitem : (front ++ [item] ++ rest)[front.length]? = some item := by simp
      rw [List.length_append, List.length_singleton, sweep, hitem, swept_concat]
      cases hverdict : verdict front.length item with
      | keep =>
          have hnext := ih (item :: rest) acc
          simpa [Swept.account, hverdict] using hnext
      | put replacement =>
          have hnext := ih (replacement :: rest) acc
          simpa [Swept.account, hverdict] using hnext
      | remove =>
          have herase : (front ++ item :: rest).eraseIdx front.length = front ++ rest := by
            rw [List.eraseIdx_append_of_length_le (Nat.le_refl _)]
            simp
          have hnext := ih rest (onRemove item acc)
          simpa [Swept.account, hverdict, herase] using hnext
      | stop => simp [Swept.account, hverdict]

theorem swept_congr {verdict' : Nat → β → Verdict β} {list : List β}
    (h : ∀ index item, list[index]? = some item → verdict index item = verdict' index item) :
    swept verdict list = swept verdict' list := by
  induction list generalizing verdict verdict' with
  | nil => rfl
  | cons first list ih =>
      have hrest : swept (fun index => verdict (index + 1)) list =
          swept (fun index => verdict' (index + 1)) list :=
        ih fun index item hitem => h (index + 1) item hitem
      rw [swept, swept, hrest, h 0 first rfl]

/-- The verdicts of a loop that starts below index `n`. -/
def within (n : Nat) (verdict : Nat → β → Verdict β) (index : Nat) (item : β) : Verdict β :=
  if index < n then verdict index item else .keep

theorem swept_within_length (verdict : Nat → β → Verdict β) (list : List β) :
    swept (within list.length verdict) list = swept verdict list := by
  apply swept_congr
  intro index item hitem
  obtain ⟨hindex, -⟩ := List.getElem?_eq_some_iff.mp hitem
  rw [within, if_pos hindex]

theorem swept_within_append (verdict : Nat → β → Verdict β) (front rest : List β) :
    swept (within front.length verdict) (front ++ rest) =
      { swept verdict front with left := (swept verdict front).left ++ rest } := by
  induction rest using List.reverseRecOn with
  | nil => rw [List.append_nil, List.append_nil, swept_within_length]
  | append_singleton rest item ih =>
      have hkeep : within front.length verdict (front ++ rest).length item = .keep := by
        rw [within, if_neg (by simp)]
      rw [← List.append_assoc, swept_concat, hkeep]
      simp [ih]

/-- A loop that starts in the list never leaves it. -/
theorem sweep_eq {n : Nat} {list : List β} (h : n ≤ list.length) (acc : σ) :
    sweep verdict onRemove onStop n list acc =
      some ((swept (within n verdict) list).left,
        (swept (within n verdict) list).account onRemove onStop acc) := by
  have hlength : (list.take n).length = n := List.length_take_of_le h
  have hfront := @sweep_append _ _ verdict onRemove onStop (list.take n) (list.drop n) acc
  have hwithin := swept_within_append verdict (list.take n) (list.drop n)
  rw [hlength, List.take_append_drop] at hfront hwithin
  rw [hfront, hwithin]
  rfl

end Result

section Removal

/-- The round at `index` is reached and removes the item. -/
def Drops (verdict : Nat → β → Verdict β) (list : List β) (index : Nat) : Prop :=
  (∃ item, list[index]? = some item ∧ verdict index item = .remove) ∧
    ∀ later item, index < later → list[later]? = some item → verdict later item ≠ .stop

instance (verdict : Nat → β → Verdict β) (list : List β) (index : Nat) :
    Decidable (Drops verdict list index) :=
  decidable_of_iff
    ((list[index]?.any fun item => match verdict index item with
        | .remove => true
        | _ => false) = true ∧
      ∀ later, (h : later < list.length) → index < later → (match verdict later list[later] with
        | .stop => true
        | _ => false) = false) (by
    refine and_congr ?_ ?_
    · rw [Option.any_eq_true]
      refine exists_congr fun item => and_congr_right fun _ => ?_
      cases verdict index item <;> simp
    · constructor
      · intro h later item hlt hitem
        obtain ⟨hlater, rfl⟩ := List.getElem?_eq_some_iff.mp hitem
        intro hstop
        simpa [hstop] using h later hlater hlt
      · intro h later hlater hlt
        have hgo := h later list[later] hlt (List.getElem?_eq_getElem hlater)
        cases hverdict : verdict later list[later] with
        | stop => exact absurd hverdict hgo
        | _ => rfl)

/-- The loop replaces nothing. -/
def NoPut (verdict : Nat → β → Verdict β) : Prop :=
  ∀ index item item', verdict index item ≠ .put item'

variable {verdict : Nat → β → Verdict β} {list : List β}

theorem NoPut.within (h : NoPut verdict) (n : Nat) : NoPut (within n verdict) := by
  intro index item item'
  unfold Sweeps.within
  split
  · exact h index item item'
  · simp

theorem NoPut.shift (h : NoPut verdict) : NoPut fun index => verdict (index + 1) :=
  fun index => h (index + 1)

theorem stoppedAt_eq_none_iff : (swept verdict list).stoppedAt = none ↔
    ∀ index item, list[index]? = some item → verdict index item ≠ .stop := by
  induction list generalizing verdict with
  | nil => simp [swept]
  | cons first list ih =>
      have hrest := @ih fun index => verdict (index + 1)
      have hsplit : (∀ index item, (first :: list)[index]? = some item →
          verdict index item ≠ .stop) ↔ verdict 0 first ≠ .stop ∧
            (swept (fun index => verdict (index + 1)) list).stoppedAt = none := by
        rw [hrest]
        constructor
        · intro h
          exact ⟨h 0 first rfl, fun index item hitem => h (index + 1) item hitem⟩
        · rintro ⟨hfirst, hlater⟩ index item hitem
          cases index with
          | zero => simpa [← Option.some.inj hitem] using hfirst
          | succ index => exact hlater index item hitem
      rw [hsplit, swept]
      cases (swept (fun index => verdict (index + 1)) list).stoppedAt with
      | some found => simp
      | none => cases verdict 0 first <;> simp

theorem stoppedAt_cons_eq_some {first : β} {index : Nat} {item : β}
    (h : (swept verdict (first :: list)).stoppedAt = some (index, item)) :
    (∃ before, index = before + 1 ∧
        (swept (fun index => verdict (index + 1)) list).stoppedAt = some (before, item)) ∨
      (swept (fun index => verdict (index + 1)) list).stoppedAt = none ∧
        verdict 0 first = .stop ∧ index = 0 ∧ item = first := by
  rw [swept] at h
  cases hrest : (swept (fun index => verdict (index + 1)) list).stoppedAt with
  | some found =>
      obtain ⟨before, other⟩ := found
      simp only [hrest, Option.some.injEq, Prod.mk.injEq] at h
      obtain ⟨rfl, rfl⟩ := h
      exact .inl ⟨before, rfl, rfl⟩
  | none =>
      cases hfirst : verdict 0 first with
      | stop =>
          simp only [hrest, hfirst, Option.some.injEq, Prod.mk.injEq] at h
          obtain ⟨rfl, rfl⟩ := h
          exact .inr ⟨rfl, rfl, rfl, rfl⟩
      | _ => simp [hrest, hfirst] at h

/-- A loop ends early at an item whose verdict ends it. -/
theorem stoppedAt_eq_some {index : Nat} {item : β}
    (h : (swept verdict list).stoppedAt = some (index, item)) :
    list[index]? = some item ∧ verdict index item = .stop := by
  induction list generalizing verdict index with
  | nil => simp [swept] at h
  | cons first list ih =>
      rcases stoppedAt_cons_eq_some h with ⟨before, rfl, hrest⟩ | ⟨-, hfirst, rfl, rfl⟩
      · exact ih hrest
      · exact ⟨rfl, hfirst⟩

theorem drops_zero_iff {first : β} : Drops verdict (first :: list) 0 ↔
    verdict 0 first = .remove ∧ (swept (fun index => verdict (index + 1)) list).stoppedAt = none := by
  rw [stoppedAt_eq_none_iff]
  constructor
  · rintro ⟨⟨item, hitem, hremove⟩, hlater⟩
    obtain rfl := Option.some.inj hitem
    exact ⟨hremove, fun index item hitem => hlater (index + 1) item (Nat.succ_pos index) hitem⟩
  · rintro ⟨hremove, hlater⟩
    refine ⟨⟨first, rfl, hremove⟩, fun later item hlt hitem => ?_⟩
    obtain ⟨index, rfl⟩ := Nat.exists_eq_succ_of_ne_zero (Nat.pos_iff_ne_zero.mp hlt)
    exact hlater index item hitem

theorem drops_succ_iff {first : β} {index : Nat} : Drops verdict (first :: list) (index + 1) ↔
    Drops (fun index => verdict (index + 1)) list index := by
  constructor
  · rintro ⟨hitem, hlater⟩
    exact ⟨hitem, fun later item hlt => hlater (later + 1) item (Nat.succ_lt_succ hlt)⟩
  · rintro ⟨hitem, hlater⟩
    refine ⟨hitem, fun later item hlt hlist => ?_⟩
    obtain ⟨later, rfl⟩ := Nat.exists_eq_succ_of_ne_zero (Nat.ne_zero_of_lt hlt)
    exact hlater later item (Nat.lt_of_succ_lt_succ hlt) hlist

theorem exists_getElem?_cons {first : β} {P : Nat → Prop} {item : β} :
    (∃ index, (first :: list)[index]? = some item ∧ P index) ↔
      first = item ∧ P 0 ∨ ∃ index, list[index]? = some item ∧ P (index + 1) := by
  constructor
  · rintro ⟨index, hitem, hP⟩
    cases index with
    | zero => exact .inl ⟨Option.some.inj hitem, hP⟩
    | succ index => exact .inr ⟨index, hitem, hP⟩
  · rintro (⟨rfl, hP⟩ | ⟨index, hitem, hP⟩)
    · exact ⟨0, rfl, hP⟩
    · exact ⟨index + 1, hitem, hP⟩

/-- What has been removed is what a round was reached for that removes it. -/
theorem mem_removed_iff {item : β} : item ∈ (swept verdict list).removed ↔
    ∃ index, list[index]? = some item ∧ Drops verdict list index := by
  induction list generalizing verdict with
  | nil => simp [swept]
  | cons first list ih =>
      rw [exists_getElem?_cons, drops_zero_iff]
      simp only [drops_succ_iff]
      rw [← ih, swept]
      cases (swept (fun index => verdict (index + 1)) list).stoppedAt with
      | some found => simp
      | none =>
          cases verdict 0 first with
          | remove => simp [or_comm, eq_comm]
          | _ => simp

theorem mem_left_iff (hput : NoPut verdict) {item : β} : item ∈ (swept verdict list).left ↔
    ∃ index, list[index]? = some item ∧ ¬ Drops verdict list index := by
  induction list generalizing verdict with
  | nil => simp [swept]
  | cons first list ih =>
      rw [exists_getElem?_cons, drops_zero_iff]
      simp only [drops_succ_iff]
      rw [← ih hput.shift, swept]
      cases (swept (fun index => verdict (index + 1)) list).stoppedAt with
      | some found => simp [eq_comm]
      | none =>
          cases hfirst : verdict 0 first with
          | put other => exact absurd hfirst (hput 0 first other)
          | remove => simp
          | _ => simp [eq_comm]

theorem left_append_removed_perm (hput : NoPut verdict) (list : List β) :
    ((swept verdict list).left ++ (swept verdict list).removed).Perm list := by
  induction list generalizing verdict with
  | nil => exact List.Perm.refl _
  | cons first list ih =>
      have hrest := ih hput.shift
      rw [swept]
      cases (swept (fun index => verdict (index + 1)) list).stoppedAt with
      | some found => exact hrest.cons first
      | none =>
          cases hfirst : verdict 0 first with
          | put other => exact absurd hfirst (hput 0 first other)
          | remove =>
              rw [← List.append_assoc]
              exact (List.perm_append_singleton first _).trans (hrest.cons first)
          | keep => exact hrest.cons first
          | stop => exact hrest.cons first

theorem left_sublist (hput : NoPut verdict) (list : List β) :
    (swept verdict list).left.Sublist list := by
  induction list generalizing verdict with
  | nil => exact List.Sublist.refl _
  | cons first list ih =>
      have hrest := ih hput.shift
      rw [swept]
      cases (swept (fun index => verdict (index + 1)) list).stoppedAt with
      | some found => exact hrest.cons_cons first
      | none =>
          cases hfirst : verdict 0 first with
          | put other => exact absurd hfirst (hput 0 first other)
          | remove => exact hrest.cons first
          | keep => exact hrest.cons_cons first
          | stop => exact hrest.cons_cons first

theorem filter_left {q : β → Bool} (hput : NoPut verdict)
    (hremove : ∀ index item, verdict index item = .remove → q item = false) (list : List β) :
    (swept verdict list).left.filter q = list.filter q := by
  induction list generalizing verdict with
  | nil => rfl
  | cons first list ih =>
      have hrest := ih hput.shift fun index => hremove (index + 1)
      rw [swept]
      cases (swept (fun index => verdict (index + 1)) list).stoppedAt with
      | some found => simp only [List.filter_cons, hrest]
      | none =>
          cases hfirst : verdict 0 first with
          | put other => exact absurd hfirst (hput 0 first other)
          | remove => simp [hremove 0 first hfirst, hrest]
          | keep => simp only [List.filter_cons, hrest]
          | stop => simp only [List.filter_cons, hrest]

theorem getElem?_left_of_stoppedAt {index : Nat} {item : β}
    (h : (swept verdict list).stoppedAt = some (index, item)) :
    (swept verdict list).left[index]? = some item := by
  induction list generalizing verdict index with
  | nil => simp [swept] at h
  | cons first list ih =>
      rcases stoppedAt_cons_eq_some h with ⟨before, rfl, hrest⟩ | ⟨hrest, hfirst, rfl, rfl⟩
      · simp only [swept, hrest]
        exact ih hrest
      · simp [swept, hrest, hfirst]

theorem mem_left {item : β} (h : item ∈ (swept verdict list).left) :
    item ∈ list ∨ ∃ index before, list[index]? = some before ∧ verdict index before = .put item := by
  induction list generalizing verdict with
  | nil => simp [swept] at h
  | cons first list ih =>
      have hsplit : item = first ∨ verdict 0 first = .put item ∨
          item ∈ (swept (fun index => verdict (index + 1)) list).left := by
        rw [swept] at h
        cases hstop : (swept (fun index => verdict (index + 1)) list).stoppedAt with
        | some found =>
            simp only [hstop, List.mem_cons] at h
            tauto
        | none =>
            cases hfirst : verdict 0 first with
            | remove => exact .inr (.inr (by simpa [hstop, hfirst] using h))
            | _ =>
                simp only [hstop, hfirst, List.mem_cons] at h
                rcases h with rfl | h <;> simp_all
      rcases hsplit with rfl | hput | hrest
      · exact .inl List.mem_cons_self
      · exact .inr ⟨0, first, rfl, hput⟩
      · rcases ih hrest with hmem | ⟨index, before, hbefore, hput⟩
        · exact .inl (List.mem_cons_of_mem _ hmem)
        · exact .inr ⟨index + 1, before, hbefore, hput⟩

theorem map_left {γ : Type} {g : β → γ} (hremove : ∀ index item, verdict index item ≠ .remove)
    (hput : ∀ index item item', verdict index item = .put item' → g item' = g item) :
    (swept verdict list).left.map g = list.map g := by
  induction list generalizing verdict with
  | nil => rfl
  | cons first list ih =>
      have hrest := @ih (fun index => verdict (index + 1)) (fun index => hremove (index + 1))
        fun index => hput (index + 1)
      rw [swept]
      cases (swept (fun index => verdict (index + 1)) list).stoppedAt with
      | some found => simp [hrest]
      | none =>
          cases hfirst : verdict 0 first with
          | remove => exact absurd hfirst (hremove 0 first)
          | put item => simp [hrest, hput 0 first item hfirst]
          | keep => simp [hrest]
          | stop => simp [hrest]

end Removal

section Uniform

theorem swept_filter (p : β → Bool) (list : List β) :
    swept (fun _ item => if p item = true then .remove else .keep) list =
      ⟨list.filter fun item => !p item, list.reverse.filter p, none⟩ := by
  induction list with
  | nil => rfl
  | cons first list ih =>
      rw [swept, ih]
      cases hfirst : p first <;> simp [hfirst]

theorem swept_within_filter (p : β → Bool) {n : Nat} {list : List β} (h : n ≤ list.length) :
    swept (within n fun _ item => if p item = true then .remove else .keep) list =
      ⟨((list.take n).filter fun item => !p item) ++ list.drop n, (list.take n).reverse.filter p,
        none⟩ := by
  have hlength : (list.take n).length = n := List.length_take_of_le h
  have hfront := swept_within_append
    (fun _ item => if p item = true then Verdict.remove else .keep) (list.take n) (list.drop n)
  rw [hlength, List.take_append_drop, swept_filter] at hfront
  exact hfront

theorem swept_map (p : β → Bool) (f : β → β) (list : List β) :
    swept (fun _ item => if p item = true then .put (f item) else .keep) list =
      ⟨list.map fun item => if p item = true then f item else item, [], none⟩ := by
  induction list with
  | nil => rfl
  | cons first list ih =>
      rw [swept, ih]
      cases hfirst : p first <;> simp [hfirst]

end Uniform

end SmppHerald.Sweeps
