import Mathlib.Data.List.Perm.Basic

namespace SmppHerald.MultiMaps

/-- The entries in the order in which they are iterated. -/
abbrev MultiMap (κ β : Type) := List (κ × List β)

variable {κ β γ : Type}

/-- The items of all keys. -/
def items (m : MultiMap κ β) : List β := m.flatMap Prod.snd

/-- Process every list and drop the keys that are left without items. -/
def mapLists (f : κ → List β → List β) (m : MultiMap κ β) : MultiMap κ β :=
  (m.map fun entry => (entry.1, f entry.1 entry.2)).filter fun entry => !entry.2.isEmpty

section Keys

variable [DecidableEq κ]

def find (key : κ) (m : MultiMap κ β) : Option (List β) :=
  (m.find? fun entry => entry.1 == key).map Prod.snd

/-- Add an item at the end of the list of a key. -/
def push (key : κ) (item : β) : MultiMap κ β → MultiMap κ β
  | [] => [(key, [item])]
  | entry :: m =>
      if entry.1 = key then (entry.1, entry.2 ++ [item]) :: m else entry :: push key item m

/-- Process the list of a key, and drop the key if it is left without items. -/
def updateAt (key : κ) (f : List β → List β) : MultiMap κ β → MultiMap κ β
  | [] => []
  | entry :: m =>
      if entry.1 = key then
        if (f entry.2).isEmpty then m else (entry.1, f entry.2) :: m
      else entry :: updateAt key f m

end Keys

@[simp] theorem items_cons (entry : κ × List β) (m : MultiMap κ β) :
    items (entry :: m) = entry.2 ++ items m := rfl

theorem items_mapLists (f : κ → List β → List β) (m : MultiMap κ β) :
    items (mapLists f m) = m.flatMap fun entry => f entry.1 entry.2 := by
  induction m with
  | nil => rfl
  | cons entry m ih =>
      simp only [mapLists, List.map_cons, List.filter_cons, List.flatMap_cons] at ih ⊢
      split
      · rw [items_cons, ih]
      · rename_i hempty
        have hnil : f entry.1 entry.2 = [] := by simpa using hempty
        rw [ih, hnil, List.nil_append]

theorem items_mapLists_sublist {f : κ → List β → List β}
    (hf : ∀ key list, (f key list).Sublist list) (m : MultiMap κ β) :
    (items (mapLists f m)).Sublist (items m) := by
  rw [items_mapLists]
  induction m with
  | nil => exact List.Sublist.refl _
  | cons entry m ih =>
      rw [List.flatMap_cons, items_cons]
      exact (hf entry.1 entry.2).append ih

section Keys

variable [DecidableEq κ]

theorem items_push (key : κ) (item : β) (m : MultiMap κ β) :
    (items (push key item m)).Perm (item :: items m) := by
  induction m with
  | nil => exact List.Perm.refl _
  | cons entry m ih =>
      unfold push
      split
      · rw [items_cons, items_cons, List.append_assoc]
        exact List.perm_middle
      · rw [items_cons, items_cons]
        exact (ih.append_left entry.2).trans List.perm_middle

theorem find_cons (key : κ) (entry : κ × List β) (m : MultiMap κ β) :
    find key (entry :: m) = if entry.1 = key then some entry.2 else find key m := by
  unfold find
  rw [List.find?_cons]
  by_cases heq : entry.1 = key
  · simp [heq]
  · simp [heq, beq_false_of_ne heq]

theorem updateAt_of_find_eq_none {key : κ} {m : MultiMap κ β} (h : find key m = none)
    (f : List β → List β) : updateAt key f m = m := by
  induction m with
  | nil => rfl
  | cons entry m ih =>
      rw [find_cons] at h
      split at h
      · cases h
      · rename_i hkey
        rw [updateAt, if_neg hkey, ih h]

theorem items_updateAt_of_find {key : κ} {m : MultiMap κ β} {list : List β}
    (h : find key m = some list) (f : List β → List β) :
    ∃ front back, items m = front ++ list ++ back ∧
      items (updateAt key f m) = front ++ f list ++ back := by
  induction m with
  | nil => simp [find] at h
  | cons entry m ih =>
      rw [find_cons] at h
      unfold updateAt
      by_cases hkey : entry.1 = key
      · rw [if_pos hkey] at h ⊢
        obtain rfl := Option.some.inj h
        refine ⟨[], items m, by simp, ?_⟩
        split
        · rename_i hempty
          simp [List.isEmpty_iff.mp hempty]
        · simp
      · rw [if_neg hkey] at h ⊢
        obtain ⟨front, back, hitems, hupdate⟩ := ih h
        exact ⟨entry.2 ++ front, back, by simp [hitems], by simp [hupdate]⟩

theorem items_updateAt (key : κ) (f : List β → List β) (m : MultiMap κ β) :
    items (updateAt key f m) = items m ∨ ∃ front list back, find key m = some list ∧
      items m = front ++ list ++ back ∧ items (updateAt key f m) = front ++ f list ++ back := by
  cases hfind : find key m with
  | none => exact .inl (by rw [updateAt_of_find_eq_none hfind])
  | some list =>
      obtain ⟨front, back, hitems, hupdate⟩ := items_updateAt_of_find hfind f
      exact .inr ⟨front, list, back, rfl, hitems, hupdate⟩

theorem items_updateAt_sublist {f : List β → List β} (hf : ∀ list, (f list).Sublist list)
    (key : κ) (m : MultiMap κ β) : (items (updateAt key f m)).Sublist (items m) := by
  rcases items_updateAt key f m with heq | ⟨front, list, back, -, hitems, hupdate⟩
  · rw [heq]
  · rw [hitems, hupdate]
    exact ((List.Sublist.refl _).append (hf list)).append (List.Sublist.refl _)

/-- Processing a list in a way that `g` does not see is not seen in all items either. -/
theorem map_items_updateAt {f : List β → List β} {g : β → γ}
    (hf : ∀ list, (f list).map g = list.map g) (key : κ) (m : MultiMap κ β) :
    (items (updateAt key f m)).map g = (items m).map g := by
  rcases items_updateAt key f m with heq | ⟨front, list, back, -, hitems, hupdate⟩
  · rw [heq]
  · rw [hitems, hupdate]
    simp [hf]

end Keys

section Entries

/-- The items of all keys, each with its key. -/
def entries (m : MultiMap κ β) : List (κ × β) :=
  m.flatMap fun entry => entry.2.map (Prod.mk entry.1)

/-- A map as it is built: no key occurs twice and no list is empty. -/
structure Proper (m : MultiMap κ β) : Prop where
  keys : (m.map Prod.fst).Nodup
  nonempty : ∀ entry ∈ m, entry.2 ≠ []

@[simp] theorem entries_cons (entry : κ × List β) (m : MultiMap κ β) :
    entries (entry :: m) = entry.2.map (Prod.mk entry.1) ++ entries m := rfl

theorem map_snd_entries (m : MultiMap κ β) : (entries m).map Prod.snd = items m := by
  induction m with
  | nil => rfl
  | cons entry m ih => simp [ih, Function.comp_def]

theorem entries_mapLists (f : κ → List β → List β) (m : MultiMap κ β) :
    entries (mapLists f m) = m.flatMap fun entry => (f entry.1 entry.2).map (Prod.mk entry.1) := by
  induction m with
  | nil => rfl
  | cons entry m ih =>
      simp only [mapLists, List.map_cons, List.filter_cons, List.flatMap_cons] at ih ⊢
      split
      · rw [entries_cons, ih]
      · rename_i hempty
        have hnil : f entry.1 entry.2 = [] := by simpa using hempty
        rw [ih, hnil, List.map_nil, List.nil_append]

theorem entries_filterLists (p : κ → β → Bool) (m : MultiMap κ β) :
    entries (mapLists (fun key list => list.filter (p key)) m) =
      (entries m).filter fun entry => p entry.1 entry.2 := by
  rw [entries_mapLists]
  induction m with
  | nil => rfl
  | cons entry m ih =>
      rw [List.flatMap_cons, entries_cons, List.filter_append, ih, List.filter_map]
      rfl

theorem any_entries (p : κ → β → Bool) (m : MultiMap κ β) :
    (m.any fun entry => entry.2.any (p entry.1)) =
      (entries m).any fun entry => p entry.1 entry.2 := by
  induction m with
  | nil => rfl
  | cons entry m ih =>
      rw [List.any_cons, entries_cons, List.any_append, ih, List.any_map]
      rfl

theorem mem_keys_of_mem_entries {m : MultiMap κ β} {entry : κ × β} (h : entry ∈ entries m) :
    entry.1 ∈ m.map Prod.fst := by
  obtain ⟨⟨key, list⟩, hlist, hentry⟩ := List.mem_flatMap.mp h
  obtain ⟨item, -, rfl⟩ := List.mem_map.mp hentry
  exact List.mem_map_of_mem hlist

theorem keys_filterMap_sublist {key : γ → κ} {f : κ × List β → Option γ}
    (hf : ∀ entry value, f entry = some value → key value = entry.1) (m : MultiMap κ β) :
    ((m.filterMap f).map key).Sublist (m.map Prod.fst) := by
  induction m with
  | nil => exact List.Sublist.refl _
  | cons entry m ih =>
      rw [List.filterMap_cons]
      cases hvalue : f entry with
      | none => exact ih.cons _
      | some value =>
          rw [List.map_cons, hf entry value hvalue, List.map_cons]
          exact ih.cons_cons _

theorem Proper.tail {entry : κ × List β} {m : MultiMap κ β} (h : Proper (entry :: m)) :
    entry.1 ∉ m.map Prod.fst ∧ entry.2 ≠ [] ∧ Proper m := by
  have hkeys := h.keys
  have hnonempty := h.nonempty
  rw [List.map_cons, List.nodup_cons] at hkeys
  rw [List.forall_mem_cons] at hnonempty
  exact ⟨hkeys.1, hnonempty.1, hkeys.2, hnonempty.2⟩

theorem Proper.cons {entry : κ × List β} {m : MultiMap κ β} (hkey : entry.1 ∉ m.map Prod.fst)
    (hnonempty : entry.2 ≠ []) (h : Proper m) : Proper (entry :: m) := by
  constructor
  · rw [List.map_cons, List.nodup_cons]
    exact ⟨hkey, h.keys⟩
  · rw [List.forall_mem_cons]
    exact ⟨hnonempty, h.nonempty⟩

theorem proper_nil : Proper ([] : MultiMap κ β) := by
  constructor <;> simp

theorem Proper.mapLists {m : MultiMap κ β} (h : Proper m) (f : κ → List β → List β) :
    Proper (mapLists f m) := by
  constructor
  · refine h.keys.sublist ?_
    have hkeys : (m.map fun entry => (entry.1, f entry.1 entry.2)).map Prod.fst =
        m.map Prod.fst := by
      rw [List.map_map]
      rfl
    rw [← hkeys]
    exact List.filter_sublist.map Prod.fst
  · intro entry hentry
    have hfilter := (List.mem_filter.mp hentry).2
    simpa using hfilter

variable [DecidableEq κ]

theorem keys_push_subset (key : κ) (item : β) (m : MultiMap κ β) :
    ∀ other ∈ (push key item m).map Prod.fst, other = key ∨ other ∈ m.map Prod.fst := by
  induction m with
  | nil => simp [push]
  | cons entry m ih =>
      unfold push
      split
      · intro other hother
        exact .inr hother
      · intro other hother
        rw [List.map_cons, List.mem_cons] at hother ⊢
        rcases hother with rfl | hother
        · exact .inr (.inl rfl)
        · exact (ih other hother).imp_right .inr

theorem Proper.push {m : MultiMap κ β} (h : Proper m) (key : κ) (item : β) :
    Proper (push key item m) := by
  induction m with
  | nil =>
      constructor <;> simp [MultiMaps.push]
  | cons entry m ih =>
      obtain ⟨hkey, hnonempty, htail⟩ := h.tail
      unfold MultiMaps.push
      split
      · exact .cons hkey (by simp) htail
      · rename_i hne
        refine .cons ?_ hnonempty (ih htail)
        intro hmem
        rcases keys_push_subset key item m _ hmem with heq | hmem
        · exact hne heq
        · exact hkey hmem

theorem entries_push (key : κ) (item : β) (m : MultiMap κ β) :
    (entries (push key item m)).Perm ((key, item) :: entries m) := by
  induction m with
  | nil => exact List.Perm.refl _
  | cons entry m ih =>
      unfold push
      split
      · rename_i heq
        subst heq
        rw [entries_cons, entries_cons, List.map_append, List.append_assoc]
        exact List.perm_middle
      · rw [entries_cons, entries_cons]
        exact (ih.append_left _).trans List.perm_middle

theorem keys_updateAt_sublist (key : κ) (f : List β → List β) (m : MultiMap κ β) :
    ((updateAt key f m).map Prod.fst).Sublist (m.map Prod.fst) := by
  induction m with
  | nil => exact List.Sublist.refl _
  | cons entry m ih =>
      unfold updateAt
      split
      · split
        · exact List.sublist_cons_self _ _
        · exact List.Sublist.refl _
      · exact ih.cons_cons entry.1

theorem Proper.updateAt {m : MultiMap κ β} (h : Proper m) (key : κ) (f : List β → List β) :
    Proper (updateAt key f m) := by
  induction m with
  | nil => exact proper_nil
  | cons entry m ih =>
      obtain ⟨hkey, hnonempty, htail⟩ := h.tail
      unfold MultiMaps.updateAt
      split
      · split
        · exact htail
        · rename_i hlist
          exact .cons hkey (by simpa using hlist) htail
      · refine .cons ?_ hnonempty (ih htail)
        exact fun hmem => hkey ((keys_updateAt_sublist key f m).mem hmem)

theorem entries_updateAt_map {m : MultiMap κ β} (h : Proper m) (key : κ) (f : β → β) :
    entries (updateAt key (List.map f) m) =
      (entries m).map fun entry => if entry.1 = key then (entry.1, f entry.2) else entry := by
  induction m with
  | nil => rfl
  | cons entry m ih =>
      obtain ⟨hkey, hnonempty, htail⟩ := h.tail
      unfold updateAt
      by_cases heq : entry.1 = key
      · have hothers : ∀ other ∈ entries m, other.1 ≠ key := by
          intro other hother hsame
          exact hkey (heq.trans hsame.symm ▸ mem_keys_of_mem_entries hother)
        have hrest : ((entries m).map fun entry =>
            if entry.1 = key then (entry.1, f entry.2) else entry) = entries m := by
          refine (List.map_congr_left fun other hother => ?_).trans (List.map_id _)
          rw [if_neg (hothers other hother)]
          rfl
        rw [if_pos heq, if_neg (by simpa using hnonempty), entries_cons, entries_cons,
          List.map_append, hrest, List.map_map, List.map_map]
        congr 1
        apply List.map_congr_left
        intro item _
        simp [heq]
      · rw [if_neg heq, entries_cons, entries_cons, List.map_append, ih htail, List.map_map]
        congr 1
        apply List.map_congr_left
        intro item _
        simp [heq]

theorem find_isNone_iff {m : MultiMap κ β} (h : Proper m) (key : κ) :
    (find key m).isNone = true ↔ ∀ entry ∈ entries m, entry.1 ≠ key := by
  induction m with
  | nil => simp [find, entries]
  | cons entry m ih =>
      obtain ⟨hkey, hnonempty, htail⟩ := h.tail
      obtain ⟨item, list, hlist⟩ := List.exists_cons_of_ne_nil hnonempty
      rw [find_cons]
      by_cases heq : entry.1 = key
      · simp [heq, hlist]
      · rw [if_neg heq, ih htail]
        simp only [entries_cons, List.forall_mem_append, List.forall_mem_map]
        constructor
        · intro hothers
          exact ⟨fun _ _ => heq, hothers⟩
        · rintro ⟨-, hothers⟩
          exact hothers

end Entries

section ListAt

variable [DecidableEq κ] {m : MultiMap κ β}

/-- The list of a key, which is empty if the key is not there. -/
def listAt (key : κ) (m : MultiMap κ β) : List β := (find key m).getD []

theorem find_eq_some_iff (h : Proper m) {key : κ} {list : List β} :
    find key m = some list ↔ listAt key m = list ∧ list ≠ [] := by
  rw [listAt]
  cases hfind : find key m with
  | none => simp [eq_comm]
  | some found =>
      have hnonempty : found ≠ [] := by
        obtain ⟨entry, hentry, rfl⟩ := Option.map_eq_some_iff.mp hfind
        exact h.nonempty entry (List.mem_of_find?_eq_some hentry)
      simp only [Option.some.injEq, Option.getD_some]
      constructor
      · rintro rfl
        exact ⟨rfl, hnonempty⟩
      · exact fun heq => heq.1

theorem mem_of_find_eq_some {key : κ} {list : List β} (h : find key m = some list) :
    (key, list) ∈ m := by
  obtain ⟨entry, hentry, rfl⟩ := Option.map_eq_some_iff.mp h
  have hkey : entry.1 = key := by simpa using List.find?_some hentry
  rw [← hkey]
  exact List.mem_of_find?_eq_some hentry

theorem find_eq_none_of_not_mem {key : κ} (h : key ∉ m.map Prod.fst) : find key m = none := by
  induction m with
  | nil => rfl
  | cons entry m ih =>
      rw [List.map_cons, List.mem_cons, not_or] at h
      rw [find_cons, if_neg (Ne.symm h.1), ih h.2]

theorem listAt_push (key : κ) (item : β) (other : κ) (m : MultiMap κ β) :
    listAt other (push key item m) =
      if other = key then listAt other m ++ [item] else listAt other m := by
  induction m with
  | nil =>
      rw [push, listAt, listAt, find_cons]
      by_cases heq : other = key
      · simp [find, heq]
      · simp [find, heq, Ne.symm heq]
  | cons entry m ih =>
      unfold push
      by_cases hentry : entry.1 = key
      · rw [if_pos hentry, listAt, listAt, find_cons, find_cons]
        by_cases hother : other = key
        · simp [hentry, hother]
        · simp [hentry, hother, Ne.symm hother]
      · rw [if_neg hentry]
        unfold listAt at ih ⊢
        rw [find_cons, find_cons]
        by_cases hother : entry.1 = other
        · have hne : other ≠ key := fun heq => hentry (hother.trans heq)
          simp [hother, hne]
        · simp [hother, ih]

theorem listAt_updateAt (h : Proper m) (key : κ) {f : List β → List β} (hf : f [] = []) (other : κ) :
    listAt other (updateAt key f m) =
      if other = key then f (listAt other m) else listAt other m := by
  induction m with
  | nil => simp [updateAt, listAt, find, hf]
  | cons entry m ih =>
      obtain ⟨hkey, hnonempty, htail⟩ := h.tail
      have hrest := ih htail
      unfold updateAt
      unfold listAt at hrest ⊢
      by_cases hentry : entry.1 = key
      · rw [if_pos hentry]
        by_cases hother : other = key
        · obtain rfl := hother
          have hgone : find other m = none := find_eq_none_of_not_mem (hentry ▸ hkey)
          rw [if_pos rfl, find_cons, if_pos hentry, Option.getD_some]
          split
          · rename_i hempty
            rw [hgone, Option.getD_none]
            exact (List.isEmpty_iff.mp hempty).symm
          · rw [find_cons, if_pos hentry, Option.getD_some]
        · have hne : ¬ entry.1 = other := fun heq => hother (heq.symm.trans hentry)
          rw [if_neg hother, find_cons, if_neg hne]
          split
          · rfl
          · rw [find_cons, if_neg hne]
      · rw [if_neg hentry, find_cons, find_cons]
        by_cases hother : entry.1 = other
        · have hne : other ≠ key := fun heq => hentry (hother.trans heq)
          simp [hother, hne]
        · simp only [if_neg hother, hrest]

theorem listAt_mapLists (h : Proper m) {f : κ → List β → List β} (hf : ∀ key, f key [] = [])
    (key : κ) : listAt key (mapLists f m) = f key (listAt key m) := by
  induction m with
  | nil => exact (hf key).symm
  | cons entry m ih =>
      obtain ⟨hkey, hnonempty, htail⟩ := h.tail
      have hrest := ih htail
      have hcons : mapLists f (entry :: m) = if (f entry.1 entry.2).isEmpty = true
          then mapLists f m else (entry.1, f entry.1 entry.2) :: mapLists f m := by
        simp only [mapLists, List.map_cons, List.filter_cons]
        cases (f entry.1 entry.2).isEmpty <;> rfl
      rw [hcons]
      unfold listAt at hrest ⊢
      by_cases hentry : entry.1 = key
      · have hgone : find key m = none := find_eq_none_of_not_mem (hentry ▸ hkey)
        rw [hgone, Option.getD_none, hf] at hrest
        split
        · rename_i hempty
          rw [hrest, find_cons, if_pos hentry, Option.getD_some, ← hentry]
          exact (List.isEmpty_iff.mp hempty).symm
        · simp [find_cons, hentry]
      · split <;> simp [find_cons, hentry, hrest]

theorem listAt_of_mem (h : Proper m) {entry : κ × List β} (hentry : entry ∈ m) :
    listAt entry.1 m = entry.2 := by
  induction m with
  | nil => simp at hentry
  | cons first m ih =>
      obtain ⟨hkey, -, htail⟩ := h.tail
      rw [listAt, find_cons]
      rcases List.mem_cons.mp hentry with rfl | hmem
      · simp
      · have hne : ¬ first.1 = entry.1 := by
          intro heq
          exact hkey (heq ▸ List.mem_map_of_mem hmem)
        rw [if_neg hne]
        exact ih htail hmem

end ListAt

end SmppHerald.MultiMaps
