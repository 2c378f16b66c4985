import Mathlib.Algebra.Group.Int.Defs
import Mathlib.Algebra.Group.Nat.Defs
import Mathlib.Data.List.Basic

/-!
`serde_json::Value`. An object is a `BTreeMap`: its entries are kept in the order of their keys.
-/

namespace SmppHerald.Json

/-- A JSON number; `negInt n` is the negative integer `-n - 1`. A floating-point number is kept by
its bits, since no modelled function computes with one. -/
inductive Number
  | posInt (n : UInt64)
  | negInt (n : Nat)
  | float (bits : UInt64)
deriving DecidableEq, Repr

def Number.asU64 : Number → Option UInt64
  | .posInt n => some n
  | .negInt _ => none
  | .float _ => none

inductive Value
  | null
  | bool (b : Bool)
  | number (n : Number)
  | string (s : String)
  | array (items : List Value)
  | object (map : List (String × Value))
deriving Repr

abbrev Map := List (String × Value)

/-- `BTreeMap::insert`: the value of a key that is present is replaced. -/
def insert (key : String) (value : Value) : Map → Map
  | [] => [(key, value)]
  | (k, v) :: map =>
      if key = k then (key, value) :: map
      else if key < k then (key, value) :: (k, v) :: map
      else (k, v) :: insert key value map

/-- Assignment through `get_mut`: a key that is absent stays absent. -/
def assign (key : String) (value : Value) (map : Map) : Map :=
  map.map fun entry => if entry.1 = key then (entry.1, value) else entry

/-- Insert several entries, one after another. -/
def insertAll (entries : Map) (map : Map) : Map :=
  entries.foldl (fun map entry => insert entry.1 entry.2 map) map

theorem lookup_insert_self (key : String) (value : Value) (map : Map) :
    (insert key value map).lookup key = some value := by
  induction map with
  | nil => simp [insert]
  | cons entry map ih =>
      obtain ⟨k, v⟩ := entry
      simp only [insert]
      split
      · simp
      · rename_i hne
        split
        · simp
        · rw [List.lookup_cons, beq_false_of_ne hne]
          exact ih

theorem lookup_insert_of_ne {key other : String} (hne : other ≠ key) (value : Value) (map : Map) :
    (insert key value map).lookup other = map.lookup other := by
  induction map with
  | nil => simp [insert, hne]
  | cons entry map ih =>
      obtain ⟨k, v⟩ := entry
      simp only [insert]
      split
      · rename_i heq
        subst heq
        rw [List.lookup_cons, List.lookup_cons, beq_false_of_ne hne]
      · split
        · rw [List.lookup_cons, beq_false_of_ne hne]
        · rw [List.lookup_cons, List.lookup_cons, ih]

theorem lookup_assign_self (key : String) (value : Value) (map : Map) :
    (assign key value map).lookup key = (map.lookup key).map fun _ => value := by
  induction map with
  | nil => rfl
  | cons entry map ih =>
      obtain ⟨k, v⟩ := entry
      simp only [assign, List.map_cons] at ih ⊢
      by_cases h : k = key
      · simp [h]
      · rw [if_neg h, List.lookup_cons, List.lookup_cons, beq_false_of_ne (Ne.symm h)]
        exact ih

theorem lookup_assign_of_ne {key other : String} (hne : other ≠ key) (value : Value) (map : Map) :
    (assign key value map).lookup other = map.lookup other := by
  induction map with
  | nil => rfl
  | cons entry map ih =>
      obtain ⟨k, v⟩ := entry
      simp only [assign, List.map_cons] at ih ⊢
      by_cases h : k = key
      · subst h
        rw [if_pos rfl, List.lookup_cons, List.lookup_cons, beq_false_of_ne hne]
        exact ih
      · rw [if_neg h, List.lookup_cons, List.lookup_cons, ih]

theorem lookup_insertAll (entries : Map) (map : Map) (key : String) :
    (insertAll entries map).lookup key =
      (entries.reverse.lookup key).or (map.lookup key) := by
  induction entries generalizing map with
  | nil => simp [insertAll]
  | cons entry entries ih =>
      obtain ⟨k, v⟩ := entry
      have hstep : insertAll ((k, v) :: entries) map = insertAll entries (insert k v map) := rfl
      rw [hstep, ih, List.reverse_cons, List.lookup_append, Option.or_assoc]
      congr 1
      by_cases h : key = k
      · subst h
        simp [lookup_insert_self]
      · simp [lookup_insert_of_ne h, List.lookup_cons, beq_false_of_ne h]

theorem lookup_insertAll_of_agree {entries : Map} {key : String} {value : Value}
    (hagree : ∀ entry ∈ entries, entry.1 = key → entry.2 = value)
    (hmem : ∃ entry ∈ entries, entry.1 = key) :
    (insertAll entries []).lookup key = some value := by
  obtain ⟨entry, hentry, rfl⟩ := hmem
  rw [lookup_insertAll, List.lookup_nil, Option.or_none]
  cases hlookup : entries.reverse.lookup entry.1 with
  | none =>
      rw [List.lookup_eq_none_iff] at hlookup
      simpa using hlookup entry (List.mem_reverse.mpr hentry)
  | some found =>
      rw [List.lookup_eq_some_iff] at hlookup
      obtain ⟨before, after, hsplit, -⟩ := hlookup
      have hfound : (entry.1, found) ∈ entries := by
        rw [← List.mem_reverse, hsplit]
        simp
      rw [show found = value from hagree _ hfound rfl]

theorem mem_of_lookup_insertAll {entries : Map} {key : String} {value : Value}
    (h : (insertAll entries []).lookup key = some value) : (key, value) ∈ entries := by
  rw [lookup_insertAll, List.lookup_nil, Option.or_none, List.lookup_eq_some_iff] at h
  obtain ⟨before, after, hsplit, -⟩ := h
  rw [← List.mem_reverse, hsplit]
  simp

theorem lookup_insertAll_isSome {entries : Map} {entry : String × Value} (h : entry ∈ entries) :
    ∃ value, (insertAll entries []).lookup entry.1 = some value := by
  cases hlookup : (insertAll entries []).lookup entry.1 with
  | some value => exact ⟨value, rfl⟩
  | none =>
      rw [lookup_insertAll, List.lookup_nil, Option.or_none, List.lookup_eq_none_iff] at hlookup
      simpa using hlookup entry (List.mem_reverse.mpr h)

section Ordered

/-- The keys ascend, as they do in every `BTreeMap`. -/
def Ordered (map : Map) : Prop := (map.map Prod.fst).Pairwise (· < ·)

theorem eq_or_lt_of_not_lt {key other : String} (h : ¬ key < other) : key = other ∨ other < key := by
  by_cases hlt : other < key
  · exact .inr hlt
  · exact .inl (String.le_antisymm (String.not_lt.mp hlt) (String.not_lt.mp h))

theorem mem_keys_insert {key : String} {value : Value} {map : Map} {other : String}
    (h : other ∈ (insert key value map).map Prod.fst) : other = key ∨ other ∈ map.map Prod.fst := by
  induction map with
  | nil => simpa [insert] using h
  | cons entry map ih =>
      simp only [insert] at h
      split at h
      · rename_i heq
        subst heq
        exact .inr h
      · split at h
        · simpa using h
        · rw [List.map_cons, List.mem_cons] at h ⊢
          rcases h with rfl | h
          · exact .inr (.inl rfl)
          · exact (ih h).imp_right .inr

theorem Ordered.insert {map : Map} (h : Ordered map) (key : String) (value : Value) :
    Ordered (insert key value map) := by
  induction map with
  | nil => exact List.pairwise_singleton _ _
  | cons entry map ih =>
      rw [Ordered, List.map_cons, List.pairwise_cons] at h
      obtain ⟨hfirst, hrest⟩ := h
      simp only [Json.insert]
      split
      · rename_i heq
        rw [Ordered, List.map_cons, List.pairwise_cons]
        exact ⟨heq ▸ hfirst, hrest⟩
      · rename_i hne
        split
        · rename_i hlt
          rw [Ordered, List.map_cons, List.pairwise_cons, List.map_cons, List.pairwise_cons]
          refine ⟨?_, hfirst, hrest⟩
          rw [List.forall_mem_cons]
          exact ⟨hlt, fun other hother => String.lt_trans hlt (hfirst other hother)⟩
        · rename_i hnlt
          rw [Ordered, List.map_cons, List.pairwise_cons]
          refine ⟨?_, ih hrest⟩
          intro other hother
          rcases mem_keys_insert hother with rfl | hother
          · exact (eq_or_lt_of_not_lt hnlt).resolve_left hne
          · exact hfirst other hother

theorem insert_comm {map : Map} (h : Ordered map) {key other : String} (hne : key ≠ other)
    (value otherValue : Value) : insert key value (insert other otherValue map) =
      insert other otherValue (insert key value map) := by
  wlog hlt : key < other generalizing key other value otherValue
  · have hgt := (eq_or_lt_of_not_lt hlt).resolve_left hne
    exact (this hne.symm _ _ hgt).symm
  have hnlt := String.lt_asymm hlt
  induction map with
  | nil => simp [insert, hne, hne.symm, hlt, hnlt]
  | cons entry map ih =>
      obtain ⟨k, v⟩ := entry
      rw [Ordered, List.map_cons, List.pairwise_cons] at h
      have ih := ih h.2
      by_cases hkey : key < k
      · have hkeyNe := String.ne_of_lt hkey
        by_cases hother : other < k
        · simp [insert, hne, hlt, hnlt, hkey, hother, hkeyNe, hne.symm, String.ne_of_lt hother]
        · rcases eq_or_lt_of_not_lt hother with rfl | hgt
          · simp [insert, hne.symm, hlt, hnlt, hne]
          · simp [insert, hne.symm, hkey, hkeyNe, hother, (String.ne_of_lt hgt).symm, hnlt]
      · rcases eq_or_lt_of_not_lt hkey with rfl | hgt
        · simp [insert, hne.symm, hnlt]
        · have hother := String.lt_trans hgt hlt
          simp [insert, (String.ne_of_lt hgt).symm, (String.ne_of_lt hother).symm,
            String.lt_asymm hgt, String.lt_asymm hother, ih]

end Ordered

namespace Value

def ofNat (n : Nat) : Value := .number (.posInt (UInt64.ofNat n))

def get : Value → String → Option Value
  | .object map, key => map.lookup key
  | _, _ => none

theorem mem_of_get {map : Map} {key : String} {value : Value}
    (h : (Value.object map).get key = some value) : (key, value) ∈ map := by
  rw [get, List.lookup_eq_some_iff] at h
  obtain ⟨before, after, rfl, -⟩ := h
  simp

def asU64 : Value → Option UInt64
  | .number n => n.asU64
  | _ => none

def asBool : Value → Option Bool
  | .bool b => some b
  | _ => none

def asStr : Value → Option String
  | .string s => some s
  | _ => none

def asArray : Value → Option (List Value)
  | .array items => some items
  | _ => none

/-- `as_object_mut().map(|obj| obj.insert(key, value))` -/
def insertKey (message : Value) (key : String) (value : Value) : Value :=
  match message with
  | .object map => .object (insert key value map)
  | other => other

/-- `get_mut(key).map(|v| *v = value)` -/
def assignKey (message : Value) (key : String) (value : Value) : Value :=
  match message with
  | .object map => .object (assign key value map)
  | other => other

theorem get_assignKey_self (message : Value) (key : String) (value : Value) :
    (message.assignKey key value).get key = (message.get key).map fun _ => value := by
  cases message with
  | object map => exact lookup_assign_self key value map
  | _ => rfl

theorem get_assignKey_of_ne {key other : String} (hne : other ≠ key) (message value : Value) :
    (message.assignKey key value).get other = message.get other := by
  cases message with
  | object map => exact lookup_assign_of_ne hne value map
  | _ => rfl

theorem get_insertKey_self (map : Map) (key : String) (value : Value) :
    ((Value.object map).insertKey key value).get key = some value :=
  lookup_insert_self key value map

theorem get_insertKey_of_ne {key other : String} (hne : other ≠ key) (message value : Value) :
    (message.insertKey key value).get other = message.get other := by
  cases message with
  | object map => exact lookup_insert_of_ne hne value map
  | _ => rfl

/-- `get(key).and_then(as_str).unwrap_or("")` -/
def strField (message : Value) (key : String) : String :=
  ((message.get key).bind asStr).getD ""

/-- `get(key).and_then(as_u64).unwrap_or(0)` -/
def u64Field (message : Value) (key : String) : UInt64 :=
  ((message.get key).bind asU64).getD 0

end Value

end SmppHerald.Json
