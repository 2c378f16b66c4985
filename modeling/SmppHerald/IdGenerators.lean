import Mathlib.Logic.Function.Basic
import SmppHerald.Library.FixedWidth
import SmppHerald.Library.TransitionSystem
import SmppHerald.ResponseEncoding

namespace SmppHerald.IdGenerators

open SmppHerald.FixedWidth
open SmppHerald.ResponseEncoding
open SmppHerald.ServerConnection
open SmppHerald.TransitionSystem

section Texts

def hexDigit (digit : Nat) : Char :=
  Char.ofNat (if digit < 10 then digit + 48 else digit + 87)

theorem hexDigit_injective {a b : Nat} (ha : a < 16) (hb : b < 16) (h : hexDigit a = hexDigit b) :
    a = b := by
  have hall : ∀ a < 16, ∀ b < 16, hexDigit a = hexDigit b → a = b := by decide
  exact hall a ha b hb h

theorem lowerHex_eq (width n : Nat) :
    lowerHex width n = (List.range width).reverse.map fun i => hexDigit (n / 16 ^ i % 16) := rfl

/-- The digits of a number tell its value up to their width. -/
theorem lowerHex_inj {width n m : Nat} (h : lowerHex width n = lowerHex width m) :
    n % 16 ^ width = m % 16 ^ width := by
  apply mod_eq_of_digits
  intro i hi
  rw [lowerHex_eq, lowerHex_eq, List.map_inj_left] at h
  apply hexDigit_injective (Nat.mod_lt _ (by decide)) (Nat.mod_lt _ (by decide))
  exact h i (by simpa using hi)

theorem counter_lt_pow (n : UInt64) : n.toNat < 16 ^ max 12 (Nat.log 16 n.toNat + 1) := by
  have hlog : n.toNat < 16 ^ (Nat.log 16 n.toNat + 1) :=
    Nat.lt_pow_succ_log_self (by decide) n.toNat
  exact Nat.lt_of_lt_of_le hlog (Nat.pow_le_pow_right (by decide) (Nat.le_max_right _ _))

theorem counter_inj {n m : UInt64}
    (h : lowerHex (max 12 (Nat.log 16 n.toNat + 1)) n.toNat =
      lowerHex (max 12 (Nat.log 16 m.toNat + 1)) m.toNat) : n = m := by
  have hn := counter_lt_pow n
  have hm := counter_lt_pow m
  have hwidth := congrArg List.length h
  rw [length_lowerHex, length_lowerHex] at hwidth
  rw [hwidth] at h hn
  have hmod := lowerHex_inj h
  rw [Nat.mod_eq_of_lt hn, Nat.mod_eq_of_lt hm] at hmod
  exact UInt64.toNat_inj.mp hmod

theorem uuid_inj {high low high' low' : UInt64}
    (h : lowerHex 8 (high.toNat / 16 ^ 8) ++ ['-'] ++ lowerHex 4 (high.toNat / 16 ^ 4) ++ ['-'] ++
        lowerHex 4 high.toNat ++ ['-'] ++ lowerHex 4 (low.toNat / 16 ^ 12) ++ ['-'] ++
        lowerHex 12 low.toNat =
      lowerHex 8 (high'.toNat / 16 ^ 8) ++ ['-'] ++ lowerHex 4 (high'.toNat / 16 ^ 4) ++ ['-'] ++
        lowerHex 4 high'.toNat ++ ['-'] ++ lowerHex 4 (low'.toNat / 16 ^ 12) ++ ['-'] ++
        lowerHex 12 low'.toNat) : high = high' ∧ low = low' := by
  simp only [List.append_assoc] at h
  obtain ⟨h1, h⟩ := List.append_inj h (by simp only [length_lowerHex])
  obtain ⟨h2, h⟩ := List.append_inj (List.append_cancel_left h) (by simp only [length_lowerHex])
  obtain ⟨h3, h⟩ := List.append_inj (List.append_cancel_left h) (by simp only [length_lowerHex])
  obtain ⟨h4, h⟩ := List.append_inj (List.append_cancel_left h) (by simp only [length_lowerHex])
  have h5 := lowerHex_inj (List.append_cancel_left h)
  have h1 := lowerHex_inj h1
  have h2 := lowerHex_inj h2
  have h3 := lowerHex_inj h3
  have h4 := lowerHex_inj h4
  have hhigh := high.toNat_lt
  have hhigh' := high'.toNat_lt
  have hlow := low.toNat_lt
  have hlow' := low'.toNat_lt
  simp only [Nat.reducePow] at h1 h2 h3 h4 h5 hhigh hhigh' hlow hlow'
  exact ⟨UInt64.toNat_inj.mp (by omega), UInt64.toNat_inj.mp (by omega)⟩

/-- Behind the same front, no two ids have the same text, whatever generators they come from. -/
theorem generated_injective (front : String) : Function.Injective (generated front) := by
  intro a b h
  have hbody := fun {cs cs' : List Char}
      (h : String.ofList (front.toList ++ cs) = String.ofList (front.toList ++ cs')) =>
    List.append_cancel_left (String.ofList_injective h)
  cases a with
  | counter n =>
      cases b with
      | counter m => exact congrArg _ (counter_inj (hbody h))
      | uuid high low =>
          have hlength := congrArg List.length (hbody h)
          have hlog := log_counter_lt n
          simp only [List.length_append, length_lowerHex, List.length_singleton] at hlength
          omega
  | uuid high low =>
      cases b with
      | counter m =>
          have hlength := congrArg List.length (hbody h)
          have hlog := log_counter_lt m
          simp only [List.length_append, length_lowerHex, List.length_singleton] at hlength
          omega
      | uuid high' low' =>
          obtain ⟨rfl, rfl⟩ := uuid_inj (hbody h)
          rfl

end Texts

section Generators

inductive IdGeneratorConfig
  | atomic
  | uuid
  | redis (url : String) (key : Option String)

/-- An id with the process that gave it out, and how often that process had been started again. -/
structure Issued (π : Type) where
  process : π
  lifetime : Nat
  id : MessageId

/-- `counter` belongs to the processes and is lost when they end, and `shared` is what Redis has at
an address below a key. -/
structure GeneratorState (π : Type) where
  counter : π → UInt64
  lifetime : π → Nat
  shared : String → String → Nat
  issued : List (Issued π)

inductive GeneratorEvent (π : Type)
  -- with the random words of a UUID
  | generate (p : π) (high low : UInt64)
  | restart (p : π)

variable {π : Type} [DecidableEq π] (config : π → IdGeneratorConfig)

namespace GeneratorState

def issue (s : GeneratorState π) (p : π) (id : MessageId) : GeneratorState π :=
  { s with issued := s.issued ++ [⟨p, s.lifetime p, id⟩] }

/-- `INCR` refuses to go beyond a signed word, and `expect` panics then. -/
def step (s : GeneratorState π) : GeneratorEvent π → Option (GeneratorState π)
  | .generate p high low =>
      match config p with
      | .atomic =>
          some { s.issue p (.counter (s.counter p)) with
            counter := Function.update s.counter p (s.counter p + 1) }
      | .uuid => some (s.issue p (.uuid high low))
      | .redis url key =>
          let key := key.getD "smpp:id_counter"
          let n := s.shared url key + 1
          if n < 2 ^ 63 then
            some { s.issue p (.counter (UInt64.ofNat n)) with
              shared := Function.update s.shared url (Function.update (s.shared url) key n) }
          else none
  | .restart p =>
      some { s with
        counter := Function.update s.counter p 1
        lifetime := Function.update s.lifetime p (s.lifetime p + 1) }

end GeneratorState

/-- No process has given out an id yet; Redis may have counted before. -/
def generatorSystem (shared : String → String → Nat) :
    System (GeneratorState π) (GeneratorEvent π) where
  initial := ⟨fun _ => 1, fun _ => 0, shared, []⟩
  step := GeneratorState.step config

/-- The texts of the ids that were given out. -/
def texts (front : String) (s : GeneratorState π) : List String :=
  s.issued.map fun issued => generated front issued.id

omit [DecidableEq π] in
theorem nodup_texts_iff (front : String) (s : GeneratorState π) :
    (texts front s).Nodup ↔ (s.issued.map Issued.id).Nodup := by
  have htexts : texts front s = (s.issued.map Issued.id).map (generated front) := by
    rw [List.map_map]
    rfl
  rw [htexts, List.nodup_map_iff (generated_injective front)]

end Generators

section Atomic

variable {π : Type} [DecidableEq π] {config : π → IdGeneratorConfig} {s s' : GeneratorState π}

/-- What a process has given out since it was started for the `lifetime`-th time. -/
def ofLifetime (s : GeneratorState π) (p : π) (lifetime : Nat) : List (Issued π) :=
  s.issued.filter fun issued => issued.process = p ∧ issued.lifetime = lifetime

def firstIds (count : Nat) : List MessageId :=
  (List.range count).map fun i => .counter (UInt64.ofNat (i + 1))

/-- Since each start the counter goes through the numbers from 1 on. -/
structure AtomicInv (s : GeneratorState π) : Prop where
  firstIds : ∀ p lifetime, (ofLifetime s p lifetime).map Issued.id =
    firstIds (ofLifetime s p lifetime).length
  counter : ∀ p, s.counter p = UInt64.ofNat ((ofLifetime s p (s.lifetime p)).length + 1)
  lifetime : ∀ issued ∈ s.issued, issued.lifetime ≤ s.lifetime issued.process

theorem firstIds_succ (count : Nat) :
    firstIds (count + 1) = firstIds count ++ [.counter (UInt64.ofNat (count + 1))] := by
  rw [firstIds, List.range_succ, List.map_append]
  rfl

theorem ofLifetime_issue (s : GeneratorState π) (p : π) (id : MessageId) (p' : π) (lifetime : Nat) :
    ofLifetime (s.issue p id) p' lifetime = ofLifetime s p' lifetime ++
      if p = p' ∧ s.lifetime p = lifetime then [⟨p, s.lifetime p, id⟩] else [] := by
  rw [ofLifetime, GeneratorState.issue, List.filter_append]
  congr 1
  rw [List.filter_cons]
  simp

theorem AtomicInv.step (hatomic : ∀ p, config p = .atomic) {event : GeneratorEvent π}
    (hinv : AtomicInv s) (h : s.step config event = some s') : AtomicInv s' := by
  cases event with
  | generate p high low =>
      simp only [GeneratorState.step, hatomic p] at h
      obtain rfl := Option.some.inj h
      have hsegment : ∀ p' lifetime, ofLifetime { s.issue p (.counter (s.counter p)) with
          counter := Function.update s.counter p (s.counter p + 1) } p' lifetime =
          ofLifetime (s.issue p (.counter (s.counter p))) p' lifetime := fun _ _ => rfl
      constructor
      · intro p' lifetime
        rw [hsegment, ofLifetime_issue]
        split
        · rename_i hsame
          obtain ⟨rfl, rfl⟩ := hsame
          rw [List.map_append, hinv.firstIds, List.length_append, List.length_singleton,
            firstIds_succ, hinv.counter]
          rfl
        · rw [List.append_nil]
          exact hinv.firstIds p' lifetime
      · intro p'
        change Function.update s.counter p (s.counter p + 1) p' = UInt64.ofNat
          ((ofLifetime (s.issue p (.counter (s.counter p))) p' (s.lifetime p')).length + 1)
        rw [ofLifetime_issue]
        by_cases hp : p' = p
        · subst hp
          rw [if_pos ⟨rfl, rfl⟩, List.length_append, List.length_singleton, Function.update_self,
            hinv.counter]
          exact (UInt64.ofNat_add _ 1).symm
        · rw [if_neg (fun h => hp h.1.symm), List.append_nil, Function.update_of_ne hp]
          exact hinv.counter p'
      · refine List.forall_mem_append.mpr ⟨hinv.lifetime, ?_⟩
        rw [List.forall_mem_singleton]
        exact Nat.le_refl _
  | restart p =>
      obtain rfl := Option.some.inj h
      refine ⟨hinv.firstIds, ?_, ?_⟩
      · intro p'
        change Function.update s.counter p 1 p' = UInt64.ofNat
          ((ofLifetime s p' (Function.update s.lifetime p (s.lifetime p + 1) p')).length + 1)
        by_cases hp : p' = p
        · subst hp
          have hnone : ofLifetime s p' (s.lifetime p' + 1) = [] := by
            refine List.filter_eq_nil_iff.mpr fun issued hissued => ?_
            have hle := hinv.lifetime issued hissued
            simp only [decide_eq_true_eq]
            rintro ⟨rfl, hlifetime⟩
            omega
          rw [Function.update_self, Function.update_self, hnone]
          rfl
        · rw [Function.update_of_ne hp, Function.update_of_ne hp]
          exact hinv.counter p'
      · intro issued hissued
        have hle := hinv.lifetime issued hissued
        change issued.lifetime ≤ Function.update s.lifetime p (s.lifetime p + 1) issued.process
        by_cases hp : issued.process = p
        · rw [hp] at hle ⊢
          rw [Function.update_self]
          exact Nat.le_succ_of_le hle
        · rw [Function.update_of_ne hp]
          exact hle

theorem nodup_firstIds_iff (count : Nat) : (firstIds count).Nodup ↔ count ≤ 2 ^ 64 := by
  have hinj : ∀ {i j : Nat}, MessageId.counter (UInt64.ofNat (i + 1)) =
      MessageId.counter (UInt64.ofNat (j + 1)) ↔ (i + 1) % 2 ^ 64 = (j + 1) % 2 ^ 64 := by
    intro i j
    rw [MessageId.counter.injEq, ← UInt64.toNat_inj, UInt64.toNat_ofNat', UInt64.toNat_ofNat']
  constructor
  · intro h
    by_contra hlt
    have heq := List.inj_on_of_nodup_map h (List.mem_range.mpr (by omega : 0 < count))
      (List.mem_range.mpr (by omega : 2 ^ 64 < count)) (hinj.mpr (by decide))
    cases heq
  · intro hle
    refine List.Nodup.map_on ?_ List.nodup_range
    intro i hi j hj heq
    rw [List.mem_range] at hi hj
    have hmod := hinj.mp heq
    omega

/-- Ids that are counted locally are different exactly when they come from one process that has
not been started again in between, and there are no more of them than the counter has values. -/
theorem atomic_unique_iff (hatomic : ∀ p, config p = .atomic) (shared : String → String → Nat)
    (front : String) (h : (generatorSystem config shared).Reachable s) :
    (texts front s).Nodup ↔
      (∀ a ∈ s.issued, ∀ b ∈ s.issued, a.process = b.process ∧ a.lifetime = b.lifetime) ∧
        s.issued.length ≤ 2 ^ 64 := by
  have hinv : AtomicInv s := by
    refine h.invariant ?_ fun _ _ _ ih _ hstep => ih.step hatomic hstep
    exact ⟨fun _ _ => rfl, fun _ => rfl, by simp [generatorSystem]⟩
  -- the first id of a lifetime is the same in all of them
  have hfirst : ∀ a ∈ s.issued, ∃ first ∈ s.issued, first.process = a.process ∧
      first.lifetime = a.lifetime ∧ first.id = .counter 1 := by
    intro a ha
    have hmem : a ∈ ofLifetime s a.process a.lifetime := List.mem_filter.mpr ⟨ha, by simp⟩
    have hids := hinv.firstIds a.process a.lifetime
    obtain ⟨first, rest, hsegment⟩ := List.exists_cons_of_ne_nil (List.ne_nil_of_mem hmem)
    have hsource : first ∈ ofLifetime s a.process a.lifetime := hsegment ▸ List.mem_cons_self
    obtain ⟨hissued, hsame⟩ := List.mem_filter.mp hsource
    rw [hsegment, List.length_cons, firstIds, List.range_succ_eq_map, List.map_cons, List.map_cons,
      List.cons.injEq] at hids
    rw [decide_eq_true_eq] at hsame
    exact ⟨first, hissued, hsame.1, hsame.2, hids.1⟩
  have hone : (∀ a ∈ s.issued, ∀ b ∈ s.issued, a.process = b.process ∧ a.lifetime = b.lifetime) →
      ((s.issued.map Issued.id).Nodup ↔ s.issued.length ≤ 2 ^ 64) := by
    intro hsame
    rw [← nodup_firstIds_iff]
    cases hissued : s.issued with
    | nil => simp [firstIds]
    | cons a rest =>
        have hall : ofLifetime s a.process a.lifetime = s.issued := by
          refine List.filter_eq_self.mpr fun b hb => ?_
          rw [decide_eq_true_eq]
          exact hsame b hb a (hissued ▸ List.mem_cons_self)
        have hids := hinv.firstIds a.process a.lifetime
        rw [hall, hissued] at hids
        rw [hids]
  rw [nodup_texts_iff]
  constructor
  · intro hnodup
    have hsame : ∀ a ∈ s.issued, ∀ b ∈ s.issued,
        a.process = b.process ∧ a.lifetime = b.lifetime := by
      intro a ha b hb
      obtain ⟨first, hmem, hprocess, hlifetime, hid⟩ := hfirst a ha
      obtain ⟨first', hmem', hprocess', hlifetime', hid'⟩ := hfirst b hb
      obtain rfl := List.inj_on_of_nodup_map hnodup hmem hmem' (hid.trans hid'.symm)
      exact ⟨hprocess.symm.trans hprocess', hlifetime.symm.trans hlifetime'⟩
    exact ⟨hsame, (hone hsame).mp hnodup⟩
  · rintro ⟨hsame, hlength⟩
    exact (hone hsame).mpr hlength

/-- A process gives out two ids, is started again and gives out a third one. -/
def startedAgain : List (GeneratorEvent Nat) :=
  [.generate 0 0 0, .generate 0 0 0, .restart 0, .generate 0 0 0]

theorem atomic_unique_startedAgain :
    ∃ s, (generatorSystem (fun _ : Nat => .atomic) fun _ _ => 0).run startedAgain = some s ∧
      s.issued.map (fun issued => (issued.lifetime, issued.id)) =
        [(0, .counter 1), (0, .counter 2), (1, .counter 1)] ∧
      ((texts "msg-" s).Nodup ↔
        (∀ a ∈ s.issued, ∀ b ∈ s.issued, a.process = b.process ∧ a.lifetime = b.lifetime) ∧
          s.issued.length ≤ 2 ^ 64) := by
  have hrun : ((generatorSystem (fun _ : Nat => .atomic) fun _ _ => 0).run startedAgain).map
      (fun s => s.issued.map fun issued => (issued.lifetime, issued.id)) =
        some [(0, .counter 1), (0, .counter 2), (1, .counter 1)] := rfl
  obtain ⟨s, hs, hissued⟩ := Option.map_eq_some_iff.mp hrun
  exact ⟨s, hs, hissued,
    atomic_unique_iff (fun _ => rfl) (fun _ _ => 0) "msg-" (System.reachable_of_run hs)⟩

end Atomic

section Redis

variable {π : Type} [DecidableEq π] {config : π → IdGeneratorConfig} {s s' : GeneratorState π}

/-- Every id has a number that Redis has counted, and no two have the same. -/
structure RedisInv (url key : String) (s : GeneratorState π) : Prop where
  counted : ∀ issued ∈ s.issued, ∃ n, issued.id = .counter (UInt64.ofNat n) ∧
    n ≤ s.shared url key ∧ n < 2 ^ 63
  nodup : (s.issued.map Issued.id).Nodup

theorem RedisInv.step {url : String} {key : Option String}
    (hredis : ∀ p, config p = .redis url key) {event : GeneratorEvent π}
    (hinv : RedisInv url (key.getD "smpp:id_counter") s) (h : s.step config event = some s') :
    RedisInv url (key.getD "smpp:id_counter") s' := by
  cases event with
  | generate p high low =>
      simp only [GeneratorState.step, hredis p] at h
      split at h
      · rename_i hlt
        obtain rfl := Option.some.inj h
        generalize key.getD "smpp:id_counter" = key at hlt hinv
        have hcounter : (Function.update s.shared url
            (Function.update (s.shared url) key (s.shared url key + 1))) url key =
            s.shared url key + 1 := by
          rw [Function.update_self, Function.update_self]
        constructor
        · refine List.forall_mem_append.mpr ⟨fun issued hissued => ?_, ?_⟩
          · obtain ⟨n, hid, hle, hsmall⟩ := hinv.counted issued hissued
            exact ⟨n, hid, (hle.trans (Nat.le_succ _)).trans (Nat.le_of_eq hcounter.symm), hsmall⟩
          · rw [List.forall_mem_singleton]
            exact ⟨_, rfl, Nat.le_of_eq hcounter.symm, hlt⟩
        · change ((s.issued ++ [_]).map Issued.id).Nodup
          rw [List.map_append]
          refine List.nodup_append.mpr ⟨hinv.nodup, List.nodup_singleton _, ?_⟩
          intro id hid id' hid' heq
          obtain ⟨issued, hissued, rfl⟩ := List.mem_map.mp hid
          obtain ⟨n, hn, hle, hsmall⟩ := hinv.counted issued hissued
          obtain rfl := List.mem_singleton.mp hid'
          rw [hn, MessageId.counter.injEq, ← UInt64.toNat_inj, UInt64.toNat_ofNat',
            UInt64.toNat_ofNat'] at heq
          omega
      · cases h
  | restart p =>
      obtain rfl := Option.some.inj h
      exact ⟨hinv.counted, hinv.nodup⟩

/-- Ids that Redis counts below one key are different, however many processes there are and however
often they are started again. -/
theorem redis_unique {url : String} {key : Option String}
    (hredis : ∀ p, config p = .redis url key) (shared : String → String → Nat) (front : String)
    (h : (generatorSystem config shared).Reachable s) : (texts front s).Nodup := by
  have hinv : RedisInv url (key.getD "smpp:id_counter") s := by
    refine h.invariant ?_ fun _ _ _ ih _ hstep => ih.step hredis hstep
    exact ⟨by simp [generatorSystem], List.nodup_nil⟩
  exact (nodup_texts_iff front s).mpr hinv.nodup

theorem redis_unique_startedAgain :
    ∃ s, (generatorSystem (fun _ : Nat => .redis "redis://localhost" none) fun _ _ => 0).run
        startedAgain = some s ∧
      s.issued.map Issued.id = [.counter 1, .counter 2, .counter 3] ∧ (texts "msg-" s).Nodup := by
  have hrun : ((generatorSystem (fun _ : Nat => .redis "redis://localhost" none) fun _ _ => 0).run
      startedAgain).map (fun s => s.issued.map Issued.id) =
        some [.counter 1, .counter 2, .counter 3] := by decide +kernel
  obtain ⟨s, hs, hissued⟩ := Option.map_eq_some_iff.mp hrun
  exact ⟨s, hs, hissued,
    redis_unique (fun _ => rfl) (fun _ _ => 0) "msg-" (System.reachable_of_run hs)⟩

end Redis

end SmppHerald.IdGenerators
