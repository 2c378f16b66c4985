import SmppHerald.Library.BinarySearch
import SmppHerald.Library.TransitionSystem
import SmppHerald.Time

namespace SmppHerald.DeliveryQueue

open SmppHerald.BinarySearch
open SmppHerald.Json
open SmppHerald.Time
open SmppHerald.TransitionSystem

section Model

structure DeliveryMessageInfo where
  messageId : String
  scheduleDeliveryTime : Option Instant
  validityPeriod : Option Instant
  message : Option Value

namespace DeliveryMessageInfo

def isTimeForDelivery (self : DeliveryMessageInfo) (now : Instant) : Bool :=
  match self.scheduleDeliveryTime with
  | some scheduleDeliveryTime => decide (scheduleDeliveryTime ≤ now)
  | none => true

def cmp (self other : DeliveryMessageInfo) : Ordering :=
  match self.scheduleDeliveryTime, other.scheduleDeliveryTime with
  | none, none =>
      match self.validityPeriod, other.validityPeriod with
      | some selfValidity, some otherValidity =>
          if selfValidity < otherValidity then .lt
          else if selfValidity > otherValidity then .gt
          else .eq
      | some _, none => .lt
      | none, some _ => .gt
      | none, none => .eq
  -- without a schedule only the other case is looked at, and the end of the function is reached
  | none, some _ => .eq
  | some _, none => .gt
  | some selfSchedule, some otherSchedule =>
      if selfSchedule < otherSchedule then .lt
      else if selfSchedule > otherSchedule then .gt
      else .eq

end DeliveryMessageInfo

structure DeliveryMessageInfoManager where
  deliveryMessages : List DeliveryMessageInfo

namespace DeliveryMessageInfoManager

def new : DeliveryMessageInfoManager := ⟨[]⟩

def addDeliveryMessage (search : Search DeliveryMessageInfo) (self : DeliveryMessageInfoManager)
    (deliveryMessage : DeliveryMessageInfo) : DeliveryMessageInfoManager :=
  ⟨search.insert DeliveryMessageInfo.cmp deliveryMessage self.deliveryMessages⟩

def getDeliveryMessage (self : DeliveryMessageInfoManager) (now : Instant) :
    Except String DeliveryMessageInfo × DeliveryMessageInfoManager :=
  match self.deliveryMessages with
  | deliveryMessage :: rest =>
      if deliveryMessage.isTimeForDelivery now = true then (.ok deliveryMessage, ⟨rest⟩)
      else (.error "No delivery messsage is available", self)
  | [] => (.error "No delivery messsage is available", self)

end DeliveryMessageInfoManager

/-- A manager, and the messages that were added to it and those that it has returned. -/
structure QueueState where
  manager : DeliveryMessageInfoManager
  added : List DeliveryMessageInfo
  returned : List DeliveryMessageInfo

inductive QueueEvent
  | add (deliveryMessage : DeliveryMessageInfo)
  | get (now : Instant)

def QueueState.step (search : Search DeliveryMessageInfo) (s : QueueState) :
    QueueEvent → Option QueueState
  | .add deliveryMessage => some
      { s with
        manager := s.manager.addDeliveryMessage search deliveryMessage
        added := deliveryMessage :: s.added }
  | .get now =>
      let (result, manager) := s.manager.getDeliveryMessage now
      some { s with manager := manager, returned := result.toOption.toList ++ s.returned }

def queueSystem (search : Search DeliveryMessageInfo) : System QueueState QueueEvent where
  initial := ⟨.new, [], []⟩
  step := QueueState.step search

end Model

section Purpose

/-- Messages without a schedule come first, then the others by their schedules. -/
def shouldPrecede (deliveryMessage other : DeliveryMessageInfo) : Bool :=
  match deliveryMessage.scheduleDeliveryTime, other.scheduleDeliveryTime with
  | none, some _ => true
  | some schedule, some otherSchedule => decide (schedule < otherSchedule)
  | _, none => false

/-- What `get_delivery_message` is for: it returns a due message if there is one, and none that
another due message should precede; it removes just this message, or nothing. -/
structure GetsRight (manager : DeliveryMessageInfoManager) (now : Instant) : Prop where
  returns : ∀ m ∈ manager.deliveryMessages, m.isTimeForDelivery now = true →
    ∃ m', (manager.getDeliveryMessage now).1 = .ok m'
  due : ∀ m, (manager.getDeliveryMessage now).1 = .ok m → m.isTimeForDelivery now = true
  first : ∀ m, (manager.getDeliveryMessage now).1 = .ok m → ∀ m' ∈ manager.deliveryMessages,
    m'.isTimeForDelivery now = true → shouldPrecede m' m = false
  removes : ∀ m, (manager.getDeliveryMessage now).1 = .ok m → ∃ front back,
    manager.deliveryMessages = front ++ m :: back ∧
      (manager.getDeliveryMessage now).2.deliveryMessages = front ++ back
  keeps : ∀ text, (manager.getDeliveryMessage now).1 = .error text →
    (manager.getDeliveryMessage now).2 = manager

/-- A message with a schedule is added only while all that are queued have one. -/
def separates (s : QueueState) : QueueEvent → Bool
  | .add deliveryMessage => deliveryMessage.scheduleDeliveryTime.isNone ||
      s.manager.deliveryMessages.all fun m => m.scheduleDeliveryTime.isSome
  | .get _ => true

end Purpose

section Order

/-- The order in which the queue is kept. Among the messages without a schedule, those that expire
come first, by their expiry. -/
def Before (a b : DeliveryMessageInfo) : Prop :=
  match a.scheduleDeliveryTime, b.scheduleDeliveryTime with
  | none, none =>
      match a.validityPeriod, b.validityPeriod with
      | some validity, some otherValidity => validity ≤ otherValidity
      | none, some _ => False
      | _, none => True
  | none, some _ => True
  | some _, none => False
  | some schedule, some otherSchedule => schedule ≤ otherSchedule

def Ordered (manager : DeliveryMessageInfoManager) : Prop :=
  manager.deliveryMessages.Pairwise Before

variable {a b m : DeliveryMessageInfo} {manager : DeliveryMessageInfoManager}

theorem Before.trans {c : DeliveryMessageInfo} (hab : Before a b) (hbc : Before b c) :
    Before a c := by
  unfold Before at *
  cases ha : a.scheduleDeliveryTime <;> cases hb : b.scheduleDeliveryTime <;>
    cases hc : c.scheduleDeliveryTime <;> grind

theorem cmp_ne_gt_iff : a.cmp m ≠ .gt ↔ Before a m := by
  unfold DeliveryMessageInfo.cmp Before
  cases ha : a.scheduleDeliveryTime <;> cases hm : m.scheduleDeliveryTime <;> grind

/-- The comparison agrees with the order, unless it is that of a message without a schedule with one
that has a schedule: these compare equal. -/
theorem cmp_ne_lt_iff (h : m.scheduleDeliveryTime = none ∨ a.scheduleDeliveryTime.isSome = true) :
    a.cmp m ≠ .lt ↔ Before m a := by
  unfold DeliveryMessageInfo.cmp Before
  cases ha : a.scheduleDeliveryTime <;> cases hm : m.scheduleDeliveryTime <;> grind

theorem Ordered.add (search : Search DeliveryMessageInfo) (h : Ordered manager)
    (hm : m.scheduleDeliveryTime = none ∨
      ∀ a ∈ manager.deliveryMessages, a.scheduleDeliveryTime.isSome = true) :
    Ordered (manager.addDeliveryMessage search m) := by
  apply pairwise_insert h
  · exact fun a _ => cmp_ne_gt_iff
  · exact fun a ha => cmp_ne_lt_iff (hm.imp_right fun hall => hall a ha)
  · exact fun _ _ _ => Before.trans

theorem Ordered.get (h : Ordered manager) (now : Instant) :
    Ordered (manager.getDeliveryMessage now).2 := by
  unfold Ordered DeliveryMessageInfoManager.getDeliveryMessage at *
  split
  · rename_i m rest hqueue
    split
    · rw [hqueue] at h
      exact (List.pairwise_cons.mp h).2
    · exact h
  · exact h

end Order

section Getting

variable {manager : DeliveryMessageInfoManager} {m : DeliveryMessageInfo} {now : Instant}

theorem shouldPrecede_of_before {a b : DeliveryMessageInfo} (h : Before a b) :
    shouldPrecede b a = false := by
  unfold Before at h
  unfold shouldPrecede
  cases ha : a.scheduleDeliveryTime <;> cases hb : b.scheduleDeliveryTime <;> grind

theorem isTimeForDelivery_of_before {a b : DeliveryMessageInfo} (h : Before a b)
    (hdue : b.isTimeForDelivery now = true) : a.isTimeForDelivery now = true := by
  unfold Before at h
  unfold DeliveryMessageInfo.isTimeForDelivery at *
  cases ha : a.scheduleDeliveryTime <;> cases hb : b.scheduleDeliveryTime <;> grind

theorem shouldPrecede_self (m : DeliveryMessageInfo) : shouldPrecede m m = false := by
  unfold shouldPrecede
  cases m.scheduleDeliveryTime <;> simp

theorem Ordered.getsRight (h : Ordered manager) (now : Instant) : GetsRight manager now := by
  obtain ⟨queue⟩ := manager
  cases queue with
  | nil => constructor <;> simp [DeliveryMessageInfoManager.getDeliveryMessage]
  | cons head rest =>
      obtain ⟨hhead, -⟩ := List.pairwise_cons.mp h
      have hbehind : ∀ m ∈ head :: rest, m.isTimeForDelivery now = true →
          head.isTimeForDelivery now = true := by
        intro m hm hdue
        rcases List.mem_cons.mp hm with rfl | hm
        · exact hdue
        · exact isTimeForDelivery_of_before (hhead m hm) hdue
      by_cases hdue : head.isTimeForDelivery now = true
      · have hget : (⟨head :: rest⟩ : DeliveryMessageInfoManager).getDeliveryMessage now =
            (.ok head, ⟨rest⟩) := if_pos hdue
        constructor <;> rw [hget]
        · exact fun _ _ _ => ⟨head, rfl⟩
        · rintro m hm
          exact Except.ok.inj hm ▸ hdue
        · rintro m hm m' hm' -
          obtain rfl := Except.ok.inj hm
          rcases List.mem_cons.mp hm' with rfl | hm'
          · exact shouldPrecede_self m'
          · exact shouldPrecede_of_before (hhead m' hm')
        · rintro m hm
          obtain rfl := Except.ok.inj hm
          exact ⟨[], rest, rfl, rfl⟩
        · rintro text htext
          cases htext
      · have hget : (⟨head :: rest⟩ : DeliveryMessageInfoManager).getDeliveryMessage now =
            (.error "No delivery messsage is available", ⟨head :: rest⟩) := if_neg hdue
        constructor <;> rw [hget]
        · exact fun m hm hdue' => absurd (hbehind m hm hdue') hdue
        · rintro m hm
          cases hm
        · rintro m hm
          cases hm
        · rintro m hm
          cases hm
        · exact fun _ _ => rfl

theorem not_getsRight {head u : DeliveryMessageInfo} {rest : List DeliveryMessageInfo}
    (hhead : head.scheduleDeliveryTime.isSome = true) (hu : u ∈ rest)
    (hnone : u.scheduleDeliveryTime = none) (now : Instant) : ¬ GetsRight ⟨head :: rest⟩ now := by
  intro hright
  have hmem : u ∈ head :: rest := List.mem_cons_of_mem head hu
  have hudue : u.isTimeForDelivery now = true := by
    simp [DeliveryMessageInfo.isTimeForDelivery, hnone]
  by_cases hdue : head.isTimeForDelivery now = true
  · have hfirst := hright.first head (by simp [DeliveryMessageInfoManager.getDeliveryMessage, hdue]) u
      hmem hudue
    obtain ⟨schedule, hschedule⟩ := Option.isSome_iff_exists.mp hhead
    simp [shouldPrecede, hnone, hschedule] at hfirst
  · obtain ⟨m, hm⟩ := hright.returns u hmem hudue
    simp [DeliveryMessageInfoManager.getDeliveryMessage, hdue] at hm

theorem not_getsRight_firstMatch (h : Ordered manager) {u : DeliveryMessageInfo}
    (hm : m.scheduleDeliveryTime.isSome = true) (hu : u ∈ manager.deliveryMessages)
    (hnone : u.scheduleDeliveryTime = none) (now : Instant) :
    ¬ GetsRight (manager.addDeliveryMessage firstMatch m) now := by
  obtain ⟨queue⟩ := manager
  cases queue with
  | nil => cases hu
  | cons head rest =>
      have hhead : head.scheduleDeliveryTime = none := by
        rcases List.mem_cons.mp hu with rfl | hrest
        · exact hnone
        · have hbefore := (List.pairwise_cons.mp h).1 u hrest
          unfold Before at hbefore
          cases hh : head.scheduleDeliveryTime with
          | none => rfl
          | some schedule => simp [hh, hnone] at hbefore
      obtain ⟨schedule, hschedule⟩ := Option.isSome_iff_exists.mp hm
      have hadd : (⟨head :: rest⟩ : DeliveryMessageInfoManager).addDeliveryMessage firstMatch m =
          ⟨m :: head :: rest⟩ := by
        simp [DeliveryMessageInfoManager.addDeliveryMessage, Search.insert, firstMatch, searchFirst,
          DeliveryMessageInfo.cmp, hhead, hschedule, List.findIdx_cons, position]
      rw [hadd]
      exact not_getsRight hm hu hnone now

end Getting

section Main

variable {search : Search DeliveryMessageInfo} {s s' : QueueState}

theorem perm_get (manager : DeliveryMessageInfoManager) (now : Instant) :
    manager.deliveryMessages.Perm ((manager.getDeliveryMessage now).1.toOption.toList ++
      (manager.getDeliveryMessage now).2.deliveryMessages) := by
  unfold DeliveryMessageInfoManager.getDeliveryMessage
  split
  · rename_i m rest hqueue
    split
    · rw [hqueue]
      exact .refl _
    · exact .refl _
  · exact .refl _

theorem perm_of_reachable (h : (queueSystem search).Reachable s) :
    s.added.Perm (s.returned ++ s.manager.deliveryMessages) := by
  refine @System.Reaches.invariant _ _ _ _
    (fun s => s.added.Perm (s.returned ++ s.manager.deliveryMessages)) (.refl _) ?_ s h
  intro s e s' hperm _ hstep
  cases e with
  | add m =>
      obtain rfl := Option.some.inj hstep
      have hinsert := @perm_insert _ DeliveryMessageInfo.cmp s.manager.deliveryMessages search m
      exact ((hperm.cons m).trans List.perm_middle.symm).trans (hinsert.symm.append_left s.returned)
  | get now =>
      obtain rfl := Option.some.inj hstep
      have hget := perm_get s.manager now
      refine hperm.trans ((hget.append_left s.returned).trans ?_)
      rw [← List.append_assoc]
      exact List.perm_append_comm.append_right _

/-- The queue stays in order as long as a message with a schedule is added only while all that are
queued have one. -/
theorem ordered_of_reaches
    (h : (queueSystem search).Reaches (fun s e => separates s e = true) s) : Ordered s.manager := by
  have hinitial : Ordered (queueSystem search).initial.manager := List.Pairwise.nil
  refine @System.Reaches.invariant _ _ _ _ (fun s => Ordered s.manager) hinitial ?_ s h
  intro s e s' hordered hallowed hstep
  cases e with
  | add m =>
      obtain rfl := Option.some.inj hstep
      apply hordered.add search
      simpa [separates] using hallowed
  | get now =>
      obtain rfl := Option.some.inj hstep
      exact hordered.get now

/-- As long as a message with a schedule is added only while all that are queued have one,
`get_delivery_message` does what it is for at any time, whatever matches the search finds, and no
message is lost or there twice. Where another one is added, there are searches that do what is
documented with which it goes wrong at once. -/
theorem gets_right (search : Search DeliveryMessageInfo)
    (h : (queueSystem search).Reaches (fun s e => separates s e = true) s) :
    (∀ now, GetsRight s.manager now) ∧
      s.added.Perm (s.returned ++ s.manager.deliveryMessages) ∧
        ∀ m, separates s (.add m) = false → ∃ search' : Search DeliveryMessageInfo,
          ∀ now, ¬ GetsRight (s.manager.addDeliveryMessage search' m) now := by
  have hordered := ordered_of_reaches h
  refine ⟨hordered.getsRight, perm_of_reachable (h.mono fun _ _ _ => trivial), fun m hnot => ?_⟩
  simp only [separates, Bool.or_eq_false_iff, List.all_eq_false, Option.isNone_eq_false_iff,
    Bool.not_eq_true, Option.isSome_eq_false_iff, Option.isNone_iff_eq_none] at hnot
  obtain ⟨hm, u, hu, hnone⟩ := hnot
  exact ⟨firstMatch, not_getsRight_firstMatch hordered hm hu hnone⟩

/-- A message to be delivered in a minute, and one at once. -/
def later : DeliveryMessageInfo := ⟨"m-1", some (seconds 60), none, none⟩

def atOnce : DeliveryMessageInfo := ⟨"m-2", none, none, none⟩

theorem gets_right_separated :
    ∃ s, (queueSystem standard).runAllowed separates [.add later, .add atOnce, .get 0] = some s ∧
      s.manager.deliveryMessages.map DeliveryMessageInfo.messageId = ["m-1"] ∧
        (∀ now, GetsRight s.manager now) ∧
          s.added.Perm (s.returned ++ s.manager.deliveryMessages) ∧
            ∀ m, separates s (.add m) = false → ∃ search' : Search DeliveryMessageInfo,
              ∀ now, ¬ GetsRight (s.manager.addDeliveryMessage search' m) now := by
  have hrun : ((queueSystem standard).runAllowed separates [.add later, .add atOnce, .get 0]).map
      (fun s => s.manager.deliveryMessages.map DeliveryMessageInfo.messageId) =
        some ["m-1"] := by decide +kernel
  obtain ⟨s, hs, hqueue⟩ := Option.map_eq_some_iff.mp hrun
  exact ⟨s, hs, hqueue, gets_right standard (System.reaches_of_runAllowed hs)⟩

/-- The message to be delivered at once is added first: the later one is put before it. -/
theorem not_gets_right :
    ¬ ∀ s, (queueSystem standard).Reachable s → ∀ now, GetsRight s.manager now := by
  intro h
  have hrun : (queueSystem standard).run [.add atOnce, .add later] =
      some ⟨⟨[later, atOnce]⟩, [later, atOnce], []⟩ := by rfl
  refine @not_getsRight later atOnce [atOnce] rfl (List.mem_singleton_self atOnce) rfl 0 ?_
  exact h _ (System.reachable_of_run hrun) 0

end Main

section Laws

variable {a b c : DeliveryMessageInfo}

/-- What a binary search takes for granted of the comparison of two messages, and of both with a
third. -/
structure Lawful (a b c : DeliveryMessageInfo) : Prop where
  reversed : b.cmp a = (a.cmp b).swap
  transitive : ∀ order, a.cmp b = order → b.cmp c = order → a.cmp c = order
  notGreater : a.cmp b ≠ .gt → b.cmp c ≠ .gt → a.cmp c ≠ .gt
  equal : a.cmp b = .eq → a.cmp c = b.cmp c

theorem lawful_of_none (ha : a.scheduleDeliveryTime = none) (hb : b.scheduleDeliveryTime = none) :
    Lawful a b c := by
  cases hc : c.scheduleDeliveryTime with
  | none =>
      constructor <;> simp only [DeliveryMessageInfo.cmp, ha, hb, hc] <;>
        cases hva : a.validityPeriod <;> cases hvb : b.validityPeriod <;>
          cases hvc : c.validityPeriod <;> grind [Ordering.swap]
  | some schedule =>
      constructor <;> simp only [DeliveryMessageInfo.cmp, ha, hb, hc] <;>
        cases hva : a.validityPeriod <;> cases hvb : b.validityPeriod <;> grind [Ordering.swap]

theorem lawful_of_some {schedule otherSchedule : Instant}
    (ha : a.scheduleDeliveryTime = some schedule)
    (hb : b.scheduleDeliveryTime = some otherSchedule) : Lawful a b c := by
  cases hc : c.scheduleDeliveryTime with
  | none => constructor <;> simp only [DeliveryMessageInfo.cmp, ha, hb, hc] <;> grind [Ordering.swap]
  | some lastSchedule =>
      constructor <;> simp only [DeliveryMessageInfo.cmp, ha, hb, hc] <;> grind [Ordering.swap]

theorem not_reversed (ha : a.scheduleDeliveryTime = none)
    (hb : b.scheduleDeliveryTime.isSome = true) :
    b.cmp a ≠ (a.cmp b).swap ∧ a.cmp b ≠ (b.cmp a).swap := by
  obtain ⟨schedule, hb⟩ := Option.isSome_iff_exists.mp hb
  simp [DeliveryMessageInfo.cmp, ha, hb]

/-- The comparison is lawful exactly among messages that all have a schedule, and among messages
that all have none. -/
theorem lawful_iff (a b c : DeliveryMessageInfo) :
    Lawful a b c ↔ a.scheduleDeliveryTime.isSome = b.scheduleDeliveryTime.isSome := by
  cases ha : a.scheduleDeliveryTime <;> cases hb : b.scheduleDeliveryTime
  · exact iff_of_true (lawful_of_none ha hb) rfl
  · exact iff_of_false (fun h => (not_reversed ha (by simp [hb])).1 h.reversed) (by simp)
  · exact iff_of_false (fun h => (not_reversed hb (by simp [ha])).2 h.reversed) (by simp)
  · exact iff_of_true (lawful_of_some ha hb) rfl

/-- A message with a schedule is greater than one without, which is equal to it. -/
theorem not_lawful : ¬ ∀ a b c, Lawful a b c :=
  fun h => absurd (h atOnce later atOnce).reversed (by decide)

end Laws

end SmppHerald.DeliveryQueue
