import Mathlib.Data.List.Perm.Basic
import SmppHerald.Library.TransitionSystem

namespace SmppHerald.Revocation

open SmppHerald.TransitionSystem

/-- What each event revokes and what it hands over. -/
structure HandOver (State Event Item : Type) where
  system : System State Event
  revokes : State → Event → List Item
  hands : State → Event → List Item

namespace HandOver

variable {State Event Item : Type} (handOver : HandOver State Event Item)

/-- The runs, together with the items that they have revoked so far. -/
def recording : System (State × List Item) Event where
  initial := (handOver.system.initial, [])
  step recorded event := (handOver.system.step recorded.1 event).map fun s =>
    (s, recorded.2 ++ handOver.revokes recorded.1 event)

/-- In runs whose events are all allowed, no item is handed over after it has been revoked. -/
def Respected (allowed : State → Event → Prop) : Prop :=
  ∀ recorded, handOver.recording.Reaches (fun recorded event => allowed recorded.1 event) recorded →
    ∀ event s', allowed recorded.1 event → handOver.system.step recorded.1 event = some s' →
      ∀ item ∈ handOver.hands recorded.1 event, item ∉ recorded.2

/-- Only what is live is handed over. An item that is known comes to life never again, and what is
revoked is known and no longer live. -/
structure Tracks (allowed : State → Event → Prop) (Inv : State → Prop)
    (Known Live : State → Item → Prop) : Prop where
  initial : Inv handOver.system.initial
  inv : ∀ {s event s'}, Inv s → allowed s event → handOver.system.step s event = some s' → Inv s'
  hands : ∀ {s event s'}, Inv s → allowed s event → handOver.system.step s event = some s' →
    ∀ item ∈ handOver.hands s event, Live s item
  known : ∀ {s event s'}, Inv s → allowed s event → handOver.system.step s event = some s' →
    ∀ item, Known s item → Known s' item
  live : ∀ {s event s'}, Inv s → allowed s event → handOver.system.step s event = some s' →
    ∀ item, Known s item → Live s' item → Live s item
  revokes : ∀ {s event s'}, Inv s → allowed s event → handOver.system.step s event = some s' →
    ∀ item ∈ handOver.revokes s event, Known s item ∧ ¬ Live s' item

variable {handOver} {allowed : State → Event → Prop} {Inv : State → Prop}
  {Known Live : State → Item → Prop}

/-- In every run what has been revoked is known and not live. -/
theorem Tracks.recorded (h : handOver.Tracks allowed Inv Known Live) {recorded : State × List Item}
    (hreaches : handOver.recording.Reaches (fun recorded event => allowed recorded.1 event)
      recorded) :
    Inv recorded.1 ∧ ∀ item ∈ recorded.2, Known recorded.1 item ∧ ¬ Live recorded.1 item := by
  induction hreaches with
  | initial => exact ⟨h.initial, by simp [recording]⟩
  | step _ hallowed hnext ih =>
      rename_i before after event _
      obtain ⟨hinv, hrevoked⟩ := ih
      obtain ⟨s, hstep, rfl⟩ := Option.map_eq_some_iff.mp hnext
      refine ⟨h.inv hinv hallowed hstep, ?_⟩
      intro item hitem
      rcases List.mem_append.mp hitem with hbefore | hnow
      · obtain ⟨hknown, hdead⟩ := hrevoked item hbefore
        exact ⟨h.known hinv hallowed hstep item hknown,
          fun hlive => hdead (h.live hinv hallowed hstep item hknown hlive)⟩
      · obtain ⟨hknown, hdead⟩ := h.revokes hinv hallowed hstep item hnow
        exact ⟨h.known hinv hallowed hstep item hknown, hdead⟩

theorem Tracks.respected (h : handOver.Tracks allowed Inv Known Live) :
    handOver.Respected allowed := by
  intro recorded hreaches event s' hallowed hstep item hitem hrevoked
  obtain ⟨hinv, hdead⟩ := h.recorded hreaches
  exact (hdead item hrevoked).2 (h.hands hinv hallowed hstep item hitem)

section Loop

/-- A loop that hands over what it has taken from a store: `stored` are the items in the store, each
numbered with the next number when it was stored, and `upcoming` those that the loop has taken. -/
structure Loop (handOver : HandOver State Event Nat) (allowed : State → Event → Prop)
    (stored upcoming : State → List Nat) (next : State → Nat) : Prop where
  initial : stored handOver.system.initial = []
  store : ∀ {s event s'}, handOver.system.step s event = some s' →
    (stored s').Sublist (stored s) ∧ next s' = next s ∨
      (stored s').Perm (next s :: stored s) ∧ next s' = next s + 1
  take : ∀ {s event s'}, handOver.system.step s event = some s' →
    ∀ item ∈ upcoming s', item ∈ upcoming s ∨ item ∈ stored s
  hands : ∀ {s event s'}, handOver.system.step s event = some s' →
    ∀ item ∈ handOver.hands s event, item ∈ upcoming s
  revokes : ∀ {s event s'}, (stored s).Nodup → allowed s event →
    handOver.system.step s event = some s' → ∀ item ∈ handOver.revokes s event,
      item ∈ stored s ∧ item ∉ stored s' ∧ item ∉ upcoming s'

/-- The items in the store are different, and all of them have been numbered. -/
structure Numbered (stored : List Nat) (next : Nat) : Prop where
  once : stored.Nodup
  below : ∀ item ∈ stored, item < next

theorem Numbered.sublist {stored stored' : List Nat} {next : Nat} (h : Numbered stored next)
    (hsub : stored'.Sublist stored) : Numbered stored' next :=
  ⟨hsub.nodup h.once, fun item hitem => h.below item (hsub.subset hitem)⟩

theorem Numbered.perm {stored stored' : List Nat} {next : Nat} (h : Numbered stored next)
    (hperm : stored.Perm stored') : Numbered stored' next :=
  ⟨hperm.nodup_iff.mp h.once, fun item hitem => h.below item (hperm.symm.subset hitem)⟩

theorem Numbered.perm_cons {stored stored' : List Nat} {next : Nat} (h : Numbered stored next)
    (hperm : stored'.Perm (next :: stored)) : Numbered stored' (next + 1) := by
  have hfresh : next ∉ stored := fun hmem => absurd (h.below next hmem) (Nat.lt_irrefl next)
  refine ⟨hperm.nodup_iff.mpr (List.nodup_cons.mpr ⟨hfresh, h.once⟩), fun item hitem => ?_⟩
  rcases List.mem_cons.mp (hperm.subset hitem) with rfl | hbefore
  · exact Nat.lt_succ_self item
  · exact Nat.lt_succ_of_lt (h.below item hbefore)

variable {handOver : HandOver State Event Nat} {stored upcoming : State → List Nat}
  {next : State → Nat}

theorem Loop.tracks (h : handOver.Loop allowed stored upcoming next) :
    handOver.Tracks allowed (fun s => Numbered (stored s) (next s)) (fun s item => item < next s)
      fun s item => item ∈ stored s ∨ item ∈ upcoming s where
  initial := by
    rw [h.initial]
    constructor <;> simp
  inv := by
    intro s event s' hinv _ hstep
    rcases h.store hstep with ⟨hsub, hnext⟩ | ⟨hperm, hnext⟩
    · exact hnext ▸ hinv.sublist hsub
    · exact hnext ▸ hinv.perm_cons hperm
  hands := fun _ _ hstep item hitem => .inr (h.hands hstep item hitem)
  known := by
    intro s event s' _ _ hstep item hitem
    rcases h.store hstep with ⟨-, hnext⟩ | ⟨-, hnext⟩ <;> omega
  live := by
    rintro s event s' _ _ hstep item hknown (hstored | hupcoming)
    · left
      rcases h.store hstep with ⟨hsub, -⟩ | ⟨hperm, -⟩
      · exact hsub.subset hstored
      · rcases List.mem_cons.mp (hperm.subset hstored) with rfl | hbefore
        · exact absurd hknown (Nat.lt_irrefl _)
        · exact hbefore
    · exact (h.take hstep item hupcoming).symm
  revokes := by
    intro s event s' hinv hallowed hstep item hitem
    obtain ⟨hstored, hgone, hnot⟩ := h.revokes hinv.once hallowed hstep item hitem
    exact ⟨hinv.below item hstored, fun hlive => hlive.elim hgone hnot⟩

end Loop

variable (handOver) in
/-- What an event hands over after a run, and what the run has revoked. -/
def handedAfter (events : List Event) (event : Event) : Option (List Item × List Item) := do
  let recorded ← handOver.recording.run events
  let _ ← handOver.system.step recorded.1 event
  return (handOver.hands recorded.1 event, recorded.2)

theorem not_respected {events : List Event} {event : Event} {handed revoked : List Item}
    (h : handOver.handedAfter events event = some (handed, revoked)) {item : Item}
    (hhanded : item ∈ handed) (hrevoked : item ∈ revoked) :
    ¬ handOver.Respected fun _ _ => True := by
  intro hrespected
  unfold handedAfter at h
  simp only [Option.bind_eq_bind, Option.bind_eq_some_iff, Option.pure_def, Option.some.injEq,
    Prod.mk.injEq] at h
  obtain ⟨recorded, hrun, s', hstep, rfl, rfl⟩ := h
  exact hrespected recorded (System.reachable_of_run hrun) event s' trivial hstep item hhanded
    hrevoked

variable (handOver) in
/-- Some run revokes exactly these items, and the next event hands none of them over. -/
def SafeAfter (allowed : State → Event → Prop) (revoked : List Item) : Prop :=
  ∃ s, handOver.recording.Reaches (fun recorded event => allowed recorded.1 event) (s, revoked) ∧
    ∀ event s', allowed s event → handOver.system.step s event = some s' →
      ∀ item ∈ handOver.hands s event, item ∉ revoked

theorem Respected.safeAfter {allowed : State → Event → Bool}
    (h : handOver.Respected fun s event => allowed s event = true) {events : List Event}
    {revoked : List Item}
    (hrun : (handOver.recording.runAllowed (fun recorded event => allowed recorded.1 event)
      events).map Prod.snd = some revoked) :
    handOver.SafeAfter (fun s event => allowed s event = true) revoked := by
  obtain ⟨⟨s, _⟩, hreaches, rfl⟩ := Option.map_eq_some_iff.mp hrun
  have hreaches := System.reaches_of_runAllowed hreaches
  exact ⟨s, hreaches, h _ hreaches⟩

end HandOver

end SmppHerald.Revocation
