import SmppHerald.Library.TransitionSystem

namespace SmppHerald.Selecting

open SmppHerald.TransitionSystem

/-- What each event selects, every item with a record of its selection, and what it hands over. -/
structure SelectingLoop (State Event Record Item : Type) where
  system : System State Event
  selects : State → Event → List (Record × Item)
  hands : State → Event → List Item

namespace SelectingLoop

variable {State Event Record Item : Type} (loop : SelectingLoop State Event Record Item)

/-- The runs, together with the selections that they have made so far. -/
def recording : System (State × List (Record × Item)) Event where
  initial := (loop.system.initial, [])
  step recorded event := (loop.system.step recorded.1 event).map fun s =>
    (s, recorded.2 ++ loop.selects recorded.1 event)

/-- The item was selected, and whenever it was selected this was good. -/
def SelectedWell (good : Record → Bool) (selections : List (Record × Item)) (item : Item) : Prop :=
  (∃ record, (record, item) ∈ selections) ∧
    ∀ record, (record, item) ∈ selections → good record = true

/-- In runs whose events are all allowed, whatever is handed over was selected well. -/
def HandsOnly (allowed : State → Event → Prop) (good : Record → Bool) : Prop :=
  ∀ recorded, loop.recording.Reaches (fun recorded event => allowed recorded.1 event) recorded →
    ∀ event s', allowed recorded.1 event → loop.system.step recorded.1 event = some s' →
      ∀ item ∈ loop.hands recorded.1 event, SelectedWell good recorded.2 item

/-- Each selection is good, and `upcoming`, which is what is still to be handed over, has been
selected. -/
structure Tracks (allowed : State → Event → Prop) (good : Record → Bool) (Inv : State → Prop)
    (upcoming : State → List Item) : Prop where
  initial : Inv loop.system.initial ∧ upcoming loop.system.initial = []
  inv : ∀ {s event s'}, Inv s → allowed s event → loop.system.step s event = some s' → Inv s'
  selects : ∀ {s event s'}, Inv s → allowed s event → loop.system.step s event = some s' →
    ∀ selection ∈ loop.selects s event, good selection.1 = true
  advances : ∀ {s event s'}, Inv s → loop.system.step s event = some s' →
    ∀ item ∈ upcoming s', item ∈ upcoming s ∨ item ∈ (loop.selects s event).map Prod.snd
  hands : ∀ s event, ∀ item ∈ loop.hands s event, item ∈ upcoming s

variable {loop} {allowed : State → Event → Prop} {good : Record → Bool} {Inv : State → Prop}
  {upcoming : State → List Item}

/-- In every run all selections were good, and what is upcoming is among them. -/
theorem Tracks.recorded (h : loop.Tracks allowed good Inv upcoming)
    {recorded : State × List (Record × Item)}
    (hreaches : loop.recording.Reaches (fun recorded event => allowed recorded.1 event) recorded) :
    Inv recorded.1 ∧ (∀ selection ∈ recorded.2, good selection.1 = true) ∧
      ∀ item ∈ upcoming recorded.1, item ∈ recorded.2.map Prod.snd := by
  induction hreaches with
  | initial =>
      obtain ⟨hinv, hnone⟩ := h.initial
      refine ⟨hinv, by simp [recording], ?_⟩
      intro item hitem
      simp [recording, hnone] at hitem
  | step _ hallowed hnext ih =>
      rename_i before after event _
      obtain ⟨hinv, hgood, hselected⟩ := ih
      obtain ⟨s, hstep, rfl⟩ := Option.map_eq_some_iff.mp hnext
      refine ⟨h.inv hinv hallowed hstep, ?_, ?_⟩
      · intro selection hselection
        rcases List.mem_append.mp hselection with hbefore | hnow
        · exact hgood selection hbefore
        · exact h.selects hinv hallowed hstep selection hnow
      · intro item hitem
        rw [List.map_append]
        rcases h.advances hinv hstep item hitem with hbefore | hnow
        · exact List.mem_append_left _ (hselected item hbefore)
        · exact List.mem_append_right _ hnow

theorem Tracks.handsOnly (h : loop.Tracks allowed good Inv upcoming) :
    loop.HandsOnly allowed good := by
  intro recorded hreaches event s' _ _ item hitem
  obtain ⟨-, hgood, hselected⟩ := h.recorded hreaches
  obtain ⟨⟨record, other⟩, hselection, rfl⟩ :=
    List.mem_map.mp (hselected item (h.hands _ _ item hitem))
  exact ⟨⟨record, hselection⟩, fun record hrecord => hgood _ hrecord⟩

variable (loop) in
/-- What an event hands over after a run, and what the run has selected. -/
def handedAfter (allowed : State → Event → Bool) (events : List Event) (event : Event) :
    Option (List Item × List (Record × Item)) := do
  let recorded ← loop.recording.runAllowed (fun recorded event => allowed recorded.1 event) events
  if allowed recorded.1 event = true then
    (loop.system.step recorded.1 event).map fun _ => (loop.hands recorded.1 event, recorded.2)
  else none

variable (loop) in
/-- The records of what was selected, if an event hands something over after a run. -/
def recordsAfter (allowed : State → Event → Bool) (events : List Event) (event : Event) :
    Option (List Record) := do
  let result ← loop.handedAfter allowed events event
  if result.1.isEmpty = true then none else some (result.2.map Prod.fst)

variable (loop) in
/-- After a run that has made selections with these records something is handed over, and all of it
was selected well. -/
def HandsWellAfter (allowed : State → Event → Bool) (good : Record → Bool) (events : List Event)
    (event : Event) (records : List Record) : Prop :=
  ∃ handed selections, loop.handedAfter allowed events event = some (handed, selections) ∧
    handed ≠ [] ∧ selections.map Prod.fst = records ∧
      ∀ item ∈ handed, SelectedWell good selections item

theorem HandsOnly.handsWellAfter {allowed : State → Event → Bool}
    (h : loop.HandsOnly (fun s event => allowed s event = true) good) {events : List Event}
    {event : Event} {records : List Record}
    (hrun : loop.recordsAfter allowed events event = some records) :
    loop.HandsWellAfter allowed good events event records := by
  obtain ⟨⟨handed, selections⟩, hhanded, hrecords⟩ := Option.bind_eq_some_iff.mp hrun
  split at hrecords
  · cases hrecords
  · rename_i hnonempty
    refine ⟨handed, selections, hhanded, by simpa using hnonempty, Option.some.inj hrecords, ?_⟩
    obtain ⟨recorded, hrecorded, hlast⟩ := Option.bind_eq_some_iff.mp hhanded
    split at hlast
    · rename_i hallowed
      obtain ⟨s', hstep, hresult⟩ := Option.map_eq_some_iff.mp hlast
      obtain ⟨rfl, rfl⟩ := Prod.mk.inj hresult
      exact h recorded (System.reaches_of_runAllowed hrecorded) event s' hallowed hstep
    · cases hlast

theorem HandsOnly.always (h : loop.HandsOnly (fun _ _ => True) good) :
    loop.HandsOnly (fun _ _ => true = true) good := by simpa using h

theorem not_handsOnly {events : List Event} {event : Event} {records : List Record}
    (hrun : loop.recordsAfter (fun _ _ => true) events event = some records)
    (hbad : ∀ record ∈ records, good record = false) :
    ¬ loop.HandsOnly (fun _ _ => True) good := by
  intro honly
  obtain ⟨handed, selections, -, hnonempty, rfl, hwell⟩ := honly.always.handsWellAfter hrun
  obtain ⟨item, hitem⟩ := List.exists_mem_of_ne_nil handed hnonempty
  obtain ⟨⟨record, hselected⟩, hgood⟩ := hwell item hitem
  have hnot := hbad record (List.mem_map_of_mem hselected)
  rw [hgood record hselected] at hnot
  cases hnot

end SelectingLoop

end SmppHerald.Selecting
