import Mathlib.Logic.Function.Basic
import SmppHerald.Library.FairLock
import SmppHerald.Library.TransitionSystem

/-!
Tasks that share one byte stream. Whoever has the mutex of the writer puts its frame on the stream
piece by piece; a task that fails leaves the stream broken, and one that is dropped gives the mutex
back where it is.
-/

namespace SmppHerald.SharedWriter

open SmppHerald.FairLock
open SmppHerald.TransitionSystem

section Model

/-- Where a task is with its frame: it waits for the mutex, it has put a part of the frame on the
stream, or it still has the mutex. -/
inductive Job (α : Type)
  | idle
  | waiting (frame : List α)
  | writing (written left : List α)
  | done

/-- `asked` has the frames in the order in which they were asked for, and `sent` those that are on
the stream to their end. -/
structure WriterState (τ α : Type) where
  mutex : Mutex τ
  job : τ → Job α
  stream : List α
  sent : List (List α)
  asked : List (List α)
  broken : Bool

inductive WriterEvent (τ α : Type)
  | ask (t : τ) (frame : List α)
  | grant (t : τ)
  | put (t : τ) (count : Nat)
  | finish (t : τ)
  | fail (t : τ)
  -- the holder shuts the stream down, or begins with a new one
  | shutdown (t : τ)
  | renew (t : τ)
  | release (t : τ)
  | drop (t : τ)

variable {τ α : Type} [DecidableEq τ]

namespace WriterState

def setJob (s : WriterState τ α) (t : τ) (job : Job α) : WriterState τ α :=
  { s with job := Function.update s.job t job }

/-- A broken stream takes no more octets. -/
def putPiece (s : WriterState τ α) (t : τ) (count : Nat) : Job α → Option (WriterState τ α)
  | .writing written left =>
      if s.broken = false ∧ 0 < count ∧ count ≤ left.length then
        some { s.setJob t (.writing (written ++ left.take count) (left.drop count)) with
          stream := s.stream ++ left.take count
          sent := if count = left.length then s.sent ++ [written ++ left] else s.sent }
      else none
  | _ => none

def dropTask (s : WriterState τ α) (t : τ) : Job α → WriterState τ α
  | .idle => s
  | .waiting _ => { s.setJob t .idle with mutex := { s.mutex with queue := s.mutex.queue.erase t } }
  | _ => { s.setJob t .idle with mutex := { s.mutex with holder := none } }

def step (s : WriterState τ α) : WriterEvent τ α → Option (WriterState τ α)
  | .ask t frame =>
      match s.job t with
      | .idle => do
          let mutex ← s.mutex.ask t
          return { s.setJob t (.waiting frame) with mutex, asked := s.asked ++ [frame] }
      | _ => none
  | .grant t =>
      match s.job t with
      | .waiting frame => do
          let mutex ← s.mutex.grant t
          return { s.setJob t (.writing [] frame) with mutex }
      | _ => none
  | .put t count => s.putPiece t count (s.job t)
  | .finish t =>
      match s.job t with
      | .writing _ [] => some (s.setJob t .done)
      | _ => none
  | .fail t =>
      match s.job t with
      | .writing _ _ => some { s.setJob t .done with broken := true }
      | _ => none
  | .shutdown t =>
      match s.job t with
      | .done => some { s with broken := true }
      | _ => none
  | .renew t =>
      match s.job t with
      | .done => some { s with stream := [], sent := [], broken := false }
      | _ => none
  | .release t =>
      match s.job t with
      | .done => do
          let mutex ← s.mutex.release t
          return { s.setJob t .idle with mutex }
      | _ => none
  | .drop t => some (s.dropTask t (s.job t))

end WriterState

/-- A new stream that no task has asked for. -/
def writerSystem (τ α : Type) [DecidableEq τ] : System (WriterState τ α) (WriterEvent τ α) where
  initial := ⟨.free, fun _ => .idle, [], [], [], false⟩
  step := WriterState.step

namespace Job

/-- What a task has put on the stream of a frame that is not at its end. -/
def begun : Job α → List α
  | .writing written (_ :: _) => written
  | _ => []

/-- The frame of which a part is still missing on the stream. -/
def underway : Job α → List (List α)
  | .writing written (octet :: left) => [written ++ octet :: left]
  | _ => []

def frame : Job α → List α
  | .waiting frame => frame
  | .writing written left => written ++ left
  | _ => []

def isWaiting : Job α → Bool
  | .waiting _ => true
  | _ => false

def holds : Job α → Bool
  | .writing _ _ => true
  | .done => true
  | _ => false

end Job

/-- Only such frames are asked for, and no task is dropped inside of one. -/
def Allowed (IsFrame : List α → Prop) (s : WriterState τ α) : WriterEvent τ α → Prop
  | .ask _ frame => IsFrame frame
  | .drop t => (s.job t).begun = []
  | _ => True

/-- The steps, one by one. -/
inductive Moves (s : WriterState τ α) : WriterEvent τ α → WriterState τ α → Prop
  | ask {t frame} : s.job t = .idle → t ∉ s.mutex.queue →
      Moves s (.ask t frame) { s.setJob t (.waiting frame) with
        mutex := { s.mutex with queue := s.mutex.queue ++ [t] }, asked := s.asked ++ [frame] }
  | grant {t frame rest} : s.job t = .waiting frame → s.mutex.holder = none →
      s.mutex.queue = t :: rest →
      Moves s (.grant t) { s.setJob t (.writing [] frame) with mutex := ⟨some t, rest⟩ }
  | put {t count written left} : s.job t = .writing written left → s.broken = false →
      0 < count → count < left.length →
      Moves s (.put t count)
        { s.setJob t (.writing (written ++ left.take count) (left.drop count)) with
          stream := s.stream ++ left.take count }
  | putLast {t written left} : s.job t = .writing written left → s.broken = false → left ≠ [] →
      Moves s (.put t left.length) { s.setJob t (.writing (written ++ left) []) with
        stream := s.stream ++ left, sent := s.sent ++ [written ++ left] }
  | finish {t written} : s.job t = .writing written [] → Moves s (.finish t) (s.setJob t .done)
  | fail {t written left} : s.job t = .writing written left →
      Moves s (.fail t) { s.setJob t .done with broken := true }
  | shutdown {t} : s.job t = .done → Moves s (.shutdown t) { s with broken := true }
  | renew {t} : s.job t = .done →
      Moves s (.renew t) { s with stream := [], sent := [], broken := false }
  | release {t} : s.job t = .done →
      Moves s (.release t) { s.setJob t .idle with mutex := { s.mutex with holder := none } }
  | dropIdle {t} : s.job t = .idle → Moves s (.drop t) s
  | dropWaiting {t frame} : s.job t = .waiting frame →
      Moves s (.drop t)
        { s.setJob t .idle with mutex := { s.mutex with queue := s.mutex.queue.erase t } }
  | dropHolder {t} : (s.job t).holds = true →
      Moves s (.drop t) { s.setJob t .idle with mutex := { s.mutex with holder := none } }

theorem moves_of_step {s s' : WriterState τ α} {event : WriterEvent τ α}
    (h : s.step event = some s') : Moves s event s' := by
  cases event with
  | ask t frame =>
      simp only [WriterState.step] at h
      split at h
      · rename_i hjob
        simp only [Option.bind_eq_bind, Option.bind_eq_some_iff, Mutex.ask_eq_some_iff] at h
        obtain ⟨_, ⟨hqueue, rfl⟩, hs'⟩ := h
        obtain rfl := Option.some.inj hs'
        exact .ask hjob hqueue
      · cases h
  | grant t =>
      simp only [WriterState.step] at h
      split at h
      · rename_i hjob
        simp only [Option.bind_eq_bind, Option.bind_eq_some_iff, Mutex.grant_eq_some_iff] at h
        obtain ⟨_, ⟨hholder, rest, hqueue, rfl⟩, hs'⟩ := h
        obtain rfl := Option.some.inj hs'
        exact .grant hjob hholder hqueue
      · cases h
  | put t count =>
      simp only [WriterState.step, WriterState.putPiece] at h
      split at h
      · rename_i written left hjob
        split at h
        · rename_i hput
          obtain rfl := Option.some.inj h
          obtain ⟨hbroken, hpos, hle⟩ := hput
          rcases Nat.lt_or_eq_of_le hle with hlt | rfl
          · simp only [if_neg (Nat.ne_of_lt hlt)]
            exact .put hjob hbroken hpos hlt
          · simp only [↓reduceIte, List.take_length, List.drop_length]
            exact .putLast hjob hbroken (List.ne_nil_of_length_pos hpos)
        · cases h
      · cases h
  | finish t =>
      simp only [WriterState.step] at h
      split at h
      · rename_i hjob
        obtain rfl := Option.some.inj h
        exact .finish hjob
      · cases h
  | fail t =>
      simp only [WriterState.step] at h
      split at h
      · rename_i hjob
        obtain rfl := Option.some.inj h
        exact .fail hjob
      · cases h
  | shutdown t =>
      simp only [WriterState.step] at h
      split at h
      · rename_i hjob
        obtain rfl := Option.some.inj h
        exact .shutdown hjob
      · cases h
  | renew t =>
      simp only [WriterState.step] at h
      split at h
      · rename_i hjob
        obtain rfl := Option.some.inj h
        exact .renew hjob
      · cases h
  | release t =>
      simp only [WriterState.step] at h
      split at h
      · rename_i hjob
        simp only [Option.bind_eq_bind, Option.bind_eq_some_iff, Mutex.release_eq_some_iff] at h
        obtain ⟨_, ⟨-, rfl⟩, hs'⟩ := h
        obtain rfl := Option.some.inj hs'
        exact .release hjob
      · cases h
  | drop t =>
      obtain rfl := Option.some.inj h
      unfold WriterState.dropTask
      split
      · exact .dropIdle ‹_›
      · exact .dropWaiting ‹_›
      · refine .dropHolder ?_
        rename_i hidle hwaiting
        cases hjob : s.job t with
        | idle => exact absurd hjob hidle
        | waiting frame => exact absurd hjob (hwaiting frame)
        | writing written left => rfl
        | done => rfl

end Model

section Invariant

variable {τ α : Type} [DecidableEq τ] {IsFrame : List α → Prop}

/-- Octets with which a frame begins, but not all of it. -/
def IsCut (IsFrame : List α → Prop) (cut : List α) : Prop :=
  cut = [] ∨ ∃ missing, missing ≠ [] ∧ IsFrame (cut ++ missing)

namespace WriterState

variable (s : WriterState τ α)

/-- The job of the holder. -/
def current : Job α := (s.mutex.holder.map s.job).getD .idle

/-- The frames of the tasks that wait. -/
def queued : List (List α) := s.mutex.queue.map fun t => (s.job t).frame

end WriterState

/-- The holder is the task that is writing or done, the stream has the frames that were sent and
what the holder has begun, and the frames come in the order in which they were asked for. -/
structure Inv (IsFrame : List α → Prop) (s : WriterState τ α) : Prop where
  holder : ∀ t, (s.job t).holds = true ↔ s.mutex.holder = some t
  queue : ∀ t, t ∈ s.mutex.queue ↔ (s.job t).isWaiting = true
  nodup : s.mutex.queue.Nodup
  frames : ∀ t, s.job t ≠ .idle → s.job t ≠ .done → IsFrame (s.job t).frame
  sent : ∀ frame ∈ s.sent, IsFrame frame ∧ frame ≠ []
  stream : ∃ cut, s.stream = s.sent.flatten ++ cut ∧ IsCut IsFrame cut ∧
    (s.broken = false → cut = s.current.begun) ∧ (s.broken = true → s.current.begun = [])
  order : ∃ past rest, s.asked = past ++ rest ∧ (s.sent ++ s.current.underway).Sublist past ∧
    s.queued.Sublist rest

theorem inv_initial : Inv IsFrame (writerSystem τ α).initial where
  holder t := by simp [writerSystem, Mutex.free, Job.holds]
  queue t := by simp [writerSystem, Mutex.free, Job.isWaiting]
  nodup := List.nodup_nil
  frames t hidle := absurd rfl hidle
  sent := by simp [writerSystem]
  stream := ⟨[], rfl, .inl rfl, fun _ => rfl, fun _ => rfl⟩
  order := ⟨[], [], rfl, .refl _, .refl _⟩

variable {s : WriterState τ α} {t : τ}

omit [DecidableEq τ] in
theorem Inv.current_eq (h : Inv IsFrame s) (hholds : (s.job t).holds = true) :
    s.current = s.job t := by
  rw [WriterState.current, (h.holder t).mp hholds]
  rfl

omit [DecidableEq τ] in
theorem Inv.notMem_queue (h : Inv IsFrame s) (hwaiting : (s.job t).isWaiting = false) :
    t ∉ s.mutex.queue := by
  rw [h.queue t, hwaiting]
  simp

theorem isWaiting_of_holds {job : Job α} (h : job.holds = true) : job.isWaiting = false := by
  cases job with
  | writing written left => rfl
  | done => rfl
  | idle => cases h
  | waiting frame => cases h

theorem map_frame_update {job : τ → Job α} {queue : List τ} (h : t ∉ queue) (new : Job α) :
    queue.map (fun u => (Function.update job t new u).frame) = queue.map fun u => (job u).frame := by
  apply List.map_congr_left
  intro u hu
  rw [Function.update_of_ne]
  rintro rfl
  exact h hu

theorem Inv.goOn (h : Inv IsFrame s) (hholds : (s.job t).holds = true) {job : Job α}
    (hjob : job.holds = true) (hframe : job ≠ .done → IsFrame job.frame) {stream : List α}
    {sent : List (List α)} {broken : Bool} (hsent : ∀ frame ∈ sent, IsFrame frame ∧ frame ≠ [])
    (hstream : ∃ cut, stream = sent.flatten ++ cut ∧ IsCut IsFrame cut ∧
      (broken = false → cut = job.begun) ∧ (broken = true → job.begun = []))
    (horder : (sent ++ job.underway).Sublist (s.sent ++ (s.job t).underway)) :
    Inv IsFrame { s.setJob t job with stream, sent, broken } := by
  have hholder := (h.holder t).mp hholds
  have hqueue := h.notMem_queue (isWaiting_of_holds hholds)
  have hcurrent : ({ s.setJob t job with stream, sent, broken } : WriterState τ α).current = job := by
    simp only [WriterState.current, WriterState.setJob, hholder, Option.map_some, Option.getD_some,
      Function.update_self]
  constructor
  · intro u
    by_cases hu : u = t
    · subst hu
      simpa [WriterState.setJob, hjob] using hholder
    · simpa [WriterState.setJob, Function.update_of_ne hu] using h.holder u
  · intro u
    by_cases hu : u = t
    · subst hu
      simpa [WriterState.setJob, isWaiting_of_holds hjob] using hqueue
    · simpa [WriterState.setJob, Function.update_of_ne hu] using h.queue u
  · exact h.nodup
  · intro u
    by_cases hu : u = t
    · subst hu
      simp only [WriterState.setJob, Function.update_self]
      exact fun _ hdone => hframe hdone
    · simpa [WriterState.setJob, Function.update_of_ne hu] using h.frames u
  · exact hsent
  · rw [hcurrent]
    exact hstream
  · obtain ⟨past, rest, hasked, hpast, hrest⟩ := h.order
    refine ⟨past, rest, hasked, ?_, ?_⟩
    · rw [hcurrent]
      rw [h.current_eq hholds] at hpast
      exact horder.trans hpast
    · change List.Sublist (List.map _ _) _
      simp only [WriterState.setJob]
      rwa [map_frame_update hqueue]

theorem Inv.letGo (h : Inv IsFrame s) (hholds : (s.job t).holds = true)
    (hbegun : (s.job t).begun = []) :
    Inv IsFrame { s.setJob t .idle with mutex := { s.mutex with holder := none } } := by
  have hholder := (h.holder t).mp hholds
  have hqueue := h.notMem_queue (isWaiting_of_holds hholds)
  constructor
  · intro u
    by_cases hu : u = t
    · subst hu
      simp [WriterState.setJob, Job.holds]
    · have hother : (s.job u).holds = false := by
        rw [Bool.eq_false_iff, ne_eq, h.holder u, hholder, Option.some.injEq]
        exact fun heq => hu heq.symm
      simp [WriterState.setJob, Function.update_of_ne hu, hother]
  · intro u
    by_cases hu : u = t
    · subst hu
      simpa [WriterState.setJob, Job.isWaiting] using hqueue
    · simpa [WriterState.setJob, Function.update_of_ne hu] using h.queue u
  · exact h.nodup
  · intro u
    by_cases hu : u = t
    · subst hu
      simp [WriterState.setJob]
    · simpa [WriterState.setJob, Function.update_of_ne hu] using h.frames u
  · exact h.sent
  · obtain ⟨cut, hstream, hcut, hwhole, -⟩ := h.stream
    refine ⟨cut, hstream, hcut, fun hbroken => ?_, fun _ => rfl⟩
    rw [hwhole hbroken, h.current_eq hholds, hbegun]
    rfl
  · obtain ⟨past, rest, hasked, hpast, hrest⟩ := h.order
    refine ⟨past, rest, hasked, ?_, ?_⟩
    · exact (List.append_nil s.sent).symm ▸ (List.sublist_append_left _ _).trans hpast
    · change List.Sublist (List.map _ _) _
      simp only [WriterState.setJob]
      rwa [map_frame_update hqueue]

theorem Inv.ask (h : Inv IsFrame s) {frame : List α} (hjob : s.job t = .idle)
    (hqueue : t ∉ s.mutex.queue) (hframe : IsFrame frame) :
    Inv IsFrame { s.setJob t (.waiting frame) with
      mutex := { s.mutex with queue := s.mutex.queue ++ [t] }, asked := s.asked ++ [frame] } := by
  have hnot : s.mutex.holder ≠ some t := by
    rw [ne_eq, ← h.holder t, hjob]
    simp [Job.holds]
  have hcurrent : ({ s.setJob t (.waiting frame) with
      mutex := { s.mutex with queue := s.mutex.queue ++ [t] }, asked := s.asked ++ [frame] } :
      WriterState τ α).current = s.current := by
    simp only [WriterState.current, WriterState.setJob]
    cases hholder : s.mutex.holder with
    | none => rfl
    | some u =>
        have hu : u ≠ t := fun heq => hnot (heq ▸ hholder)
        simp only [Option.map_some, Function.update_of_ne hu]
  constructor
  · intro u
    by_cases hu : u = t
    · subst hu
      simpa [WriterState.setJob, Job.holds] using hnot
    · simpa [WriterState.setJob, Function.update_of_ne hu] using h.holder u
  · intro u
    by_cases hu : u = t
    · subst hu
      simp [WriterState.setJob, Job.isWaiting]
    · simpa [WriterState.setJob, Function.update_of_ne hu, hu] using h.queue u
  · refine List.nodup_append.mpr ⟨h.nodup, by simp, ?_⟩
    rintro u hu _ hlast rfl
    exact hqueue (List.mem_singleton.mp hlast ▸ hu)
  · intro u
    by_cases hu : u = t
    · subst hu
      simpa [WriterState.setJob, Job.frame] using hframe
    · simpa [WriterState.setJob, Function.update_of_ne hu] using h.frames u
  · exact h.sent
  · rw [hcurrent]
    exact h.stream
  · obtain ⟨past, rest, hasked, hpast, hrest⟩ := h.order
    refine ⟨past, rest ++ [frame], ?_, ?_, ?_⟩
    · simp only [hasked, List.append_assoc]
    · rw [hcurrent]
      exact hpast
    · change List.Sublist (List.map _ _) _
      simp only [WriterState.setJob, List.map_append, List.map_singleton, Function.update_self,
        map_frame_update hqueue]
      exact hrest.append (.refl _)

theorem Inv.grant (h : Inv IsFrame s) {frame : List α} {others : List τ}
    (hjob : s.job t = .waiting frame) (hholder : s.mutex.holder = none)
    (hqueue : s.mutex.queue = t :: others) :
    Inv IsFrame { s.setJob t (.writing [] frame) with mutex := ⟨some t, others⟩ } := by
  have hnodup := h.nodup
  rw [hqueue, List.nodup_cons] at hnodup
  have hidle : s.current = .idle := by simp [WriterState.current, hholder]
  have hnone : ∀ u, (s.job u).holds = false := by
    intro u
    rw [Bool.eq_false_iff, ne_eq, h.holder u, hholder]
    simp
  have hcurrent : ({ s.setJob t (.writing [] frame) with mutex := ⟨some t, others⟩ } :
      WriterState τ α).current = .writing [] frame := by
    simp [WriterState.current, WriterState.setJob]
  have hbegun : (Job.writing [] frame).begun = [] := by cases frame <;> rfl
  constructor
  · intro u
    by_cases hu : u = t
    · subst hu
      simp [WriterState.setJob, Job.holds]
    · have hu' : ¬ t = u := fun heq => hu heq.symm
      simp [WriterState.setJob, Function.update_of_ne hu, hnone u, hu']
  · intro u
    by_cases hu : u = t
    · subst hu
      simpa [WriterState.setJob, Job.isWaiting] using hnodup.1
    · have hmem := h.queue u
      rw [hqueue, List.mem_cons] at hmem
      simpa [WriterState.setJob, Function.update_of_ne hu, hu] using hmem
  · exact hnodup.2
  · intro u
    by_cases hu : u = t
    · subst hu
      have hframe := h.frames u (by simp [hjob]) (by simp [hjob])
      rw [hjob] at hframe
      simpa [WriterState.setJob, Job.frame] using hframe
    · simpa [WriterState.setJob, Function.update_of_ne hu] using h.frames u
  · exact h.sent
  · obtain ⟨cut, hstream, hcut, hwhole, -⟩ := h.stream
    refine ⟨cut, hstream, hcut, ?_, fun _ => ?_⟩
    · rw [hcurrent, hbegun]
      intro hbroken
      rw [hwhole hbroken, hidle]
      rfl
    · rw [hcurrent, hbegun]
  · obtain ⟨past, rest, hasked, hpast, hrest⟩ := h.order
    have hsent : s.sent.Sublist past := (List.sublist_append_left _ _).trans hpast
    rw [WriterState.queued, hqueue, List.map_cons, hjob] at hrest
    obtain ⟨before, after, rfl, hfirst, hothers⟩ := List.cons_sublist_iff.mp hrest
    refine ⟨past ++ before, after, hasked.trans (List.append_assoc _ _ _).symm, ?_, ?_⟩
    · rw [hcurrent]
      have hframe : (Job.writing [] frame).underway.Sublist before := by
        cases frame with
        | nil => exact List.nil_sublist _
        | cons octet left => exact List.singleton_sublist.mpr hfirst
      exact hsent.append hframe
    · change List.Sublist (List.map _ _) _
      simp only [WriterState.setJob]
      rwa [map_frame_update hnodup.1]

theorem Inv.dropWaiting (h : Inv IsFrame s) {frame : List α} (hjob : s.job t = .waiting frame) :
    Inv IsFrame
      { s.setJob t .idle with mutex := { s.mutex with queue := s.mutex.queue.erase t } } := by
  have hnot : s.mutex.holder ≠ some t := by
    rw [ne_eq, ← h.holder t, hjob]
    simp [Job.holds]
  have hcurrent : ({ s.setJob t .idle with
      mutex := { s.mutex with queue := s.mutex.queue.erase t } } : WriterState τ α).current =
        s.current := by
    simp only [WriterState.current, WriterState.setJob]
    cases hholder : s.mutex.holder with
    | none => rfl
    | some u =>
        have hu : u ≠ t := fun heq => hnot (heq ▸ hholder)
        simp only [Option.map_some, Function.update_of_ne hu]
  constructor
  · intro u
    by_cases hu : u = t
    · subst hu
      simpa [WriterState.setJob, Job.holds] using hnot
    · simpa [WriterState.setJob, Function.update_of_ne hu] using h.holder u
  · intro u
    by_cases hu : u = t
    · subst hu
      simp [WriterState.setJob, Job.isWaiting, h.nodup.mem_erase_iff]
    · simpa [WriterState.setJob, Function.update_of_ne hu, h.nodup.mem_erase_iff, hu] using h.queue u
  · exact h.nodup.erase t
  · intro u
    by_cases hu : u = t
    · subst hu
      simp [WriterState.setJob]
    · simpa [WriterState.setJob, Function.update_of_ne hu] using h.frames u
  · exact h.sent
  · rw [hcurrent]
    exact h.stream
  · obtain ⟨past, rest, hasked, hpast, hrest⟩ := h.order
    refine ⟨past, rest, hasked, ?_, ?_⟩
    · rw [hcurrent]
      exact hpast
    · change List.Sublist (List.map _ _) _
      have hout : t ∉ s.mutex.queue.erase t := by simp [h.nodup.mem_erase_iff]
      simp only [WriterState.setJob]
      rw [map_frame_update hout]
      exact (List.erase_sublist.map _).trans hrest

theorem Inv.step {s' : WriterState τ α} {event : WriterEvent τ α} (h : Inv IsFrame s)
    (hallowed : Allowed IsFrame s event) (hstep : s.step event = some s') : Inv IsFrame s' := by
  have hholds : ∀ {t written left}, s.job t = .writing written left → (s.job t).holds = true :=
    fun hjob => by rw [hjob]; rfl
  have hdone : ∀ {t}, s.job t = .done → (s.job t).holds = true ∧ s.setJob t .done = s := by
    intro t hjob
    refine ⟨by rw [hjob]; rfl, ?_⟩
    rw [WriterState.setJob, ← hjob, Function.update_eq_self]
  obtain ⟨cut, hstream, hcut, hwhole, hbegun⟩ := h.stream
  cases moves_of_step hstep with
  | ask hjob hqueue => exact h.ask hjob hqueue hallowed
  | grant hjob hholder hqueue => exact h.grant hjob hholder hqueue
  | @put t count written left hjob hbroken hpos hlt =>
      have hframe := h.frames t (by simp [hjob]) (by simp [hjob])
      obtain ⟨octet, rest, rfl⟩ :=
        List.exists_cons_of_length_pos (Nat.lt_of_le_of_lt (Nat.zero_le _) hlt)
      obtain ⟨next, missing, hdrop⟩ := List.exists_cons_of_length_pos
        (show 0 < ((octet :: rest).drop count).length by rw [List.length_drop]; omega)
      rw [hjob] at hframe
      have hsplit : written ++ (octet :: rest) =
          written ++ (octet :: rest).take count ++ next :: missing := by
        rw [List.append_assoc, ← hdrop, List.take_append_drop]
      rw [hwhole hbroken, h.current_eq (hholds hjob), hjob] at hstream
      refine h.goOn (hholds hjob) rfl (fun _ => ?_) h.sent ?_ ?_
      · rw [Job.frame, List.append_assoc, List.take_append_drop]
        exact hframe
      · refine ⟨written ++ (octet :: rest).take count, ?_, ?_, ?_, ?_⟩
        · rw [hstream, List.append_assoc]
          rfl
        · exact .inr ⟨next :: missing, by simp, hsplit ▸ hframe⟩
        · rw [hdrop]
          exact fun _ => rfl
        · exact fun hbroken' => absurd (hbroken.symm.trans hbroken') (by simp)
      · rw [hdrop, hjob, Job.underway, Job.underway, ← hsplit]
        exact .refl _
  | @putLast t written left hjob hbroken hleft =>
      have hframe := h.frames t (by simp [hjob]) (by simp [hjob])
      obtain ⟨octet, rest, rfl⟩ := List.exists_cons_of_ne_nil hleft
      rw [hjob] at hframe
      rw [hwhole hbroken, h.current_eq (hholds hjob), hjob] at hstream
      refine h.goOn (hholds hjob) rfl (fun _ => ?_) ?_ ?_ ?_
      · rw [Job.frame, List.append_nil]
        exact hframe
      · rw [List.forall_mem_append, List.forall_mem_singleton]
        exact ⟨h.sent, hframe, by simp⟩
      · refine ⟨[], ?_, .inl rfl, fun _ => rfl, fun _ => rfl⟩
        rw [hstream, List.flatten_append, List.flatten_singleton, List.append_nil,
          List.append_assoc]
        rfl
      · rw [hjob]
        simp [Job.underway]
  | @finish t written hjob =>
      rw [h.current_eq (hholds hjob), hjob] at hwhole
      refine h.goOn (hholds hjob) rfl (fun hnot => absurd rfl hnot) h.sent
        ⟨cut, hstream, hcut, hwhole, fun _ => rfl⟩ ?_
      rw [hjob]
      simp [Job.underway]
  | @fail t written left hjob =>
      refine h.goOn (hholds hjob) rfl (fun hnot => absurd rfl hnot) h.sent
        ⟨cut, hstream, hcut, fun hfalse => absurd hfalse (by simp), fun _ => rfl⟩ ?_
      exact (List.append_nil s.sent).symm ▸ List.sublist_append_left _ _
  | @shutdown t hjob =>
      obtain ⟨hkeeps, hsame⟩ := hdone hjob
      have hgo : Inv IsFrame { s.setJob t .done with
          stream := s.stream, sent := s.sent, broken := true } :=
        h.goOn hkeeps rfl (fun hnot => absurd rfl hnot) h.sent
          ⟨cut, hstream, hcut, fun hfalse => absurd hfalse (by simp), fun _ => rfl⟩
          (by simp [hjob, Job.underway])
      rwa [hsame] at hgo
  | @renew t hjob =>
      obtain ⟨hkeeps, hsame⟩ := hdone hjob
      have hgo : Inv IsFrame { s.setJob t .done with stream := [], sent := [], broken := false } :=
        h.goOn hkeeps rfl (fun hnot => absurd rfl hnot) (by simp)
          ⟨[], rfl, .inl rfl, fun _ => rfl, fun _ => rfl⟩ (by simp [Job.underway])
      rwa [hsame] at hgo
  | release hjob => exact h.letGo (hdone hjob).1 (by rw [hjob]; rfl)
  | dropIdle hjob => exact h
  | dropWaiting hjob => exact h.dropWaiting hjob
  | dropHolder hkeeps => exact h.letGo hkeeps hallowed

/-- In every run the stream has whole frames and the beginning of at most one more, and the frames
come in the order in which they were asked for, each at most once. -/
theorem stream_of_reaches (h : (writerSystem τ α).Reaches (Allowed IsFrame) s) :
    (∃ cut, s.stream = s.sent.flatten ++ cut ∧ IsCut IsFrame cut) ∧
      (∀ frame ∈ s.sent, IsFrame frame ∧ frame ≠ []) ∧ s.sent.Sublist s.asked := by
  have hinv : Inv IsFrame s := h.invariant inv_initial fun _ _ _ ih => ih.step
  obtain ⟨cut, hstream, hcut, -, -⟩ := hinv.stream
  obtain ⟨past, rest, hasked, hpast, -⟩ := hinv.order
  refine ⟨⟨cut, hstream, hcut⟩, hinv.sent, ?_⟩
  rw [hasked]
  exact ((List.sublist_append_left _ _).trans hpast).trans (List.sublist_append_left _ _)

end Invariant

end SmppHerald.SharedWriter
