import Mathlib.Data.List.Basic

/-!
Cutting a byte stream into frames. A receiver keeps the bytes that have arrived in a buffer and
takes one frame after another off its front until none is complete. The loop body may also end
the loop early. What is proved here does not depend on how a frame is recognised.
-/

namespace SmppHerald.StreamFraming

variable {α μ : Type*}

/-- One attempt to take a frame off the front of a buffer: the frame and what is left. -/
abbrev Extractor (α μ : Type*) := List α → Option (μ × List α)

/-- Finished runs of the loop `while let some frame := next buffer`, whose body breaks out of the
loop when `breaks i frame` holds for the `i`-th frame. The lists are the frames taken and the
buffer left behind. A loop that never stops has no finished run. -/
inductive Drains (next : Extractor α μ) (breaks : Nat → μ → Bool) :
    Nat → List α → List μ → List α → Prop
  | done {i buffer} : next buffer = none → Drains next breaks i buffer [] buffer
  | broke {i buffer frame rest} : next buffer = some (frame, rest) → breaks i frame = true →
      Drains next breaks i buffer [frame] rest
  | more {i buffer frame rest frames left} : next buffer = some (frame, rest) →
      breaks i frame = false → Drains next breaks (i + 1) rest frames left →
      Drains next breaks i buffer (frame :: frames) left

/-- The buffers from which the loop tries to take a frame, with the number of frames before. -/
inductive Visits (next : Extractor α μ) (breaks : Nat → μ → Bool) :
    Nat → List α → Nat → List α → Prop
  | start {i buffer} : Visits next breaks i buffer i buffer
  | next {i buffer frame rest j visited} : next buffer = some (frame, rest) →
      breaks i frame = false → Visits next breaks (i + 1) rest j visited →
      Visits next breaks i buffer j visited

/-- A loop body that never breaks out. -/
def never : Nat → μ → Bool := fun _ _ => false

theorem Drains.deterministic {next : Extractor α μ} {breaks : Nat → μ → Bool} {i : Nat}
    {buffer left left' : List α} {frames frames' : List μ}
    (h : Drains next breaks i buffer frames left)
    (h' : Drains next breaks i buffer frames' left') : frames' = frames ∧ left' = left := by
  induction h generalizing frames' left' with
  | done hnone =>
      cases h' with
      | done => exact ⟨rfl, rfl⟩
      | broke hsome => simp [hnone] at hsome
      | more hsome => simp [hnone] at hsome
  | broke hsome hbreak =>
      cases h' with
      | done hnone => simp [hnone] at hsome
      | broke hsome' =>
          rw [hsome, Option.some.injEq, Prod.mk.injEq] at hsome'
          exact ⟨by rw [hsome'.1], hsome'.2.symm⟩
      | more hsome' hgo =>
          rw [hsome, Option.some.injEq, Prod.mk.injEq] at hsome'
          rw [← hsome'.1, hbreak] at hgo
          exact absurd hgo (by simp)
  | more hsome hgo _ ih =>
      cases h' with
      | done hnone => simp [hnone] at hsome
      | broke hsome' hbreak =>
          rw [hsome, Option.some.injEq, Prod.mk.injEq] at hsome'
          rw [← hsome'.1, hgo] at hbreak
          exact absurd hbreak (by simp)
      | more hsome' _ hrest =>
          rw [hsome, Option.some.injEq, Prod.mk.injEq] at hsome'
          obtain ⟨rfl, rfl⟩ := hsome'
          obtain ⟨rfl, rfl⟩ := ih hrest
          exact ⟨rfl, rfl⟩

/-- The loop finishes when every frame it takes makes the buffer shorter. -/
theorem exists_drains_of_shrinks {next : Extractor α μ} (breaks : Nat → μ → Bool)
    (good : Nat → List α → Prop)
    (hshrink : ∀ i buffer frame rest, good i buffer → next buffer = some (frame, rest) →
      rest.length < buffer.length)
    (hgood : ∀ i buffer frame rest, good i buffer → next buffer = some (frame, rest) →
      breaks i frame = false → good (i + 1) rest)
    (i : Nat) (buffer : List α) (h : good i buffer) :
    ∃ frames left, Drains next breaks i buffer frames left := by
  induction hn : buffer.length using Nat.strongRecOn generalizing i buffer with
  | _ n ih =>
      cases hnext : next buffer with
      | none => exact ⟨[], buffer, .done hnext⟩
      | some out =>
          obtain ⟨frame, rest⟩ := out
          cases hbreak : breaks i frame with
          | true => exact ⟨[frame], rest, .broke hnext hbreak⟩
          | false =>
              have hlt : rest.length < n := hn ▸ hshrink i buffer frame rest h hnext
              obtain ⟨frames, left, hrest⟩ := ih rest.length hlt (i + 1) rest
                (hgood i buffer frame rest h hnext hbreak) rfl
              exact ⟨frame :: frames, left, .more hnext hbreak hrest⟩

/-- Bytes that arrive later do not change a frame that is already complete. -/
def Stable (next : Extractor α μ) : Prop :=
  ∀ buffer frame rest later, next buffer = some (frame, rest) →
    next (buffer ++ later) = some (frame, rest ++ later)

/-- The frames taken off the front of a buffer so far. -/
inductive Takes (next : Extractor α μ) : List α → List μ → List α → Prop
  | nil {buffer} : Takes next buffer [] buffer
  | cons {buffer frame rest frames left} : next buffer = some (frame, rest) →
      Takes next rest frames left → Takes next buffer (frame :: frames) left

theorem Takes.snoc {next : Extractor α μ} {buffer left rest : List α} {frames : List μ} {frame : μ}
    (h : Takes next buffer frames left) (hnext : next left = some (frame, rest)) :
    Takes next buffer (frames ++ [frame]) rest := by
  induction h with
  | nil => exact .cons hnext .nil
  | cons hfirst _ ih => exact .cons hfirst (ih hnext)

theorem Takes.append {next : Extractor α μ} (hstable : Stable next) {buffer left : List α}
    {frames : List μ} (h : Takes next buffer frames left) (later : List α) :
    Takes next (buffer ++ later) frames (left ++ later) := by
  induction h with
  | nil => exact .nil
  | cons hfirst _ ih => exact .cons (hstable _ _ _ later hfirst) ih

/-- Draining a buffer may be interrupted after any prefix of it and resumed once the rest has
arrived. -/
theorem Drains.split {next : Extractor α μ} (hstable : Stable next) {i : Nat}
    {whole left : List α} {frames : List μ} (h : Drains next never i whole frames left)
    (early late : List α) (hwhole : whole = early ++ late) :
    ∃ first second middle, Drains next never i early first middle ∧
      Drains next never (i + first.length) (middle ++ late) second left ∧
      frames = first ++ second := by
  induction h generalizing early with
  | @done i buffer hnone =>
      refine ⟨[], [], early, .done ?_, ?_, rfl⟩
      · cases hearly : next early with
        | none => rfl
        | some out =>
            rw [hwhole, hstable early out.1 out.2 late hearly] at hnone
            exact absurd hnone (by simp)
      · rw [← hwhole]
        exact .done hnone
  | broke _ hbreak => simp [never] at hbreak
  | @more i buffer frame rest frames left hsome hgo hrest ih =>
      cases hearly : next early with
      | none =>
          refine ⟨[], frame :: frames, early, .done hearly, ?_, rfl⟩
          rw [← hwhole]
          exact .more hsome hgo hrest
      | some out =>
          have hwholeNext := hstable early out.1 out.2 late hearly
          rw [← hwhole, hsome, Option.some.injEq, Prod.mk.injEq] at hwholeNext
          obtain ⟨hframe, hrestEq⟩ := hwholeNext
          obtain ⟨first, second, middle, hfirst, hsecond, rfl⟩ := ih out.2 hrestEq
          refine ⟨frame :: first, second, middle, ?_, ?_, rfl⟩
          · refine .more ?_ rfl hfirst
            rw [hearly, hframe]
          · rw [List.length_cons, Nat.add_comm first.length, ← Nat.add_assoc]
            exact hsecond

/-- A receiver that appends one chunk after another to its buffer and drains it each time. -/
inductive Feeds (next : Extractor α μ) : List α → List (List α) → List μ → List α → Prop
  | nil {buffer} : Feeds next buffer [] [] buffer
  | cons {buffer chunk chunks frames middle frames' left} :
      Drains next never 0 (buffer ++ chunk) frames middle →
      Feeds next middle chunks frames' left →
      Feeds next buffer (chunk :: chunks) (frames ++ frames') left

theorem Feeds.deterministic {next : Extractor α μ} {buffer left left' : List α}
    {chunks : List (List α)} {frames frames' : List μ}
    (h : Feeds next buffer chunks frames left) (h' : Feeds next buffer chunks frames' left') :
    frames' = frames ∧ left' = left := by
  induction h generalizing frames' left' with
  | nil =>
      cases h'
      exact ⟨rfl, rfl⟩
  | cons hdrain _ ih =>
      cases h' with
      | cons hdrain' hfeed' =>
          obtain ⟨rfl, rfl⟩ := hdrain.deterministic hdrain'
          obtain ⟨rfl, rfl⟩ := ih hfeed'
          exact ⟨rfl, rfl⟩

theorem Drains.shift {next : Extractor α μ} {i : Nat} {buffer left : List α} {frames : List μ}
    (h : Drains next never i buffer frames left) (j : Nat) :
    Drains next never j buffer frames left := by
  induction h generalizing j with
  | done hnone => exact .done hnone
  | broke _ hbreak => simp [never] at hbreak
  | more hsome hgo _ ih => exact .more hsome rfl (ih (j + 1))

theorem Drains.next_left {next : Extractor α μ} {i : Nat} {buffer left : List α}
    {frames : List μ} (h : Drains next never i buffer frames left) : next left = none := by
  induction h with
  | done hnone => exact hnone
  | broke _ hbreak => simp [never] at hbreak
  | more _ _ _ ih => exact ih

/-- How the stream is cut into chunks is irrelevant: feeding the chunks gives what draining the
whole stream at once gives. -/
theorem feeds_of_drains {next : Extractor α μ} (hstable : Stable next)
    (chunks : List (List α)) {buffer left : List α} {frames : List μ}
    (hempty : next buffer = none)
    (h : Drains next never 0 (buffer ++ chunks.flatten) frames left) :
    Feeds next buffer chunks frames left := by
  induction chunks generalizing buffer frames with
  | nil =>
      rw [List.flatten_nil, List.append_nil] at h
      obtain ⟨rfl, rfl⟩ := Drains.deterministic (.done hempty) h
      exact .nil
  | cons chunk chunks ih =>
      rw [List.flatten_cons, ← List.append_assoc] at h
      obtain ⟨first, second, middle, hfirst, hsecond, rfl⟩ :=
        h.split hstable (buffer ++ chunk) chunks.flatten rfl
      exact .cons hfirst (ih hfirst.next_left (hsecond.shift 0))

end SmppHerald.StreamFraming
