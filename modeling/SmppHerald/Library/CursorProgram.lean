import SmppHerald.Library.ByteParser

/-!
Programs that read a buffer from its front, with loops that need not end and operations that may panic.
A program is the relation of its runs: one that does not end from a buffer has no run there.
-/

namespace SmppHerald.CursorProgram

open SmppHerald.ByteParser

/-- From which buffer a run leads to which result, none if it panics, and what it leaves. -/
def Reading (α : Type) := Bytes → Option α → Bytes → Prop

namespace Reading

variable {ε ε' α β σ : Type}

def pure (a : α) : Reading α := fun buffer result rest => result = some a ∧ rest = buffer

def panic : Reading α := fun buffer result rest => result = none ∧ rest = buffer

def bind (p : Reading α) (f : α → Reading β) : Reading β := fun buffer result rest =>
  (p buffer none rest ∧ result = none) ∨
    ∃ a middle, p buffer (some a) middle ∧ f a middle result rest

instance : Monad Reading where
  pure := Reading.pure
  bind := Reading.bind

/-- An operation that always returns. -/
def lift (p : Parser ε α) : Reading (Except ε α) := fun buffer result rest =>
  result = some (p buffer).1 ∧ rest = (p buffer).2

/-- What there is to read, which stays there. -/
def contents : Reading Bytes := fun buffer result rest => result = some buffer ∧ rest = buffer

/-- Run a program on octets of its own and leave the buffer as it is. -/
def within (octets : Bytes) (p : Reading α) : Reading α := fun buffer result rest =>
  (∃ left, p octets result left) ∧ rest = buffer

/-- Take octets off, and panic if there are not as many. -/
def splitTo (n : Nat) : Reading Bytes := fun buffer result rest =>
  if n ≤ buffer.length then result = some (buffer.take n) ∧ rest = buffer.drop n
  else result = none ∧ rest = buffer

/-- The octets up to an index, which panics if there are not as many. -/
def slice (octets : Bytes) (n : Nat) : Reading Bytes :=
  if n ≤ octets.length then pure (octets.take n) else panic

def index (octets : Bytes) (i : Nat) : Reading UInt8 :=
  if h : i < octets.length then pure octets[i] else panic

/-- Go on with the value, or end with an error. -/
def attempt (p : Reading (Except ε α)) (h : ε → ε') (f : α → Reading (Except ε' β)) :
    Reading (Except ε' β) := do
  match ← p with
  | .ok a => f a
  | .error e => pure (.error (h e))

/-- Collect `n` values; the first error ends the loop. -/
def times (n : Nat) (p : Reading (Except ε α)) : Reading (Except ε (List α)) :=
  match n with
  | 0 => pure (.ok [])
  | n + 1 => attempt p id fun a => attempt (times n p) id fun as => pure (.ok (a :: as))

/-- The runs of a loop, whose body gives the state of the next round or a result. -/
inductive Loops (body : σ → Reading (σ ⊕ α)) : σ → Bytes → Option α → Bytes → Prop
  | panicked {s : σ} {buffer rest : Bytes} :
      body s buffer none rest → Loops body s buffer none rest
  | done {s : σ} {buffer rest : Bytes} {a : α} :
      body s buffer (some (.inr a)) rest → Loops body s buffer (some a) rest
  | again {s s' : σ} {buffer middle rest : Bytes} {result : Option α} :
      body s buffer (some (.inl s')) middle → Loops body s' middle result rest →
        Loops body s buffer result rest

def loop (body : σ → Reading (σ ⊕ α)) (s : σ) : Reading α := Loops body s

end Reading

section Ensures

variable {ε ε' α β σ : Type} {buffer : Bytes} {post : α → Bytes → Prop}

/-- The program ends, it does not panic, and all its runs end with `post`. -/
structure Ensures (p : Reading α) (buffer : Bytes) (post : α → Bytes → Prop) : Prop where
  ends : ∃ result rest, p buffer result rest
  right : ∀ result rest, p buffer result rest → ∃ a, result = some a ∧ post a rest

theorem Ensures.exists {p : Reading α} (h : Ensures p buffer post) :
    ∃ a rest, p buffer (some a) rest ∧ post a rest := by
  obtain ⟨result, rest, hrun⟩ := h.ends
  obtain ⟨a, rfl, hpost⟩ := h.right result rest hrun
  exact ⟨a, rest, hrun, hpost⟩

theorem Ensures.mono {p : Reading α} {post' : α → Bytes → Prop} (h : Ensures p buffer post)
    (hpost : ∀ a rest, post a rest → post' a rest) : Ensures p buffer post' where
  ends := h.ends
  right result rest hrun := by
    obtain ⟨a, ha, hrest⟩ := h.right result rest hrun
    exact ⟨a, ha, hpost a rest hrest⟩

theorem ensures_of_run {p : Reading α} {a : α} {left : Bytes}
    (h : ∀ result rest, p buffer result rest ↔ result = some a ∧ rest = left)
    (hpost : post a left) : Ensures p buffer post where
  ends := ⟨some a, left, (h _ _).mpr ⟨rfl, rfl⟩⟩
  right result rest hrun := by
    obtain ⟨rfl, rfl⟩ := (h result rest).mp hrun
    exact ⟨a, rfl, hpost⟩

theorem ensures_pure {a : α} (h : post a buffer) : Ensures (pure a) buffer post :=
  ensures_of_run (fun _ _ => Iff.rfl) h

theorem Ensures.bind {p : Reading α} {f : α → Reading β} {post' : β → Bytes → Prop}
    (hp : Ensures p buffer post) (hf : ∀ a rest, post a rest → Ensures (f a) rest post') :
    Ensures (p >>= f) buffer post' where
  ends := by
    obtain ⟨a, middle, hrun, hmiddle⟩ := hp.exists
    obtain ⟨b, rest, hrest, -⟩ := (hf a middle hmiddle).exists
    exact ⟨some b, rest, .inr ⟨a, middle, hrun, hrest⟩⟩
  right := by
    rintro result rest (⟨hpanic, -⟩ | ⟨a, middle, hrun, hrest⟩)
    · obtain ⟨a, hnone, -⟩ := hp.right none rest hpanic
      cases hnone
    · obtain ⟨b, hb, hmiddle⟩ := hp.right (some a) middle hrun
      obtain rfl := Option.some.inj hb
      exact (hf a middle hmiddle).right result rest hrest

theorem ensures_bind_of_run {p : Reading β} {f : β → Reading α} {b : β} {left : Bytes}
    (h : ∀ result rest, p buffer result rest ↔ result = some b ∧ rest = left)
    (hf : Ensures (f b) left post) : Ensures (p >>= f) buffer post := by
  have hp : Ensures p buffer fun b' left' => b' = b ∧ left' = left := ensures_of_run h ⟨rfl, rfl⟩
  refine hp.bind ?_
  rintro _ _ ⟨rfl, rfl⟩
  exact hf

theorem ensures_lift_bind {q : Parser ε β} {f : Except ε β → Reading α}
    (h : Ensures (f (q buffer).1) (q buffer).2 post) : Ensures (Reading.lift q >>= f) buffer post :=
  ensures_bind_of_run (fun _ _ => Iff.rfl) h

theorem ensures_contents_bind {f : Bytes → Reading α} (h : Ensures (f buffer) buffer post) :
    Ensures (Reading.contents >>= f) buffer post :=
  ensures_bind_of_run (fun _ _ => Iff.rfl) h

theorem ensures_splitTo_bind {n : Nat} {f : Bytes → Reading α} (hle : n ≤ buffer.length)
    (h : Ensures (f (buffer.take n)) (buffer.drop n) post) :
    Ensures (Reading.splitTo n >>= f) buffer post := by
  refine ensures_bind_of_run (fun result rest => ?_) h
  rw [Reading.splitTo, if_pos hle]

theorem ensures_slice_bind {octets : Bytes} {n : Nat} {f : Bytes → Reading α}
    (hle : n ≤ octets.length) (h : Ensures (f (octets.take n)) buffer post) :
    Ensures (Reading.slice octets n >>= f) buffer post := by
  rw [Reading.slice, if_pos hle]
  exact ensures_bind_of_run (fun _ _ => Iff.rfl) h

theorem ensures_index_bind {octets : Bytes} {i : Nat} {f : UInt8 → Reading α}
    (hlt : i < octets.length) (h : Ensures (f octets[i]) buffer post) :
    Ensures (Reading.index octets i >>= f) buffer post := by
  rw [Reading.index, dif_pos hlt]
  exact ensures_bind_of_run (fun _ _ => Iff.rfl) h

theorem Ensures.attempt {p : Reading (Except ε β)} {mid : Except ε β → Bytes → Prop}
    {post : Except ε' α → Bytes → Prop} {h : ε → ε'} {f : β → Reading (Except ε' α)}
    (hp : Ensures p buffer mid) (hok : ∀ b rest, mid (.ok b) rest → Ensures (f b) rest post)
    (herror : ∀ e rest, mid (.error e) rest → post (.error (h e)) rest) :
    Ensures (Reading.attempt p h f) buffer post := by
  refine hp.bind ?_
  intro result rest hmid
  cases result with
  | ok b => exact hok b rest hmid
  | error e => exact ensures_pure (herror e rest hmid)

/-- A loop ends if every round of it ends and a next round has less to read. -/
theorem ensures_loop {body : σ → Reading (σ ⊕ α)} {Inv : σ → Bytes → Prop}
    (hround : ∀ s buffer, Inv s buffer → Ensures (body s) buffer fun next rest =>
      next.elim (fun s' => Inv s' rest ∧ rest.length < buffer.length) fun a => post a rest)
    {s : σ} (hinv : Inv s buffer) : Ensures (Reading.loop body s) buffer post where
  ends := by
    generalize hlength : buffer.length = length
    induction length using Nat.strongRecOn generalizing s buffer with
    | ind length ih =>
        obtain ⟨next, middle, hrun, hnext⟩ := (hround s buffer hinv).exists
        cases next with
        | inl s' =>
            obtain ⟨hinv', hshorter⟩ := hnext
            obtain ⟨result, rest, hrest⟩ := ih middle.length (hlength ▸ hshorter) hinv' rfl
            exact ⟨result, rest, .again hrun hrest⟩
        | inr a => exact ⟨some a, middle, .done hrun⟩
  right result rest hrun := by
    induction hrun with
    | panicked hbody =>
        obtain ⟨next, hnext, -⟩ := (hround _ _ hinv).right _ _ hbody
        cases hnext
    | done hbody =>
        obtain ⟨next, hnext, hpost⟩ := (hround _ _ hinv).right _ _ hbody
        obtain rfl := Option.some.inj hnext
        exact ⟨_, rfl, hpost⟩
    | again hbody _ ih =>
        obtain ⟨next, hnext, hpost⟩ := (hround _ _ hinv).right _ _ hbody
        obtain rfl := Option.some.inj hnext
        exact ih hpost.1

end Ensures

section Follows

variable {ε ε' α β : Type} {p : Reading (Except ε α)} {q : Parser ε α}

/-- The program ends wherever it starts, does not panic, and does what the parser does. -/
def Follows (p : Reading (Except ε α)) (q : Parser ε α) : Prop :=
  ∀ buffer, Ensures p buffer fun result rest => q buffer = (result, rest)

theorem follows_lift (q : Parser ε α) : Follows (Reading.lift q) q :=
  fun _ => ensures_of_run (fun _ _ => Iff.rfl) rfl

theorem follows_pure (a : α) : Follows (pure (.ok a)) (pure a : Parser ε α) :=
  fun _ => ensures_pure rfl

theorem follows_error (e : ε) : Follows (pure (.error e)) (Parser.fail e : Parser ε α) :=
  fun _ => ensures_pure rfl

theorem follows_within (hp : Follows p q) (octets : Bytes) :
    Follows (Reading.within octets p) (q.within octets) := by
  intro buffer
  obtain ⟨hends, hright⟩ := hp octets
  constructor
  · obtain ⟨result, left, hrun⟩ := hends
    exact ⟨result, buffer, ⟨left, hrun⟩, rfl⟩
  · rintro result rest ⟨⟨left, hrun⟩, rfl⟩
    obtain ⟨value, rfl, hvalue⟩ := hright result left hrun
    exact ⟨value, rfl, by rw [Parser.within, hvalue]⟩

theorem Follows.attempt (hp : Follows p q) (h : ε → ε') {f : α → Reading (Except ε' β)}
    {g : α → Parser ε' β} (hf : ∀ a, Follows (f a) (g a)) :
    Follows (Reading.attempt p h f) (q.mapError h >>= g) := by
  intro buffer
  refine (hp buffer).attempt (fun a rest hrun => ?_) fun e rest hrun => ?_
  · rw [Parser.bind_apply, Parser.mapError, hrun]
    exact hf a rest
  · rw [Parser.bind_apply, Parser.mapError, hrun]

theorem mapError_id (q : Parser ε α) : q.mapError id = q := by
  funext buffer
  rw [Parser.mapError]
  split <;> simp_all

theorem mapError_bind_pure (q : Parser ε α) (h : ε → ε') (f : α → β) :
    (q >>= fun a => pure (f a)).mapError h = q.mapError h >>= fun a => pure (f a) := by
  funext buffer
  simp only [Parser.mapError, Parser.bind_apply]
  rcases q buffer with ⟨e | a, rest⟩ <;> rfl

theorem Follows.attempt_id (hp : Follows p q) {f : α → Reading (Except ε β)} {g : α → Parser ε β}
    (hf : ∀ a, Follows (f a) (g a)) : Follows (Reading.attempt p id f) (q >>= g) := by
  have h := hp.attempt id hf
  rwa [mapError_id] at h

theorem follows_times (hp : Follows p q) (n : Nat) :
    Follows (Reading.times n p) (Parser.times n q) := by
  induction n with
  | zero => exact follows_pure []
  | succ n ih => exact hp.attempt_id fun a => ih.attempt_id fun as => follows_pure (a :: as)

theorem Follows.leavesSuffix (hp : Follows p q) (hq : LeavesSuffix q) (buffer : Bytes) :
    Ensures p buffer fun _ rest => rest <:+ buffer := by
  refine (hp buffer).mono fun result rest hrun => ?_
  have hsuffix := hq buffer
  rwa [hrun] at hsuffix

end Follows

end SmppHerald.CursorProgram
