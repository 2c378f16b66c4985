/-!
Programs that call their surroundings. A program is the tree of what it does next for every reply;
a run of it is the list of its calls with the replies they got.
-/

namespace SmppHerald.Interaction

/-- `Reply c` is the type of the replies to the call `c`. A program ends with a value or panics. -/
inductive Prog (Call : Type) (Reply : Call → Type) (α : Type) : Type
  | ret (value : α)
  | panic
  | act (c : Call) (next : Reply c → Prog Call Reply α)

/-- A call and the reply to it. -/
abbrev Event {Call : Type} (Reply : Call → Type) := Sigma Reply

namespace Prog

variable {Call : Type} {Reply : Call → Type} {α β : Type}

def bind : Prog Call Reply α → (α → Prog Call Reply β) → Prog Call Reply β
  | .ret value, f => f value
  | .panic, _ => .panic
  | .act c next, f => .act c fun reply => (next reply).bind f

instance : Monad (Prog Call Reply) where
  pure := .ret
  bind := bind

/-- Make one call and return the reply. -/
def perform (c : Call) : Prog Call Reply (Reply c) := .act c .ret

end Prog

section Run

variable {Call : Type} {Reply : Call → Type} {α β : Type}

/-- The calls of a finished run and its value; a run that panicked has none. -/
inductive Run : Prog Call Reply α → List (Event Reply) → Option α → Prop
  | ret (value : α) : Run (.ret value) [] (some value)
  | panic : Run .panic [] none
  | act {c : Call} {next : Reply c → Prog Call Reply α} (reply : Reply c) {log : List (Event Reply)}
      {result : Option α} : Run (next reply) log result → Run (.act c next) (⟨c, reply⟩ :: log) result

@[simp] theorem run_ret_iff (value : α) (log : List (Event Reply)) (result : Option α) :
    Run (.ret value : Prog Call Reply α) log result ↔ log = [] ∧ result = some value := by
  constructor
  · intro h
    cases h
    exact ⟨rfl, rfl⟩
  · rintro ⟨rfl, rfl⟩
    exact .ret value

@[simp] theorem run_pure_iff (value : α) (log : List (Event Reply)) (result : Option α) :
    Run (pure value : Prog Call Reply α) log result ↔ log = [] ∧ result = some value :=
  run_ret_iff value log result

@[simp] theorem run_panic_iff (log : List (Event Reply)) (result : Option α) :
    Run (.panic : Prog Call Reply α) log result ↔ log = [] ∧ result = none := by
  constructor
  · intro h
    cases h
    exact ⟨rfl, rfl⟩
  · rintro ⟨rfl, rfl⟩
    exact .panic

theorem run_act_iff (c : Call) (next : Reply c → Prog Call Reply α) (log : List (Event Reply))
    (result : Option α) :
    Run (.act c next) log result ↔
      ∃ reply rest, log = ⟨c, reply⟩ :: rest ∧ Run (next reply) rest result := by
  constructor
  · intro h
    cases h with
    | act reply hrest => exact ⟨reply, _, rfl, hrest⟩
  · rintro ⟨reply, rest, rfl, hrest⟩
    exact .act reply hrest

@[simp] theorem run_perform_iff (c : Call) (log : List (Event Reply)) (result : Option (Reply c)) :
    Run (Prog.perform c) log result ↔ ∃ reply, log = [⟨c, reply⟩] ∧ result = some reply := by
  rw [Prog.perform, run_act_iff]
  constructor
  · rintro ⟨reply, rest, rfl, hrest⟩
    obtain ⟨rfl, rfl⟩ := (run_ret_iff _ _ _).mp hrest
    exact ⟨reply, rfl, rfl⟩
  · rintro ⟨reply, rfl, rfl⟩
    exact ⟨reply, [], rfl, .ret reply⟩

theorem run_perform_bind_iff (c : Call) (f : Reply c → Prog Call Reply β)
    (log : List (Event Reply)) (result : Option β) :
    Run (Prog.perform c >>= f) log result ↔
      ∃ reply rest, log = ⟨c, reply⟩ :: rest ∧ Run (f reply) rest result :=
  run_act_iff c _ log result

theorem Run.bind {p : Prog Call Reply α} {f : α → Prog Call Reply β} {a : α}
    {first second : List (Event Reply)} {result : Option β} (hp : Run p first (some a))
    (hf : Run (f a) second result) : Run (p >>= f) (first ++ second) result := by
  change Run (p.bind f) _ _
  induction p generalizing first with
  | ret value =>
      obtain ⟨rfl, hvalue⟩ := (run_ret_iff _ _ _).mp hp
      obtain rfl := Option.some.inj hvalue
      exact hf
  | panic => exact absurd ((run_panic_iff _ _).mp hp).2 (by simp)
  | act c next ih =>
      obtain ⟨reply, rest, rfl, hrest⟩ := (run_act_iff _ _ _ _).mp hp
      exact .act reply (ih reply hrest)

theorem Run.bind_panic {p : Prog Call Reply α} {f : α → Prog Call Reply β}
    {log : List (Event Reply)} (hp : Run p log none) : Run (p >>= f) log none := by
  change Run (p.bind f) _ _
  induction p generalizing log with
  | ret value => exact absurd ((run_ret_iff _ _ _).mp hp).2 (by simp)
  | panic =>
      obtain ⟨rfl, -⟩ := (run_panic_iff _ _).mp hp
      exact .panic
  | act c next ih =>
      obtain ⟨reply, rest, rfl, hrest⟩ := (run_act_iff _ _ _ _).mp hp
      exact .act reply (ih reply hrest)

/-- A run of two programs in sequence is a run of the first and, unless it panicked, one of the
second. -/
theorem run_bind_iff (p : Prog Call Reply α) (f : α → Prog Call Reply β)
    (log : List (Event Reply)) (result : Option β) :
    Run (p >>= f) log result ↔
      (Run p log none ∧ result = none) ∨
        ∃ a first second, log = first ++ second ∧ Run p first (some a) ∧
          Run (f a) second result := by
  constructor
  · intro h
    change Run (p.bind f) _ _ at h
    induction p generalizing log with
    | ret value => exact .inr ⟨value, [], log, rfl, .ret value, h⟩
    | panic =>
        obtain ⟨rfl, rfl⟩ := (run_panic_iff _ _).mp h
        exact .inl ⟨.panic, rfl⟩
    | act c next ih =>
        obtain ⟨reply, rest, rfl, hrest⟩ := (run_act_iff _ _ _ _).mp h
        rcases ih reply rest hrest with ⟨hpanic, rfl⟩ | ⟨a, first, second, rfl, hfirst, hsecond⟩
        · exact .inl ⟨.act reply hpanic, rfl⟩
        · exact .inr ⟨a, _, second, rfl, .act reply hfirst, hsecond⟩
  · rintro (⟨hpanic, rfl⟩ | ⟨a, first, second, rfl, hfirst, hsecond⟩)
    · exact hpanic.bind_panic
    · exact hfirst.bind hsecond

/-- A program tells where its run ends: no finished run is the beginning of another one. -/
theorem Run.append_inj {p : Prog Call Reply α} {first second rest rest' : List (Event Reply)}
    {a b : α} (hfirst : Run p first (some a)) (hsecond : Run p second (some b))
    (h : first ++ rest = second ++ rest') : first = second ∧ rest = rest' := by
  induction p generalizing first second with
  | ret value =>
      obtain ⟨rfl, -⟩ := (run_ret_iff _ _ _).mp hfirst
      obtain ⟨rfl, -⟩ := (run_ret_iff _ _ _).mp hsecond
      exact ⟨rfl, h⟩
  | panic => cases ((run_panic_iff _ _).mp hfirst).2
  | act c next ih =>
      obtain ⟨reply, first, rfl, hfirstRest⟩ := (run_act_iff _ _ _ _).mp hfirst
      obtain ⟨reply', second, rfl, hsecondRest⟩ := (run_act_iff _ _ _ _).mp hsecond
      rw [List.cons_append, List.cons_append, List.cons.injEq] at h
      obtain ⟨hevent, htail⟩ := h
      obtain rfl : reply = reply' := by simpa using hevent
      obtain ⟨rfl, hrest⟩ := ih reply hfirstRest hsecondRest htail
      exact ⟨rfl, hrest⟩

/-- The run in which every reply comes from one table. -/
def execute (oracle : (c : Call) → Reply c) : Prog Call Reply α → List (Event Reply) × Option α
  | .ret value => ([], some value)
  | .panic => ([], none)
  | .act c next =>
      let (log, result) := execute oracle (next (oracle c))
      (⟨c, oracle c⟩ :: log, result)

theorem run_execute (oracle : (c : Call) → Reply c) (p : Prog Call Reply α) :
    Run p (execute oracle p).1 (execute oracle p).2 := by
  induction p with
  | ret value => exact .ret value
  | panic => exact .panic
  | act c next ih => exact .act (oracle c) (ih (oracle c))

/-- `rest` is what is left of `p` after the calls of `log`. -/
def Resumes (p : Prog Call Reply α) (log : List (Event Reply)) (rest : Prog Call Reply α) : Prop :=
  ∀ more result, Run rest more result → Run p (log ++ more) result

theorem Resumes.refl (p : Prog Call Reply α) : Resumes p [] p := fun _ _ h => h

theorem Resumes.act {p : Prog Call Reply α} {log : List (Event Reply)} {c : Call}
    {next : Reply c → Prog Call Reply α} (h : Resumes p log (.act c next)) (reply : Reply c) :
    Resumes p (log ++ [⟨c, reply⟩]) (next reply) := by
  intro more result hmore
  rw [List.append_assoc]
  exact h _ _ (.act reply hmore)

theorem Resumes.run {p : Prog Call Reply α} {log : List (Event Reply)} {value : α}
    (h : Resumes p log (.ret value)) : Run p log (some value) := by
  have hrun := h [] (some value) (.ret value)
  rwa [List.append_nil] at hrun

end Run

section Calls

variable {Call : Type} {Reply : Call → Type} {α β : Type}

/-- Whatever the replies, every call that a program makes is permitted. -/
def Calls (permitted : Call → Prop) : Prog Call Reply α → Prop
  | .ret _ => True
  | .panic => True
  | .act c next => permitted c ∧ ∀ reply, Calls permitted (next reply)

variable {permitted : Call → Prop}

@[simp] theorem calls_ret (value : α) :
    Calls permitted (.ret value : Prog Call Reply α) ↔ True := Iff.rfl

@[simp] theorem calls_pure (value : α) :
    Calls permitted (pure value : Prog Call Reply α) ↔ True := Iff.rfl

@[simp] theorem calls_panic : Calls permitted (.panic : Prog Call Reply α) ↔ True := Iff.rfl

@[simp] theorem calls_perform {c : Call} :
    Calls permitted (Prog.perform c : Prog Call Reply (Reply c)) ↔ permitted c := by
  simp [Prog.perform, Calls]

theorem Calls.bind {p : Prog Call Reply α} {f : α → Prog Call Reply β} (hp : Calls permitted p)
    (hf : ∀ value, Calls permitted (f value)) : Calls permitted (p >>= f) := by
  change Calls permitted (p.bind f)
  induction p with
  | ret value => exact hf value
  | panic => trivial
  | act c next ih => exact ⟨hp.1, fun reply => ih reply (hp.2 reply)⟩

theorem Calls.mono {permitted' : Call → Prop} (hpermitted : ∀ c, permitted c → permitted' c)
    {p : Prog Call Reply α} (h : Calls permitted p) : Calls permitted' p := by
  induction p with
  | ret value => trivial
  | panic => trivial
  | act c next ih => exact ⟨hpermitted c h.1, fun reply => ih reply (h.2 reply)⟩

theorem Calls.run {p : Prog Call Reply α} (h : Calls permitted p) {log : List (Event Reply)}
    {result : Option α} (hrun : Run p log result) : ∀ event ∈ log, permitted event.1 := by
  induction hrun with
  | ret value => simp
  | panic => simp
  | act reply _ ih =>
      rw [List.forall_mem_cons]
      exact ⟨h.1, ih (h.2 reply)⟩

/-- Some replies lead a program to the call. -/
inductive Makes : Prog Call Reply α → Call → Prop
  | here {c : Call} {next : Reply c → Prog Call Reply α} : Makes (.act c next) c
  | later {c c' : Call} {next : Reply c → Prog Call Reply α} (reply : Reply c) :
      Makes (next reply) c' → Makes (.act c next) c'

theorem Calls.makes {p : Prog Call Reply α} (h : Calls permitted p) {c : Call}
    (hmakes : Makes p c) : permitted c := by
  induction hmakes with
  | here => exact h.1
  | later reply _ ih => exact ih (h.2 reply)

theorem Makes.bind {p : Prog Call Reply α} {c : Call} (h : Makes p c)
    (f : α → Prog Call Reply β) : Makes (p >>= f) c := by
  change Makes (p.bind f) c
  induction h with
  | here => exact .here
  | later reply _ ih => exact .later reply ih

/-- Whatever the replies, every call is permitted, and a value that is returned is as `post` says. -/
def Returns (permitted : Call → Prop) (post : α → Prop) : Prog Call Reply α → Prop
  | .ret value => post value
  | .panic => True
  | .act c next => permitted c ∧ ∀ reply, Returns permitted post (next reply)

variable {post : α → Prop}

@[simp] theorem returns_ret (value : α) :
    Returns permitted post (.ret value : Prog Call Reply α) ↔ post value := Iff.rfl

@[simp] theorem returns_pure (value : α) :
    Returns permitted post (pure value : Prog Call Reply α) ↔ post value := Iff.rfl

@[simp] theorem returns_panic :
    Returns permitted post (.panic : Prog Call Reply α) ↔ True := Iff.rfl

theorem Calls.returns {p : Prog Call Reply α} (h : Calls permitted p) :
    Returns permitted (fun _ => True) p := by
  induction p with
  | ret value => trivial
  | panic => trivial
  | act c next ih => exact ⟨h.1, fun reply => ih reply (h.2 reply)⟩

theorem Returns.bind {p : Prog Call Reply α} {f : α → Prog Call Reply β} {post' : β → Prop}
    (hp : Returns permitted post p) (hf : ∀ value, post value → Returns permitted post' (f value)) :
    Returns permitted post' (p >>= f) := by
  change Returns permitted post' (p.bind f)
  induction p with
  | ret value => exact hf value hp
  | panic => trivial
  | act c next ih => exact ⟨hp.1, fun reply => ih reply (hp.2 reply)⟩

@[simp] theorem returns_perform {c : Call} {post : Reply c → Prop} :
    Returns permitted post (Prog.perform c) ↔ permitted c ∧ ∀ reply, post reply := Iff.rfl

theorem Returns.calls {p : Prog Call Reply α} (h : Returns permitted post p) :
    Calls permitted p := by
  induction p with
  | ret value => trivial
  | panic => trivial
  | act c next ih => exact ⟨h.1, fun reply => ih reply (h.2 reply)⟩

theorem Returns.bindCalls {p : Prog Call Reply α} {f : α → Prog Call Reply β}
    (hp : Returns permitted post p) (hf : ∀ value, post value → Calls permitted (f value)) :
    Calls permitted (p >>= f) := by
  change Calls permitted (p.bind f)
  induction p with
  | ret value => exact hf value hp
  | panic => trivial
  | act c next ih => exact ⟨hp.1, fun reply => ih reply (hp.2 reply)⟩

end Calls

section Protocols

variable {Call : Type} {Reply : Call → Type} {σ α β : Type}

/-- What a program may call depends on a state, which its calls and their replies change. -/
structure Protocol (Call : Type) (Reply : Call → Type) (σ : Type) where
  allows : σ → Call → Prop
  next : σ → (c : Call) → Reply c → σ

/-- Whatever the replies, a program that begins in the state makes only calls that are allowed where
it is, and ends as `post` says; a program that panics has no value. -/
def Conforms (protocol : Protocol Call Reply σ) (post : σ → Option α → Prop) :
    σ → Prog Call Reply α → Prop
  | s, .ret value => post s (some value)
  | s, .panic => post s none
  | s, .act c next => protocol.allows s c ∧
      ∀ reply, Conforms protocol post (protocol.next s c reply) (next reply)

variable {protocol : Protocol Call Reply σ} {post : σ → Option α → Prop} {s : σ}

@[simp] theorem conforms_ret (value : α) :
    Conforms protocol post s (.ret value) ↔ post s (some value) := Iff.rfl

@[simp] theorem conforms_pure (value : α) :
    Conforms protocol post s (pure value) ↔ post s (some value) := Iff.rfl

@[simp] theorem conforms_panic : Conforms protocol post s .panic ↔ post s none := Iff.rfl

@[simp] theorem conforms_act (c : Call) (next : Reply c → Prog Call Reply α) :
    Conforms protocol post s (.act c next) ↔ protocol.allows s c ∧
      ∀ reply, Conforms protocol post (protocol.next s c reply) (next reply) := Iff.rfl

@[simp] theorem conforms_perform {c : Call} {post : σ → Option (Reply c) → Prop} :
    Conforms protocol post s (Prog.perform c) ↔ protocol.allows s c ∧
      ∀ reply, post (protocol.next s c reply) (some reply) := Iff.rfl

theorem conforms_perform_bind (c : Call) (f : Reply c → Prog Call Reply β)
    {post : σ → Option β → Prop} :
    Conforms protocol post s (Prog.perform c >>= f) ↔ protocol.allows s c ∧
      ∀ reply, Conforms protocol post (protocol.next s c reply) (f reply) := Iff.rfl

theorem Conforms.mono {post' : σ → Option α → Prop} (hpost : ∀ s value, post s value → post' s value)
    {p : Prog Call Reply α} (h : Conforms protocol post s p) : Conforms protocol post' s p := by
  induction p generalizing s with
  | ret value => exact hpost s _ h
  | panic => exact hpost s _ h
  | act c next ih => exact ⟨h.1, fun reply => ih reply (h.2 reply)⟩

/-- Two programs in sequence: the second begins where the first ends. -/
theorem conforms_bind {p : Prog Call Reply α} {f : α → Prog Call Reply β}
    {post : σ → Option β → Prop} :
    Conforms protocol post s (p >>= f) ↔
      Conforms protocol
        (fun s' value => value.elim (post s' none) fun a => Conforms protocol post s' (f a)) s p := by
  change Conforms protocol post s (p.bind f) ↔ _
  induction p generalizing s with
  | ret value => rfl
  | panic => rfl
  | act c next ih => exact and_congr Iff.rfl (forall_congr' fun reply => ih reply)

theorem conforms_map {p : Prog Call Reply α} {f : α → β} {post : σ → Option β → Prop} :
    Conforms protocol post s (f <$> p) ↔
      Conforms protocol (fun s' value => post s' (value.map f)) s p := by
  refine conforms_bind.trans ⟨Conforms.mono ?_, Conforms.mono ?_⟩
  · intro s' value h
    cases value <;> exact h
  · intro s' value h
    cases value <;> exact h

theorem Calls.conforms {p : Prog Call Reply α}
    (h : Calls (fun c => protocol.allows s c ∧ ∀ reply, protocol.next s c reply = s) p) :
    Conforms protocol (fun s' _ => s' = s) s p := by
  induction p with
  | ret value => rfl
  | panic => rfl
  | act c next ih =>
      refine ⟨h.1.1, fun reply => ?_⟩
      rw [h.1.2 reply]
      exact ih reply (h.2 reply)

theorem Conforms.calls {permitted : Call → Prop} (reached : σ → Prop)
    (hreached : ∀ s c, reached s → protocol.allows s c →
      permitted c ∧ ∀ reply, reached (protocol.next s c reply))
    {p : Prog Call Reply α} (h : Conforms protocol post s p) (hs : reached s) :
    Calls permitted p := by
  induction p generalizing s with
  | ret value => trivial
  | panic => trivial
  | act c next ih =>
      obtain ⟨hpermitted, hnext⟩ := hreached s c hs h.1
      exact ⟨hpermitted, fun reply => ih reply (h.2 reply) (hnext reply)⟩

end Protocols

section Watching

variable {Call : Type} {Reply : Call → Type} {α β : Type}

/-- Every call is allowed; the state tells whether an event of the watched kind has happened. -/
def watching (watched : Event Reply → Bool) : Protocol Call Reply Bool where
  allows _ _ := True
  next seen c reply := seen || watched ⟨c, reply⟩

@[simp] theorem watching_allows (watched : Event Reply → Bool) (seen : Bool) (c : Call) :
    (watching watched).allows seen c := trivial

@[simp] theorem watching_next (watched : Event Reply → Bool) (seen : Bool) (c : Call)
    (reply : Reply c) : (watching watched).next seen c reply = (seen || watched ⟨c, reply⟩) := rfl

theorem Conforms.run {watched : Event Reply → Bool} {post : Bool → Option α → Prop} {seen : Bool}
    {p : Prog Call Reply α} (h : Conforms (watching watched) post seen p)
    {log : List (Event Reply)} {result : Option α} (hrun : Run p log result) :
    post (seen || log.any watched) result := by
  induction hrun generalizing seen with
  | ret value =>
      rw [List.any_nil, Bool.or_false]
      exact h
  | panic =>
      rw [List.any_nil, Bool.or_false]
      exact h
  | act reply _ ih =>
      rw [List.any_cons, ← Bool.or_assoc]
      exact ih (h.2 reply)

theorem Calls.watching {watched : Event Reply → Bool} {p : Prog Call Reply α}
    (h : Calls (fun c => ∀ reply, watched ⟨c, reply⟩ = false) p) (seen : Bool) :
    Conforms (watching watched) (fun seen' _ => seen' = seen) seen p := by
  apply Calls.conforms
  apply h.mono
  intro c hnot
  refine ⟨trivial, fun reply => ?_⟩
  rw [watching_next, hnot reply, Bool.or_false]

end Watching

section Recording

variable {Call : Type} {Reply : Call → Type} {α : Type}

/-- Every call is allowed; the state is the list of those of a kind, with their replies. -/
def recording (recorded : Call → Bool) : Protocol Call Reply (List (Event Reply)) where
  allows _ _ := True
  next events c reply := if recorded c = true then events ++ [⟨c, reply⟩] else events

@[simp] theorem recording_allows (recorded : Call → Bool) (events : List (Event Reply)) (c : Call) :
    (recording recorded).allows events c := trivial

@[simp] theorem recording_next (recorded : Call → Bool) (events : List (Event Reply)) (c : Call)
    (reply : Reply c) : (recording recorded).next events c reply =
      if recorded c = true then events ++ [⟨c, reply⟩] else events := rfl

/-- What a program ends with, given the calls of the kind in its run. -/
theorem Conforms.run_recording {recorded : Call → Bool}
    {post : List (Event Reply) → Option α → Prop} {events : List (Event Reply)}
    {p : Prog Call Reply α} (h : Conforms (recording recorded) post events p)
    {log : List (Event Reply)} {result : Option α} (hrun : Run p log result) :
    post (events ++ log.filter fun event => recorded event.1) result := by
  induction hrun generalizing events with
  | ret value =>
      rw [List.filter_nil, List.append_nil]
      exact h
  | panic =>
      rw [List.filter_nil, List.append_nil]
      exact h
  | @act c _ reply _ _ _ ih =>
      have hrest := ih (h.2 reply)
      rw [recording_next] at hrest
      cases hc : recorded c with
      | true =>
          rw [if_pos hc, List.append_assoc] at hrest
          simpa [List.filter_cons, hc] using hrest
      | false =>
          rw [if_neg (by simp [hc])] at hrest
          simpa [List.filter_cons, hc] using hrest

end Recording

section Follows

variable {Call : Type} {Reply : Call → Type} {α β : Type}

/-- A call that has a follow-up is followed by it at once. -/
def following (followUp : Call → Option Call) : Protocol Call Reply (Option Call) where
  allows expected c := ∀ c', expected = some c' → c = c'
  next _ c _ := followUp c

@[simp] theorem following_allows_none (followUp : Call → Option Call) (c : Call) :
    (@following Call Reply followUp).allows none c := fun _ hexpected => by simp at hexpected

@[simp] theorem following_allows_some {followUp : Call → Option Call} {c c' : Call} :
    (@following Call Reply followUp).allows (some c') c ↔ c = c' :=
  ⟨fun h => h c' rfl, fun h _ hexpected => h.trans (Option.some.inj hexpected)⟩

/-- Whatever the replies, a program makes the call that is expected first, if any, and after every
call that has a follow-up it makes that next. -/
def Follows (followUp : Call → Option Call) (expected : Option Call) (p : Prog Call Reply α) :
    Prop :=
  Conforms (following followUp) (fun expected _ => expected = none) expected p

variable {followUp : Call → Option Call} {expected : Option Call}

theorem Follows.bind {p : Prog Call Reply α} {f : α → Prog Call Reply β}
    (hp : Follows followUp expected p) (hf : ∀ value, Follows followUp none (f value)) :
    Follows followUp expected (p >>= f) := by
  refine conforms_bind.mpr (hp.mono ?_)
  rintro _ value rfl
  cases value with
  | none => rfl
  | some value => exact hf value

theorem Calls.follows {p : Prog Call Reply α} (h : Calls (fun c => followUp c = none) p) :
    Follows followUp none p :=
  Calls.conforms (h.mono fun c hnone => ⟨following_allows_none followUp c, fun _ => hnone⟩)

end Follows

end SmppHerald.Interaction
