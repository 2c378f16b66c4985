import SmppHerald.Library.Interaction

/-!
Programs in an environment that gives certain replies only: what every run ends with, and whether
every run makes exactly one call of a kind.
-/

namespace SmppHerald.Environments

open SmppHerald.Interaction

/-- The replies that each call may get; there is always one. -/
structure Environment {Call : Type} (Reply : Call → Type) where
  Allows : (c : Call) → Reply c → Prop
  total : ∀ c, ∃ reply, Allows c reply

variable {Call : Type} {Reply : Call → Type} {α β : Type} {env : Environment Reply}

def Environment.Agrees (env : Environment Reply) (log : List (Event Reply)) : Prop :=
  ∀ event ∈ log, env.Allows event.1 event.2

theorem agrees_cons {event : Event Reply} {log : List (Event Reply)} :
    env.Agrees (event :: log) ↔ env.Allows event.1 event.2 ∧ env.Agrees log :=
  List.forall_mem_cons

theorem agrees_append {first second : List (Event Reply)} :
    env.Agrees (first ++ second) ↔ env.Agrees first ∧ env.Agrees second :=
  List.forall_mem_append

theorem exists_run (env : Environment Reply) (p : Prog Call Reply α) :
    ∃ log result, Run p log result ∧ env.Agrees log := by
  induction p with
  | ret value => exact ⟨[], some value, .ret value, by simp [Environment.Agrees]⟩
  | panic => exact ⟨[], none, .panic, by simp [Environment.Agrees]⟩
  | act c next ih =>
      obtain ⟨reply, hreply⟩ := env.total c
      obtain ⟨log, result, hrun, hagrees⟩ := ih reply
      exact ⟨_, result, .act reply hrun, agrees_cons.mpr ⟨hreply, hagrees⟩⟩

@[simp] theorem Environment.forall_allowed_iff {c : Call} {P : Prop} :
    (∀ reply, env.Allows c reply → P) ↔ P := by
  obtain ⟨reply, hreply⟩ := env.total c
  exact ⟨fun h => h reply hreply, fun h _ _ => h⟩

theorem Environment.forall_allowed_and_iff {c : Call} {P Q R : Reply c → Prop} {A B : Prop}
    (h : ∀ reply, P reply ↔ Q reply ∧ A ∧ (R reply → B)) :
    (∀ reply, env.Allows c reply → P reply) ↔
      (∀ reply, env.Allows c reply → Q reply) ∧ A ∧
        ((∃ reply, env.Allows c reply ∧ R reply) → B) := by
  simp only [h]
  constructor
  · intro hall
    obtain ⟨reply, hreply⟩ := env.total c
    refine ⟨fun reply hreply => (hall reply hreply).1, (hall reply hreply).2.1, ?_⟩
    rintro ⟨reply, hreply, hsome⟩
    exact (hall reply hreply).2.2 hsome
  · rintro ⟨heach, hshared, hsome⟩ reply hreply
    exact ⟨heach reply hreply, hshared, fun hR => hsome ⟨reply, hreply, hR⟩⟩

section Always

/-- Every run in the environment ends with a result in `post`. -/
def Always (env : Environment Reply) (p : Prog Call Reply α) (post : Option α → Prop) : Prop :=
  ∀ log result, Run p log result → env.Agrees log → post result

variable {post : Option α → Prop}

theorem always_ret (value : α) :
    Always env (.ret value : Prog Call Reply α) post ↔ post (some value) := by
  constructor
  · intro h
    exact h [] (some value) (.ret value) (by simp [Environment.Agrees])
  · intro h log result hrun _
    obtain ⟨-, rfl⟩ := (run_ret_iff _ _ _).mp hrun
    exact h

@[simp] theorem always_pure (value : α) :
    Always env (pure value : Prog Call Reply α) post ↔ post (some value) :=
  always_ret value

@[simp] theorem always_panic : Always env (.panic : Prog Call Reply α) post ↔ post none := by
  constructor
  · intro h
    exact h [] none .panic (by simp [Environment.Agrees])
  · intro h log result hrun _
    obtain ⟨-, rfl⟩ := (run_panic_iff _ _).mp hrun
    exact h

@[simp] theorem always_perform {c : Call} {post : Option (Reply c) → Prop} :
    Always env (Prog.perform c) post ↔ ∀ reply, env.Allows c reply → post (some reply) := by
  constructor
  · intro h reply hreply
    refine h [⟨c, reply⟩] (some reply) ((run_perform_iff _ _ _).mpr ⟨reply, rfl, rfl⟩) ?_
    simpa [Environment.Agrees] using hreply
  · intro h log result hrun hagrees
    obtain ⟨reply, rfl, rfl⟩ := (run_perform_iff _ _ _).mp hrun
    exact h reply (hagrees ⟨c, reply⟩ (by simp))

@[simp] theorem always_bind {p : Prog Call Reply α} {f : α → Prog Call Reply β}
    {post : Option β → Prop} :
    Always env (p >>= f) post ↔
      Always env p fun result => result.elim (post none) fun a => Always env (f a) post := by
  constructor
  · intro h log result hrun hagrees
    cases result with
    | none => exact h log none hrun.bind_panic hagrees
    | some a =>
        intro second final hsecond hagrees'
        exact h _ final (hrun.bind hsecond) (agrees_append.mpr ⟨hagrees, hagrees'⟩)
  · intro h log result hrun hagrees
    rcases (run_bind_iff _ _ _ _).mp hrun with ⟨hpanic, rfl⟩ |
      ⟨a, first, second, rfl, hfirst, hsecond⟩
    · exact h log none hpanic hagrees
    · rw [agrees_append] at hagrees
      exact h first (some a) hfirst hagrees.1 second result hsecond hagrees.2

theorem always_ite {P : Prop} [Decidable P] {p q : Prog Call Reply α} :
    Always env (if P then p else q) post ↔
      (P → Always env p post) ∧ (¬ P → Always env q post) := by
  by_cases h : P <;> simp [h]

theorem Always.mono {p : Prog Call Reply α} {post' : Option α → Prop} (h : Always env p post)
    (hpost : ∀ result, post result → post' result) : Always env p post' :=
  fun log result hrun hagrees => hpost result (h log result hrun hagrees)

end Always

section Once

/-- Every run makes exactly one of the selected calls, and what it selects is `good`. -/
def Once (env : Environment Reply) (select : Call → Option β) (good : β → Prop)
    (p : Prog Call Reply α) : Prop :=
  ∀ log result, Run p log result → env.Agrees log →
    ∃ b, log.filterMap (fun event => select event.1) = [b] ∧ good b

variable {select : Call → Option β} {good : β → Prop} {γ : Type}

/-- The program makes none of the selected calls. -/
abbrev Silent (select : Call → Option β) (p : Prog Call Reply α) : Prop :=
  Calls (fun c => select c = none) p

theorem Silent.filterMap {p : Prog Call Reply α} (h : Silent select p) {log : List (Event Reply)}
    {result : Option α} (hrun : Run p log result) :
    log.filterMap (fun event => select event.1) = [] :=
  List.filterMap_eq_nil_iff.mpr (h.run hrun)

theorem not_once_of_silent {p : Prog Call Reply α} (h : Silent select p) :
    ¬ Once env select good p := by
  intro honce
  obtain ⟨log, result, hrun, hagrees⟩ := exists_run env p
  obtain ⟨b, hb, -⟩ := honce log result hrun hagrees
  simp [h.filterMap hrun] at hb

/-- Nothing is selected in the first program: it must not panic, and the second one makes the
call. -/
theorem once_bind_of_silent {p : Prog Call Reply α} (h : Silent select p)
    {f : α → Prog Call Reply γ} :
    Once env select good (p >>= f) ↔
      Always env p fun result => result.elim False fun a => Once env select good (f a) := by
  constructor
  · intro honce log result hrun hagrees
    cases result with
    | none =>
        obtain ⟨b, hb, -⟩ := honce log none hrun.bind_panic hagrees
        simp [h.filterMap hrun] at hb
    | some a =>
        intro second final hsecond hagrees'
        have hwhole := honce _ final (hrun.bind hsecond) (agrees_append.mpr ⟨hagrees, hagrees'⟩)
        rwa [List.filterMap_append, h.filterMap hrun, List.nil_append] at hwhole
  · intro halways log result hrun hagrees
    rcases (run_bind_iff _ _ _ _).mp hrun with ⟨hpanic, -⟩ |
      ⟨a, first, second, rfl, hfirst, hsecond⟩
    · exact (halways log none hpanic hagrees).elim
    · rw [agrees_append] at hagrees
      rw [List.filterMap_append, h.filterMap hfirst, List.nil_append]
      exact halways first (some a) hfirst hagrees.1 second result hsecond hagrees.2

theorem once_bind_silent {p : Prog Call Reply α} {f : α → Prog Call Reply γ}
    (hf : ∀ a, Silent select (f a)) :
    Once env select good (p >>= f) ↔ Once env select good p := by
  constructor
  · intro honce log result hrun hagrees
    cases result with
    | none => exact honce log none hrun.bind_panic hagrees
    | some a =>
        obtain ⟨second, final, hsecond, hagrees'⟩ := exists_run env (f a)
        have hwhole := honce _ final (hrun.bind hsecond) (agrees_append.mpr ⟨hagrees, hagrees'⟩)
        rwa [List.filterMap_append, (hf a).filterMap hsecond, List.append_nil] at hwhole
  · intro honce log result hrun hagrees
    rcases (run_bind_iff _ _ _ _).mp hrun with ⟨hpanic, -⟩ |
      ⟨a, first, second, rfl, hfirst, hsecond⟩
    · exact honce log none hpanic hagrees
    · rw [agrees_append] at hagrees
      rw [List.filterMap_append, (hf a).filterMap hsecond, List.append_nil]
      exact honce first (some a) hfirst hagrees.1

theorem once_perform {c : Call} {b : β} (hselect : select c = some b) :
    Once env select good (Prog.perform c : Prog Call Reply (Reply c)) ↔ good b := by
  constructor
  · intro honce
    obtain ⟨log, result, hrun, hagrees⟩ := exists_run env (Prog.perform c)
    obtain ⟨found, hfound, hgood⟩ := honce log result hrun hagrees
    obtain ⟨reply, rfl, -⟩ := (run_perform_iff _ _ _).mp hrun
    obtain rfl : b = found := by simpa [hselect] using hfound
    exact hgood
  · intro hgood log result hrun _
    obtain ⟨reply, rfl, -⟩ := (run_perform_iff _ _ _).mp hrun
    exact ⟨b, by simp [hselect], hgood⟩

end Once

end SmppHerald.Environments
