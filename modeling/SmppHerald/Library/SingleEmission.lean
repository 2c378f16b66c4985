import SmppHerald.Library.Interaction

namespace SmppHerald.SingleEmission

open SmppHerald.Interaction

variable {Call : Type} {Reply : Call → Type} {α β γ : Type}

/-- A call is permitted, and emits a good value only if none has been emitted. -/
def oneEmission (permitted : Call → Prop) (emitted : Call → Option γ) (good : γ → Prop) :
    Protocol Call Reply Bool where
  allows sent c := permitted c ∧ ∀ value, emitted c = some value → sent = false ∧ good value
  next sent c _ := sent || (emitted c).isSome

variable {permitted : Call → Prop} {emitted : Call → Option γ} {good : γ → Prop}

/-- What is left of a program that emits one good value at the most; `sent` says whether it has. -/
def Completes (permitted : Call → Prop) (emitted : Call → Option γ) (good : γ → Prop) (sent : Bool)
    (p : Prog Call Reply α) : Prop :=
  Conforms (oneEmission permitted emitted good) (fun _ _ => True) sent p

def EmitsOnce (permitted : Call → Prop) (emitted : Call → Option γ) (good : γ → Prop)
    (p : Prog Call Reply α) : Prop :=
  Completes permitted emitted good false p

/-- A permitted call that emits nothing. -/
def Silent (permitted : Call → Prop) (emitted : Call → Option γ) (c : Call) : Prop :=
  permitted c ∧ emitted c = none

theorem Silent.allows {c : Call} (h : Silent permitted emitted c) (sent : Bool) :
    (oneEmission permitted emitted good : Protocol Call Reply Bool).allows sent c := by
  refine ⟨h.1, fun value hvalue => ?_⟩
  rw [h.2] at hvalue
  cases hvalue

theorem Silent.next {c : Call} (h : Silent permitted emitted c) (sent : Bool) (reply : Reply c) :
    (oneEmission permitted emitted good).next sent c reply = sent := by
  simp [oneEmission, h.2]

theorem completes_of_silent {p : Prog Call Reply α} (h : Calls (Silent permitted emitted) p)
    (sent : Bool) : Completes permitted emitted good sent p := by
  induction p with
  | ret value => trivial
  | panic => trivial
  | act c next ih =>
      refine ⟨h.1.allows sent, fun reply => ?_⟩
      rw [h.1.next sent reply]
      exact ih reply (h.2 reply)

theorem EmitsOnce.of_silent {p : Prog Call Reply α} (h : Calls (Silent permitted emitted) p) :
    EmitsOnce permitted emitted good p :=
  completes_of_silent h false

theorem EmitsOnce.after {p : Prog Call Reply α} {f : α → Prog Call Reply β} {post : α → Prop}
    (hp : Returns (Silent permitted emitted) post p)
    (hf : ∀ a, post a → EmitsOnce permitted emitted good (f a)) :
    EmitsOnce permitted emitted good (p >>= f) := by
  change EmitsOnce permitted emitted good (p.bind f)
  induction p with
  | ret value => exact hf value hp
  | panic => trivial
  | act c next ih =>
      refine ⟨hp.1.allows false, fun reply => ?_⟩
      rw [hp.1.next false reply]
      exact ih reply (hp.2 reply)

theorem EmitsOnce.perform_bind {c : Call} {f : Reply c → Prog Call Reply β}
    (hc : Silent permitted emitted c) (hf : ∀ reply, EmitsOnce permitted emitted good (f reply)) :
    EmitsOnce permitted emitted good (Prog.perform c >>= f) :=
  EmitsOnce.after (returns_perform.mpr ⟨hc, fun _ => trivial⟩) fun reply (_ : True) => hf reply

theorem EmitsOnce.before {p : Prog Call Reply α} {f : α → Prog Call Reply β}
    (hp : EmitsOnce permitted emitted good p)
    (hf : ∀ a, Calls (Silent permitted emitted) (f a)) :
    EmitsOnce permitted emitted good (p >>= f) := by
  apply conforms_bind.mpr
  refine Conforms.mono ?_ hp
  intro sent value _
  cases value with
  | none => trivial
  | some value => exact completes_of_silent (hf value) sent

theorem EmitsOnce.perform {c : Call} (hpermitted : permitted c)
    (hgood : ∀ value, emitted c = some value → good value) :
    EmitsOnce permitted emitted good (Prog.perform c : Prog Call Reply (Reply c)) :=
  ⟨⟨hpermitted, fun value hvalue => ⟨rfl, hgood value hvalue⟩⟩, fun _ => trivial⟩

theorem EmitsOnce.mono {good' : γ → Prop} (hgood : ∀ value, good value → good' value)
    {p : Prog Call Reply α} (h : EmitsOnce permitted emitted good p) :
    EmitsOnce permitted emitted good' p := by
  have hcompletes : ∀ sent, Completes permitted emitted good sent p →
      Completes permitted emitted good' sent p := by
    clear h
    induction p with
    | ret value => exact fun _ _ => trivial
    | panic => exact fun _ _ => trivial
    | act c next ih =>
        intro sent h
        refine ⟨⟨h.1.1, fun value hvalue => ?_⟩, fun reply => ih reply _ (h.2 reply)⟩
        exact (h.1.2 value hvalue).imp_right (hgood value)
  exact hcompletes false h

theorem EmitsOnce.calls {p : Prog Call Reply α} (h : EmitsOnce permitted emitted good p) :
    Calls permitted p := by
  refine Conforms.calls (fun _ => True) ?_ h trivial
  intro sent c _ hallows
  exact ⟨hallows.1, fun _ => trivial⟩

/-- What has been emitted so far. -/
def Emissions (emitted : Call → Option γ) (good : γ → Prop) (sent : Bool)
    (log : List (Event Reply)) : Prop :=
  (sent = false ∧ log.filterMap (fun event => emitted event.1) = []) ∨
    (sent = true ∧ ∃ value, good value ∧ log.filterMap (fun event => emitted event.1) = [value])

theorem emissions_nil : Emissions emitted good false ([] : List (Event Reply)) := .inl ⟨rfl, rfl⟩

theorem Completes.act {sent : Bool} {c : Call} {next : Reply c → Prog Call Reply α}
    (h : Completes permitted emitted good sent (.act c next)) {log : List (Event Reply)}
    (hlog : Emissions emitted good sent log) (reply : Reply c) :
    ∃ sent', Completes permitted emitted good sent' (next reply) ∧
      Emissions emitted good sent' (log ++ [⟨c, reply⟩]) := by
  refine ⟨_, h.2 reply, ?_⟩
  rw [Emissions, List.filterMap_append]
  cases hemits : emitted c with
  | none =>
      have hlast :
          List.filterMap (fun event => emitted event.1) [(⟨c, reply⟩ : Event Reply)] = [] := by
        simp [hemits]
      rw [hlast, List.append_nil, Silent.next ⟨h.1.1, hemits⟩]
      exact hlog
  | some value =>
      obtain ⟨rfl, hgood⟩ := h.1.2 value hemits
      have hlast : List.filterMap (fun event => emitted event.1) [(⟨c, reply⟩ : Event Reply)] =
          [value] := by
        simp [hemits]
      rcases hlog with ⟨-, hnone⟩ | ⟨hfalse, -⟩
      · rw [hlast, hnone]
        exact .inr ⟨by simp [oneEmission, hemits], value, hgood, rfl⟩
      · cases hfalse

end SmppHerald.SingleEmission
