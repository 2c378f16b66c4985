/-!
`std::io::Error` and the outcome of a call that may also panic.
-/

namespace SmppHerald.Io

inductive ErrorKind
  | invalidInput | invalidData | notFound | unexpectedEof | notConnected | connectionRefused | timedOut
  | other
deriving DecidableEq, Repr

/-- An error as the callers see it: its kind and its text. -/
structure IoError where
  kind : ErrorKind
  message : String
deriving DecidableEq, Repr

def invalidInput (message : String) : IoError := ⟨.invalidInput, message⟩

def otherError (message : String) : IoError := ⟨.other, message⟩

/-- A call that returns `Ok`, returns `Err`, or panics. -/
inductive Outcome (α : Type)
  | ok (value : α)
  | err (error : IoError)
  | panicked
deriving DecidableEq, Repr

namespace Outcome

variable {α β : Type}

def bind (x : Outcome α) (f : α → Outcome β) : Outcome β :=
  match x with
  | ok value => f value
  | err error => err error
  | panicked => panicked

instance : Monad Outcome where
  pure := ok
  bind := bind

/-- Replace the error of a failed call. -/
def mapErr (f : IoError → IoError) : Outcome α → Outcome α
  | ok value => ok value
  | err error => err (f error)
  | panicked => panicked

/-- `match result { Ok(value) => Some(value), Err(_) => None }` -/
def optional : Outcome α → Outcome (Option α)
  | ok value => ok (some value)
  | err _ => ok none
  | panicked => panicked

@[simp] theorem bind_eq_ok_iff {x : Outcome α} {f : α → Outcome β} {b : β} :
    x.bind f = ok b ↔ ∃ a, x = ok a ∧ f a = ok b := by
  cases x <;> simp [bind]

theorem exists_bind_ok_iff {x : Outcome α} {f : α → β} :
    (∃ b, x.bind (fun a => ok (f a)) = ok b) ↔ ∃ a, x = ok a := by
  cases x <;> simp [bind]

theorem exists_bind_bind_ok_iff {γ : Type} {x : Outcome α} {y : Outcome β} {f : α → β → γ} :
    (∃ c, x.bind (fun a => y.bind fun b => ok (f a b)) = ok c) ↔
      (∃ a, x = ok a) ∧ ∃ b, y = ok b := by
  cases x <;> cases y <;> simp [bind]

@[simp] theorem mapErr_eq_ok_iff {f : IoError → IoError} {x : Outcome α} {a : α} :
    x.mapErr f = ok a ↔ x = ok a := by
  cases x <;> simp [mapErr]

theorem bind_eq_panicked_iff {x : Outcome α} {f : α → Outcome β} :
    x.bind f = panicked ↔ x = panicked ∨ ∃ a, x = ok a ∧ f a = panicked := by
  cases x <;> simp [bind]

theorem mapErr_eq_panicked_iff {f : IoError → IoError} {x : Outcome α} :
    x.mapErr f = panicked ↔ x = panicked := by
  cases x <;> simp [mapErr]

end Outcome

end SmppHerald.Io
