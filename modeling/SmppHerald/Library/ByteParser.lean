import Mathlib.Algebra.Group.Nat.Defs
import Mathlib.Data.List.Basic
import Mathlib.Data.List.TakeWhile

namespace SmppHerald.ByteParser

/-- A buffer as octets, first octet first. -/
abbrev Bytes := List UInt8

/-- The outcome of reading together with the buffer that remains. -/
def Parser (ε α : Type) := Bytes → Except ε α × Bytes

namespace Parser

variable {ε ε' α β : Type}

def pure (a : α) : Parser ε α := fun buffer => (.ok a, buffer)

def fail (e : ε) : Parser ε α := fun buffer => (.error e, buffer)

def bind (p : Parser ε α) (f : α → Parser ε β) : Parser ε β := fun buffer =>
  match p buffer with
  | (.ok a, rest) => f a rest
  | (.error e, rest) => (.error e, rest)

instance : Monad (Parser ε) where
  pure := Parser.pure
  bind := Parser.bind

/-- Replace the error of a failed parse. -/
def mapError (f : ε → ε') (p : Parser ε α) : Parser ε' α := fun buffer =>
  match p buffer with
  | (.ok a, rest) => (.ok a, rest)
  | (.error e, rest) => (.error (f e), rest)

/-- Run a parser on octets of its own and leave the buffer as it is. -/
def within (octets : Bytes) (p : Parser ε α) : Parser ε α := fun buffer => ((p octets).1, buffer)

/-- Run a parser `n` times and collect the results. -/
def times (n : Nat) (p : Parser ε α) : Parser ε (List α) :=
  match n with
  | 0 => pure []
  | n + 1 => do
      let a ← p
      let as ← times n p
      return a :: as

theorem pure_apply (a : α) (buffer : Bytes) :
    (Pure.pure a : Parser ε α) buffer = (.ok a, buffer) := rfl

theorem bind_apply (p : Parser ε α) (f : α → Parser ε β) (buffer : Bytes) :
    (p >>= f) buffer = match p buffer with
      | (.ok a, rest) => f a rest
      | (.error e, rest) => (.error e, rest) := rfl

theorem pure_bind (a : α) (f : α → Parser ε β) : (Pure.pure a : Parser ε α) >>= f = f a := rfl

theorem bind_assoc {γ : Type} (p : Parser ε α) (f : α → Parser ε β) (g : β → Parser ε γ) :
    p >>= f >>= g = p >>= fun a => f a >>= g := by
  funext buffer
  simp only [bind_apply]
  rcases p buffer with ⟨e | a, rest⟩ <;> rfl

theorem bind_ok_iff (p : Parser ε α) (f : α → Parser ε β) (buffer rest : Bytes) (b : β) :
    (p >>= f) buffer = (.ok b, rest) ↔
      ∃ a middle, p buffer = (.ok a, middle) ∧ f a middle = (.ok b, rest) := by
  rw [bind_apply]
  constructor
  · intro h
    split at h
    · rename_i a middle hp
      exact ⟨a, middle, hp, h⟩
    · simp at h
  · rintro ⟨a, middle, hp, hf⟩
    rw [hp]
    exact hf

theorem mapError_ok_iff (f : ε → ε') (p : Parser ε α) (buffer rest : Bytes) (a : α) :
    p.mapError f buffer = (.ok a, rest) ↔ p buffer = (.ok a, rest) := by
  unfold mapError
  split <;> simp_all

end Parser

section Consumes

variable {ε ε' α β : Type}

/-- The parser reads exactly `input`, whatever follows it, and returns `a`. -/
def Consumes (p : Parser ε α) (input : Bytes) (a : α) : Prop :=
  ∀ rest, p (input ++ rest) = (.ok a, rest)

theorem consumes_pure (a : α) : Consumes (pure a : Parser ε α) [] a :=
  fun _ => rfl

theorem Consumes.bind {p : Parser ε α} {f : α → Parser ε β} {first second : Bytes} {a : α} {b : β}
    (hp : Consumes p first a) (hf : Consumes (f a) second b) :
    Consumes (p >>= f) (first ++ second) b := by
  intro rest
  rw [List.append_assoc, Parser.bind_apply, hp (second ++ rest)]
  exact hf rest

theorem Consumes.bind_pure {p : Parser ε α} {input : Bytes} {a : α} (hp : Consumes p input a)
    (f : α → β) : Consumes (p >>= fun a => pure (f a)) input (f a) := by
  intro rest
  rw [Parser.bind_apply, hp rest]
  rfl

theorem Consumes.mapError {p : Parser ε α} {input : Bytes} {a : α} (hp : Consumes p input a)
    (f : ε → ε') : Consumes (p.mapError f) input a := by
  intro rest
  rw [Parser.mapError, hp rest]

theorem Consumes.exact {p : Parser ε α} {input : Bytes} {a : α} (hp : Consumes p input a) :
    p input = (.ok a, []) := by
  simpa using hp []

/-- A parser tells what it consumes from what follows. -/
theorem Consumes.append_inj {p : Parser ε α} {input input' rest rest' : Bytes} {a a' : α}
    (hp : Consumes p input a) (hp' : Consumes p input' a') (h : input ++ rest = input' ++ rest') :
    a = a' ∧ rest = rest' := by
  have hrun := hp rest
  rw [h, hp' rest'] at hrun
  simp only [Prod.mk.injEq, Except.ok.injEq] at hrun
  exact ⟨hrun.1.symm, hrun.2.symm⟩

theorem consumes_within {p : Parser ε α} {octets : Bytes} {a : α} (h : (p octets).1 = .ok a) :
    Consumes (p.within octets) [] a := by
  intro rest
  rw [Parser.within, h, List.nil_append]

theorem consumes_times {p : Parser ε α} {inputs : List Bytes} {as : List α}
    (h : List.Forall₂ (Consumes p) inputs as) :
    Consumes (Parser.times as.length p) inputs.flatten as := by
  induction h with
  | nil => exact consumes_pure []
  | cons hfirst _ ih =>
      rw [List.flatten_cons, List.length_cons, Parser.times]
      exact hfirst.bind (ih.bind_pure _)

theorem exists_consumes_times {p : Parser ε α} {inputs : List Bytes}
    (h : ∀ input ∈ inputs, ∃ a, Consumes p input a) :
    ∃ as, Consumes (Parser.times inputs.length p) inputs.flatten as := by
  induction inputs with
  | nil => exact ⟨[], consumes_pure []⟩
  | cons input inputs ih =>
      rw [List.forall_mem_cons] at h
      obtain ⟨a, ha⟩ := h.1
      obtain ⟨as, has⟩ := ih h.2
      exact ⟨a :: as, ha.bind (has.bind_pure _)⟩

/-- The parser fails on this input in the same way, whatever follows it. -/
def Refuses (p : Parser ε α) (input : Bytes) (e : ε) : Prop :=
  ∀ rest, (p (input ++ rest)).1 = .error e

theorem Refuses.bind {p : Parser ε α} {first : Bytes} {e : ε} (hp : Refuses p first e)
    (f : α → Parser ε β) (second : Bytes) : Refuses (p >>= f) (first ++ second) e := by
  intro rest
  have hfirst := hp (second ++ rest)
  rw [List.append_assoc, Parser.bind_apply]
  split
  · rename_i hok
    rw [hok] at hfirst
    cases hfirst
  · rename_i herror
    rw [herror] at hfirst
    exact congrArg Except.error (Except.error.inj hfirst)

theorem Consumes.bind_refuses {p : Parser ε α} {f : α → Parser ε β} {first second : Bytes} {a : α}
    {e : ε} (hp : Consumes p first a) (hf : Refuses (f a) second e) :
    Refuses (p >>= f) (first ++ second) e := by
  intro rest
  rw [List.append_assoc, Parser.bind_apply, hp]
  exact hf rest

theorem Refuses.mapError {p : Parser ε α} {input : Bytes} {e : ε} (hp : Refuses p input e)
    (f : ε → ε') : Refuses (p.mapError f) input (f e) := by
  intro rest
  have hrest := hp rest
  unfold Parser.mapError
  split
  · rename_i hok
    rw [hok] at hrest
    cases hrest
  · rename_i herror
    rw [herror] at hrest
    exact congrArg Except.error (congrArg f (Except.error.inj hrest))

/-- Whatever the parser does, it leaves no more octets than there were. -/
def NeverGrows (p : Parser ε α) : Prop :=
  ∀ buffer, (p buffer).2.length ≤ buffer.length

/-- Whatever the parser does, what it leaves is the end of what it was given. -/
def LeavesSuffix (p : Parser ε α) : Prop := ∀ buffer, (p buffer).2 <:+ buffer

theorem LeavesSuffix.neverGrows {p : Parser ε α} (h : LeavesSuffix p) : NeverGrows p :=
  fun buffer => (h buffer).length_le

theorem leavesSuffix_pure (a : α) : LeavesSuffix (pure a : Parser ε α) := List.suffix_refl

theorem leavesSuffix_fail (e : ε) : LeavesSuffix (Parser.fail e : Parser ε α) := List.suffix_refl

theorem LeavesSuffix.bind {p : Parser ε α} {f : α → Parser ε β} (hp : LeavesSuffix p)
    (hf : ∀ a, LeavesSuffix (f a)) : LeavesSuffix (p >>= f) := by
  intro buffer
  have hfirst := hp buffer
  rw [Parser.bind_apply]
  split
  · rename_i a rest hok
    rw [hok] at hfirst
    exact (hf a rest).trans hfirst
  · rename_i e rest herror
    rw [herror] at hfirst
    exact hfirst

theorem LeavesSuffix.mapError {p : Parser ε α} (hp : LeavesSuffix p) (f : ε → ε') :
    LeavesSuffix (p.mapError f) := by
  intro buffer
  have hfirst := hp buffer
  unfold Parser.mapError
  split
  · rename_i hok
    rw [hok] at hfirst
    exact hfirst
  · rename_i herror
    rw [herror] at hfirst
    exact hfirst

theorem leavesSuffix_times {p : Parser ε α} (hp : LeavesSuffix p) (n : Nat) :
    LeavesSuffix (Parser.times n p) := by
  induction n with
  | zero => exact leavesSuffix_pure []
  | succ n ih =>
      rw [Parser.times]
      exact hp.bind fun a => ih.bind fun as => leavesSuffix_pure (a :: as)

end Consumes

section Formats

variable {ε ε' α β : Type} {F F' : α → Bytes → Prop}

/-- What the parser takes off a buffer has the format that belongs to its result. -/
def Takes (p : Parser ε α) (F : α → Bytes → Prop) : Prop :=
  ∀ ⦃buffer rest a⦄, p buffer = (.ok a, rest) → ∃ input, F a input ∧ buffer = input ++ rest

theorem Takes.mono {p : Parser ε α} (hp : Takes p F) (h : ∀ a input, F a input → F' a input) :
    Takes p F' := by
  intro buffer rest a hrun
  obtain ⟨input, hformat, hsplit⟩ := hp hrun
  exact ⟨input, h a input hformat, hsplit⟩

theorem takes_pure (a : α) (ha : F a []) : Takes (pure a : Parser ε α) F := by
  intro buffer rest b hrun
  simp only [Parser.pure_apply, Prod.mk.injEq, Except.ok.injEq] at hrun
  obtain ⟨rfl, rfl⟩ := hrun
  exact ⟨[], ha, rfl⟩

theorem takes_fail (e : ε) : Takes (Parser.fail e : Parser ε α) F := by
  intro buffer rest a hrun
  simp [Parser.fail] at hrun

/-- What was taken first is in front of what is taken then. -/
theorem Takes.bind {p : Parser ε α} {f : α → Parser ε β} {G : β → Bytes → Prop} (hp : Takes p F)
    (hf : ∀ a first, F a first → Takes (f a) fun b second => G b (first ++ second)) :
    Takes (p >>= f) G := by
  intro buffer rest b hrun
  obtain ⟨a, middle, hfirst, hsecond⟩ := (Parser.bind_ok_iff _ _ _ _ _).mp hrun
  obtain ⟨first, hfirstFormat, rfl⟩ := hp hfirst
  obtain ⟨second, hformat, rfl⟩ := hf a first hfirstFormat hsecond
  exact ⟨first ++ second, hformat, (List.append_assoc first second rest).symm⟩

theorem Takes.bind_pure {p : Parser ε α} {G : β → Bytes → Prop} (hp : Takes p F) (f : α → β)
    (h : ∀ a input, F a input → G (f a) input) : Takes (p >>= fun a => pure (f a)) G := by
  apply hp.bind
  intro a input hinput
  apply takes_pure
  rw [List.append_nil]
  exact h a input hinput

theorem Takes.mapError {p : Parser ε α} (hp : Takes p F) (f : ε → ε') :
    Takes (p.mapError f) F := by
  intro buffer rest a hrun
  exact hp ((Parser.mapError_ok_iff f p buffer rest a).mp hrun)

theorem takes_times {p : Parser ε α} {format : Bytes → Prop} (hp : Takes p fun _ => format)
    (n : Nat) :
    Takes (Parser.times n p) fun _ input => ∃ inputs : List Bytes, inputs.length = n ∧
      (∀ input ∈ inputs, format input) ∧ input = inputs.flatten := by
  induction n with
  | zero => exact takes_pure [] ⟨[], rfl, by simp, rfl⟩
  | succ n ih =>
      rw [Parser.times]
      apply hp.bind
      intro a first hfirst
      apply ih.bind_pure (a :: ·)
      rintro as second ⟨inputs, rfl, hall, rfl⟩
      refine ⟨first :: inputs, rfl, ?_, rfl⟩
      rw [List.forall_mem_cons]
      exact ⟨hfirst, hall⟩

end Formats

section Results

variable {ε ε' α β : Type} {P : α → Prop} {Q : β → Prop}

/-- What the parser returns has the property. -/
def Yields (p : Parser ε α) (P : α → Prop) : Prop :=
  ∀ ⦃buffer rest a⦄, p buffer = (.ok a, rest) → P a

theorem yields_true (p : Parser ε α) : Yields p fun _ => True := fun _ _ _ _ => trivial

theorem Yields.bind {p : Parser ε α} {f : α → Parser ε β} (hp : Yields p P)
    (hf : ∀ a, P a → Yields (f a) Q) : Yields (p >>= f) Q := by
  intro buffer rest b hrun
  obtain ⟨a, middle, hfirst, hsecond⟩ := (Parser.bind_ok_iff _ _ _ _ _).mp hrun
  exact hf a (hp hfirst) hsecond

theorem yields_pure (a : α) (ha : P a) : Yields (pure a : Parser ε α) P := by
  intro buffer rest b hrun
  simp only [Parser.pure_apply, Prod.mk.injEq, Except.ok.injEq] at hrun
  exact hrun.1 ▸ ha

theorem Yields.mapError {p : Parser ε α} (hp : Yields p P) (f : ε → ε') :
    Yields (p.mapError f) P := by
  intro buffer rest a hrun
  exact hp ((Parser.mapError_ok_iff f p buffer rest a).mp hrun)

theorem yields_times {p : Parser ε α} (hp : Yields p P) (n : Nat) :
    Yields (Parser.times n p) fun as => as.length = n ∧ ∀ a ∈ as, P a := by
  induction n with
  | zero => exact yields_pure [] ⟨rfl, by simp⟩
  | succ n ih =>
      rw [Parser.times]
      refine hp.bind fun a ha => ih.bind fun as has => yields_pure (a :: as) ?_
      exact ⟨congrArg Nat.succ has.1, List.forall_mem_cons.mpr ⟨ha, has.2⟩⟩

end Results

section Words

/-- The number a big-endian word denotes. -/
def beNat : Bytes → Nat
  | [] => 0
  | b :: bs => b.toNat * 256 ^ bs.length + beNat bs

/-- The big-endian word of `width` octets, higher digits dropped. -/
def beBytes : Nat → Nat → Bytes
  | 0, _ => []
  | width + 1, n => UInt8.ofNat (n / 256 ^ width) :: beBytes width n

@[simp] theorem length_beBytes (width n : Nat) : (beBytes width n).length = width := by
  induction width with
  | zero => rfl
  | succ width ih => simp [beBytes, ih]

theorem beNat_beBytes (width n : Nat) : beNat (beBytes width n) = n % 256 ^ width := by
  induction width with
  | zero => simp [beBytes, beNat, Nat.mod_one]
  | succ width ih =>
      have hdigit : (UInt8.ofNat (n / 256 ^ width)).toNat = n / 256 ^ width % 256 :=
        UInt8.toNat_ofNat'
      rw [beBytes, beNat, length_beBytes, ih, hdigit, Nat.pow_succ, Nat.mod_mul,
        Nat.add_comm, Nat.mul_comm]

theorem beNat_lt (bs : Bytes) : beNat bs < 256 ^ bs.length := by
  induction bs with
  | nil => simp [beNat]
  | cons b bs ih =>
      have hb : b.toNat < 256 := b.toNat_lt
      calc
        beNat (b :: bs) = b.toNat * 256 ^ bs.length + beNat bs := rfl
        _ < b.toNat * 256 ^ bs.length + 256 ^ bs.length := by omega
        _ = (b.toNat + 1) * 256 ^ bs.length := by rw [Nat.add_mul, Nat.one_mul]
        _ ≤ 256 * 256 ^ bs.length := Nat.mul_le_mul_right _ hb
        _ = 256 ^ (b :: bs).length := by rw [List.length_cons, Nat.pow_succ, Nat.mul_comm]

theorem beBytes_beNat (bs : Bytes) : beBytes bs.length (beNat bs) = bs := by
  have hgen : ∀ (width n m : Nat), n % 256 ^ width = m % 256 ^ width →
      beBytes width n = beBytes width m := by
    intro width
    induction width with
    | zero => intro n m _; rfl
    | succ width ih =>
        intro n m h
        rw [Nat.pow_succ, Nat.mod_mul, Nat.mod_mul] at h
        have hpos : 0 < 256 ^ width := Nat.pow_pos (by decide)
        have hlow : n % 256 ^ width = m % 256 ^ width := by
          have := congrArg (· % 256 ^ width) h
          simpa [Nat.add_mul_mod_self_left] using this
        have hhigh : n / 256 ^ width % 256 = m / 256 ^ width % 256 := by
          rw [hlow] at h
          exact Nat.eq_of_mul_eq_mul_left hpos (Nat.add_left_cancel h)
        have hdigit : UInt8.ofNat (n / 256 ^ width) = UInt8.ofNat (m / 256 ^ width) := by
          apply UInt8.toNat_inj.mp
          rw [UInt8.toNat_ofNat', UInt8.toNat_ofNat']
          exact hhigh
        rw [beBytes, beBytes, hdigit, ih n m hlow]
  induction bs with
  | nil => rfl
  | cons b bs ih =>
      have hpos : 0 < 256 ^ bs.length := Nat.pow_pos (by decide)
      have hhead : (b.toNat * 256 ^ bs.length + beNat bs) / 256 ^ bs.length = b.toNat := by
        rw [Nat.mul_comm, Nat.mul_add_div hpos, Nat.div_eq_of_lt (beNat_lt bs), Nat.add_zero]
      have htail : beBytes bs.length (b.toNat * 256 ^ bs.length + beNat bs) =
          beBytes bs.length (beNat bs) := by
        apply hgen
        rw [Nat.mul_comm, Nat.mul_add_mod]
      rw [List.length_cons, beNat, beBytes, hhead, htail, ih, UInt8.ofNat_toNat]

/-- Take `n` octets, or fail and take none. -/
def exactly (n : Nat) : Parser Unit Bytes := fun buffer =>
  if n ≤ buffer.length then (.ok (buffer.take n), buffer.drop n) else (.error (), buffer)

theorem consumes_exactly (input : Bytes) : Consumes (exactly input.length) input input := by
  intro rest
  simp [exactly]

theorem exactly_ok_iff (n : Nat) (buffer rest taken : Bytes) :
    exactly n buffer = (.ok taken, rest) ↔ taken.length = n ∧ buffer = taken ++ rest := by
  unfold exactly
  constructor
  · intro h
    split at h
    · rename_i hle
      simp only [Prod.mk.injEq, Except.ok.injEq] at h
      obtain ⟨rfl, rfl⟩ := h
      exact ⟨List.length_take_of_le hle, (List.take_append_drop n buffer).symm⟩
    · simp at h
  · rintro ⟨rfl, rfl⟩
    simp

theorem takes_exactly (n : Nat) :
    Takes (exactly n) fun taken input => input = taken ∧ taken.length = n := by
  intro buffer rest taken hrun
  obtain ⟨hlength, hsplit⟩ := (exactly_ok_iff n buffer rest taken).mp hrun
  exact ⟨taken, ⟨rfl, hlength⟩, hsplit⟩

theorem leavesSuffix_exactly (n : Nat) : LeavesSuffix (exactly n) := by
  intro buffer
  unfold exactly
  split
  · exact List.drop_suffix n buffer
  · exact List.suffix_refl buffer

/-- Read a big-endian word of `width` octets. -/
def word (width : Nat) : Parser Unit Nat := do
  let octets ← exactly width
  return beNat octets

theorem consumes_word (input : Bytes) : Consumes (word input.length) input (beNat input) :=
  (consumes_exactly input).bind_pure beNat

theorem leavesSuffix_word (width : Nat) : LeavesSuffix (word width) :=
  (leavesSuffix_exactly width).bind fun octets => leavesSuffix_pure (beNat octets)

theorem word_ok_iff (width : Nat) (buffer rest : Bytes) (n : Nat) :
    word width buffer = (.ok n, rest) ↔
      ∃ bs : Bytes, bs.length = width ∧ beNat bs = n ∧ buffer = bs ++ rest := by
  rw [word, Parser.bind_ok_iff]
  constructor
  · rintro ⟨bs, middle, hexact, hpure⟩
    rw [exactly_ok_iff] at hexact
    simp only [Parser.pure_apply, Prod.mk.injEq, Except.ok.injEq] at hpure
    obtain ⟨rfl, rfl⟩ := hpure
    exact ⟨bs, hexact.1, rfl, hexact.2⟩
  · rintro ⟨bs, hlen, rfl, rfl⟩
    exact ⟨bs, rest, (exactly_ok_iff _ _ _ _).mpr ⟨hlen, rfl⟩, rfl⟩

theorem takes_word (width : Nat) :
    Takes (word width) fun n input => input.length = width ∧ beNat input = n := by
  intro buffer rest n hrun
  obtain ⟨input, hlength, hvalue, hsplit⟩ := (word_ok_iff width buffer rest n).mp hrun
  exact ⟨input, ⟨hlength, hvalue⟩, hsplit⟩

end Words

section Delimited

/-- Read up to a delimiter octet and drop the delimiter; without one, fail and take nothing. -/
def untilOctet (stop : UInt8) : Parser Unit Bytes := fun buffer =>
  match buffer.dropWhile (· != stop) with
  | [] => (.error (), buffer)
  | _ :: rest => (.ok (buffer.takeWhile (· != stop)), rest)

theorem consumes_untilOctet (stop : UInt8) (input : Bytes) (h : stop ∉ input) :
    Consumes (untilOctet stop) (input ++ [stop]) input := by
  intro rest
  have hall : ∀ b ∈ input, (b != stop) = true := by
    intro b hb
    simp only [bne_iff_ne, ne_eq]
    rintro rfl
    exact h hb
  simp [untilOctet, List.dropWhile_append_of_pos hall, List.takeWhile_append_of_pos hall]

theorem untilOctet_of_findIdx? (stop : UInt8) {buffer : Bytes} {i : Nat}
    (h : buffer.findIdx? (· == stop) = some i) :
    untilOctet stop buffer = (.ok (buffer.take i), buffer.drop (i + 1)) := by
  obtain ⟨hlt, hstop, hbefore⟩ := List.findIdx?_eq_some_iff_getElem.mp h
  have hsplit : buffer = buffer.take i ++ stop :: buffer.drop (i + 1) := by
    rw [← eq_of_beq hstop, ← List.drop_eq_getElem_cons hlt, List.take_append_drop]
  have hnot : stop ∉ buffer.take i := by
    intro hmem
    obtain ⟨j, hj, hget⟩ := List.mem_take_iff_getElem.mp hmem
    exact hbefore j (by omega) (beq_iff_eq.mpr hget)
  have hrun := consumes_untilOctet stop (buffer.take i) hnot (buffer.drop (i + 1))
  rwa [List.append_assoc, List.singleton_append, ← hsplit] at hrun

theorem untilOctet_of_findIdx?_eq_none (stop : UInt8) {buffer : Bytes}
    (h : buffer.findIdx? (· == stop) = none) : untilOctet stop buffer = (.error (), buffer) := by
  rw [List.findIdx?_eq_none_iff] at h
  have hall : buffer.dropWhile (· != stop) = [] := by
    rw [List.dropWhile_eq_nil_iff]
    intro b hb
    exact bne_iff_ne.mpr (beq_eq_false_iff_ne.mp (h b hb))
  rw [untilOctet, hall]
theorem untilOctet_ok (stop : UInt8) {buffer rest taken : Bytes}
    (h : untilOctet stop buffer = (.ok taken, rest)) :
    stop ∉ taken ∧ buffer = taken ++ stop :: rest := by
  unfold untilOctet at h
  split at h
  · simp at h
  · rename_i head tail hdrop
    simp only [Prod.mk.injEq, Except.ok.injEq] at h
    obtain ⟨rfl, rfl⟩ := h
    have hhead : (head != stop) = false := by
      have := List.head?_dropWhile_not (· != stop) buffer
      rw [hdrop] at this
      simpa using this
    have heq : head = stop := by simpa using hhead
    refine ⟨?_, ?_⟩
    · intro hmem
      have hne : (buffer.takeWhile (· != stop)).all (· != stop) = true := List.all_takeWhile
      simpa using List.all_eq_true.mp hne stop hmem
    · subst head
      rw [← hdrop, List.takeWhile_append_dropWhile]

theorem leavesSuffix_untilOctet (stop : UInt8) : LeavesSuffix (untilOctet stop) := by
  intro buffer
  unfold untilOctet
  split
  · exact List.suffix_refl buffer
  · rename_i head rest hdrop
    have hsuffix := List.dropWhile_suffix (l := buffer) (· != stop)
    rw [hdrop] at hsuffix
    exact (List.suffix_cons head rest).trans hsuffix

theorem takes_untilOctet (stop : UInt8) :
    Takes (untilOctet stop) fun taken input => stop ∉ taken ∧ input = taken ++ [stop] := by
  intro buffer rest taken hrun
  obtain ⟨hstop, rfl⟩ := untilOctet_ok stop hrun
  exact ⟨taken ++ [stop], ⟨hstop, rfl⟩, by simp⟩

theorem yields_untilOctet (stop : UInt8) : Yields (untilOctet stop) fun taken => stop ∉ taken :=
  fun _ _ _ hrun => (untilOctet_ok stop hrun).1

end Delimited

end SmppHerald.ByteParser
