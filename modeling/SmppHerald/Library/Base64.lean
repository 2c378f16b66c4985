import SmppHerald.Library.ByteParser

namespace SmppHerald.Base64

open SmppHerald.ByteParser

def symbol (n : Nat) : Char :=
  if n < 26 then Char.ofNat (n + 65)
  else if n < 52 then Char.ofNat (n + 71)
  else if n < 62 then Char.ofNat (n - 4)
  else if n = 62 then '+'
  else '/'

def value (c : Char) : Option Nat :=
  if 65 ≤ c.toNat ∧ c.toNat ≤ 90 then some (c.toNat - 65)
  else if 97 ≤ c.toNat ∧ c.toNat ≤ 122 then some (c.toNat - 71)
  else if 48 ≤ c.toNat ∧ c.toNat ≤ 57 then some (c.toNat + 4)
  else if c = '+' then some 62
  else if c = '/' then some 63
  else none

theorem value_symbol {n : Nat} (h : n < 64) : value (symbol n) = some n := by
  revert n
  decide

theorem value_pad : value '=' = none := by decide

def encodeChars : Bytes → List Char
  | [] => []
  | [a] => [symbol (a.toNat / 4), symbol (a.toNat % 4 * 16), '=', '=']
  | [a, b] =>
      [symbol (a.toNat / 4), symbol (a.toNat % 4 * 16 + b.toNat / 16),
        symbol (b.toNat % 16 * 4), '=']
  | a :: b :: c :: rest =>
      symbol (a.toNat / 4) :: symbol (a.toNat % 4 * 16 + b.toNat / 16) ::
        symbol (b.toNat % 16 * 4 + c.toNat / 64) :: symbol (c.toNat % 64) :: encodeChars rest

def decodeChars : List Char → Option Bytes
  | [] => some []
  | w :: x :: y :: z :: rest => do
      let w ← value w
      let x ← value x
      match value y, value z with
      | some y, some z =>
          let octets ← decodeChars rest
          some (UInt8.ofNat (w * 4 + x / 16) :: UInt8.ofNat (x % 16 * 16 + y / 4) ::
            UInt8.ofNat (y % 4 * 64 + z) :: octets)
      | some y, none =>
          if z = '=' ∧ rest = [] ∧ y % 4 = 0 then
            some [UInt8.ofNat (w * 4 + x / 16), UInt8.ofNat (x % 16 * 16 + y / 4)]
          else none
      | none, _ =>
          if y = '=' ∧ z = '=' ∧ rest = [] ∧ x % 16 = 0 then
            some [UInt8.ofNat (w * 4 + x / 16)]
          else none
  | _ => none

def encode (octets : Bytes) : String := String.ofList (encodeChars octets)

def decode (text : String) : Option Bytes := decodeChars text.toList

theorem ofNat_eq {a : UInt8} {n : Nat} (h : n = a.toNat) : UInt8.ofNat n = a := by
  rw [h, UInt8.ofNat_toNat]

theorem decodeChars_encodeChars (octets : Bytes) :
    decodeChars (encodeChars octets) = some octets := by
  induction octets using encodeChars.induct with
  | case1 => rfl
  | case2 a =>
      have ha := a.toNat_lt
      simp only [encodeChars, decodeChars, value_symbol (show a.toNat / 4 < 64 by omega),
        value_symbol (show a.toNat % 4 * 16 < 64 by omega), value_pad, Option.bind_eq_bind,
        Option.bind_some, true_and, Nat.mul_mod_left, if_true, Option.some.injEq, List.cons.injEq,
        and_true]
      exact ofNat_eq (by omega)
  | case3 a b =>
      have ha := a.toNat_lt
      have hb := b.toNat_lt
      simp only [encodeChars, decodeChars, value_symbol (show a.toNat / 4 < 64 by omega),
        value_symbol (show a.toNat % 4 * 16 + b.toNat / 16 < 64 by omega),
        value_symbol (show b.toNat % 16 * 4 < 64 by omega), value_pad, Option.bind_eq_bind,
        Option.bind_some, Nat.mul_mod_left, if_true, Option.some.injEq, List.cons.injEq,
        and_true]
      exact ⟨ofNat_eq (by omega), ofNat_eq (by omega)⟩
  | case4 a b c rest ih =>
      have ha := a.toNat_lt
      have hb := b.toNat_lt
      have hc := c.toNat_lt
      simp only [encodeChars, decodeChars, value_symbol (show a.toNat / 4 < 64 by omega),
        value_symbol (show a.toNat % 4 * 16 + b.toNat / 16 < 64 by omega),
        value_symbol (show b.toNat % 16 * 4 + c.toNat / 64 < 64 by omega),
        value_symbol (show c.toNat % 64 < 64 by omega), ih, Option.bind_eq_bind,
        Option.bind_some, Option.some.injEq, List.cons.injEq, and_true]
      exact ⟨ofNat_eq (by omega), ofNat_eq (by omega), ofNat_eq (by omega)⟩

theorem decode_encode (octets : Bytes) : decode (encode octets) = some octets := by
  rw [decode, encode, String.toList_ofList, decodeChars_encodeChars]

section Canonical

/-- Whole groups of four: symbols of the alphabet, at most two pads at the end, and no bit is set in
the last symbol that the octets do not use. -/
def Canonical (cs : List Char) : Prop :=
  ∃ body pads, cs = body ++ List.replicate pads '=' ∧ pads ≤ 2 ∧ 4 ∣ cs.length ∧
    (∀ c ∈ body, (value c).isSome = true) ∧ ∀ c ∈ body.getLast?, ∀ n ∈ value c, n % 4 ^ pads = 0

theorem length_decodeChars {cs : List Char} {octets : Bytes} (h : decodeChars cs = some octets) :
    4 * octets.length ≤ 3 * cs.length := by
  induction cs using decodeChars.induct generalizing octets with
  | case1 =>
      obtain rfl := Option.some.inj h
      exact Nat.le_refl 0
  | case2 w x y z rest ih =>
      simp only [decodeChars, Option.bind_eq_bind, Option.bind_eq_some_iff] at h
      obtain ⟨_, -, _, -, h⟩ := h
      split at h
      · obtain ⟨decoded, hdecoded, heq⟩ := Option.bind_eq_some_iff.mp h
        obtain rfl := Option.some.inj heq
        have hrest := ih hdecoded
        simp only [List.length_cons]
        omega
      · split at h
        · obtain rfl := Option.some.inj h
          simp only [List.length_cons, List.length_nil]
          omega
        · cases h
      · split at h
        · obtain rfl := Option.some.inj h
          simp only [List.length_cons, List.length_nil]
          omega
        · cases h
  | case3 cs hnil hgroup =>
      rw [decodeChars] at h
      · cases h
      · exact hnil
      · exact hgroup

theorem canonical_nil : Canonical [] := ⟨[], 0, rfl, by decide, by decide, by simp, by simp⟩

theorem canonical_group {w x y z : Char} {rest : List Char}
    (hgroup : ∀ c ∈ [w, x, y, z], (value c).isSome = true) (h : Canonical rest) :
    Canonical (w :: x :: y :: z :: rest) := by
  obtain ⟨body, pads, rfl, hpads, hlength, hbody, hlast⟩ := h
  refine ⟨w :: x :: y :: z :: body, pads, rfl, hpads, ?_, ?_, ?_⟩
  · simp only [List.length_cons]
    omega
  · intro c hc
    rcases List.mem_append.mp (show c ∈ [w, x, y, z] ++ body from hc) with hfirst | hrest
    · exact hgroup c hfirst
    · exact hbody c hrest
  · cases body with
    | nil =>
        -- nothing but pads would be no whole group
        have hnone : pads = 0 := by
          rw [List.nil_append, List.length_replicate] at hlength
          omega
        intro c _ n _
        rw [hnone, Nat.pow_zero, Nat.mod_one]
    | cons c body => exact hlast

theorem canonical_of_decodeChars {cs : List Char} {octets : Bytes}
    (h : decodeChars cs = some octets) : Canonical cs := by
  induction cs using decodeChars.induct generalizing octets with
  | case1 => exact canonical_nil
  | case2 w x y z rest ih =>
      simp only [decodeChars, Option.bind_eq_bind, Option.bind_eq_some_iff] at h
      obtain ⟨wn, hw, xn, hx, h⟩ := h
      split at h
      · rename_i yn zn hy hz
        obtain ⟨decoded, hdecoded, -⟩ := Option.bind_eq_some_iff.mp h
        exact canonical_group (by simp [hw, hx, hy, hz]) (ih hdecoded)
      · rename_i yn hy hz
        split at h
        · rename_i hpadded
          obtain ⟨rfl, rfl, hbits⟩ := hpadded
          exact ⟨[w, x, y], 1, rfl, by decide, ⟨1, rfl⟩, by simp [hw, hx, hy], by simp [hy, hbits]⟩
        · cases h
      · split at h
        · rename_i hpadded
          obtain ⟨rfl, rfl, rfl, hbits⟩ := hpadded
          exact ⟨[w, x], 2, rfl, by decide, ⟨1, rfl⟩, by simp [hw, hx], by simp [hx, hbits]⟩
        · cases h
  | case3 cs hnil hgroup =>
      rw [decodeChars] at h
      · cases h
      · exact hnil
      · exact hgroup

theorem decodeChars_isSome_of_padded : ∀ (body : List Char) (pads : Nat), pads ≤ 2 →
    4 ∣ body.length + pads → (∀ c ∈ body, (value c).isSome = true) →
    (∀ c ∈ body.getLast?, ∀ n ∈ value c, n % 4 ^ pads = 0) →
    (decodeChars (body ++ List.replicate pads '=')).isSome = true
  | [], pads, hpads, hlength, _, _ => by
      obtain rfl : pads = 0 := by
        rw [List.length_nil] at hlength
        omega
      rfl
  | [w], pads, hpads, hlength, _, _ => by
      rw [List.length_singleton] at hlength
      omega
  | [w, x], pads, hpads, hlength, hbody, hlast => by
      obtain rfl : pads = 2 := by
        simp only [List.length_cons, List.length_nil] at hlength
        omega
      obtain ⟨wn, hw⟩ := Option.isSome_iff_exists.mp (hbody w (by simp))
      obtain ⟨xn, hx⟩ := Option.isSome_iff_exists.mp (hbody x (by simp))
      have hbits : xn % 16 = 0 := hlast x rfl xn hx
      simp [List.replicate, decodeChars, hw, hx, value_pad, hbits]
  | [w, x, y], pads, hpads, hlength, hbody, hlast => by
      obtain rfl : pads = 1 := by
        simp only [List.length_cons, List.length_nil] at hlength
        omega
      obtain ⟨wn, hw⟩ := Option.isSome_iff_exists.mp (hbody w (by simp))
      obtain ⟨xn, hx⟩ := Option.isSome_iff_exists.mp (hbody x (by simp))
      obtain ⟨yn, hy⟩ := Option.isSome_iff_exists.mp (hbody y (by simp))
      have hbits : yn % 4 = 0 := hlast y rfl yn hy
      simp [List.replicate, decodeChars, hw, hx, hy, value_pad, hbits]
  | w :: x :: y :: z :: body, pads, hpads, hlength, hbody, hlast => by
      obtain ⟨wn, hw⟩ := Option.isSome_iff_exists.mp (hbody w (by simp))
      obtain ⟨xn, hx⟩ := Option.isSome_iff_exists.mp (hbody x (by simp))
      obtain ⟨yn, hy⟩ := Option.isSome_iff_exists.mp (hbody y (by simp))
      obtain ⟨zn, hz⟩ := Option.isSome_iff_exists.mp (hbody z (by simp))
      have hrest : (decodeChars (body ++ List.replicate pads '=')).isSome = true := by
        refine decodeChars_isSome_of_padded body pads hpads ?_
          (fun c hc => hbody c (by simp [hc])) ?_
        · simp only [List.length_cons] at hlength
          omega
        · cases body with
          | nil => simp
          | cons c body => exact hlast
      obtain ⟨octets, hoctets⟩ := Option.isSome_iff_exists.mp hrest
      simp [decodeChars, hw, hx, hy, hz, hoctets]

/-- The texts that are decoded. -/
theorem decodeChars_isSome_iff (cs : List Char) :
    (decodeChars cs).isSome = true ↔ Canonical cs := by
  constructor
  · intro h
    obtain ⟨octets, hoctets⟩ := Option.isSome_iff_exists.mp h
    exact canonical_of_decodeChars hoctets
  · rintro ⟨body, pads, rfl, hpads, hlength, hbody, hlast⟩
    rw [List.length_append, List.length_replicate] at hlength
    exact decodeChars_isSome_of_padded body pads hpads hlength hbody hlast

end Canonical
end SmppHerald.Base64
