import Mathlib.Algebra.Group.Nat.Defs
import Mathlib.Data.Char
import Mathlib.Data.List.Lex
import Mathlib.Order.Monotone.Basic

namespace SmppHerald.FixedWidth

section Lexicographic

variable {α : Type} [LT α]

theorem append_lt_append_iff {front front' : List α} (h : front.length = front'.length)
    (rest rest' : List α) :
    front ++ rest < front' ++ rest' ↔ front < front' ∨ front = front' ∧ rest < rest' := by
  induction front generalizing front' with
  | nil =>
      obtain rfl := List.eq_nil_of_length_eq_zero h.symm
      simp
  | cons a front ih =>
      cases front' with
      | nil => simp at h
      | cons b front' =>
          have hlength : front.length = front'.length := by simpa using h
          rw [List.cons_append, List.cons_append, List.cons_lt_cons_iff, List.cons_lt_cons_iff,
            ih hlength, List.cons.injEq]
          tauto

theorem div_mod_lt {base n m : Nat} (h : n < m) :
    n / base < m / base ∨ n / base = m / base ∧ n % base < m % base := by
  have hn := Nat.div_add_mod n base
  have hm := Nat.div_add_mod m base
  have hle : n / base ≤ m / base := Nat.div_le_div_right (Nat.le_of_lt h)
  rcases Nat.lt_or_eq_of_le hle with hlt | heq
  · exact .inl hlt
  · right
    rw [heq] at hn
    exact ⟨heq, by omega⟩

end Lexicographic

section Decimal

/-- The last `width` digits, the highest first. -/
def decimal : Nat → Nat → List Char
  | 0, _ => []
  | width + 1, n => Nat.digitChar (n / 10 ^ width) :: decimal width (n % 10 ^ width)

@[simp] theorem length_decimal (width n : Nat) : (decimal width n).length = width := by
  induction width generalizing n with
  | zero => rfl
  | succ width ih => rw [decimal, List.length_cons, ih]

theorem digitChar_lt {a b : Nat} (hb : b < 10) (h : a < b) : Nat.digitChar a < Nat.digitChar b := by
  have hall : ∀ b < 10, ∀ a < b, Nat.digitChar a < Nat.digitChar b := by decide
  exact hall b hb a h

theorem zero_le_digitChar {a : Nat} (ha : a < 10) : '0' ≤ Nat.digitChar a := by
  have hall : ∀ a < 10, '0' ≤ Nat.digitChar a := by decide
  exact hall a ha

theorem div_lt_ten {width n : Nat} (h : n < 10 ^ (width + 1)) : n / 10 ^ width < 10 := by
  rw [Nat.div_lt_iff_lt_mul (Nat.pow_pos (by decide)), ← Nat.pow_succ']
  exact h

theorem decimal_lt {width n m : Nat} (hm : m < 10 ^ width) (h : n < m) :
    decimal width n < decimal width m := by
  induction width generalizing n m with
  | zero => omega
  | succ width ih =>
      rw [decimal, decimal, List.cons_lt_cons_iff]
      rcases div_mod_lt h with hdigit | ⟨hdigit, hrest⟩
      · exact .inl (digitChar_lt (div_lt_ten hm) hdigit)
      · exact .inr ⟨congrArg _ hdigit, ih (Nat.mod_lt _ (Nat.pow_pos (by decide))) hrest⟩

theorem utf8Size_of_mem_decimal {width n : Nat} (hn : n < 10 ^ width) {c : Char}
    (hc : c ∈ decimal width n) : c.utf8Size = 1 := by
  have hdigit : ∀ a < 10, (Nat.digitChar a).utf8Size = 1 := by decide
  induction width generalizing n with
  | zero => cases hc
  | succ width ih =>
      rcases List.mem_cons.mp hc with rfl | hrest
      · exact hdigit _ (div_lt_ten hn)
      · exact ih (Nat.mod_lt _ (Nat.pow_pos (by decide))) hrest

theorem decimal_add {high low n : Nat} (h : n < 10 ^ (high + low)) :
    decimal (high + low) n = decimal high (n / 10 ^ low) ++ decimal low (n % 10 ^ low) := by
  induction high generalizing n with
  | zero =>
      rw [Nat.zero_add] at h ⊢
      rw [decimal, List.nil_append, Nat.mod_eq_of_lt h]
  | succ high ih =>
      have hpow : 10 ^ (high + low) = 10 ^ low * 10 ^ high := by rw [Nat.pow_add, Nat.mul_comm]
      have hpos : 0 < 10 ^ (high + low) := Nat.pow_pos (by decide)
      have hrest := ih (Nat.mod_lt n hpos)
      have hdigit : n / 10 ^ (high + low) = n / 10 ^ low / 10 ^ high := by
        rw [hpow, Nat.div_div_eq_div_mul]
      have hhigh : n % 10 ^ (high + low) / 10 ^ low = n / 10 ^ low % 10 ^ high := by
        rw [hpow, Nat.mod_mul_right_div_self]
      have hlow : n % 10 ^ (high + low) % 10 ^ low = n % 10 ^ low :=
        Nat.mod_mod_of_dvd n (Nat.pow_dvd_pow 10 (Nat.le_add_left low high))
      rw [Nat.add_right_comm, decimal, hrest, hdigit, hhigh, hlow, decimal, List.cons_append]

/-- Texts of two numbers of the same number of digits, each without some of the zeros at its end. What
comes behind the smaller one starts below the digits. -/
theorem trimmed_lt {width zeros width' zeros' n m : Nat} (hdigits : width + zeros = width' + zeros')
    (hn : n < 10 ^ width) (hm : m < 10 ^ width') (h : n * 10 ^ zeros < m * 10 ^ zeros')
    {rest : List Char} (hrest : ∀ c ∈ rest.head?, c < '0') (rest' : List Char) :
    decimal width n ++ rest < decimal width' m ++ rest' := by
  rcases Nat.le_total width width' with hle | hle
  · obtain ⟨more, rfl⟩ := Nat.exists_eq_add_of_le hle
    obtain rfl : zeros = more + zeros' := by omega
    have hscaled : n * 10 ^ more < m := by
      rw [Nat.pow_add, ← Nat.mul_assoc] at h
      exact Nat.lt_of_mul_lt_mul_right h
    have hpos : 0 < 10 ^ more := Nat.pow_pos (by decide)
    have hfront : n ≤ m / 10 ^ more := (Nat.le_div_iff_mul_le hpos).mpr (Nat.le_of_lt hscaled)
    rw [decimal_add hm, List.append_assoc, append_lt_append_iff (by simp)]
    rcases Nat.lt_or_eq_of_le hfront with hlt | heq
    · have hfits : m / 10 ^ more < 10 ^ width := by
        rw [Nat.div_lt_iff_lt_mul hpos, ← Nat.pow_add]
        exact hm
      exact .inl (decimal_lt hfits hlt)
    · -- The fronts are equal, so the longer text has a digit where the other has ended.
      refine .inr ⟨congrArg _ heq, ?_⟩
      cases more with
      | zero => simp [heq] at hscaled
      | succ more =>
          have hdigit := zero_le_digitChar (div_lt_ten (Nat.mod_lt m hpos))
          rw [decimal, List.cons_append]
          cases rest with
          | nil => exact List.nil_lt_cons _ _
          | cons c rest =>
              rw [List.cons_lt_cons_iff]
              exact .inl (lt_of_lt_of_le (hrest c rfl) hdigit)
  · obtain ⟨more, rfl⟩ := Nat.exists_eq_add_of_le hle
    obtain rfl : zeros' = more + zeros := by omega
    have hscaled : n < m * 10 ^ more := by
      rw [Nat.pow_add, ← Nat.mul_assoc] at h
      exact Nat.lt_of_mul_lt_mul_right h
    have hfront : n / 10 ^ more < m := by
      rw [Nat.div_lt_iff_lt_mul (Nat.pow_pos (by decide))]
      exact hscaled
    rw [decimal_add hn, List.append_assoc, append_lt_append_iff (by simp)]
    exact .inl (decimal_lt hm hfront)

end Decimal

section Layout

/-- Numbers of fixed width, with a text behind each. -/
def fixed : List (Nat × List Char) → List Nat → List Char
  | (width, separator) :: layout, n :: ns => decimal width n ++ (separator ++ fixed layout ns)
  | _, _ => []

/-- Each number has at most its width. -/
def Fits (layout : List (Nat × List Char)) (ns : List Nat) : Prop :=
  List.Forall₂ (fun field n => n < 10 ^ field.1) layout ns

variable {layout : List (Nat × List Char)} {ns ms : List Nat}

theorem length_fixed (hns : Fits layout ns) (hms : Fits layout ms) :
    (fixed layout ns).length = (fixed layout ms).length := by
  induction hns generalizing ms with
  | nil =>
      cases hms
      rfl
  | cons hn hns ih =>
      cases hms with
      | cons hm hms => simp [fixed, ih hms]

theorem fixed_lt (hns : Fits layout ns) (hms : Fits layout ms) (h : ns < ms) :
    fixed layout ns < fixed layout ms := by
  induction hns generalizing ms with
  | nil =>
      cases hms
      exact absurd h (lt_irrefl _)
  | cons hn hns ih =>
      cases hms with
      | cons hm hms =>
          rw [fixed, fixed, append_lt_append_iff (by simp), append_lt_append_iff rfl]
          rcases List.cons_lt_cons_iff.mp h with hlt | ⟨rfl, hrest⟩
          · exact .inl (decimal_lt hm hlt)
          · exact .inr ⟨rfl, .inr ⟨rfl, ih hms hrest⟩⟩

end Layout

section Digits

theorem mod_eq_of_digits {base width n m : Nat}
    (h : ∀ i < width, n / base ^ i % base = m / base ^ i % base) :
    n % base ^ width = m % base ^ width := by
  induction width with
  | zero => simp [Nat.mod_one]
  | succ width ih =>
      rw [Nat.mod_pow_succ, Nat.mod_pow_succ, h width (Nat.lt_succ_self width),
        ih fun i hi => h i (Nat.lt_succ_of_lt hi)]

end Digits

end SmppHerald.FixedWidth
