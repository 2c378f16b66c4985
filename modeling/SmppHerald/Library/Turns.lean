import Mathlib.Data.Int.CardIntervalMod

namespace SmppHerald.Turns

section Residues

/-- The numbers that a shift brings to one residue are those of another. -/
theorem shift_residue_iff {n : Nat} (hn : 0 < n) (start v j : Nat) :
    start + j ≡ v [MOD n] ↔ j ≡ v + start * (n - 1) [MOD n] := by
  have hback : start + (v + start * (n - 1)) ≡ v [MOD n] := by
    obtain ⟨m, rfl⟩ : ∃ m, n = m + 1 := ⟨n - 1, by omega⟩
    have hsum : start + (v + start * (m + 1 - 1)) = v + (m + 1) * start := by
      rw [Nat.add_sub_cancel]
      ring
    rw [hsum]
    exact Nat.add_mul_mod_self_left v (m + 1) start
  constructor
  · intro h
    exact Nat.ModEq.add_left_cancel' start (h.trans hback.symm)
  · intro h
    exact (Nat.ModEq.add_left start h).trans hback

theorem count_residue_bounds {n : Nat} (hn : 0 < n) (start v k : Nat) :
    k / n ≤ Nat.count (fun j => start + j ≡ v [MOD n]) k ∧
      Nat.count (fun j => start + j ≡ v [MOD n]) k ≤ k / n + 1 := by
  have hcount : Nat.count (fun j => start + j ≡ v [MOD n]) k =
      Nat.count (· ≡ v + start * (n - 1) [MOD n]) k := by
    congr 1
    funext j
    exact propext (shift_residue_iff hn start v j)
  rw [hcount, Nat.count_modEq_card k hn]
  split <;> omega

end Residues

section Fairness

/-- Whose turn it is after `j` others, by a counter that wraps at `period`. -/
def turn (period n start j : Nat) : Nat := (start + j) % period % n

/-- How many of `k` turns somebody gets. -/
def taken (period n start k v : Nat) : Nat := Nat.count (fun j => turn period n start j = v) k

/-- However long the turns are taken, nobody is two ahead of another. -/
def Fair (period n : Nat) : Prop :=
  ∀ start k, ∀ v < n, ∀ w < n, taken period n start k v ≤ taken period n start k w + 1

variable {period n : Nat}

theorem turn_succ (period n start j : Nat) : turn period n start (j + 1) =
    turn period n (start + 1) j := by
  rw [turn, turn, Nat.add_right_comm, Nat.add_assoc]

theorem taken_succ (period n start k v : Nat) : taken period n start (k + 1) v =
    taken period n (start + 1) k v + if start % period % n = v then 1 else 0 := by
  rw [taken, Nat.count_succ']
  simp only [turn_succ]
  rfl

theorem taken_mod (period n start k v : Nat) :
    taken period n (start % period) k v = taken period n start k v := by
  have hturn : turn period n (start % period) = turn period n start := by
    funext j
    rw [turn, turn, Nat.mod_add_mod]
  rw [taken, taken, hturn]

theorem fair_of_dvd (hn : 0 < n) (h : n ∣ period) : Fair period n := by
  intro start k v hv w hw
  have hbounds : ∀ u < n, k / n ≤ taken period n start k u ∧
      taken period n start k u ≤ k / n + 1 := by
    intro u hu
    have hturn : (fun j => turn period n start j = u) = fun j => start + j ≡ u [MOD n] := by
      funext j
      rw [turn, Nat.mod_mod_of_dvd _ h, Nat.ModEq, Nat.mod_eq_of_lt hu]
    have hcount : taken period n start k u = Nat.count (fun j => start + j ≡ u [MOD n]) k := by
      rw [taken]
      congr 1
    rw [hcount]
    exact count_residue_bounds hn start u k
  have hfirst := (hbounds v hv).2
  have hsecond := (hbounds w hw).1
  omega

/-- Where the last round is cut off by the wrapping, those at its front are two ahead of the one
after them. -/
theorem not_fair_of_not_dvd (hn : 0 < n) (h : ¬ n ∣ period) :
    ¬ Fair period n := by
  intro hfair
  have hpositive : 0 < period % n := by
    apply Nat.pos_of_ne_zero
    exact fun hzero => h (Nat.dvd_of_mod_eq_zero hzero)
  have hless : period % n < n := Nat.mod_lt _ hn
  have hsplit : n * (period / n) + period % n = period := Nat.div_add_mod period n
  have hstart : period - period % n = n * (period / n) := by omega
  have hbefore : ∀ j < period % n, turn period n (period - period % n) j = j := by
    intro j hj
    have hwithin : period - period % n + j < period := by omega
    rw [turn, Nat.mod_eq_of_lt hwithin, hstart, Nat.mul_add_mod, Nat.mod_eq_of_lt (hj.trans hless)]
  have hafter : turn period n (period - period % n) (period % n) = 0 := by
    rw [turn, hstart, hsplit, Nat.mod_self, Nat.zero_mod]
  have hfront : 1 ≤ taken period n (period - period % n) (period % n) 0 := by
    have hmono := Nat.count_monotone (turn period n (period - period % n) · = 0) hpositive
    rw [Nat.count_one, if_pos (hbefore 0 hpositive)] at hmono
    exact hmono
  have htwo : 2 ≤ taken period n (period - period % n) (period % n + 1) 0 := by
    rw [taken, Nat.count_succ, if_pos hafter]
    exact Nat.succ_le_succ hfront
  have hnone : taken period n (period - period % n) (period % n + 1) (period % n) = 0 := by
    rw [taken, Nat.count_iff_forall_not]
    intro j hj
    rcases Nat.lt_succ_iff_lt_or_eq.mp hj with hlt | rfl
    · rw [hbefore j hlt]
      omega
    · rw [hafter]
      omega
  have hcompare := hfair (period - period % n) (period % n + 1) 0 hn (period % n) hless
  omega

/-- Turns by the remainder of a counter are fair exactly when its rounds end where it wraps. -/
theorem fair_iff (hn : 0 < n) : Fair period n ↔ n ∣ period := by
  constructor
  · intro hfair
    by_contra h
    exact not_fair_of_not_dvd hn h hfair
  · exact fair_of_dvd hn

end Fairness

end SmppHerald.Turns
