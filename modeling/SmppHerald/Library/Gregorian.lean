import Mathlib.Data.List.Lex
import Mathlib.Data.Nat.Find
import Mathlib.Order.Monotone.Basic

namespace SmppHerald.Gregorian

section Spans

/-- The last span that begins by `n`. Span `i` begins at `start i` and ends where the next one
begins. -/
def spanOf (start : Nat → Nat) (bound n : Nat) : Nat :=
  Nat.findGreatest (fun i => start i ≤ n) bound

variable {start : Nat → Nat} {bound n m : Nat}

theorem start_spanOf_le (hzero : start 0 = 0) : start (spanOf start bound n) ≤ n := by
  have hfirst : start 0 ≤ n := by
    rw [hzero]
    exact Nat.zero_le n
  exact @Nat.findGreatest_spec 0 (fun i => start i ≤ n) _ bound (Nat.zero_le bound) hfirst

theorem lt_start_spanOf (h : n < start (bound + 1)) : n < start (spanOf start bound n + 1) := by
  have hbound : spanOf start bound n ≤ bound := Nat.findGreatest_le bound
  rcases Nat.lt_or_eq_of_le hbound with hlt | heq
  · have hnext := Nat.findGreatest_is_greatest (Nat.lt_succ_self (spanOf start bound n)) hlt
    exact Nat.lt_of_not_le hnext
  · rw [heq]
    exact h

/-- A number in a later span is greater; in one span the distances from its start decide. -/
theorem span_lt (hmono : Monotone start) {i j : Nat} (hi : start i ≤ n) (hj : m < start (j + 1))
    (h : n < m) : i < j ∨ i = j ∧ n - start i < m - start j := by
  rcases Nat.lt_trichotomy i j with hlt | rfl | hgt
  · exact .inl hlt
  · exact .inr ⟨rfl, by omega⟩
  · have hstart : start (j + 1) ≤ start i := hmono hgt
    omega

end Spans

section Years

def isLeap (year : Nat) : Bool := year % 4 == 0 && (year % 100 != 0 || year % 400 == 0)

/-- The days of a month, where January is 0. -/
def monthDays (leap : Bool) (month : Nat) : Nat :=
  if month = 1 then if leap then 29 else 28
  else if month = 3 ∨ month = 5 ∨ month = 8 ∨ month = 10 then 30
  else 31

/-- The days of a year before a month. -/
def monthStart (leap : Bool) : Nat → Nat
  | 0 => 0
  | month + 1 => monthStart leap month + monthDays leap month

/-- The days before a year. -/
def yearStart (year : Nat) : Nat :=
  365 * year + (year + 3) / 4 + (year + 399) / 400 - (year + 99) / 100

theorem yearStart_succ (year : Nat) :
    yearStart (year + 1) = yearStart year + monthStart (isLeap year) 12 := by
  have hlength : monthStart (isLeap year) 12 = if isLeap year = true then 366 else 365 := by
    cases isLeap year <;> rfl
  have hfour : (year + 1 + 3) / 4 = (year + 3) / 4 + if year % 4 = 0 then 1 else 0 := by
    split <;> omega
  have hcentury : (year + 1 + 99) / 100 = (year + 99) / 100 + if year % 100 = 0 then 1 else 0 := by
    split <;> omega
  have hera : (year + 1 + 399) / 400 = (year + 399) / 400 + if year % 400 = 0 then 1 else 0 := by
    split <;> omega
  have hle : (year + 99) / 100 ≤ 365 * year := by omega
  have hdivides : (year % 400 = 0 → year % 100 = 0) ∧ (year % 100 = 0 → year % 4 = 0) := by omega
  rw [hlength, yearStart, yearStart, hfour, hcentury, hera, isLeap]
  generalize (year + 3) / 4 = fours, (year + 99) / 100 = centuries, (year + 399) / 400 = eras at hle ⊢
  simp only [Bool.and_eq_true, Bool.or_eq_true, beq_iff_eq, bne_iff_ne, ne_eq]
  obtain ⟨hcenturies, hfours⟩ := hdivides
  split_ifs <;> omega

theorem monotone_monthStart (leap : Bool) : Monotone (monthStart leap) :=
  monotone_nat_of_le_succ fun _ => Nat.le_add_right _ _

theorem monotone_yearStart : Monotone yearStart := by
  refine monotone_nat_of_le_succ fun year => ?_
  rw [yearStart_succ]
  exact Nat.le_add_right _ _

end Years

section Fields

/-- The year of a day, where day 0 is the first of year 0. -/
def yearOf (day : Nat) : Nat := spanOf yearStart (day / 365) day

def dayOfYear (day : Nat) : Nat := day - yearStart (yearOf day)

/-- The month of a day in its year, where January is 0. -/
def monthOf (day : Nat) : Nat := spanOf (monthStart (isLeap (yearOf day))) 11 (dayOfYear day)

def dayOfMonth (day : Nat) : Nat :=
  dayOfYear day - monthStart (isLeap (yearOf day)) (monthOf day)

/-- Year, month, day, hour, minute and second of a count of seconds from the start of year 0. -/
def fields (seconds : Nat) : List Nat :=
  [yearOf (seconds / 86400), monthOf (seconds / 86400) + 1, dayOfMonth (seconds / 86400) + 1,
    seconds % 86400 / 3600, seconds % 86400 % 3600 / 60, seconds % 86400 % 3600 % 60]

theorem yearStart_yearOf_le (day : Nat) : yearStart (yearOf day) ≤ day := start_spanOf_le rfl

theorem lt_yearStart_yearOf (day : Nat) : day < yearStart (yearOf day + 1) := by
  refine lt_start_spanOf ?_
  rw [yearStart]
  omega

theorem dayOfYear_lt (day : Nat) : dayOfYear day < monthStart (isLeap (yearOf day)) 12 := by
  have hle := yearStart_yearOf_le day
  have hlt := lt_yearStart_yearOf day
  rw [yearStart_succ] at hlt
  rw [dayOfYear]
  omega

theorem monthStart_monthOf_le (day : Nat) :
    monthStart (isLeap (yearOf day)) (monthOf day) ≤ dayOfYear day := start_spanOf_le rfl

theorem dayOfYear_lt_monthStart (day : Nat) :
    dayOfYear day < monthStart (isLeap (yearOf day)) (monthOf day + 1) :=
  lt_start_spanOf (dayOfYear_lt day)

theorem monthOf_le (day : Nat) : monthOf day ≤ 11 := by
  rw [monthOf, spanOf]
  exact Nat.findGreatest_le 11

theorem dayOfMonth_lt (day : Nat) : dayOfMonth day < 31 := by
  have hle := monthStart_monthOf_le day
  have hlt := dayOfYear_lt_monthStart day
  have hdays : monthDays (isLeap (yearOf day)) (monthOf day) ≤ 31 := by
    unfold monthDays
    split_ifs <;> decide
  rw [monthStart] at hlt
  rw [dayOfMonth]
  omega

theorem yearOf_lt {year day : Nat} (h : day < yearStart year) : yearOf day < year := by
  by_contra hle
  have hstart := monotone_yearStart (Nat.le_of_not_lt hle)
  have hday := yearStart_yearOf_le day
  omega

theorem date_lt {day day' : Nat} (h : day < day') :
    yearOf day < yearOf day' ∨ yearOf day = yearOf day' ∧
      (monthOf day < monthOf day' ∨ monthOf day = monthOf day' ∧
        dayOfMonth day < dayOfMonth day') := by
  rcases span_lt monotone_yearStart (yearStart_yearOf_le day) (lt_yearStart_yearOf day') h with
    hyear | ⟨hyear, hrest⟩
  · exact .inl hyear
  · have hmonth := monthStart_monthOf_le day
    have hmonth' := dayOfYear_lt_monthStart day'
    rw [hyear] at hmonth
    rcases span_lt (monotone_monthStart _) hmonth hmonth' hrest with hlt | ⟨heq, hday⟩
    · exact .inr ⟨hyear, .inl hlt⟩
    · refine .inr ⟨hyear, .inr ⟨heq, ?_⟩⟩
      rw [dayOfMonth, dayOfMonth, hyear]
      exact hday

theorem clock_lt {clock clock' : Nat} (h : clock < clock') :
    clock / 3600 < clock' / 3600 ∨ clock / 3600 = clock' / 3600 ∧
      (clock % 3600 / 60 < clock' % 3600 / 60 ∨ clock % 3600 / 60 = clock' % 3600 / 60 ∧
        clock % 3600 % 60 < clock' % 3600 % 60) := by
  omega

theorem fields_lt {seconds seconds' : Nat} (h : seconds < seconds') :
    fields seconds < fields seconds' := by
  simp only [fields, List.cons_lt_cons_iff, Nat.add_lt_add_iff_right, Nat.add_right_cancel_iff]
  have hsplit : seconds / 86400 < seconds' / 86400 ∨
      seconds / 86400 = seconds' / 86400 ∧ seconds % 86400 < seconds' % 86400 := by omega
  rcases hsplit with hday | ⟨hday, hclock⟩
  · have hdate := date_lt hday
    tauto
  · have hfields := clock_lt hclock
    rw [hday]
    tauto

end Fields

section Counting

/-- A date and a time of day, where January is month 1. -/
structure Valid (year month day hour minute second : Nat) : Prop where
  month_pos : 1 ≤ month
  month_le : month ≤ 12
  day_pos : 1 ≤ day
  day_le : day ≤ monthDays (isLeap year) (month - 1)
  hour_lt : hour < 24
  minute_lt : minute < 60
  second_lt : second < 60

instance (year month day hour minute second : Nat) :
    Decidable (Valid year month day hour minute second) :=
  decidable_of_iff (1 ≤ month ∧ month ≤ 12 ∧ 1 ≤ day ∧ day ≤ monthDays (isLeap year) (month - 1) ∧
      hour < 24 ∧ minute < 60 ∧ second < 60)
    ⟨fun ⟨h1, h2, h3, h4, h5, h6, h7⟩ => ⟨h1, h2, h3, h4, h5, h6, h7⟩,
      fun ⟨h1, h2, h3, h4, h5, h6, h7⟩ => ⟨h1, h2, h3, h4, h5, h6, h7⟩⟩

/-- The seconds from the start of year 0 to a date and a time of day. -/
def secondsOf (year month day hour minute second : Nat) : Nat :=
  (yearStart year + (monthStart (isLeap year) (month - 1) + (day - 1))) * 86400 +
    (hour * 3600 + minute * 60 + second)

theorem spanOf_eq {start : Nat → Nat} (hmono : Monotone start) {bound n i : Nat} (hi : i ≤ bound)
    (hle : start i ≤ n) (hlt : n < start (i + 1)) : spanOf start bound n = i := by
  refine Nat.le_antisymm ?_ (Nat.le_findGreatest hi hle)
  by_contra hnext
  have hspan : start (spanOf start bound n) ≤ n :=
    @Nat.findGreatest_spec i (fun i => start i ≤ n) _ bound hi hle
  have hstart := hmono (Nat.lt_of_not_le hnext)
  exact absurd hlt (Nat.not_lt.mpr (hstart.trans hspan))

theorem le_yearStart (year : Nat) : 365 * year ≤ yearStart year := by
  rw [yearStart]
  omega

theorem fields_secondsOf {year month day hour minute second : Nat}
    (h : Valid year month day hour minute second) :
    fields (secondsOf year month day hour minute second) =
      [year, month, day, hour, minute, second] := by
  obtain ⟨hmonthPos, hmonth, hdayPos, hday, hhour, hminute, hsecond⟩ := h
  let days := yearStart year + (monthStart (isLeap year) (month - 1) + (day - 1))
  have hdays : secondsOf year month day hour minute second / 86400 = days := by
    rw [secondsOf]
    omega
  have hclock : secondsOf year month day hour minute second % 86400 =
      hour * 3600 + minute * 60 + second := by
    rw [secondsOf]
    omega
  have hinMonth : monthStart (isLeap year) (month - 1) + (day - 1) <
      monthStart (isLeap year) (month - 1 + 1) := by
    rw [monthStart]
    omega
  have hinYear : monthStart (isLeap year) (month - 1 + 1) ≤ monthStart (isLeap year) 12 :=
    monotone_monthStart _ (by omega)
  have hyear : yearOf days = year := by
    have hbound := le_yearStart year
    refine spanOf_eq monotone_yearStart ?_ (Nat.le_add_right _ _) ?_
    · rw [Nat.le_div_iff_mul_le (by decide)]
      omega
    · rw [yearStart_succ]
      omega
  have hdayOfYear : dayOfYear days = monthStart (isLeap year) (month - 1) + (day - 1) := by
    rw [dayOfYear, hyear]
    exact Nat.add_sub_cancel_left _ _
  have hmonthOf : monthOf days = month - 1 := by
    rw [monthOf, hyear, hdayOfYear]
    exact spanOf_eq (monotone_monthStart _) (by omega) (Nat.le_add_right _ _) hinMonth
  have hdayOfMonth : dayOfMonth days = day - 1 := by
    rw [dayOfMonth, hyear, hdayOfYear, hmonthOf]
    exact Nat.add_sub_cancel_left _ _
  rw [fields, hdays, hclock, hyear, hmonthOf, hdayOfMonth]
  simp only [List.cons.injEq, and_true, true_and]
  omega

theorem fields_injective : Function.Injective fields := by
  intro count count' h
  rcases Nat.lt_trichotomy count count' with hlt | heq | hgt
  · exact absurd (fields_lt hlt) (h ▸ lt_irrefl _)
  · exact heq
  · exact absurd (fields_lt hgt) (h ▸ lt_irrefl _)

end Counting

end SmppHerald.Gregorian
