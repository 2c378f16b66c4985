import SmppHerald.Library.FixedWidth
import SmppHerald.Library.Gregorian
import SmppHerald.SqlStorage

namespace SmppHerald.TimeTexts

open SmppHerald.FixedWidth
open SmppHerald.Gregorian
open SmppHerald.InMemoryStorage hiding isCancelled
open SmppHerald.Io
open SmppHerald.Json
open SmppHerald.SqlStorage
open SmppHerald.Time

section Texts

/-- The part of a second, with 0, 3, 6 or 9 digits. -/
def fraction (nanos : Nat) : List Char :=
  if nanos = 0 then []
  else if nanos % 1000000 = 0 then '.' :: decimal 3 (nanos / 1000000)
  else if nanos % 1000 = 0 then '.' :: decimal 6 (nanos / 1000)
  else '.' :: decimal 9 nanos

/-- An offset from UTC, which is in seconds, in whole minutes. -/
def offsetMinutes (offset : Int) : Nat := (offset.natAbs + 30) / 60

def offsetText (offset : Int) : List Char :=
  (if offset < 0 then '-' else '+') ::
    fixed [(2, [':']), (2, [])] [offsetMinutes offset / 60, offsetMinutes offset % 60]

/-- From the start of year 0 to the local time at an offset. -/
def localNanos (offset : Int) (time : Instant) : Int :=
  time + seconds offset + seconds (719528 * 86400)

/-- `2024-10-27T00:30:00` -/
def dateTimeText (count : Nat) : List Char :=
  fixed [(4, ['-']), (2, ['-']), (2, ['T']), (2, [':']), (2, [':']), (2, [])] (fields count)

/-- `DateTime::to_rfc3339` of a time at an offset. -/
def rfc3339 (offset : Int) (time : Instant) : String :=
  let nanos := (localNanos offset time).toNat
  String.ofList (dateTimeText (nanos / 10 ^ 9) ++ (fraction (nanos % 10 ^ 9) ++ offsetText offset))

example : rfc3339 7200 (seconds 1729989000 + 250000000) = "2024-10-27T02:30:00.250+02:00" := by
  decide

end Texts

section Order

/-- The order of the texts of two offsets. Positive ones come first. -/
def OffsetBefore (offset offset' : Int) : Prop :=
  0 ≤ offset ∧ offset' < 0 ∨
    (offset < 0 ↔ offset' < 0) ∧ offsetMinutes offset < offsetMinutes offset'

instance (offset offset' : Int) : Decidable (OffsetBefore offset offset') :=
  inferInstanceAs (Decidable (_ ∨ _ ∧ _))

theorem fits_offset {offset : Int} (h : offset.natAbs < 86400) :
    Fits [(2, [':']), (2, [])] [offsetMinutes offset / 60, offsetMinutes offset % 60] := by
  have hminutes : offsetMinutes offset ≤ 1440 := by
    rw [offsetMinutes]
    omega
  refine .cons ?_ (.cons ?_ .nil) <;> simp only <;> omega

theorem offsetText_lt {offset offset' : Int} (h : offset.natAbs < 86400)
    (h' : offset'.natAbs < 86400) (hbefore : OffsetBefore offset offset') :
    offsetText offset < offsetText offset' := by
  rw [offsetText, offsetText, List.cons_lt_cons_iff]
  rcases hbefore with ⟨hpositive, hnegative⟩ | ⟨hsign, hminutes⟩
  · rw [if_neg (by omega), if_pos hnegative]
    exact .inl (by decide)
  · refine .inr ⟨by simp only [hsign], fixed_lt (fits_offset h) (fits_offset h') ?_⟩
    simp only [List.cons_lt_cons_iff]
    omega

theorem offsetText_congr {offset offset' : Int} (hsign : offset < 0 ↔ offset' < 0)
    (hminutes : offsetMinutes offset = offsetMinutes offset') :
    offsetText offset = offsetText offset' := by
  rw [offsetText, offsetText, hminutes]
  simp only [hsign]

theorem offsetText_lt_iff {offset offset' : Int} (h : offset.natAbs < 86400)
    (h' : offset'.natAbs < 86400) :
    offsetText offset < offsetText offset' ↔ OffsetBefore offset offset' := by
  refine ⟨fun hlt => ?_, offsetText_lt h h'⟩
  by_contra hbefore
  by_cases hafter : OffsetBefore offset' offset
  · exact lt_asymm hlt (offsetText_lt h' h hafter)
  · have hsame : (offset < 0 ↔ offset' < 0) ∧ offsetMinutes offset = offsetMinutes offset' := by
      unfold OffsetBefore at hbefore hafter
      omega
    rw [offsetText_congr hsame.1 hsame.2] at hlt
    exact lt_irrefl _ hlt

/-- A sign stands below the point and below the digits. -/
theorem head_offsetText_lt (offset : Int) {limit : Char} (h : '-' < limit) :
    ∀ c ∈ (offsetText offset).head?, c < limit := by
  intro c hc
  obtain rfl := Option.some.inj hc
  split
  · exact h
  · exact lt_trans (by decide) h

/-- The digits of a fraction are all nine without three, six or no zeros at their end. -/
theorem fraction_eq {n : Nat} (hpos : n ≠ 0) (h : n < 10 ^ 9) :
    ∃ width zeros digits, width + zeros = 9 ∧ digits < 10 ^ width ∧ digits * 10 ^ zeros = n ∧
      fraction n = '.' :: decimal width digits := by
  rw [fraction, if_neg hpos]
  split_ifs with hmillis hmicros
  · exact ⟨3, 6, n / 1000000, rfl, by omega, by omega, rfl⟩
  · exact ⟨6, 3, n / 1000, rfl, by omega, by omega, rfl⟩
  · exact ⟨9, 0, n, rfl, h, Nat.mul_one n, rfl⟩

theorem fraction_lt {n m : Nat} (hm : m < 10 ^ 9) (h : n < m) (offset : Int) (rest : List Char) :
    fraction n ++ offsetText offset < fraction m ++ rest := by
  obtain ⟨width', zeros', digits', hwidth', hdigits', rfl, htext'⟩ :=
    fraction_eq (Nat.ne_zero_of_lt h) hm
  rw [htext', List.cons_append]
  by_cases hzero : n = 0
  · have hempty : fraction n = [] := if_pos hzero
    have hhead := head_offsetText_lt offset (by decide : '-' < '.')
    rw [hempty, List.nil_append]
    rw [offsetText] at hhead ⊢
    exact List.cons_lt_cons_iff.mpr (.inl (hhead _ rfl))
  · obtain ⟨width, zeros, digits, hwidth, hdigits, rfl, htext⟩ :=
      fraction_eq hzero (Nat.lt_trans h hm)
    rw [htext, List.cons_append, List.cons_lt_cons_iff]
    exact .inr ⟨rfl, trimmed_lt (hwidth.trans hwidth'.symm) hdigits hdigits' h
      (head_offsetText_lt offset (by decide)) rest⟩

/-- The local time is in the years that are written with four digits. -/
def InYears (offset : Int) (time : Instant) : Prop :=
  0 ≤ localNanos offset time ∧ localNanos offset time < yearStart 10000 * 86400 * 10 ^ 9

instance (offset : Int) (time : Instant) : Decidable (InYears offset time) :=
  inferInstanceAs (Decidable (_ ∧ _))

theorem fits_fields {count : Nat} (h : count < yearStart 10000 * 86400) :
    Fits [(4, ['-']), (2, ['-']), (2, ['T']), (2, [':']), (2, [':']), (2, [])] (fields count) := by
  have hyear : yearOf (count / 86400) < 10000 := yearOf_lt (by omega)
  have hmonth := monthOf_le (count / 86400)
  have hday := dayOfMonth_lt (count / 86400)
  refine .cons hyear (.cons ?_ (.cons ?_ (.cons ?_ (.cons ?_ (.cons ?_ .nil))))) <;> simp only <;>
    omega

theorem dateTimeText_lt {count count' : Nat} (h : count < count')
    (h' : count' < yearStart 10000 * 86400) : dateTimeText count < dateTimeText count' :=
  fixed_lt (fits_fields (Nat.lt_trans h h')) (fits_fields h') (fields_lt h)

theorem toList_rfc3339 (offset : Int) (time : Instant) :
    (rfc3339 offset time).toList =
      dateTimeText ((localNanos offset time).toNat / 10 ^ 9) ++
        (fraction ((localNanos offset time).toNat % 10 ^ 9) ++ offsetText offset) :=
  String.toList_ofList

theorem rfc3339_lt {offset offset' : Int} {time time' : Instant} (h : InYears offset time)
    (h' : InYears offset' time') (hlocal : localNanos offset time < localNanos offset' time') :
    rfc3339 offset time < rfc3339 offset' time' := by
  obtain ⟨hfrom, hto⟩ := h
  obtain ⟨hfrom', hto'⟩ := h'
  have hnanos : (localNanos offset time).toNat < (localNanos offset' time').toNat := by omega
  have hseconds' : (localNanos offset' time').toNat / 10 ^ 9 < yearStart 10000 * 86400 := by omega
  rw [String.lt_iff, toList_rfc3339, toList_rfc3339]
  rcases div_mod_lt hnanos with hseconds | ⟨hseconds, hfraction⟩
  · have hlength := length_fixed (fits_fields (Nat.lt_trans hseconds hseconds'))
      (fits_fields hseconds')
    exact (append_lt_append_iff hlength _ _).mpr (.inl (dateTimeText_lt hseconds hseconds'))
  · rw [hseconds, append_lt_append_iff rfl]
    exact .inr ⟨rfl, fraction_lt (Nat.mod_lt _ (by decide)) hfraction offset _⟩

/-- Texts are compared by local time, and where it is the same by the offsets. -/
theorem rfc3339_lt_iff {offset offset' : Int} {time time' : Instant} (hoffset : offset.natAbs < 86400)
    (hoffset' : offset'.natAbs < 86400) (h : InYears offset time) (h' : InYears offset' time') :
    rfc3339 offset time < rfc3339 offset' time' ↔
      localNanos offset time < localNanos offset' time' ∨
        localNanos offset time = localNanos offset' time' ∧ OffsetBefore offset offset' := by
  rcases lt_trichotomy (localNanos offset time) (localNanos offset' time') with hlt | heq | hgt
  · exact iff_of_true (rfc3339_lt h h' hlt) (.inl hlt)
  · have hsame : rfc3339 offset time < rfc3339 offset' time' ↔
        offsetText offset < offsetText offset' := by
      rw [String.lt_iff, toList_rfc3339, toList_rfc3339, heq, append_lt_append_iff rfl,
        append_lt_append_iff rfl]
      simp
    rw [hsame, offsetText_lt_iff hoffset hoffset', heq]
    simp
  · have hafter := rfc3339_lt h' h hgt
    refine iff_of_false (fun hbefore => ?_) (by omega)
    rw [String.lt_iff] at hafter hbefore
    exact lt_asymm hafter hbefore

end Order

section Zone

/-- The time zone of the server: its offset from UTC at each time, in seconds, less than a day. -/
structure Zone where
  offset : Instant → Int
  offset_lt : ∀ time, (offset time).natAbs < 86400

namespace Zone

variable (zone : Zone)

/-- What `to_rfc3339` writes for local times of the zone in the years 0 to 9999. -/
def Renders (calendar : Calendar) : Prop :=
  ∀ time, InYears (zone.offset time) time → calendar.toRfc3339 time = rfc3339 (zone.offset time) time

/-- How far the local clock is set back from one time to another. -/
def setBack (time time' : Instant) : Int := seconds (zone.offset time - zone.offset time')

/-- The clock is set back, or forward, by more than the time from one to the other, or by as much,
and then the texts of the offsets do not stand in the order of the times. -/
def Reordered (time time' : Instant) : Prop :=
  if time < time' then
    time' - time < zone.setBack time time' ∨
      time' - time = zone.setBack time time' ∧
        ¬ OffsetBefore (zone.offset time) (zone.offset time')
  else
    time - time' < zone.setBack time' time ∨
      time - time' = zone.setBack time' time ∧ OffsetBefore (zone.offset time) (zone.offset time')

instance (time time' : Instant) : Decidable (zone.Reordered time time') :=
  inferInstanceAs (Decidable (ite _ _ _))

end Zone

variable {zone : Zone} {calendar : Calendar} {time time' now : Instant}

theorem shifted_lt_iff (a b p q : Int) (tie : Prop) :
    ((a + p < b + q ∨ a + p = b + q ∧ tie) ↔ a < b) ↔
      ¬ if a < b then b - a < p - q ∨ b - a = p - q ∧ ¬ tie
        else a - b < q - p ∨ a - b = q - p ∧ tie := by
  by_cases htie : tie
  · simp only [htie, and_true, not_true_eq_false, and_false, or_false]
    split_ifs <;> omega
  · simp only [htie, and_false, or_false, not_false_eq_true, and_true]
    split_ifs <;> omega

theorem seconds_sub (n m : Int) : seconds (n - m) = seconds n - seconds m := by
  rw [seconds, seconds, seconds, Int.sub_mul]

/-- Where the clock change does not reorder two times, the local times are in their order. -/
theorem not_reordered_iff :
    ¬ zone.Reordered time time' ↔
      (time + seconds (zone.offset time) < time' + seconds (zone.offset time') ∨
        time + seconds (zone.offset time) = time' + seconds (zone.offset time') ∧
          OffsetBefore (zone.offset time) (zone.offset time') ↔ time < time') := by
  rw [Zone.Reordered, Zone.setBack, Zone.setBack, seconds_sub, seconds_sub]
  exact (shifted_lt_iff time time' _ _ _).symm

theorem not_offsetBefore_self (offset : Int) : ¬ OffsetBefore offset offset := by
  unfold OffsetBefore
  omega

theorem not_reordered_of_offset_eq (h : zone.offset time = zone.offset time') :
    ¬ zone.Reordered time time' := by
  rw [not_reordered_iff, h]
  simp only [not_offsetBefore_self, and_false, or_false]
  exact Int.add_lt_add_iff_right _

theorem toRfc3339_lt_iff (hrenders : zone.Renders calendar) (h : InYears (zone.offset time) time)
    (h' : InYears (zone.offset time') time') :
    (calendar.toRfc3339 time < calendar.toRfc3339 time' ↔ time < time') ↔
      ¬ zone.Reordered time time' := by
  rw [hrenders time h, hrenders time' h',
    rfc3339_lt_iff (zone.offset_lt time) (zone.offset_lt time') h h', not_reordered_iff, localNanos,
    localNanos, Int.add_lt_add_iff_right, Int.add_left_inj]

end Zone

section Rows

/-- A row whose times are texts of times. -/
structure TimedRow (calendar : Calendar) where
  row : Row
  schedule : Option Instant
  validity : Option Instant
  schedule_text : row.scheduleDeliveryTime = schedule.map calendar.toRfc3339
  validity_text : row.validityPeriod = validity.map calendar.toRfc3339

variable {calendar : Calendar} {zone : Zone} {now : Instant}

/-- The times of a row are in the years 0 to 9999. -/
def TimedRow.InYears (zone : Zone) (timed : TimedRow calendar) : Prop :=
  ∀ time, timed.schedule = some time ∨ timed.validity = some time →
    TimeTexts.InYears (zone.offset time) time

def TimedRow.rows (table : List (TimedRow calendar)) : List Row := table.map TimedRow.row

/-- The queries at a time go by the times of the rows: the delivery time is not after it, the validity
has ended before it. -/
structure GoesByTime (calendar : Calendar) (now : Instant) (table : List (TimedRow calendar)) :
    Prop where
  selects : ∀ timed ∈ table, timed.row ∈ (TimedRow.rows table).filter (Row.isDue calendar now) ↔
    ∀ time, timed.schedule = some time → time ≤ now
  deletes : ∀ timed ∈ table,
    timed.row ∉ (TimedRow.rows table).filter (fun row => !row.isExpired calendar now) ↔
      ∃ time, timed.validity = some time ∧ time < now

theorem isDue_iff (timed : TimedRow calendar) : timed.row.isDue calendar now = true ↔
    ∀ time, timed.schedule = some time → ¬ calendar.toRfc3339 now < calendar.toRfc3339 time := by
  rw [Row.isDue, timed.schedule_text]
  cases timed.schedule with
  | none => simp
  | some time =>
      simp only [Option.map_some, Option.all_some, decide_eq_true_eq, Option.some.injEq, forall_eq']
      exact String.not_lt.symm

theorem isExpired_iff (timed : TimedRow calendar) : timed.row.isExpired calendar now = true ↔
    ∃ time, timed.validity = some time ∧ calendar.toRfc3339 time < calendar.toRfc3339 now := by
  rw [Row.isExpired, timed.validity_text]
  cases timed.validity with
  | none => simp
  | some time =>
      simp only [Option.map_some, Option.any_some, decide_eq_true_eq, Option.some.injEq,
        exists_eq_left']

theorem dueByTime_iff (hrenders : zone.Renders calendar) (hnow : InYears (zone.offset now) now)
    {timed : TimedRow calendar} (htimed : timed.InYears zone) :
    (timed.row.isDue calendar now = true ↔ ∀ time, timed.schedule = some time → time ≤ now) ↔
      ∀ time, timed.schedule = some time → ¬ zone.Reordered now time := by
  rw [isDue_iff]
  cases hschedule : timed.schedule with
  | none => simp
  | some time =>
      have hyears := htimed time (.inl hschedule)
      simp only [Option.some.injEq, forall_eq']
      rw [← toRfc3339_lt_iff hrenders hnow hyears, ← not_lt, not_iff_not]

theorem expiredByTime_iff (hrenders : zone.Renders calendar) (hnow : InYears (zone.offset now) now)
    {timed : TimedRow calendar} (htimed : timed.InYears zone) :
    (timed.row.isExpired calendar now = true ↔ ∃ time, timed.validity = some time ∧ time < now) ↔
      ∀ time, timed.validity = some time → ¬ zone.Reordered time now := by
  rw [isExpired_iff]
  cases hvalidity : timed.validity with
  | none => simp
  | some time =>
      have hyears := htimed time (.inr hvalidity)
      simp only [Option.some.injEq, exists_eq_left', forall_eq']
      exact toRfc3339_lt_iff hrenders hyears hnow

theorem goesByTime_iff (hrenders : zone.Renders calendar)
    (hnow : InYears (zone.offset now) now) {table : List (TimedRow calendar)}
    (htable : ∀ timed ∈ table, timed.InYears zone) :
    GoesByTime calendar now table ↔ ∀ timed ∈ table,
      (∀ time, timed.schedule = some time → ¬ zone.Reordered now time) ∧
        ∀ time, timed.validity = some time → ¬ zone.Reordered time now := by
  have hrow : ∀ timed ∈ table, timed.row ∈ TimedRow.rows table := fun _ => List.mem_map_of_mem
  have hselected : ∀ timed ∈ table, timed.row ∈ (TimedRow.rows table).filter
      (Row.isDue calendar now) ↔ timed.row.isDue calendar now = true := fun timed htimed => by
    rw [List.mem_filter, and_iff_right (hrow timed htimed)]
  have hdeleted : ∀ timed ∈ table, timed.row ∉ (TimedRow.rows table).filter
      (fun row => !row.isExpired calendar now) ↔ timed.row.isExpired calendar now = true :=
    fun timed htimed => by
      rw [List.mem_filter, and_iff_right (hrow timed htimed)]
      simp
  constructor
  · intro hgoes timed htimed
    have hselects := hgoes.selects timed htimed
    have hdeletes := hgoes.deletes timed htimed
    rw [hselected timed htimed, dueByTime_iff hrenders hnow (htable timed htimed)] at hselects
    rw [hdeleted timed htimed, expiredByTime_iff hrenders hnow (htable timed htimed)] at hdeletes
    exact ⟨hselects, hdeletes⟩
  · intro hrows
    refine ⟨fun timed htimed => ?_, fun timed htimed => ?_⟩
    · rw [hselected timed htimed, dueByTime_iff hrenders hnow (htable timed htimed)]
      exact (hrows timed htimed).1
    · rw [hdeleted timed htimed, expiredByTime_iff hrenders hnow (htable timed htimed)]
      exact (hrows timed htimed).2

theorem exists_timed_newRow {defaultValidityPeriod : UInt32} {clock : SaveClock}
    {messageId : String} {message : Value} {id : Nat} {row : Row}
    (h : newRow calendar defaultValidityPeriod clock now messageId message id = .ok row) :
    ∃ timed : TimedRow calendar, timed.row = row := by
  unfold newRow at h
  simp only at h
  split at h
  · simp at h
  · obtain ⟨schedule, -, h⟩ := Outcome.bind_eq_ok_iff.mp h
    split at h
    · simp at h
    · obtain ⟨validity, -, h⟩ := Outcome.bind_eq_ok_iff.mp h
      obtain rfl := Outcome.ok.inj h
      exact ⟨⟨_, schedule, _, rfl, rfl⟩, rfl⟩

theorem exists_timed_apply {scheduleNow validityNow : Instant} {replaceSm : Value}
    {times : Option String × Option String} {rows : List Row} {update : Update}
    (htimes : replaceTimes calendar scheduleNow validityNow replaceSm = .ok times)
    (hupdate : update ∈ updates replaceSm times rows) (timed : TimedRow calendar) :
    ∃ after : TimedRow calendar, after.row = update.apply timed.row := by
  rw [SqlStorage.replaceTimes] at htimes
  split_ifs at htimes with hid hgiven
  obtain ⟨schedule, -, htimes⟩ := Outcome.bind_eq_ok_iff.mp htimes
  obtain ⟨validity, -, htimes⟩ := Outcome.bind_eq_ok_iff.mp htimes
  obtain rfl := Outcome.ok.inj htimes
  obtain ⟨selected, -, rfl⟩ := List.mem_map.mp hupdate
  unfold Update.apply
  split
  · refine ⟨⟨_, schedule.or timed.schedule, validity.or timed.validity, ?_, ?_⟩, rfl⟩
    · rw [timed.schedule_text, Option.map_or]
    · rw [timed.validity_text, Option.map_or]
  · exact ⟨timed, rfl⟩

end Rows

section Clocks

/-- The order of two texts is that of the times, and the queries go by the times, exactly where no
change of the clock reorders the two times. -/
theorem textOrder_iff {calendar : Calendar} {zone : Zone} (hrenders : zone.Renders calendar) :
    (∀ time time', InYears (zone.offset time) time → InYears (zone.offset time') time' →
      ((calendar.toRfc3339 time < calendar.toRfc3339 time' ↔ time < time') ↔
        ¬ zone.Reordered time time')) ∧
    ∀ now, InYears (zone.offset now) now → ∀ table : List (TimedRow calendar),
      (∀ timed ∈ table, timed.InYears zone) → (GoesByTime calendar now table ↔ ∀ timed ∈ table,
        (∀ time, timed.schedule = some time → ¬ zone.Reordered now time) ∧
          ∀ time, timed.validity = some time → ¬ zone.Reordered time now) :=
  ⟨fun _ _ => toRfc3339_lt_iff hrenders, fun _ hnow _ => goesByTime_iff hrenders hnow⟩

/-- Two hours ahead of UTC, and one hour from 2024-10-27T01:00:00Z on. -/
def summerTime : Zone where
  offset time := if time < seconds 1729990800 then 7200 else 3600
  offset_lt time := by
    split <;> decide

def summerCalendar : Calendar :=
  { relativeCalendar with toRfc3339 := fun time => rfc3339 (summerTime.offset time) time }

theorem summerTime_renders : summerTime.Renders summerCalendar := fun _ _ => rfl

/-- A row to deliver at a time that is valid for an hour from then. -/
def scheduledRow (time : Instant) : TimedRow summerCalendar where
  row := {
    id := 1
    serviceType := ""
    sourceAddrTon := 0
    sourceAddrNpi := 0
    sourceAddr := ""
    destAddrTon := 0
    destAddrNpi := 0
    destinationAddr := "49"
    messageId := "m"
    message := .object [("destination_addr", .string "49")]
    scheduleDeliveryTime := some (summerCalendar.toRfc3339 time)
    validityPeriod := some (summerCalendar.toRfc3339 (time + seconds 3600)) }
  schedule := some time
  validity := some (time + seconds 3600)
  schedule_text := rfl
  validity_text := rfl

theorem scheduledRow_inYears {time : Instant} (h : InYears (summerTime.offset time) time)
    (h' : InYears (summerTime.offset (time + seconds 3600)) (time + seconds 3600)) :
    (scheduledRow time).InYears summerTime := by
  rintro other (hother | hother) <;> obtain rfl := Option.some.inj hother
  · exact h
  · exact h'

/-- Before the clock is set back, a row of a quarter of an hour earlier is due and not expired. -/
theorem textOrder_summer :
    (summerCalendar.toRfc3339 (seconds 1729980000) < summerCalendar.toRfc3339 (seconds 1729980900) ↔
      seconds 1729980000 < seconds 1729980900) ∧
    GoesByTime summerCalendar (seconds 1729980900) [scheduledRow (seconds 1729980000)] := by
  refine ⟨((textOrder_iff summerTime_renders).1 _ _ (by decide) (by decide)).mpr
    (not_reordered_of_offset_eq rfl),
    ((textOrder_iff summerTime_renders).2 _ (by decide) _ ?_).mpr ?_⟩
  · intro timed htimed
    obtain rfl := List.mem_singleton.mp htimed
    exact scheduledRow_inYears (by decide) (by decide)
  · intro timed htimed
    obtain rfl := List.mem_singleton.mp htimed
    refine ⟨fun time htime => ?_, fun time htime => ?_⟩ <;> obtain rfl := Option.some.inj htime <;>
      exact not_reordered_of_offset_eq rfl

/-- 02:30 before the clock is set back, 02:10 after it, which is forty minutes later, has the smaller
text, so that a message for then is already selected. -/
theorem not_textOrder_setBack :
    ¬ (summerCalendar.toRfc3339 (seconds 1729989000) < summerCalendar.toRfc3339 (seconds 1729991400) ↔
        seconds 1729989000 < seconds 1729991400) ∧
      ¬ GoesByTime summerCalendar (seconds 1729989000) [scheduledRow (seconds 1729991400)] := by
  have hreordered : summerTime.Reordered (seconds 1729989000) (seconds 1729991400) := by decide
  constructor
  · rw [toRfc3339_lt_iff summerTime_renders (by decide) (by decide)]
    exact not_not_intro hreordered
  · rw [goesByTime_iff summerTime_renders (by decide)]
    · intro hrows
      exact (hrows _ (List.mem_singleton_self _)).1 _ rfl hreordered
    · intro timed htimed
      obtain rfl := List.mem_singleton.mp htimed
      exact scheduledRow_inYears (by decide) (by decide)

end Clocks

end SmppHerald.TimeTexts
