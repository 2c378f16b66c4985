import SmppHerald.TimeTexts

namespace SmppHerald.AbsoluteTimes

open SmppHerald.FixedWidth
open SmppHerald.Gregorian
open SmppHerald.Io
open SmppHerald.Time
open SmppHerald.TimeTexts
open SmppHerald.Utf8

section Strings

/-- `%y` is a year from 1970 to 2069. -/
def fullYear (year : Nat) : Nat := if year < 70 then 2000 + year else 1900 + year

/-- The time at which a clock of UTC shows a date and a time of day. -/
def naiveOf (year month day hour minute second : Nat) : Int :=
  seconds (secondsOf year month day hour minute second - 719528 * 86400)

/-- The fifteen digits of a time string, as numbers of one or two digits. -/
structure TimeFields where
  year : Fin 100
  month : Fin 100
  day : Fin 100
  hour : Fin 100
  minute : Fin 100
  second : Fin 100
  tenths : Fin 10
  quarters : Fin 100

namespace TimeFields

variable (f : TimeFields)

/-- `YYMMDDhhmmss` -/
def dateChars : List Char :=
  decimal 2 f.year ++ (decimal 2 f.month ++ (decimal 2 f.day ++ (decimal 2 f.hour ++
    (decimal 2 f.minute ++ decimal 2 f.second))))

def dateText : String := String.ofList f.dateChars

def chars (p : Char) : List Char :=
  f.dateChars ++ (decimal 1 f.tenths ++ (decimal 2 f.quarters ++ [p]))

def text (p : Char) : String := String.ofList (f.chars p)

def Valid : Prop := Gregorian.Valid (fullYear f.year) f.month f.day f.hour f.minute f.second

instance : Decidable f.Valid := inferInstanceAs (Decidable (Gregorian.Valid _ _ _ _ _ _))

def naive : Int := naiveOf (fullYear f.year) f.month f.day f.hour f.minute f.second

/-- The offset from UTC, in seconds. -/
def offset (ahead : Bool) : Int :=
  if ahead then (f.quarters : Nat) * 900 else -((f.quarters : Nat) * 900)

/-- The time at which the clock at the offset shows the date and the time of day and the tenths. -/
def Denotes (ahead : Bool) (time : Instant) : Prop :=
  0 ≤ localNanos (f.offset ahead) time ∧
    fields ((localNanos (f.offset ahead) time).toNat / 10 ^ 9) =
        [fullYear f.year, f.month, f.day, f.hour, f.minute, f.second] ∧
      (localNanos (f.offset ahead) time).toNat % 10 ^ 9 = f.tenths * 10 ^ 8

/-- The same as a count. -/
def instant (ahead : Bool) : Instant :=
  f.naive - seconds (f.offset ahead) + (f.tenths : Nat) * 10 ^ 8

end TimeFields

def sign (ahead : Bool) : Char := if ahead then '+' else '-'

/-- Fifteen digits and `R`, or the digits of a date and a time of day and a sign. -/
def WellFormed (s : String) : Prop :=
  ∃ f : TimeFields, s = f.text 'R' ∨ f.Valid ∧ ∃ ahead, s = f.text (sign ahead)

/-- `NaiveDateTime::parse_from_str` with `%y%m%d%H%M%S` reads the digits of a date and a time of
day. -/
def ReadsDates (calendar : Calendar) : Prop :=
  ∀ f : TimeFields, f.Valid → calendar.parseNaive f.dateText = some f.naive

end Strings

section Parsing

variable {calendar : Calendar} {now : Instant} {f : TimeFields} {s : String}

theorem parseUnsigned_decimal : ∀ n : Fin 100, parseUnsigned (decimal 2 n) = some n.val := by
  decide +kernel

theorem parseSigned_decimal_one : ∀ n : Fin 10, parseSigned (decimal 1 n) = some n.val := by decide

theorem parseSigned_decimal_two : ∀ n : Fin 100, parseSigned (decimal 2 n) = some n.val := by
  decide +kernel

theorem ascii_chars {p : Char} (hp : p.utf8Size = 1) : ∀ c ∈ f.chars p, c.utf8Size = 1 := by
  intro c hc
  simp only [TimeFields.chars, TimeFields.dateChars, List.mem_append, List.mem_singleton] at hc
  rcases hc with (hc | hc | hc | hc | hc | hc) | hc | hc | rfl
  · exact utf8Size_of_mem_decimal f.year.isLt hc
  · exact utf8Size_of_mem_decimal f.month.isLt hc
  · exact utf8Size_of_mem_decimal f.day.isLt hc
  · exact utf8Size_of_mem_decimal f.hour.isLt hc
  · exact utf8Size_of_mem_decimal f.minute.isLt hc
  · exact utf8Size_of_mem_decimal f.second.isLt hc
  · exact utf8Size_of_mem_decimal f.tenths.isLt hc
  · exact utf8Size_of_mem_decimal f.quarters.isLt hc
  · exact hp

theorem length_chars (p : Char) : (f.chars p).length = 16 := rfl

theorem length_bytes_text {p : Char} (hp : p.utf8Size = 1) : (bytes (f.text p)).length = 16 := by
  rw [TimeFields.text, bytes_ofList, length_charBytes_ascii (ascii_chars hp), length_chars]

theorem slice_text {p : Char} (hp : p.utf8Size = 1) {i j : Nat} (hij : i ≤ j) (hj : j ≤ 16) :
    slice (f.text p) i j = some (((f.chars p).drop i).take (j - i)) :=
  slice_ascii (ascii_chars hp) hij hj

theorem slice_last {p : Char} (hp : p.utf8Size = 1) : slice (f.text p) 15 16 = some [p] :=
  slice_text hp (by decide) (by decide)

theorem slice_date {p : Char} (hp : p.utf8Size = 1) :
    slice (f.text p) 0 12 = some f.dateChars :=
  slice_text hp (by decide) (by decide)

theorem slice_quarters {p : Char} (hp : p.utf8Size = 1) :
    slice (f.text p) 13 15 = some (decimal 2 f.quarters) :=
  slice_text hp (by decide) (by decide)

theorem slice_tenths {p : Char} (hp : p.utf8Size = 1) :
    slice (f.text p) 12 13 = some (decimal 1 f.tenths) :=
  slice_text hp (by decide) (by decide)

theorem utf8Size_sign (ahead : Bool) : (sign ahead).utf8Size = 1 := by
  cases ahead <;> decide

theorem exists_of_slice_last {cs : List Char} (h : slice s 15 16 = some cs) : ∃ p, cs = [p] := by
  obtain ⟨rest, -, hcut⟩ := Option.bind_eq_some_iff.mp h
  cases rest with
  | nil => cases hcut
  | cons p rest =>
      have hpos := p.utf8Size_pos
      rw [cutChars] at hcut
      split at hcut
      · rename_i hsize
        have hzero : 1 - p.utf8Size = 0 := by omega
        rw [hzero] at hcut
        have hnil : (cutChars rest 0).map (p :: ·) = some [p] := by
          rw [cutChars]
          rfl
        exact ⟨p, (Option.some.inj (hnil.symm.trans hcut)).symm⟩
      · cases hcut

theorem parse_R (hlength : (bytes s).length = 16) (hlast : slice s 15 16 = some ['R']) :
    parseAbsoluteRelativeTime calendar now s = ofOption (parseRelative calendar now s) := by
  rw [parseAbsoluteRelativeTime, if_neg (not_not_intro hlength), hlast]
  rfl

theorem parse_relative : parseAbsoluteRelativeTime calendar now (f.text 'R') =
    ofOption ((calendar.addDays now (f.day + f.year * 365)).bind fun days =>
      (calendar.addMonths days f.month).map fun months =>
        months + seconds (f.hour * 3600 + f.minute * 60 + f.second : Nat)) := by
  have hp : 'R'.utf8Size = 1 := by decide
  rw [parse_R (length_bytes_text hp) (slice_last hp), parseRelative,
    slice_text hp (by decide) (by decide), slice_text hp (by decide) (by decide),
    slice_text hp (by decide) (by decide), slice_text hp (by decide) (by decide),
    slice_text hp (by decide) (by decide), slice_text hp (by decide) (by decide)]
  show ofOption ((parseUnsigned (decimal 2 f.year)).bind fun year =>
    (parseUnsigned (decimal 2 f.month)).bind fun month =>
    (parseUnsigned (decimal 2 f.day)).bind fun day =>
    (parseUnsigned (decimal 2 f.hour)).bind fun hour =>
    (parseUnsigned (decimal 2 f.minute)).bind fun minute =>
    (parseUnsigned (decimal 2 f.second)).bind fun second =>
    (calendar.addDays now (day + year * 365)).bind fun days =>
    (calendar.addMonths days month).bind fun months =>
      some (months + seconds (hour * 3600 + minute * 60 + second : Nat))) = _
  simp only [parseUnsigned_decimal, Option.bind_some]
  simp only [Option.map_eq_bind]
  rfl

theorem parse_sign (ahead : Bool) (s : String) (hlength : (bytes s).length = 16)
    (hlast : slice s 15 16 = some [sign ahead]) :
    parseAbsoluteRelativeTime calendar now s = parseAbsolute calendar ahead s := by
  rw [parseAbsoluteRelativeTime, if_neg (not_not_intro hlength), hlast]
  cases ahead <;> rfl

theorem parse_absolute_none {ahead : Bool} (hlength : (bytes s).length = 16)
    (hlast : slice s 15 16 = some [sign ahead]) {date : List Char} (hdate : slice s 0 12 = some date)
    (hnone : calendar.parseNaive (String.ofList date) = none) :
    parseAbsoluteRelativeTime calendar now s =
      .err (invalidInput ("Failed to parse absolute_time: " ++ s)) := by
  rw [parse_sign ahead s hlength hlast, parseAbsolute, hdate]
  simp only [hnone]

/-- The digits of an absolute time are read as they are meant, and give the time as if the server's
clock showed UTC. -/
theorem parse_absolute_some (hreads : ReadsDates calendar) (hvalid : f.Valid) (ahead : Bool) :
    parseAbsoluteRelativeTime calendar now (f.text (sign ahead)) =
      ofOption (calendar.fromLocal (f.instant ahead)) := by
  have hp := utf8Size_sign ahead
  have hparse : calendar.parseNaive (String.ofList f.dateChars) = some f.naive := hreads f hvalid
  rw [parse_sign ahead _ (length_bytes_text hp) (slice_last hp), parseAbsolute, slice_date hp]
  simp only [hparse, slice_quarters hp, slice_tenths hp, parseSigned_decimal_one,
    parseSigned_decimal_two]
  congr 2
  rw [TimeFields.instant, TimeFields.offset]
  cases ahead <;> simp only [seconds] <;> grind

end Parsing

section Classification

variable {calendar : Calendar} {now : Instant} {s : String}

/-- Well-formed strings alone are taken, and all others refused. -/
structure Classified (calendar : Calendar) (now : Instant) (s : String) : Prop where
  returns : parseAbsoluteRelativeTime calendar now s ≠ .panicked
  takes : ∀ time, parseAbsoluteRelativeTime calendar now s = .ok time → WellFormed s
  refuses : ¬ WellFormed s → ∃ error, parseAbsoluteRelativeTime calendar now s = .err error

/-- What keeps a string away from the calls that panic or are too lax. -/
inductive Handled (calendar : Calendar) (now : Instant) (s : String) : Prop
  | length (h : (bytes s).length ≠ 16)
  | unknown (p : Char) (h : slice s 15 16 = some [p]) (hp : p ≠ 'R' ∧ p ≠ '+' ∧ p ≠ '-')
  | relative (f : TimeFields) (h : s = f.text 'R') (days : Instant)
      (hdays : calendar.addDays now (f.day + f.year * 365) = some days)
      (hmonths : (calendar.addMonths days f.month).isSome = true)
  | noDate (ahead : Bool) (h : slice s 15 16 = some [sign ahead]) (date : List Char)
      (hdate : slice s 0 12 = some date) (hnone : calendar.parseNaive (String.ofList date) = none)
  | absolute (f : TimeFields) (ahead : Bool) (h : s = f.text (sign ahead)) (hvalid : f.Valid)
      (hlocal : (calendar.fromLocal (f.instant ahead)).isSome = true)

theorem Classified.of_ok {time : Instant}
    (hparse : parseAbsoluteRelativeTime calendar now s = .ok time) (h : WellFormed s) :
    Classified calendar now s where
  returns := by
    rw [hparse]
    simp
  takes _ _ := h
  refuses hnot := absurd h hnot

theorem Classified.of_err {error : IoError}
    (hparse : parseAbsoluteRelativeTime calendar now s = .err error) : Classified calendar now s where
  returns := by
    rw [hparse]
    simp
  takes time htime := by
    rw [hparse] at htime
    cases htime
  refuses _ := ⟨error, hparse⟩

theorem sign_ne_R (ahead : Bool) : sign ahead ≠ 'R' := by
  cases ahead <;> decide

theorem WellFormed.relative (h : WellFormed s) (hlast : slice s 15 16 = some ['R']) :
    ∃ f : TimeFields, s = f.text 'R' := by
  obtain ⟨f, rfl | ⟨-, ahead, rfl⟩⟩ := h
  · exact ⟨f, rfl⟩
  · rw [slice_last (utf8Size_sign ahead)] at hlast
    exact absurd (List.cons.inj (Option.some.inj hlast)).1 (sign_ne_R ahead)

theorem WellFormed.absolute (h : WellFormed s) {ahead : Bool}
    (hlast : slice s 15 16 = some [sign ahead]) :
    ∃ f : TimeFields, f.Valid ∧ s = f.text (sign ahead) := by
  obtain ⟨f, rfl | ⟨hvalid, ahead', rfl⟩⟩ := h
  · rw [slice_last (by decide)] at hlast
    exact absurd (List.cons.inj (Option.some.inj hlast)).1.symm (sign_ne_R ahead)
  · rw [slice_last (utf8Size_sign ahead')] at hlast
    rw [(List.cons.inj (Option.some.inj hlast)).1]
    exact ⟨f, hvalid, rfl⟩

theorem ofOption_ne_panicked {instant : Option Instant} (h : ofOption instant ≠ .panicked) :
    ∃ time, instant = some time := by
  cases instant with
  | none => exact absurd rfl h
  | some time => exact ⟨time, rfl⟩

theorem ofOption_ok {instant : Option Instant} {time : Instant} (h : ofOption instant = .ok time) :
    instant = some time := by
  cases instant with
  | none => cases h
  | some other => exact congrArg some (Outcome.ok.inj h)

theorem Handled.classified (hreads : ReadsDates calendar) (h : Handled calendar now s) :
    Classified calendar now s := by
  cases h with
  | length h =>
      apply Classified.of_err
      rw [parseAbsoluteRelativeTime, if_pos h]
  | unknown p h hp =>
      by_cases hlength : (bytes s).length = 16
      · apply Classified.of_err
        rw [parseAbsoluteRelativeTime, if_neg (not_not_intro hlength), h]
        split
        · rename_i heq
          cases heq
        · rename_i heq
          exact absurd (List.cons.inj (Option.some.inj heq)).1 hp.1
        · rename_i heq
          exact absurd (List.cons.inj (Option.some.inj heq)).1 hp.2.1
        · rename_i heq
          exact absurd (List.cons.inj (Option.some.inj heq)).1 hp.2.2
        · rfl
      · apply Classified.of_err
        rw [parseAbsoluteRelativeTime, if_pos hlength]
  | relative f h days hdays hmonths =>
      obtain ⟨months, hmonths⟩ := Option.isSome_iff_exists.mp hmonths
      subst h
      have hparse : parseAbsoluteRelativeTime calendar now (f.text 'R') =
          .ok (months + seconds (f.hour * 3600 + f.minute * 60 + f.second : Nat)) := by
        rw [parse_relative, hdays, Option.bind_some, hmonths]
        rfl
      exact Classified.of_ok hparse ⟨f, .inl rfl⟩
  | noDate ahead h date hdate hnone =>
      by_cases hlength : (bytes s).length = 16
      · exact Classified.of_err (parse_absolute_none hlength h hdate hnone)
      · apply Classified.of_err
        rw [parseAbsoluteRelativeTime, if_pos hlength]
  | absolute f ahead h hvalid hlocal =>
      obtain ⟨time, htime⟩ := Option.isSome_iff_exists.mp hlocal
      subst h
      have hparse : parseAbsoluteRelativeTime calendar now (f.text (sign ahead)) = .ok time := by
        rw [parse_absolute_some hreads hvalid, htime]
        rfl
      exact Classified.of_ok hparse ⟨f, .inr ⟨hvalid, ahead, rfl⟩⟩

theorem parse_last_none (hlength : (bytes s).length = 16) (h : slice s 15 16 = none) :
    parseAbsoluteRelativeTime calendar now s = .panicked := by
  rw [parseAbsoluteRelativeTime, if_neg (not_not_intro hlength), h]

theorem Classified.relative (h : Classified calendar now s) (hlength : (bytes s).length = 16)
    (hlast : slice s 15 16 = some ['R']) : Handled calendar now s := by
  have hparse := @parse_R calendar now s hlength hlast
  have hreturns := h.returns
  rw [hparse] at hreturns
  obtain ⟨time, htime⟩ := ofOption_ne_panicked hreturns
  have hok : parseAbsoluteRelativeTime calendar now s = .ok time := by
    rw [hparse, htime]
    rfl
  obtain ⟨f, rfl⟩ := (h.takes time hok).relative hlast
  rw [parse_relative] at hok
  obtain ⟨days, hdays, hmonths⟩ := Option.bind_eq_some_iff.mp (ofOption_ok hok)
  obtain ⟨months, hmonths, -⟩ := Option.map_eq_some_iff.mp hmonths
  exact .relative f rfl days hdays (Option.isSome_iff_exists.mpr ⟨months, hmonths⟩)

theorem Classified.absolute (hreads : ReadsDates calendar) (h : Classified calendar now s)
    (hlength : (bytes s).length = 16) {ahead : Bool} (hlast : slice s 15 16 = some [sign ahead]) :
    Handled calendar now s := by
  have hparse := @parse_sign calendar now ahead s hlength hlast
  cases hdate : slice s 0 12 with
  | none =>
      refine absurd ?_ h.returns
      rw [hparse, parseAbsolute, hdate]
  | some date =>
      cases hnaive : calendar.parseNaive (String.ofList date) with
      | none => exact .noDate ahead hlast date hdate hnaive
      | some dt =>
          have hwellFormed : WellFormed s := by
            cases hresult : parseAbsoluteRelativeTime calendar now s with
            | ok time => exact h.takes time hresult
            | panicked => exact absurd hresult h.returns
            | err error =>
                rw [hparse, parseAbsolute, hdate] at hresult
                simp only [hnaive] at hresult
                split at hresult
                · unfold ofOption at hresult
                  split at hresult <;> cases hresult
                · cases hresult
          obtain ⟨f, hvalid, rfl⟩ := hwellFormed.absolute hlast
          have hreturns := h.returns
          rw [parse_absolute_some hreads hvalid] at hreturns
          obtain ⟨time, htime⟩ := ofOption_ne_panicked hreturns
          exact .absolute f ahead rfl hvalid (Option.isSome_iff_exists.mpr ⟨time, htime⟩)

/-- A string is classified rightly exactly when it has not 16 octets, when it ends in another
character, when it is a relative time of digits and the sums exist in the server's zone, when its date
is not read at all, and when it is an absolute time of digits and the local time that is made of it
exists just once in the server's zone. -/
theorem classified_iff {calendar : Calendar} (hreads : ReadsDates calendar) (now : Instant)
    (s : String) : Classified calendar now s ↔ Handled calendar now s := by
  refine ⟨fun h => ?_, Handled.classified hreads⟩
  by_cases hlength : (bytes s).length = 16
  · cases hlast : slice s 15 16 with
    | none => exact absurd (parse_last_none hlength hlast) h.returns
    | some cs =>
        obtain ⟨p, rfl⟩ := exists_of_slice_last hlast
        by_cases hR : p = 'R'
        · exact h.relative hlength (hR ▸ hlast)
        · by_cases hsign : ∃ ahead, p = sign ahead
          · obtain ⟨ahead, rfl⟩ := hsign
            exact h.absolute hreads hlength hlast
          · exact .unknown p hlast ⟨hR, fun h => hsign ⟨true, h⟩, fun h => hsign ⟨false, h⟩⟩
  · exact .length hlength

end Classification

section Zones

variable {calendar calendar' : Calendar} {zone zone' : Zone} {now now' : Instant} {f : TimeFields}
  {ahead : Bool} {time : Instant}

/-- `from_local_datetime` has a single result where the local clock of the zone shows the date and the
time of day just once. -/
def Resolves (zone : Zone) (calendar : Calendar) : Prop :=
  ∀ naive time, calendar.fromLocal naive = some time ↔
    ∀ time', time' + seconds (zone.offset time') = naive ↔ time' = time

/-- The local clock shows UTC at a time, and does not show the same at another time. -/
def ShowsUtc (zone : Zone) (time : Instant) : Prop :=
  ∀ time', time' + seconds (zone.offset time') = time ↔ time' = time

/-- The server takes an absolute time for the time that it denotes. -/
def Right (calendar : Calendar) (now : Instant) (f : TimeFields) (ahead : Bool) : Prop :=
  ∃ time, f.Denotes ahead time ∧
    parseAbsoluteRelativeTime calendar now (f.text (sign ahead)) = .ok time

theorem denotes_iff (hvalid : f.Valid) : f.Denotes ahead time ↔ time = f.instant ahead := by
  have hfields := fields_secondsOf hvalid
  rw [TimeFields.Denotes, TimeFields.instant, TimeFields.naive, naiveOf, localNanos]
  generalize secondsOf (fullYear f.year) f.month f.day f.hour f.minute f.second = count at hfields ⊢
  have htenths := f.tenths.isLt
  simp only [seconds]
  constructor
  · rintro ⟨hpos, hdate, htenth⟩
    have hcount := fields_injective (hdate.trans hfields.symm)
    show @Eq Int time _
    omega
  · rintro rfl
    refine ⟨by omega, ?_, by omega⟩
    rw [← hfields]
    apply congrArg fields
    omega

theorem right_iff (hreads : ReadsDates calendar) (hresolves : Resolves zone calendar)
    (hvalid : f.Valid) : Right calendar now f ahead ↔ ShowsUtc zone (f.instant ahead) := by
  rw [Right, parse_absolute_some hreads hvalid]
  constructor
  · rintro ⟨time, hdenotes, hparse⟩
    obtain rfl := (denotes_iff hvalid).mp hdenotes
    exact (hresolves _ _).mp (ofOption_ok hparse)
  · intro hshows
    refine ⟨f.instant ahead, (denotes_iff hvalid).mpr rfl, ?_⟩
    rw [(hresolves _ _).mpr hshows]
    rfl

/-- Two servers take an absolute time for the time that it denotes, and so for the same time, exactly
when then the local clocks of both show UTC. -/
theorem absolute_iff (hreads : ReadsDates calendar) (hreads' : ReadsDates calendar')
    (hresolves : Resolves zone calendar) (hresolves' : Resolves zone' calendar') (now now' : Instant)
    (hvalid : f.Valid) (ahead : Bool) :
    (Right calendar now f ahead ∧ Right calendar' now' f ahead ∧
      parseAbsoluteRelativeTime calendar' now' (f.text (sign ahead)) =
        parseAbsoluteRelativeTime calendar now (f.text (sign ahead))) ↔
      ∀ time, f.Denotes ahead time → ShowsUtc zone time ∧ ShowsUtc zone' time := by
  simp only [denotes_iff hvalid, forall_eq]
  rw [← right_iff hreads hresolves hvalid, ← right_iff hreads' hresolves' hvalid]
  constructor
  · exact fun h => ⟨h.1, h.2.1⟩
  · rintro ⟨hright, hright'⟩
    refine ⟨hright, hright', ?_⟩
    obtain ⟨time, hdenotes, hparse⟩ := hright
    obtain ⟨time', hdenotes', hparse'⟩ := hright'
    rw [hparse, hparse', (denotes_iff hvalid).mp hdenotes, (denotes_iff hvalid).mp hdenotes']

end Zones

section FixedOffsets

def readDate (text : String) : Option Int := do
  let year ← parseUnsigned (text.toList.take 2)
  let month ← parseUnsigned ((text.toList.drop 2).take 2)
  let day ← parseUnsigned ((text.toList.drop 4).take 2)
  let hour ← parseUnsigned ((text.toList.drop 6).take 2)
  let minute ← parseUnsigned ((text.toList.drop 8).take 2)
  let second ← parseUnsigned (text.toList.drop 10)
  if Gregorian.Valid (fullYear year) month day hour minute second then
    some (naiveOf (fullYear year) month day hour minute second)
  else none

def fixedZone (offset : Int) (h : offset.natAbs < 86400) : Zone := ⟨fun _ => offset, fun _ => h⟩

def fixedCalendar (offset : Int) : Calendar :=
  { relativeCalendar with
    parseNaive := readDate
    fromLocal := fun naive => some (naive - seconds offset) }

theorem fixedCalendar_readsDates (offset : Int) : ReadsDates (fixedCalendar offset) := by
  intro f hvalid
  show readDate f.dateText = some f.naive
  rw [readDate, TimeFields.dateText, String.toList_ofList]
  show ((parseUnsigned (decimal 2 f.year)).bind fun year =>
    (parseUnsigned (decimal 2 f.month)).bind fun month =>
    (parseUnsigned (decimal 2 f.day)).bind fun day =>
    (parseUnsigned (decimal 2 f.hour)).bind fun hour =>
    (parseUnsigned (decimal 2 f.minute)).bind fun minute =>
    (parseUnsigned (decimal 2 f.second)).bind fun second =>
      if Gregorian.Valid (fullYear year) month day hour minute second then
        some (naiveOf (fullYear year) month day hour minute second)
      else none) = some f.naive
  simp only [parseUnsigned_decimal, Option.bind_some]
  exact if_pos hvalid

theorem fixedCalendar_resolves (offset : Int) (h : offset.natAbs < 86400) :
    Resolves (fixedZone offset h) (fixedCalendar offset) := by
  intro naive time
  show some (naive - seconds offset) = some time ↔
    ∀ time', time' + seconds offset = naive ↔ time' = time
  rw [Option.some.injEq]
  constructor
  · rintro rfl time'
    show @Eq Int _ _ ↔ @Eq Int time' _
    omega
  · intro hall
    have htime : @Eq Int _ _ := (hall time).mpr rfl
    show @Eq Int _ time
    omega

/-- 2024-02-29 12:30:45.5, an hour ahead of UTC. -/
def leapDay : TimeFields := ⟨24, 2, 29, 12, 30, 45, 5, 4⟩

example : leapDay.text (sign true) = "240229123045504+" := by decide

theorem classified_leapDay : Classified (fixedCalendar 0) 0 (leapDay.text (sign true)) :=
  (classified_iff (fixedCalendar_readsDates 0) 0 _).mpr (.absolute leapDay true rfl (by decide) rfl)

/-- Letters in front of an `R` are unwrapped as numbers. -/
theorem not_classified : ¬ ∀ calendar, ReadsDates calendar → ∀ now s, Classified calendar now s := by
  intro h
  have hreturns := (h (fixedCalendar 0) (fixedCalendar_readsDates 0) 0 "abcdefghijklmnoR").returns
  exact hreturns (by decide +kernel)

theorem absolute_leapDay :
    leapDay.Denotes true (seconds 1709206245 + 500000000) ∧
      Right (fixedCalendar 0) 0 leapDay true ∧ Right (fixedCalendar 0) (seconds 60) leapDay true := by
  have hshows : ShowsUtc (fixedZone 0 (by decide)) (leapDay.instant true) :=
    (fixedCalendar_resolves 0 (by decide) _ _).mp (by decide +kernel)
  have hboth := (absolute_iff (fixedCalendar_readsDates 0) (fixedCalendar_readsDates 0)
    (fixedCalendar_resolves 0 (by decide)) (fixedCalendar_resolves 0 (by decide)) 0 (seconds 60)
    (by decide : leapDay.Valid) true).mpr fun time htime => by
      rw [denotes_iff (by decide)] at htime
      rw [htime]
      exact ⟨hshows, hshows⟩
  exact ⟨(denotes_iff (by decide)).mpr (by decide +kernel), hboth.1, hboth.2.1⟩

/-- A server an hour ahead of UTC takes the time for one an hour earlier than a server of UTC does. -/
theorem not_absolute : ¬ ∀ (f : TimeFields) (ahead : Bool) (zone zone' : Zone)
    (calendar calendar' : Calendar) (now now' : Instant), f.Valid → ReadsDates calendar →
      ReadsDates calendar' → Resolves zone calendar → Resolves zone' calendar' →
        Right calendar now f ahead ∧ Right calendar' now' f ahead ∧
          parseAbsoluteRelativeTime calendar' now' (f.text (sign ahead)) =
            parseAbsoluteRelativeTime calendar now (f.text (sign ahead)) := by
  intro h
  have hsame := (h leapDay true (fixedZone 0 (by decide)) (fixedZone 3600 (by decide))
    (fixedCalendar 0) (fixedCalendar 3600) 0 0 (by decide) (fixedCalendar_readsDates 0)
    (fixedCalendar_readsDates 3600) (fixedCalendar_resolves 0 _) (fixedCalendar_resolves 3600 _)).2.2
  rw [parse_absolute_some (fixedCalendar_readsDates 3600) (by decide),
    parse_absolute_some (fixedCalendar_readsDates 0) (by decide)] at hsame
  exact absurd (Outcome.ok.inj hsame) (by decide +kernel)

end FixedOffsets

end SmppHerald.AbsoluteTimes
