import SmppHerald.Io
import SmppHerald.Json
import SmppHerald.Library.Utf8

/-!
The times of a message: `parse_absolute_relative_time` and the functions of `message_storage.rs`
that read a time out of a message. Each of them reads the clock at most once.
-/

namespace SmppHerald.Time

open SmppHerald.Io
open SmppHerald.Json
open SmppHerald.Utf8

/-- A point in time, in nanoseconds. -/
abbrev Instant := Int

def seconds (n : Int) : Int := n * 1000000000

/-- The calendar of the time zone the server runs in. Where there is no result, the call of
`chrono` panics, except for `parseNaive`, which parses `%y%m%d%H%M%S`. -/
structure Calendar where
  addDays : Instant → Nat → Option Instant
  addMonths : Instant → Nat → Option Instant
  addSeconds : Instant → Int → Option Instant
  parseNaive : String → Option Int
  fromLocal : Int → Option Instant
  toRfc3339 : Instant → String

/-- A calendar with days of 24 hours in which no text is an absolute time. -/
def relativeCalendar : Calendar where
  addDays now days := some (now + seconds (days * 86400))
  addMonths now months := some (now + seconds (months * 2592000))
  addSeconds now n := some (now + seconds n)
  parseNaive _ := none
  fromLocal := some
  toRfc3339 _ := ""

def digit (c : Char) : Option Nat :=
  if '0' ≤ c ∧ c ≤ '9' then some (c.toNat - 48) else none

def digits (value : Nat) : List Char → Option Nat
  | [] => some value
  | c :: cs => (digit c).bind fun d => digits (value * 10 + d) cs

/-- `parse::<u32>` of at most two characters. -/
def parseUnsigned : List Char → Option Nat
  | [] => none
  | ['+'] => none
  | '+' :: cs => digits 0 cs
  | cs => digits 0 cs

/-- A calendar that writes the first ten seconds of 1970 as `to_rfc3339` does. -/
def epochCalendar : Calendar :=
  { relativeCalendar with
    toRfc3339 := fun time => "1970-01-01T00:00:0" ++ toString (time / seconds 1) ++ "+00:00" }

/-- Reads what `epochCalendar` writes. -/
def parseEpoch (text : String) : Option Instant :=
  ((slice text 18 19).bind parseUnsigned).map fun n => seconds n

/-- `parse::<i64>`; a number that does not fit is an error. -/
def parseSigned (text : List Char) : Option Int :=
  let magnitude := match text with
    | '-' :: cs => (if cs = [] then none else digits 0 cs).map fun n => -(n : Int)
    | cs => (parseUnsigned cs).map fun n => (n : Int)
  magnitude.bind fun n => if -(2 ^ 63) ≤ n ∧ n < 2 ^ 63 then some n else none

def ofOption (instant : Option Instant) : Outcome Instant :=
  match instant with
  | some instant => .ok instant
  | none => .panicked

def parseRelative (calendar : Calendar) (now : Instant) (timeStr : String) : Option Instant := do
  let year ← (slice timeStr 0 2).bind parseUnsigned
  let month ← (slice timeStr 2 4).bind parseUnsigned
  let day ← (slice timeStr 4 6).bind parseUnsigned
  let hour ← (slice timeStr 6 8).bind parseUnsigned
  let minute ← (slice timeStr 8 10).bind parseUnsigned
  let second ← (slice timeStr 10 12).bind parseUnsigned
  let days ← calendar.addDays now (day + year * 365)
  let months ← calendar.addMonths days month
  return months + seconds (hour * 3600 + minute * 60 + second)

def parseAbsolute (calendar : Calendar) (ahead : Bool) (timeStr : String) : Outcome Instant :=
  match slice timeStr 0 12 with
  | none => .panicked
  | some s =>
      match calendar.parseNaive (String.ofList s) with
      | none => .err (invalidInput ("Failed to parse absolute_time: " ++ timeStr))
      | some dt =>
          match slice timeStr 13 15, slice timeStr 12 13 with
          | some nn, some t =>
              let quarters := seconds ((parseSigned nn).getD 0 * 15 * 60)
              let tenths := (parseSigned t).getD 0 * 100000000
              ofOption (calendar.fromLocal
                (if ahead then dt - quarters + tenths else dt + quarters + tenths))
          | _, _ => .panicked

def parseAbsoluteRelativeTime (calendar : Calendar) (now : Instant) (timeStr : String) :
    Outcome Instant :=
  let invalid : Outcome Instant :=
    .err (invalidInput ("Invalid absolute_time format: " ++ timeStr))
  if (bytes timeStr).length ≠ 16 then invalid
  else
    match slice timeStr 15 16 with
    | none => .panicked
    | some ['R'] => ofOption (parseRelative calendar now timeStr)
    | some ['+'] => parseAbsolute calendar true timeStr
    | some ['-'] => parseAbsolute calendar false timeStr
    | some _ => invalid

def getScheduleDeliveryTime (calendar : Calendar) (now : Instant) (value : Value) :
    Outcome Instant :=
  match (value.get "schedule_delivery_time").bind Value.asStr with
  | some scheduleDeliveryTime => parseAbsoluteRelativeTime calendar now scheduleDeliveryTime
  | none => .err (invalidInput "schedule_delivery_time not found in the message")

def getValidityPeriod (calendar : Calendar) (now : Instant) (defaultValidityPeriod : UInt32)
    (value : Value) : Outcome Instant :=
  match (value.get "validity_period").bind Value.asStr with
  | some validityPeriod => parseAbsoluteRelativeTime calendar now validityPeriod
  | none =>
      match (value.get "qos_time_to_live").bind Value.asStr with
      | some qosTimeToLive =>
          ofOption (calendar.addSeconds now ((parseSigned qosTimeToLive.toList).getD 0))
      | none =>
          match getScheduleDeliveryTime calendar now value with
          | .ok dt => .ok (dt + seconds defaultValidityPeriod.toNat)
          | .err _ => .ok (now + seconds defaultValidityPeriod.toNat)
          | .panicked => .panicked

end SmppHerald.Time
