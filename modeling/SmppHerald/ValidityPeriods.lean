import SmppHerald.RabbitMqStorage
import SmppHerald.Relay
import SmppHerald.SqlStatements

namespace SmppHerald.ValidityPeriods

open SmppHerald.Buffer
open SmppHerald.ByteParser
open SmppHerald.CommandIds
open SmppHerald.DecodedMessage
open SmppHerald.Encodability
open SmppHerald.FieldCodecs
open SmppHerald.InMemoryStorage (InMemoryMessageStorage SaveClock)
open SmppHerald.Io
open SmppHerald.Json
open SmppHerald.Message
open SmppHerald.PduFormat
open SmppHerald.Relay (decodedValue toJson_of_isOk)
open SmppHerald.SqlStorage (Row)
open SmppHerald.Time

section Decoded

theorem exists_text (decoded : Decoded) {field : CommandField} {maxLength : Nat}
    (hfield : field ∈ decoded.fields) (htlv : isValidTlvField field.1 = false)
    (hcodec : fieldCodecs field.1 = some (.cOctetStr maxLength)) :
    ∃ text, decoded.value.get field.1 = some (.string text) := by
  obtain ⟨codec, value, hfound, hget, hshaped⟩ := decoded.get_field hfield htlv
  obtain rfl := Option.some.inj (hcodec.symm.trans hfound)
  obtain ⟨text, rfl⟩ := hshaped rfl
  exact ⟨text, hget⟩

theorem exists_times {pdu : SMPPMessage} {message : Value} (h : toJson pdu = .ok message)
    (hcommand : extractCommandId message = some .submitSm) :
    ∃ validity schedule, message.get "validity_period" = some (.string validity) ∧
      message.get "schedule_delivery_time" = some (.string schedule) := by
  obtain ⟨decoded, rfl⟩ := exists_decoded h
  rw [decoded.extractCommandId_value] at hcommand
  have htable := decoded.table
  rw [← CommandId.asU32_of_fromU32 hcommand] at htable
  have hfields : ∀ name ∈ ["validity_period", "schedule_delivery_time"],
      (name, some (Value.string "")) ∈ decoded.fields := by
    rw [← Option.some.inj htable]
    simp [submitSmFields]
  obtain ⟨validity, hvalidity⟩ := exists_text decoded (hfields "validity_period" (by simp))
    (by decide) rfl
  obtain ⟨schedule, hschedule⟩ := exists_text decoded (hfields "schedule_delivery_time" (by simp))
    (by decide) rfl
  exact ⟨validity, schedule, hvalidity, hschedule⟩

end Decoded

section Periods

variable (calendar : Calendar) (now : Instant) (defaultValidityPeriod : UInt32) (message : Value)

/-- The seconds of the TLV, if the message has it. -/
def qosTimeToLive : Option UInt64 := (message.get "qos_time_to_live").bind Value.asU64

/-- When a message expires that does not say so itself. -/
def defaultPeriod : Outcome Instant :=
  match getScheduleDeliveryTime calendar now message with
  | .ok time => .ok (time + seconds defaultValidityPeriod.toNat)
  | .err _ => .ok (now + seconds defaultValidityPeriod.toNat)
  | .panicked => .panicked

/-- When a message expires: the TLV takes the place of the field, and the default that of an empty
field. -/
def documentedPeriod : Outcome Instant :=
  match qosTimeToLive message with
  | some n => .ok (now + seconds n.toNat)
  | none =>
      if message.strField "validity_period" ≠ "" then
        parseAbsoluteRelativeTime calendar now (message.strField "validity_period")
      else defaultPeriod calendar now defaultValidityPeriod message

/-- All four stores take the message. -/
structure Stored (clock : SaveClock) : Prop where
  inMemory : ∀ storage messageId serial, ∃ stored, InMemoryStorage.save calendar
    defaultValidityPeriod clock storage messageId message serial = .ok stored
  sql : ∀ rows messageId id, (SqlStatements.save calendar defaultValidityPeriod clock now rows
    messageId message id).2 = .ok ()
  redis : ∀ storage messageId, ∃ stored, RedisStorage.save calendar defaultValidityPeriod clock now
    storage messageId message = .ok stored
  rabbitMq : ∀ messageId, ∃ envelope, RabbitMqStorage.newEnvelope calendar defaultValidityPeriod
    clock now messageId message = .ok envelope

/-- The period is the documented one, and a message for immediate delivery that leaves it open is
stored. -/
structure Documented : Prop where
  period : getValidityPeriod calendar now defaultValidityPeriod message =
    documentedPeriod calendar now defaultValidityPeriod message
  stored : message.strField "validity_period" = "" →
    message.strField "schedule_delivery_time" = "" → message.strField "destination_addr" ≠ "" →
    ∀ clock : SaveClock, clock.schedule = now → clock.validity = now → clock.last = now →
      Stored calendar now defaultValidityPeriod message clock

end Periods

section Fields

variable {calendar : Calendar} {now : Instant} {defaultValidityPeriod : UInt32} {message : Value}

theorem parse_empty (calendar : Calendar) (now : Instant) :
    ∃ e, parseAbsoluteRelativeTime calendar now "" = .err e := ⟨_, rfl⟩

theorem defaultPeriod_ne_err (e : IoError) :
    defaultPeriod calendar now defaultValidityPeriod message ≠ .err e := by
  unfold defaultPeriod
  split <;> simp

theorem strField_of_get {field text : String} (h : message.get field = some (.string text)) :
    message.strField field = text := by
  rw [Value.strField, h]
  rfl

theorem getValidityPeriod_text {validity : String}
    (h : message.get "validity_period" = some (.string validity)) :
    getValidityPeriod calendar now defaultValidityPeriod message =
      parseAbsoluteRelativeTime calendar now validity := by
  rw [getValidityPeriod, h]
  rfl

theorem period_iff {validity : String}
    (hvalidity : message.get "validity_period" = some (.string validity)) :
    getValidityPeriod calendar now defaultValidityPeriod message =
        documentedPeriod calendar now defaultValidityPeriod message ↔
      (qosTimeToLive message = none ∧ validity ≠ "") ∨
        ∃ n, qosTimeToLive message = some n ∧
          parseAbsoluteRelativeTime calendar now validity = .ok (now + seconds n.toNat) := by
  rw [getValidityPeriod_text hvalidity, documentedPeriod, strField_of_get hvalidity]
  cases hqos : qosTimeToLive message with
  | some n => simp
  | none =>
      by_cases hempty : validity = ""
      · obtain ⟨e, he⟩ := parse_empty calendar now
        rw [hempty, he]
        simpa using fun h => defaultPeriod_ne_err e h.symm
      · simp [hempty]

/-- The documented period exactly when the field is not empty and no TLV contradicts it. -/
theorem documented_iff (calendar : Calendar) (now : Instant) (defaultValidityPeriod : UInt32)
    (message : Value) (validity : String)
    (hvalidity : message.get "validity_period" = some (.string validity)) :
    Documented calendar now defaultValidityPeriod message ↔
      (qosTimeToLive message = none ∧ validity ≠ "") ∨
        ∃ n, qosTimeToLive message = some n ∧
          parseAbsoluteRelativeTime calendar now validity = .ok (now + seconds n.toNat) := by
  rw [← period_iff hvalidity]
  constructor
  · exact Documented.period
  · intro hperiod
    refine ⟨hperiod, fun hempty => ?_⟩
    rw [strField_of_get hvalidity] at hempty
    rcases (period_iff hvalidity).mp hperiod with ⟨-, hgiven⟩ | ⟨n, -, hparsed⟩
    · exact absurd hempty hgiven
    · obtain ⟨e, he⟩ := parse_empty calendar now
      rw [hempty, he] at hparsed
      cases hparsed

end Fields

section Stores

variable {calendar : Calendar} {now : Instant} {defaultValidityPeriod : UInt32} {message : Value}
  {clock : SaveClock}

theorem optional_validity_null (h : message.get "validity_period" = some (.string "")) :
    (getValidityPeriod calendar now defaultValidityPeriod message).optional = .ok none := by
  rw [getValidityPeriod_text h]
  rfl

theorem optional_schedule_null (h : message.get "schedule_delivery_time" = some (.string "")) :
    (getScheduleDeliveryTime calendar now message).optional = .ok none := by
  rw [getScheduleDeliveryTime, h]
  rfl

variable (hdest : message.strField "destination_addr" ≠ "")
  (hvalidity : message.get "validity_period" = some (.string ""))
  (hschedule : message.get "schedule_delivery_time" = some (.string ""))

include hdest hvalidity hschedule

/-- The in-memory store refuses a message for immediate delivery that leaves its period open. -/
theorem inMemory_refuses (storage : InMemoryMessageStorage) (messageId : String) (serial : Nat) :
    ∃ e, InMemoryStorage.save calendar defaultValidityPeriod clock storage messageId message serial =
      .err e := by
  rw [InMemoryStorage.save, if_neg hdest, optional_schedule_null hschedule,
    optional_validity_null hvalidity]
  exact ⟨_, rfl⟩

/-- So do the Redis and the RabbitMQ store. -/
theorem savedTimes_refuses : ∃ e, RedisStorage.savedTimes calendar defaultValidityPeriod clock now
    message = .err e := by
  rw [RedisStorage.savedTimes, if_neg hdest, optional_schedule_null hschedule,
    optional_validity_null hvalidity]
  exact ⟨_, rfl⟩

/-- Only the SQL store puts the default in its place. -/
theorem newRow_default (messageId : String) (id : Nat) :
    ∃ row : Row, SqlStorage.newRow calendar defaultValidityPeriod clock now messageId message id =
      .ok row ∧ row.validityPeriod =
        some (calendar.toRfc3339 (clock.last + seconds defaultValidityPeriod.toNat)) := by
  rw [SqlStorage.newRow, if_neg hdest, optional_schedule_null hschedule,
    optional_validity_null hvalidity]
  exact ⟨_, rfl, rfl⟩

end Stores

section Example

/-- A submit_sm with the text `hi` to the address 49 that leaves both times open. -/
def openPdu : SMPPMessage :=
  header 37 4 0 1 ++ [0, 0, 0, 0, 1, 1, 0x34, 0x39, 0, 0, 0, 0, 0, 0, 0, 0, 0, 0, 2, 0x68, 0x69]

/-- A message that is valid for an hour. -/
def hourMessage : Value :=
  .object [("destination_addr", .string "49"), ("schedule_delivery_time", .string ""),
    ("validity_period", .string "000000010000000R")]

theorem documented_hour : Documented relativeCalendar 0 60 hourMessage :=
  (documented_iff relativeCalendar 0 60 hourMessage "000000010000000R" rfl).mpr
    (.inl ⟨rfl, by decide⟩)

/-- The decoded message does not obtain the default. -/
theorem not_documented_open :
    toJson openPdu = .ok (decodedValue openPdu) ∧
      ¬ Documented relativeCalendar 0 60 (decodedValue openPdu) := by
  have hdecoded := toJson_of_isOk (show (toJson openPdu).isOk = true by decide +kernel)
  refine ⟨hdecoded, ?_⟩
  intro hdocumented
  obtain ⟨validity, _, hvalidity, -⟩ := exists_times hdecoded (by decide +kernel)
  have hempty : (decodedValue openPdu).strField "validity_period" = "" := by decide +kernel
  have hqos : qosTimeToLive (decodedValue openPdu) = none := by decide +kernel
  rcases (period_iff hvalidity).mp hdocumented.period with ⟨-, hgiven⟩ | ⟨n, hsome, -⟩
  · exact hgiven ((strField_of_get hvalidity).symm.trans hempty)
  · cases hqos.symm.trans hsome

end Example

end SmppHerald.ValidityPeriods
