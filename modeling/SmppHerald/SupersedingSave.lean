import SmppHerald.SqlStatements

namespace SmppHerald.SupersedingSave

open SmppHerald.InMemoryStorage (SaveClock)
open SmppHerald.Io
open SmppHerald.Json
open SmppHerald.SqlStatements (save)
open SmppHerald.SqlStorage
open SmppHerald.Time

section Save

/-- The row is for the service, the source and the destination of the message. -/
def isSameRoute (message : Value) (row : Row) : Bool :=
  row.serviceType == message.strField "service_type" &&
    row.sourceAddrTon == asI16 (message.u64Field "source_addr_ton") &&
    row.sourceAddrNpi == asI16 (message.u64Field "source_addr_npi") &&
    row.sourceAddr == message.strField "source_addr" &&
    row.destAddrTon == asI16 (message.u64Field "dest_addr_ton") &&
    row.destAddrNpi == asI16 (message.u64Field "dest_addr_npi") &&
    row.destinationAddr == message.strField "destination_addr"

variable (calendar : Calendar) (defaultValidityPeriod : UInt32) (clock : SaveClock) (now : Instant)
  (rows : List Row) (messageId : String) (message : Value) (id : Nat)

/-- The content of the message is refused. -/
def Refused : Prop :=
  message.strField "destination_addr" = "" ∨
    ∃ time, getScheduleDeliveryTime calendar clock.schedule message = .ok time ∧ time < now

/-- Both times of the message are read without a panic. -/
def TimesRead : Prop :=
  getScheduleDeliveryTime calendar clock.schedule message ≠ .panicked ∧
    getValidityPeriod calendar clock.validity defaultValidityPeriod message ≠ .panicked

/-- A refused message changes nothing, and one that replaces others takes the place of exactly the
earlier ones for the same service, source and destination. -/
structure Replaces : Prop where
  kept : ∀ e, (save calendar defaultValidityPeriod clock now rows messageId message id).2 = .err e →
    (save calendar defaultValidityPeriod clock now rows messageId message id).1 = rows
  replaced : isReplaceIfPresent message = true →
    (save calendar defaultValidityPeriod clock now rows messageId message id).2 = .ok () →
    ∃ row, row.messageId = messageId ∧ row.message = message ∧ isSameRoute message row = true ∧
      (save calendar defaultValidityPeriod clock now rows messageId message id).1 =
        (rows.filter fun row => !isSameRoute message row) ++ [row]

/-- The rows that are deleted are none of a refused message, and of a stored one those for the same
service, source and destination. -/
def DeletesRightly : Prop :=
  isReplaceIfPresent message = true →
    (Refused calendar clock now message → ∀ row ∈ rows, isSuperseded message row = false) ∧
      (¬ Refused calendar clock now message →
        TimesRead calendar defaultValidityPeriod clock message →
          ∀ row ∈ rows, isSuperseded message row = isSameRoute message row)

end Save

section Rows

variable {calendar : Calendar} {defaultValidityPeriod : UInt32} {clock : SaveClock} {now : Instant}
  {rows : List Row} {messageId : String} {message : Value} {id : Nat}

theorem newRow_cases :
    (Refused calendar clock now message ∧
      ∃ e, newRow calendar defaultValidityPeriod clock now messageId message id = .err e) ∨
    (¬ Refused calendar clock now message ∧
      ¬ TimesRead calendar defaultValidityPeriod clock message ∧
        newRow calendar defaultValidityPeriod clock now messageId message id = .panicked) ∨
    (¬ Refused calendar clock now message ∧
      TimesRead calendar defaultValidityPeriod clock message ∧
        ∃ row, newRow calendar defaultValidityPeriod clock now messageId message id = .ok row ∧
          row.messageId = messageId ∧ row.message = message ∧ isSameRoute message row = true) := by
  by_cases hdest : message.strField "destination_addr" = ""
  · exact .inl ⟨.inl hdest, _, by rw [newRow, if_pos hdest]⟩
  rw [newRow, if_neg hdest, Refused, TimesRead]
  simp only [hdest, false_or]
  cases getScheduleDeliveryTime calendar clock.schedule message with
  | panicked => exact .inr (.inl ⟨by simp, by simp, rfl⟩)
  | err e =>
      refine .inr ?_
      cases getValidityPeriod calendar clock.validity defaultValidityPeriod message with
      | panicked => exact .inl ⟨by simp, by simp, rfl⟩
      | err e => exact .inr ⟨by simp, by simp, _, rfl, rfl, rfl, by simp [isSameRoute]⟩
      | ok expiry => exact .inr ⟨by simp, by simp, _, rfl, rfl, rfl, by simp [isSameRoute]⟩
  | ok time =>
      by_cases hpast : time < now
      · exact .inl ⟨⟨time, rfl, hpast⟩, _, if_pos (by simpa using hpast)⟩
      · refine .inr ?_
        cases getValidityPeriod calendar clock.validity defaultValidityPeriod message with
        | panicked => exact .inl ⟨by simpa using hpast, by simp, if_neg (by simpa using hpast)⟩
        | err e =>
            exact .inr ⟨by simpa using hpast, by simp, _, if_neg (by simpa using hpast), rfl, rfl,
              by simp [isSameRoute]⟩
        | ok expiry =>
            exact .inr ⟨by simpa using hpast, by simp, _, if_neg (by simpa using hpast), rfl, rfl,
              by simp [isSameRoute]⟩

/-- What is left of the rows before the message is looked at. -/
def remaining (rows : List Row) (message : Value) : List Row :=
  if isReplaceIfPresent message = true then rows.filter fun row => !isSuperseded message row
  else rows

theorem save_of_err {e : IoError}
    (h : newRow calendar defaultValidityPeriod clock now messageId message id = .err e) :
    save calendar defaultValidityPeriod clock now rows messageId message id =
      (remaining rows message, .err e) := by
  simp only [save, h]
  rfl

theorem save_of_panicked
    (h : newRow calendar defaultValidityPeriod clock now messageId message id = .panicked) :
    save calendar defaultValidityPeriod clock now rows messageId message id =
      (remaining rows message, .panicked) := by
  simp only [save, h]
  rfl

theorem save_of_ok {row : Row}
    (h : newRow calendar defaultValidityPeriod clock now messageId message id = .ok row) :
    save calendar defaultValidityPeriod clock now rows messageId message id =
      (remaining rows message ++ [row], .ok ()) := by
  simp only [save, h]
  rfl

theorem remaining_eq_self_iff : remaining rows message = rows ↔
    (isReplaceIfPresent message = true → ∀ row ∈ rows, isSuperseded message row = false) := by
  unfold remaining
  split
  · rename_i hflag
    simp [hflag, List.filter_eq_self]
  · rename_i hflag
    simp [hflag]

/-- Two filters that keep the same items of a list agree on them. -/
theorem filter_eq_filter_iff {α : Type} {p q : α → Bool} {items : List α} :
    items.filter p = items.filter q ↔ ∀ item ∈ items, p item = q item := by
  constructor
  · intro hsame item hitem
    have hmem : item ∈ items.filter p ↔ item ∈ items.filter q := by rw [hsame]
    rw [List.mem_filter, List.mem_filter, and_iff_right hitem, and_iff_right hitem] at hmem
    exact Bool.eq_iff_iff.mpr hmem
  · exact List.filter_congr

theorem remaining_eq_filter_iff (hflag : isReplaceIfPresent message = true) :
    (remaining rows message = rows.filter fun row => !isSameRoute message row) ↔
      ∀ row ∈ rows, isSuperseded message row = isSameRoute message row := by
  rw [remaining, if_pos hflag, filter_eq_filter_iff]
  simp only [Bool.not_inj_iff]

/-- `save` does what a replacement should exactly when its deletion, which comes first, does. -/
theorem replaces_iff (calendar : Calendar) (defaultValidityPeriod : UInt32) (clock : SaveClock)
    (now : Instant) (rows : List Row) (messageId : String) (message : Value) (id : Nat) :
    Replaces calendar defaultValidityPeriod clock now rows messageId message id ↔
      DeletesRightly calendar defaultValidityPeriod clock now rows message := by
  rcases @newRow_cases calendar defaultValidityPeriod clock now messageId message id with
    ⟨hrefused, e, hrow⟩ | ⟨hstored, hpanics, hrow⟩ | ⟨hstored, hread, row, hrow, hid, hmessage, hroute⟩
  · have hsave := @save_of_err _ _ _ _ rows _ _ _ _ hrow
    constructor
    · intro hreplaces hflag
      have hkept := hreplaces.kept e (by rw [hsave])
      rw [hsave] at hkept
      exact ⟨fun _ => remaining_eq_self_iff.mp hkept hflag, fun hnot => absurd hrefused hnot⟩
    · intro hrightly
      refine ⟨fun _ _ => ?_, fun _ hok => ?_⟩
      · rw [hsave]
        exact remaining_eq_self_iff.mpr fun hflag => (hrightly hflag).1 hrefused
      · rw [hsave] at hok
        cases hok
  · have hsave := @save_of_panicked _ _ _ _ rows _ _ _ hrow
    refine iff_of_true ⟨fun _ herr => ?_, fun _ hok => ?_⟩ fun _ => ?_
    · rw [hsave] at herr
      cases herr
    · rw [hsave] at hok
      cases hok
    · exact ⟨fun hrefused => absurd hrefused hstored, fun _ hread => absurd hread hpanics⟩
  · have hsave := @save_of_ok _ _ _ _ rows _ _ _ _ hrow
    constructor
    · intro hreplaces hflag
      obtain ⟨found, -, -, -, htable⟩ := hreplaces.replaced hflag (by rw [hsave])
      rw [hsave] at htable
      have hremaining := (List.append_inj' htable rfl).1
      exact ⟨fun hrefused => absurd hrefused hstored,
        fun _ _ => (remaining_eq_filter_iff hflag).mp hremaining⟩
    · intro hrightly
      refine ⟨fun _ herr => ?_, fun hflag _ => ⟨row, hid, hmessage, hroute, ?_⟩⟩
      · rw [hsave] at herr
        cases herr
      · rw [hsave]
        exact congrArg (· ++ [row])
          ((remaining_eq_filter_iff hflag).mpr ((hrightly hflag).2 hstored hread))

end Rows

section Example

/-- A message for now, or rather for a moment ago when its time is compared with the clock. -/
def lateMessage : Value :=
  .object [("replace_if_present_flag", .ofNat 1), ("destination_addr", .string "49"),
    ("schedule_delivery_time", .string "000000000000000R")]

/-- The row of an earlier message to the same address. -/
def earlierRow : Row := ⟨1, "", 0, 0, "", 0, 0, "49", "m1", .null, none, none⟩

/-- The message is refused, and the earlier one is gone. -/
theorem not_replaces_late :
    ¬ Replaces relativeCalendar 60 ⟨0, 0, 0⟩ 1 [earlierRow] "m2" lateMessage 2 := by
  intro hreplaces
  have hrefused : Refused relativeCalendar ⟨0, 0, 0⟩ 1 lateMessage :=
    .inr ⟨0, by decide +kernel, by decide⟩
  rcases @newRow_cases relativeCalendar 60 ⟨0, 0, 0⟩ 1 "m2" lateMessage 2 with
    ⟨-, e, hrow⟩ | ⟨hstored, -⟩ | ⟨hstored, -⟩
  · have hsave := @save_of_err _ _ _ _ [earlierRow] _ _ _ _ hrow
    have hkept : remaining [earlierRow] lateMessage = [earlierRow] := by
      have hsame := hreplaces.kept e (by rw [hsave])
      rwa [hsave] at hsame
    have hspared := remaining_eq_self_iff.mp hkept (by decide) earlierRow List.mem_cons_self
    revert hspared
    decide
  · exact hstored hrefused
  · exact hstored hrefused

end Example

end SmppHerald.SupersedingSave
