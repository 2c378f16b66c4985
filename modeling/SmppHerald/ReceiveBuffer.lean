import SmppHerald.Message

namespace SmppHerald.ReceiveBuffer

open SmppHerald.Buffer
open SmppHerald.ByteParser
open SmppHerald.Io
open SmppHerald.Json
open SmppHerald.Message
open SmppHerald.StreamFraming

/-- When the loop body of `run` breaks: the PDU decodes and `handle_message` returns an error. -/
def handlingFails (failed : Nat → Value → Bool) (i : Nat) (message : SMPPMessage) : Bool :=
  match toJson message with
  | .ok decodedMessage => failed i decodedMessage
  | .error _ => false

/-- A buffer whose next PDU claims to have no octets at all. -/
def ZeroLength (buffer : SmppMessageBuffer) : Prop := 16 ≤ buffer.length ∧ lengthField buffer = 0

theorem extractMessage_eq_some_iff (buffer rest : SmppMessageBuffer) (message : SMPPMessage) :
    extractMessage buffer = some (message, rest) ↔
      16 ≤ buffer.length ∧ lengthField buffer ≤ buffer.length ∧
        message = buffer.take (lengthField buffer) ∧ rest = buffer.drop (lengthField buffer) := by
  simp only [extractMessage]
  split
  · simp only [reduceCtorEq, false_iff, not_and]
    omega
  · split
    · simp only [Option.some.injEq, Prod.mk.injEq]
      constructor
      · rintro ⟨rfl, rfl⟩
        exact ⟨by omega, by assumption, rfl, rfl⟩
      · rintro ⟨-, -, rfl, rfl⟩
        exact ⟨rfl, rfl⟩
    · simp only [reduceCtorEq, false_iff, not_and]
      omega

/-- Taking a PDU off makes the buffer shorter exactly when the PDU has a length. -/
theorem shrinks_iff (buffer : SmppMessageBuffer) :
    (∀ message rest, extractMessage buffer = some (message, rest) →
      rest.length < buffer.length) ↔ ¬ ZeroLength buffer := by
  simp only [extractMessage_eq_some_iff]
  constructor
  · rintro h ⟨hlen, hzero⟩
    have hlt := h _ _ ⟨hlen, by omega, rfl, rfl⟩
    rw [hzero, List.drop_zero] at hlt
    exact absurd hlt (Nat.lt_irrefl _)
  · rintro hzero message rest ⟨hlen, hle, -, rfl⟩
    have hpos : lengthField buffer ≠ 0 := fun h => hzero ⟨hlen, h⟩
    rw [List.length_drop]
    omega

theorem extractMessage_of_zeroLength {buffer : SmppMessageBuffer} (h : ZeroLength buffer) :
    extractMessage buffer = some ([], buffer) := by
  rw [extractMessage_eq_some_iff]
  exact ⟨h.1, by rw [h.2]; exact Nat.zero_le _, by rw [h.2, List.take_zero],
    by rw [h.2, List.drop_zero]⟩

section Termination

/-- Going from one length field to the next, a loop that stops after a PDU when `breaks` says so
comes to a length field of zero. -/
inductive MeetsZeroLength (breaks : Nat → SMPPMessage → Bool) : Nat → SmppMessageBuffer → Prop
  | here {i buffer} : ZeroLength buffer → MeetsZeroLength breaks i buffer
  | later {i buffer} : 16 ≤ buffer.length → lengthField buffer ≤ buffer.length →
      breaks i (buffer.take (lengthField buffer)) = false →
      MeetsZeroLength breaks (i + 1) (buffer.drop (lengthField buffer)) →
      MeetsZeroLength breaks i buffer

/-- The loop comes to an end, and each PDU it takes makes the buffer shorter. -/
def Terminates (breaks : Nat → SMPPMessage → Bool) (buffer : SmppMessageBuffer) : Prop :=
  (∃ messages left, Drains extractMessage breaks 0 buffer messages left) ∧
    ∀ j visited message rest, Visits extractMessage breaks 0 buffer j visited →
      extractMessage visited = some (message, rest) → rest.length < visited.length

theorem not_meetsZeroLength_of_drains {breaks : Nat → SMPPMessage → Bool}
    (hempty : ∀ i, breaks i [] = false) {i : Nat} {buffer left : SmppMessageBuffer}
    {messages : List SMPPMessage} (h : Drains extractMessage breaks i buffer messages left) :
    ¬ MeetsZeroLength breaks i buffer := by
  induction h with
  | done hnone =>
      intro hmeets
      cases hmeets with
      | here hzero => simp [extractMessage_of_zeroLength hzero] at hnone
      | later hlen hle =>
          rw [(extractMessage_eq_some_iff _ _ _).mpr ⟨hlen, hle, rfl, rfl⟩] at hnone
          simp at hnone
  | broke hsome hbreak =>
      intro hmeets
      cases hmeets with
      | here hzero =>
          rw [extractMessage_of_zeroLength hzero] at hsome
          simp only [Option.some.injEq, Prod.mk.injEq] at hsome
          rw [← hsome.1, hempty] at hbreak
          exact absurd hbreak (by simp)
      | later hlen hle hgo =>
          obtain ⟨-, -, rfl, -⟩ := (extractMessage_eq_some_iff _ _ _).mp hsome
          rw [hgo] at hbreak
          exact absurd hbreak (by simp)
  | more hsome _ _ ih =>
      intro hmeets
      apply ih
      cases hmeets with
      | here hzero =>
          -- the buffer is unchanged, so the loop meets the same length field again
          rw [extractMessage_of_zeroLength hzero] at hsome
          simp only [Option.some.injEq, Prod.mk.injEq] at hsome
          rw [← hsome.2]
          exact .here hzero
      | later _ _ _ hrest =>
          obtain ⟨-, -, -, rfl⟩ := (extractMessage_eq_some_iff _ _ _).mp hsome
          exact hrest

theorem not_meetsZeroLength_of_visits {breaks : Nat → SMPPMessage → Bool} {i j : Nat}
    {buffer visited : SmppMessageBuffer} (hvisits : Visits extractMessage breaks i buffer j visited)
    (h : ¬ MeetsZeroLength breaks i buffer) : ¬ MeetsZeroLength breaks j visited := by
  induction hvisits with
  | start => exact h
  | next hsome hgo _ ih =>
      apply ih
      intro hmeets
      obtain ⟨hlen, hle, rfl, rfl⟩ := (extractMessage_eq_some_iff _ _ _).mp hsome
      exact h (.later hlen hle hgo hmeets)

theorem terminates_iff_of_empty {breaks : Nat → SMPPMessage → Bool}
    (hempty : ∀ i, breaks i [] = false) (buffer : SmppMessageBuffer) :
    Terminates breaks buffer ↔ ¬ MeetsZeroLength breaks 0 buffer := by
  constructor
  · rintro ⟨⟨messages, left, hdrains⟩, -⟩
    exact not_meetsZeroLength_of_drains hempty hdrains
  · intro hmeets
    refine ⟨?_, ?_⟩
    · refine exists_drains_of_shrinks breaks (fun i buffer => ¬ MeetsZeroLength breaks i buffer)
        ?_ ?_ 0 buffer hmeets
      · intro i buffer message rest hgood
        exact (shrinks_iff buffer).mpr (fun hzero => hgood (.here hzero)) message rest
      · intro i buffer message rest hgood hsome hgo
        exact not_meetsZeroLength_of_visits (.next hsome hgo .start) hgood
    · intro j visited message rest hvisits
      have hgood := not_meetsZeroLength_of_visits hvisits hmeets
      exact (shrinks_iff visited).mpr (fun hzero => hgood (.here hzero)) message rest

theorem toJson_nil : (toJson []).isOk = false := rfl

theorem handlingFails_nil (failed : Nat → Value → Bool) (i : Nat) :
    handlingFails failed i [] = false := by
  have hnil := toJson_nil
  unfold handlingFails
  split
  · rename_i heq
    simp [heq, Except.isOk, Except.toBool] at hnil
  · rfl

/-- Both loops terminate exactly on the buffers in which no length field they come to is zero. -/
theorem drain_loops_terminate_iff (buffer : SmppMessageBuffer) :
    (Terminates never buffer ↔ ¬ MeetsZeroLength never 0 buffer) ∧
      ∀ failed : Nat → Value → Bool, Terminates (handlingFails failed) buffer ↔
        ¬ MeetsZeroLength (handlingFails failed) 0 buffer :=
  ⟨terminates_iff_of_empty (fun _ => rfl) buffer,
    fun failed => terminates_iff_of_empty (handlingFails_nil failed) buffer⟩

/-- Sixteen zero octets stop both loops from ever finishing. -/
theorem not_terminates_zero_header :
    ¬ Terminates never (List.replicate 16 0) ∧
      ∀ failed, ¬ Terminates (handlingFails failed) (List.replicate 16 0) := by
  have hzero : ZeroLength (List.replicate 16 0) := ⟨by decide, by decide⟩
  constructor
  · rw [terminates_iff_of_empty (fun _ => rfl)]
    exact fun h => h (.here hzero)
  · intro failed
    rw [terminates_iff_of_empty (handlingFails_nil failed)]
    exact fun h => h (.here hzero)

end Termination

section Fragmentation

/-- A PDU whose first word is its length, as a peer that follows the protocol sends it. -/
structure Pdu where
  octets : SMPPMessage
  header : 16 ≤ octets.length
  length_eq : lengthField octets = octets.length

/-- What has arrived of a PDU that is not complete. -/
def Incomplete (octets : SmppMessageBuffer) : Prop :=
  ∃ (pdu : Pdu) (missing : Bytes), missing ≠ [] ∧ pdu.octets = octets ++ missing

theorem lengthField_append {buffer : SmppMessageBuffer} (h : 4 ≤ buffer.length) (later : Bytes) :
    lengthField (buffer ++ later) = lengthField buffer := by
  rw [lengthField, lengthField, List.take_append_of_le_length h]

theorem stable_extractMessage : Stable extractMessage := by
  intro buffer message rest later h
  obtain ⟨hlen, hle, rfl, rfl⟩ := (extractMessage_eq_some_iff _ _ _).mp h
  have hfield := lengthField_append (by omega : 4 ≤ buffer.length) later
  rw [extractMessage_eq_some_iff, hfield, List.length_append]
  exact ⟨by omega, by omega, by rw [List.take_append_of_le_length hle],
    by rw [List.drop_append_of_le_length hle]⟩

theorem extractMessage_pdu (pdu : Pdu) (rest : Bytes) :
    extractMessage (pdu.octets ++ rest) = some (pdu.octets, rest) := by
  have hheader := pdu.header
  rw [extractMessage_eq_some_iff, lengthField_append (by omega), pdu.length_eq,
    List.length_append, List.take_left, List.drop_left]
  exact ⟨by omega, by omega, rfl, rfl⟩

theorem extractMessage_incomplete {octets : SmppMessageBuffer} (h : Incomplete octets) :
    extractMessage octets = none := by
  obtain ⟨pdu, missing, hmissing, hpdu⟩ := h
  have hpos := List.length_pos_iff.mpr hmissing
  have hlen := congrArg List.length hpdu
  rw [List.length_append] at hlen
  rw [Option.eq_none_iff_forall_ne_some]
  rintro ⟨message, rest⟩ hsome
  obtain ⟨h16, hle, -⟩ := (extractMessage_eq_some_iff _ _ _).mp hsome
  have hfield := lengthField_append (by omega : 4 ≤ octets.length) missing
  rw [← hpdu, pdu.length_eq] at hfield
  omega

theorem drains_pdus {suffix : SmppMessageBuffer} (hsuffix : extractMessage suffix = none)
    (pdus : List Pdu) (i : Nat) :
    Drains extractMessage never i ((pdus.map Pdu.octets).flatten ++ suffix)
      (pdus.map Pdu.octets) suffix := by
  induction pdus generalizing i with
  | nil => exact .done hsuffix
  | cons pdu pdus ih =>
      rw [List.map_cons, List.flatten_cons, List.append_assoc]
      exact .more (extractMessage_pdu pdu _) rfl (ih (i + 1))

/-- However the octets of some PDUs and of an incomplete one are cut into chunks, draining after
every chunk gives the PDUs and leaves the incomplete one. -/
theorem feeds_fragmented_pdus (pdus : List Pdu) (suffix : SmppMessageBuffer)
    (chunks : List Bytes) (hsuffix : suffix = [] ∨ Incomplete suffix)
    (hchunks : chunks.flatten = (pdus.map Pdu.octets).flatten ++ suffix) :
    Feeds extractMessage [] chunks (pdus.map Pdu.octets) suffix ∧
      ∀ messages left, Feeds extractMessage [] chunks messages left →
        messages = pdus.map Pdu.octets ∧ left = suffix := by
  have hstop : extractMessage suffix = none := by
    rcases hsuffix with rfl | hincomplete
    · rfl
    · exact extractMessage_incomplete hincomplete
  have hfeeds : Feeds extractMessage [] chunks (pdus.map Pdu.octets) suffix := by
    refine feeds_of_drains stable_extractMessage chunks rfl ?_
    rw [List.nil_append, hchunks]
    exact drains_pdus hstop pdus 0
  exact ⟨hfeeds, fun messages left h => hfeeds.deterministic h⟩

/-- An `enquire_link`, whole in its header. -/
def enquireLink (sequenceNumber : UInt8) : Pdu where
  octets := [0, 0, 0, 16, 0, 0, 0, 0x15, 0, 0, 0, 0, 0, 0, 0, sequenceNumber]
  header := by simp
  length_eq := by simp [lengthField, beNat]

/-- Two requests and half of a third one, cut inside a length field and inside a header. -/
theorem feeds_fragmented_enquireLinks :
    Feeds extractMessage []
      [[0, 0], [0, 16, 0, 0, 0, 0x15, 0, 0],
        [0, 0, 0, 0, 0, 1, 0, 0, 0, 16, 0, 0, 0, 0x15, 0, 0, 0, 0, 0, 0, 0, 2, 0, 0, 0, 16, 0]]
      [(enquireLink 1).octets, (enquireLink 2).octets] [0, 0, 0, 16, 0] :=
  (feeds_fragmented_pdus [enquireLink 1, enquireLink 2] [0, 0, 0, 16, 0] _
    (.inr ⟨enquireLink 3, [0, 0, 0x15, 0, 0, 0, 0, 0, 0, 0, 3], by simp, rfl⟩) rfl).1

end Fragmentation

end SmppHerald.ReceiveBuffer
