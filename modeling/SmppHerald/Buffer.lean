import SmppHerald.Library.ByteParser
import SmppHerald.Library.StreamFraming
import SmppHerald.Library.Utf8

/-!
The reading and writing primitives of `SMPPMessage` and the receive buffer `SmppMessageBuffer`.
A written value is the octets it appends; a read that fails keeps what it had consumed.
-/

namespace SmppHerald.Buffer

open SmppHerald.ByteParser
open SmppHerald.StreamFraming
open SmppHerald.Utf8

/-- The bytes of one PDU. -/
abbrev SMPPMessage := Bytes

/-- The bytes received and not yet taken off as PDUs. -/
abbrev SmppMessageBuffer := Bytes

def writeU8 (value : UInt8) : Bytes := [value]

def writeU16 (value : UInt16) : Bytes := beBytes 2 value.toNat

def writeU32 (value : UInt32) : Bytes := beBytes 4 value.toNat

def writeCOctetStr (s : String) : Bytes := bytes s ++ [0]

def readU8 : Parser Unit UInt8 := do
  let n ← word 1
  return UInt8.ofNat n

def readU16 : Parser Unit UInt16 := do
  let n ← word 2
  return UInt16.ofNat n

def readU32 : Parser Unit UInt32 := do
  let n ← word 4
  return UInt32.ofNat n

/-- `SMPPMessage::read`: a length of zero is refused. -/
def read (length : Nat) : Parser Unit Bytes :=
  if 0 < length then exactly length else Parser.fail ()

/-- `SMPPMessage::read(buffer, buffer.remaining())` -/
def readRemaining : Parser Unit Bytes := fun buffer => read buffer.length buffer

def readCOctetStr : Parser Unit String := do
  let octets ← untilOctet 0
  return fromUtf8Lossy octets

def readTlv : Parser Unit (UInt16 × Bytes) := do
  let tag ← readU16
  let length ← readU16
  let valueBytes ← read length.toNat
  return (tag, valueBytes)

def peekTlvTag (buffer : Bytes) : Option UInt16 :=
  if 2 ≤ buffer.length then some (UInt16.ofNat (beNat (buffer.take 2))) else none

theorem consumes_readU8 (value : UInt8) : Consumes readU8 (writeU8 value) value := by
  have h := (consumes_word [value]).bind_pure UInt8.ofNat
  simpa [readU8, writeU8, beNat] using h

theorem consumes_readU16 (value : UInt16) : Consumes readU16 (writeU16 value) value := by
  have h := (consumes_word (writeU16 value)).bind_pure UInt16.ofNat
  have hval : beNat (writeU16 value) = value.toNat := by
    rw [writeU16, beNat_beBytes]
    exact Nat.mod_eq_of_lt value.toNat_lt
  rw [hval, UInt16.ofNat_toNat, writeU16, length_beBytes] at h
  exact h

theorem consumes_readU32 (value : UInt32) : Consumes readU32 (writeU32 value) value := by
  have h := (consumes_word (writeU32 value)).bind_pure UInt32.ofNat
  have hval : beNat (writeU32 value) = value.toNat := by
    rw [writeU32, beNat_beBytes]
    exact Nat.mod_eq_of_lt value.toNat_lt
  rw [hval, UInt32.ofNat_toNat, writeU32, length_beBytes] at h
  exact h

theorem consumes_read {octets : Bytes} (h : octets ≠ []) :
    Consumes (read octets.length) octets octets := by
  rw [read, if_pos (List.length_pos_iff.mpr h)]
  exact consumes_exactly octets

theorem readRemaining_apply {octets : Bytes} (h : octets ≠ []) :
    readRemaining octets = (.ok octets, []) :=
  (consumes_read h).exact

/-- A text without NUL is read back from its terminated form. -/
theorem consumes_readCOctetStr {s : String} (h : (0 : UInt8) ∉ bytes s) :
    Consumes readCOctetStr (writeCOctetStr s) s := by
  have hread := (consumes_untilOctet 0 (bytes s) h).bind_pure fromUtf8Lossy
  rw [fromUtf8Lossy_bytes] at hread
  exact hread

theorem peekTlvTag_writeU16 (tag : UInt16) (rest : Bytes) :
    peekTlvTag (writeU16 tag ++ rest) = some tag := by
  have hlen : (writeU16 tag).length = 2 := length_beBytes 2 _
  have htake : (writeU16 tag ++ rest).take 2 = writeU16 tag := by
    rw [← hlen, List.take_left]
  have hval : beNat (writeU16 tag) = tag.toNat := by
    rw [writeU16, beNat_beBytes]
    exact Nat.mod_eq_of_lt tag.toNat_lt
  rw [peekTlvTag, if_pos (by simp [hlen]), htake, hval, UInt16.ofNat_toNat]

theorem writeU16_ofNat_beNat {octets : Bytes} (h : octets.length = 2) :
    writeU16 (UInt16.ofNat (beNat octets)) = octets := by
  have hlt : beNat octets < 2 ^ 16 := by
    have := beNat_lt octets
    rw [h] at this
    omega
  have hwrite := beBytes_beNat octets
  rw [h] at hwrite
  rw [writeU16, UInt16.toNat_ofNat_of_lt' hlt, hwrite]

theorem writeU32_ofNat_beNat {octets : Bytes} (h : octets.length = 4) :
    writeU32 (UInt32.ofNat (beNat octets)) = octets := by
  have hlt : beNat octets < 2 ^ 32 := by
    have := beNat_lt octets
    rw [h] at this
    omega
  have hwrite := beBytes_beNat octets
  rw [h] at hwrite
  rw [writeU32, UInt32.toNat_ofNat_of_lt' hlt, hwrite]

theorem exists_writeU16 {buffer : Bytes} (h : 2 ≤ buffer.length) :
    ∃ word rest, buffer = writeU16 word ++ rest := by
  refine ⟨UInt16.ofNat (beNat (buffer.take 2)), buffer.drop 2, ?_⟩
  rw [writeU16_ofNat_beNat (List.length_take_of_le h), List.take_append_drop]

theorem takes_readU8 : Takes readU8 fun n input => input = writeU8 n := by
  apply (takes_word 1).bind_pure UInt8.ofNat
  rintro n input ⟨hlength, rfl⟩
  obtain ⟨octet, rfl⟩ := List.length_eq_one_iff.mp hlength
  simp [writeU8, beNat]

theorem takes_readU32 : Takes readU32 fun n input => input = writeU32 n := by
  apply (takes_word 4).bind_pure UInt32.ofNat
  rintro n input ⟨hlength, rfl⟩
  exact (writeU32_ofNat_beNat hlength).symm

theorem takes_read (length : Nat) :
    Takes (read length) fun _ input => input.length = length ∧ input ≠ [] := by
  unfold read
  split
  · apply (takes_exactly length).mono
    rintro taken input ⟨rfl, hlength⟩
    refine ⟨hlength, ?_⟩
    rintro rfl
    simp_all
  · exact takes_fail ()

section Suffixes

theorem leavesSuffix_readU8 : LeavesSuffix readU8 :=
  (leavesSuffix_word 1).bind fun _ => leavesSuffix_pure _

theorem leavesSuffix_readU16 : LeavesSuffix readU16 :=
  (leavesSuffix_word 2).bind fun _ => leavesSuffix_pure _

theorem leavesSuffix_readU32 : LeavesSuffix readU32 :=
  (leavesSuffix_word 4).bind fun _ => leavesSuffix_pure _

theorem leavesSuffix_read (length : Nat) : LeavesSuffix (read length) := by
  unfold read
  split
  · exact leavesSuffix_exactly length
  · exact leavesSuffix_fail ()

theorem leavesSuffix_readRemaining : LeavesSuffix readRemaining := by
  intro buffer
  exact leavesSuffix_read buffer.length buffer

theorem leavesSuffix_readCOctetStr : LeavesSuffix readCOctetStr :=
  (leavesSuffix_untilOctet 0).bind fun _ => leavesSuffix_pure _

theorem leavesSuffix_readTlv : LeavesSuffix readTlv :=
  leavesSuffix_readU16.bind fun _ => leavesSuffix_readU16.bind fun length =>
    (leavesSuffix_read length.toNat).bind fun _ => leavesSuffix_pure _

end Suffixes

/-- Octets up to a NUL, which they do not contain, and the NUL. -/
def Terminated (input : Bytes) : Prop :=
  ∃ text : Bytes, (0 : UInt8) ∉ text ∧ input = text ++ [0]

theorem takes_readCOctetStr : Takes readCOctetStr fun _ => Terminated := by
  apply (takes_untilOctet 0).bind_pure fromUtf8Lossy
  rintro text input h
  exact ⟨text, h⟩

/-- The first word of the buffer, as `extract_message` reads it. -/
def lengthField (buffer : SmppMessageBuffer) : Nat := beNat (buffer.take 4)

def extractMessage : Extractor UInt8 SMPPMessage := fun buffer =>
  if buffer.length < 16 then none
  else
    let length := lengthField buffer
    if length ≤ buffer.length then some (buffer.take length, buffer.drop length) else none

end SmppHerald.Buffer
