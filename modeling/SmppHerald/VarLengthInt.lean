import Mathlib.Data.List.Palindrome
import Mathlib.Data.Nat.Digits.Defs
import SmppHerald.Delimiting

namespace SmppHerald.VarLengthInt

open SmppHerald.Buffer
open SmppHerald.ByteParser
open SmppHerald.Delimiting
open SmppHerald.FieldCodecs
open SmppHerald.Io
open SmppHerald.Json

/-- The entry of `create_tlv_fields`. -/
def destAddrNpCountry : TLVFieldCodec := ⟨0x0613, "dest_addr_np_country", .varLengthInt⟩

example : taggedTlvFields 0x0613 = some destAddrNpCountry := rfl

def number (n : UInt64) : Value := .number (.posInt n)

/-- What the decoder makes of the octets of a value. -/
def readNumber (octets : Bytes) : UInt64 := octets.foldl (fun n b => n <<< 8 ||| b.toUInt64) 0

/-- A number comes back from the TLV that it is encoded as. -/
def NumberKept (n : UInt64) : Prop :=
  ∃ octets, destAddrNpCountry.encode (number n) = .ok octets ∧
    (destAddrNpCountry.decode octets).1 = .ok (number n)

/-- Octets come back from the number that they are decoded as. -/
def OctetsKept (octets : Bytes) : Prop :=
  ∃ value, (FieldCodec.varLengthInt.decode octets).1 = .ok value ∧
    FieldCodec.varLengthInt.encode value = .ok octets

/-- So does the TLV with these octets. -/
def TlvKept (octets : Bytes) : Prop :=
  ∃ value, (destAddrNpCountry.decode (encodedTlv destAddrNpCountry octets)).1 = .ok value ∧
    destAddrNpCountry.encode value = .ok (encodedTlv destAddrNpCountry octets)

/-- The octets as digits. -/
def digitsOf (octets : Bytes) : List Nat := octets.map UInt8.toNat

section Digits

theorem digitsOf_lt (octets : Bytes) : ∀ d ∈ digitsOf octets, d < 256 := by
  intro d hd
  obtain ⟨octet, -, rfl⟩ := List.mem_map.mp hd
  exact octet.toNat_lt

theorem digitsOf_inj {octets octets' : Bytes} :
    digitsOf octets = digitsOf octets' ↔ octets = octets' :=
  (List.map_injective_iff.mpr fun _ _ => UInt8.toNat_inj.mp).eq_iff

theorem ofDigits_reverse_eq_iff {digits : List Nat} (hdigits : ∀ d ∈ digits, d < 256) :
    Nat.ofDigits 256 digits.reverse = Nat.ofDigits 256 digits ↔ digits.Palindrome := by
  rw [List.Palindrome.iff_reverse_eq]
  constructor
  · intro h
    have hreverse : ∀ d ∈ digits.reverse, d < 256 := fun d hd => hdigits d (List.mem_reverse.mp hd)
    exact Nat.ofDigits_inj_of_len_eq (by decide) List.length_reverse hreverse hdigits h
  · intro h
    rw [h]

/-- The octets are written from the least significant one. -/
theorem digitsOf_varLengthOctets {rounds : Nat} {n : UInt64} (h : n.toNat < 256 ^ rounds) :
    digitsOf (varLengthOctets rounds n) = Nat.digits 256 n.toNat := by
  induction rounds generalizing n with
  | zero =>
      have hzero : n.toNat = 0 := by omega
      simp [varLengthOctets, digitsOf, hzero]
  | succ rounds ih =>
      rw [varLengthOctets]
      split
      · rename_i hzero
        simp [digitsOf, hzero]
      · rename_i hne
        have hpos : 0 < n.toNat := by
          rw [Nat.pos_iff_ne_zero]
          exact fun hzero => hne (UInt64.toNat_inj.mp (by simpa using hzero))
        rw [Nat.digits_def' (by decide) hpos, ← toNat_shiftRight_eight,
          ← ih (toNat_shiftRight_eight_lt h), digitsOf, List.map_cons, UInt64.toNat_toUInt8]
        rfl

theorem toNat_push {n : UInt64} (h : n.toNat < 256 ^ 7) (octet : UInt8) :
    (n <<< 8 ||| octet.toUInt64).toNat = octet.toNat + 256 * n.toNat := by
  have hlt : n.toNat <<< 8 < 2 ^ 64 := by
    rw [Nat.shiftLeft_eq]
    omega
  have hshift : (n <<< 8).toNat = n.toNat <<< 8 := by
    rw [UInt64.toNat_shiftLeft]
    exact Nat.mod_eq_of_lt hlt
  have hor := Nat.shiftLeft_add_eq_or_of_lt octet.toNat_lt n.toNat
  rw [UInt64.toNat_or, hshift, UInt8.toNat_toUInt64, ← hor, Nat.shiftLeft_eq]
  omega

/-- The octets are read from the most significant one. -/
theorem toNat_readNumber {octets : Bytes} (h : octets.length ≤ 8) :
    (readNumber octets).toNat = Nat.ofDigits 256 (digitsOf octets).reverse := by
  induction octets using List.reverseRecOn with
  | nil => rfl
  | append_singleton octets octet ih =>
      rw [List.length_append, List.length_singleton] at h
      have hfront := ih (by omega)
      have hbound : (readNumber octets).toNat < 256 ^ 7 := by
        have hlt := @Nat.ofDigits_lt_base_pow_length 256 _ (by decide)
          (fun d hd => digitsOf_lt octets d (List.mem_reverse.mp hd))
        rw [List.length_reverse, digitsOf, List.length_map] at hlt
        rw [hfront]
        exact Nat.lt_of_lt_of_le hlt (Nat.pow_le_pow_right (by decide) (by omega))
      have hdigits : (digitsOf (octets ++ [octet])).reverse =
          octet.toNat :: (digitsOf octets).reverse := by
        simp [digitsOf]
      rw [readNumber, List.foldl_append, List.foldl_cons, List.foldl_nil]
      change (readNumber octets <<< 8 ||| octet.toUInt64).toNat = _
      rw [toNat_push hbound, hdigits, Nat.ofDigits_cons, hfront]

end Digits

section RoundTrips

theorem encode_number (n : UInt64) :
    destAddrNpCountry.encode (number n) =
      .ok (encodedTlv destAddrNpCountry (varLengthOctets 8 n)) := rfl

theorem decode_octets (octets : Bytes) :
    (FieldCodec.varLengthInt.decode octets).1 = .ok (number (readNumber octets)) := rfl

theorem decode_tlv_iff {octets : Bytes} (h : octets.length ≤ 8) (value : Value) :
    (destAddrNpCountry.decode (encodedTlv destAddrNpCountry octets)).1 = .ok value ↔
      octets ≠ [] ∧ number (readNumber octets) = value := by
  by_cases hempty : octets = []
  · subst hempty
    have herror : (destAddrNpCountry.decode (encodedTlv destAddrNpCountry [])).1 =
        .error (invalidInput "Failed to read TLV from buffer") := rfl
    simp [herror]
  · obtain ⟨result, hdecode, hread⟩ :=
      decode_encodedTlv destAddrNpCountry (Nat.le_trans h (by decide : 8 ≤ 65535)) []
    rw [List.append_nil] at hdecode
    have hvalue : number (readNumber octets) = result.toOption.getD .null := by
      rw [← hread, readBack, if_neg hempty]
      rfl
    cases result with
    | error e => cases hvalue
    | ok found =>
        obtain rfl : number (readNumber octets) = found := hvalue
        simp [hdecode, hempty]

theorem encodedTlv_inj {codec : TLVFieldCodec} {part part' : Bytes} :
    encodedTlv codec part = encodedTlv codec part' ↔ part = part' := by
  constructor
  · intro h
    have hdrop := congrArg (List.drop 4) h
    simpa [encodedTlv, writeU16, beBytes] using hdrop
  · rintro rfl
    rfl

theorem number_inj {n m : UInt64} : number n = number m ↔ n = m := by
  simp [number]

theorem length_varLengthOctets_le (n : UInt64) : (varLengthOctets 8 n).length ≤ 8 :=
  Narrowing.length_varLengthOctets_le 8 n

theorem readNumber_varLengthOctets_eq_iff (n : UInt64) :
    readNumber (varLengthOctets 8 n) = n ↔ (Nat.digits 256 n.toNat).Palindrome := by
  have hdigits : ∀ d ∈ Nat.digits 256 n.toNat, d < 256 :=
    fun d hd => Nat.digits_lt_base (by decide) hd
  rw [← UInt64.toNat_inj, toNat_readNumber (length_varLengthOctets_le n),
    digitsOf_varLengthOctets n.toNat_lt, ← ofDigits_reverse_eq_iff hdigits, Nat.ofDigits_digits]

theorem varLengthOctets_readNumber_eq_iff {octets : Bytes} (hlength : octets.length ≤ 8)
    (hlead : octets.head? ≠ some 0) :
    varLengthOctets 8 (readNumber octets) = octets ↔ octets.Palindrome := by
  have hlast : ∀ h : (digitsOf octets).reverse ≠ [],
      (digitsOf octets).reverse.getLast h ≠ 0 := by
    intro h
    cases octets with
    | nil => exact absurd rfl h
    | cons octet octets =>
        simp only [digitsOf, List.map_cons, List.reverse_cons, List.getLast_append_singleton]
        intro hzero
        exact hlead (congrArg some (UInt8.toNat_inj.mp hzero))
  have hreverse : ∀ d ∈ (digitsOf octets).reverse, d < 256 :=
    fun d hd => digitsOf_lt octets d (List.mem_reverse.mp hd)
  rw [← digitsOf_inj, digitsOf_varLengthOctets (UInt64.toNat_lt _), toNat_readNumber hlength,
    Nat.digits_ofDigits 256 (by decide) _ hreverse hlast, digitsOf, ← List.map_reverse,
    List.Palindrome.iff_reverse_eq]
  exact digitsOf_inj

theorem varLengthOctets_eq_nil_iff (n : UInt64) : varLengthOctets 8 n = [] ↔ n = 0 := by
  rw [varLengthOctets]
  split
  · rename_i hzero
    simp [hzero]
  · rename_i hne
    simp [hne]

/-- What the codec writes and what it reads have opposite orders: a number comes back when its
octets are the same from both ends, and octets when they are; and a TLV needs an octet. -/
theorem varLengthInt_round_trips_iff (n : UInt64) {octets : Bytes} (hlength : octets.length ≤ 8)
    (hlead : octets.head? ≠ some 0) :
    (NumberKept n ↔ n ≠ 0 ∧ (Nat.digits 256 n.toNat).Palindrome) ∧
      (OctetsKept octets ↔ octets.Palindrome) ∧
        (TlvKept octets ↔ octets ≠ [] ∧ octets.Palindrome) := by
  refine ⟨?_, ?_, ?_⟩
  · have hdecode := decode_tlv_iff (length_varLengthOctets_le n) (number n)
    rw [number_inj, readNumber_varLengthOctets_eq_iff, ne_eq, varLengthOctets_eq_nil_iff] at hdecode
    rw [← hdecode, NumberKept, encode_number]
    simp
  · rw [← varLengthOctets_readNumber_eq_iff hlength hlead, OctetsKept, decode_octets]
    simp [number, FieldCodec.encode, Value.asU64, Number.asU64]
  · have hencode : destAddrNpCountry.encode (number (readNumber octets)) =
        .ok (encodedTlv destAddrNpCountry octets) ↔
          varLengthOctets 8 (readNumber octets) = octets := by
      rw [encode_number, Outcome.ok.injEq, encodedTlv_inj]
    rw [← varLengthOctets_readNumber_eq_iff hlength hlead, ← hencode, TlvKept]
    simp only [decode_tlv_iff hlength]
    constructor
    · rintro ⟨value, ⟨hne, rfl⟩, hencoded⟩
      exact ⟨hne, hencoded⟩
    · rintro ⟨hne, hencoded⟩
      exact ⟨_, ⟨hne, rfl⟩, hencoded⟩

/-- The octets 01 01 and 01 02 01. -/
theorem varLengthInt_round_trips_palindromes :
    NumberKept 257 ∧ OctetsKept [1, 2, 1] ∧ TlvKept [1, 2, 1] := by
  have hdigits : Nat.digits 256 (257 : UInt64).toNat = [1, 1] := by
    rw [show (257 : UInt64).toNat = 257 from rfl]
    norm_num
  have hnumber : (Nat.digits 256 (257 : UInt64).toNat).Palindrome := by
    rw [hdigits]
    decide
  have hoctets : List.Palindrome ([1, 2, 1] : Bytes) := by decide
  obtain ⟨hkept, hoctetsKept, htlvKept⟩ :=
    @varLengthInt_round_trips_iff 257 [1, 2, 1] (by decide) (by decide)
  exact ⟨hkept.mpr ⟨by decide, hnumber⟩, hoctetsKept.mpr hoctets,
    htlvKept.mpr ⟨by decide, hoctets⟩⟩

/-- 256 is written as 00 01, which is read as 1; and 01 00 is read as 256. -/
theorem not_varLengthInt_round_trips :
    ¬ NumberKept 256 ∧ ([1, 0] : Bytes).length ≤ 8 ∧ ([1, 0] : Bytes).head? ≠ some 0 ∧
      ¬ OctetsKept [1, 0] := by
  refine ⟨?_, by decide, by decide, ?_⟩
  · rintro ⟨octets, hencode, hdecode⟩
    rw [encode_number] at hencode
    obtain rfl := Outcome.ok.inj hencode
    have hsame := ((decode_tlv_iff (length_varLengthOctets_le 256) _).mp hdecode).2
    exact absurd (number_inj.mp hsame) (by decide)
  · rintro ⟨value, hdecode, hencode⟩
    rw [decode_octets] at hdecode
    obtain rfl := Except.ok.inj hdecode
    exact absurd (Outcome.ok.inj hencode) (by decide)

end RoundTrips

end SmppHerald.VarLengthInt
