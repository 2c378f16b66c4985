import SmppHerald.Library.ByteParser

namespace SmppHerald.Utf8

open SmppHerald.ByteParser

def charBytes (cs : List Char) : Bytes := cs.flatMap String.utf8EncodeChar

/-- The octets of a string. -/
def bytes (s : String) : Bytes := charBytes s.toList

@[simp] theorem bytes_ofList (cs : List Char) : bytes (String.ofList cs) = charBytes cs := by
  simp [bytes]

/-- `to_lowercase`, as far as comparisons with ASCII texts can tell: besides the ASCII capitals only
the Kelvin sign has an ASCII lower case. -/
def toLowercase (c : Char) : Char := if c.toNat = 0x212A then 'k' else c.toLower

theorem charBytes_cons (c : Char) (cs : List Char) :
    charBytes (c :: cs) = String.utf8EncodeChar c ++ charBytes cs := rfl

section Lossy

/-- An incomplete sequence: how many octets are missing, the range of the next one, and the value
of the octets read so far. -/
structure Pending where
  missing : Nat
  low : Nat
  high : Nat
  value : Nat

/-- What the first octet of a sequence says. -/
inductive First
  | char (value : Nat)
  | lead (pending : Pending)
  | illFormed

def first (b : Nat) : First :=
  if b < 0x80 then .char b
  else if b < 0xC2 then .illFormed
  else if b < 0xE0 then .lead ⟨1, 0x80, 0xBF, b % 32⟩
  else if b < 0xF0 then
    .lead ⟨2, if b = 0xE0 then 0xA0 else 0x80, if b = 0xED then 0x9F else 0xBF, b % 16⟩
  else if b < 0xF5 then
    .lead ⟨3, if b = 0xF0 then 0x90 else 0x80, if b = 0xF4 then 0x8F else 0xBF, b % 8⟩
  else .illFormed

/-- U+FFFD, which stands for each maximal ill-formed part. -/
def replacement : Char := Char.ofNat 0xFFFD

/-- Decode octets to characters, each maximal ill-formed part to one replacement character. -/
def lossyChars : Option Pending → Bytes → List Char
  | none, [] => []
  | some _, [] => [replacement]
  | none, b :: rest =>
      match first b.toNat with
      | .char value => Char.ofNat value :: lossyChars none rest
      | .lead pending => lossyChars (some pending) rest
      | .illFormed => replacement :: lossyChars none rest
  | some pending, b :: rest =>
      if pending.low ≤ b.toNat ∧ b.toNat ≤ pending.high then
        let value := pending.value * 64 + b.toNat % 64
        match pending.missing with
        | 0 | 1 => Char.ofNat value :: lossyChars none rest
        | missing + 2 => lossyChars (some ⟨missing + 1, 0x80, 0xBF, value⟩) rest
      else
        match first b.toNat with
        | .char value => replacement :: Char.ofNat value :: lossyChars none rest
        | .lead pending => replacement :: lossyChars (some pending) rest
        | .illFormed => replacement :: replacement :: lossyChars none rest

def fromUtf8Lossy (octets : Bytes) : String := String.ofList (lossyChars none octets)

theorem toNat_ofNat_of_lt {n : Nat} (h : n < 256) : (UInt8.ofNat n).toNat = n :=
  UInt8.toNat_ofNat_of_lt' h

theorem lossyChars_char {b : UInt8} {value : Nat} (h : first b.toNat = .char value)
    (rest : Bytes) : lossyChars none (b :: rest) = Char.ofNat value :: lossyChars none rest := by
  simp only [lossyChars, h]

theorem lossyChars_lead {b : UInt8} {pending : Pending} (h : first b.toNat = .lead pending)
    (rest : Bytes) : lossyChars none (b :: rest) = lossyChars (some pending) rest := by
  simp only [lossyChars, h]

/-- The octet in the range that the pending sequence allows is its last one. -/
theorem lossyChars_last (low high value v : Nat) (rest : Bytes)
    (hlow : low ≤ v % 64 + 128) (hhigh : v % 64 + 128 ≤ high) :
    lossyChars (some ⟨1, low, high, value⟩) (UInt8.ofNat (v % 64 + 128) :: rest) =
      Char.ofNat (value * 64 + v % 64) :: lossyChars none rest := by
  have hb : (UInt8.ofNat (v % 64 + 128)).toNat = v % 64 + 128 := toNat_ofNat_of_lt (by omega)
  simp only [lossyChars, hb, hlow, hhigh, and_self, if_true]
  congr 2
  omega

theorem lossyChars_tail (missing low high value v : Nat) (rest : Bytes)
    (hlow : low ≤ v % 64 + 128) (hhigh : v % 64 + 128 ≤ high) :
    lossyChars (some ⟨missing + 2, low, high, value⟩) (UInt8.ofNat (v % 64 + 128) :: rest) =
      lossyChars (some ⟨missing + 1, 0x80, 0xBF, value * 64 + v % 64⟩) rest := by
  have hb : (UInt8.ofNat (v % 64 + 128)).toNat = v % 64 + 128 := toNat_ofNat_of_lt (by omega)
  simp only [lossyChars, hb, hlow, hhigh, and_self, if_true]
  congr 3
  omega

theorem lossyChars_utf8EncodeChar (c : Char) (rest : Bytes) :
    lossyChars none (String.utf8EncodeChar c ++ rest) = c :: lossyChars none rest := by
  have hvalid := c.valid
  have hval : Char.ofNat c.val.toNat = c := Char.ofNat_toNat c
  simp only [UInt32.isValidChar, Nat.isValidChar] at hvalid
  unfold String.utf8EncodeChar
  generalize c.val.toNat = v at hvalid hval
  -- one case for each length of the sequence
  by_cases h1 : v ≤ 0x7f
  · have hfirst : first (UInt8.ofNat v).toNat = .char v := by
      rw [toNat_ofNat_of_lt (by omega), first, if_pos (by omega)]
    simp only [if_pos h1, List.singleton_append]
    rw [lossyChars_char hfirst, hval]
  by_cases h2 : v ≤ 0x7ff
  · have hfirst : first (UInt8.ofNat (v / 64 % 32 + 192)).toNat =
        .lead ⟨1, 0x80, 0xBF, v / 64 % 32⟩ := by
      rw [toNat_ofNat_of_lt (by omega), first, if_neg (by omega), if_neg (by omega),
        if_pos (by omega)]
      congr 2
      omega
    simp only [if_neg h1, if_pos h2, List.cons_append, List.nil_append]
    rw [lossyChars_lead hfirst, lossyChars_last _ _ _ _ _ (by omega) (by omega), ← hval]
    congr 2
    omega
  by_cases h3 : v ≤ 0xffff
  · have hfirst : first (UInt8.ofNat (v / 4096 % 16 + 224)).toNat =
        .lead ⟨2, if v / 4096 % 16 + 224 = 0xE0 then 0xA0 else 0x80,
          if v / 4096 % 16 + 224 = 0xED then 0x9F else 0xBF, v / 4096 % 16⟩ := by
      rw [toNat_ofNat_of_lt (by omega), first, if_neg (by omega), if_neg (by omega),
        if_neg (by omega), if_pos (by omega)]
      congr 2
      omega
    simp only [if_neg h1, if_neg h2, if_pos h3, List.cons_append, List.nil_append]
    rw [lossyChars_lead hfirst,
      lossyChars_tail 0 _ _ _ _ _ (by split <;> omega) (by split <;> omega),
      lossyChars_last _ _ _ _ _ (by omega) (by omega), ← hval]
    congr 2
    omega
  have hfirst : first (UInt8.ofNat (v / 262144 % 8 + 240)).toNat =
      .lead ⟨3, if v / 262144 % 8 + 240 = 0xF0 then 0x90 else 0x80,
        if v / 262144 % 8 + 240 = 0xF4 then 0x8F else 0xBF, v / 262144 % 8⟩ := by
    rw [toNat_ofNat_of_lt (by omega), first, if_neg (by omega), if_neg (by omega),
      if_neg (by omega), if_neg (by omega), if_pos (by omega)]
    congr 2
    omega
  simp only [if_neg h1, if_neg h2, if_neg h3, List.cons_append, List.nil_append]
  rw [lossyChars_lead hfirst,
    lossyChars_tail 1 _ _ _ _ _ (by split <;> omega) (by split <;> omega),
    lossyChars_tail 0 _ _ _ _ _ (by omega) (by omega),
    lossyChars_last _ _ _ _ _ (by omega) (by omega), ← hval]
  congr 2
  omega

theorem lossyChars_charBytes (cs : List Char) : lossyChars none (charBytes cs) = cs := by
  induction cs with
  | nil => rfl
  | cons c cs ih => rw [charBytes_cons, lossyChars_utf8EncodeChar, ih]

theorem fromUtf8Lossy_bytes (s : String) : fromUtf8Lossy (bytes s) = s := by
  rw [fromUtf8Lossy, bytes, lossyChars_charBytes, String.ofList_toList]

end Lossy

section Nul

theorem zero_mem_utf8EncodeChar {c : Char} (h : (0 : UInt8) ∈ String.utf8EncodeChar c) :
    c = Char.ofNat 0 := by
  have hsmall : ∀ n, n < 256 → (0 : UInt8) = UInt8.ofNat n → n = 0 := by
    intro n hn hzero
    have := congrArg UInt8.toNat hzero
    rw [toNat_ofNat_of_lt hn] at this
    exact this.symm
  unfold String.utf8EncodeChar at h
  simp only at h
  split at h
  · rename_i hlow
    have hzero := hsmall _ (by omega) (List.mem_singleton.mp h)
    rw [← Char.ofNat_toNat c]
    exact congrArg Char.ofNat hzero
  · exfalso
    split at h
    · simp only [List.mem_cons, List.not_mem_nil, or_false] at h
      rcases h with h | h <;> exact absurd (hsmall _ (by omega) h) (by omega)
    split at h
    · simp only [List.mem_cons, List.not_mem_nil, or_false] at h
      rcases h with h | h | h <;> exact absurd (hsmall _ (by omega) h) (by omega)
    · simp only [List.mem_cons, List.not_mem_nil, or_false] at h
      rcases h with h | h | h | h <;> exact absurd (hsmall _ (by omega) h) (by omega)

theorem zero_notMem_charBytes {cs : List Char} (h : Char.ofNat 0 ∉ cs) :
    (0 : UInt8) ∉ charBytes cs := by
  rw [charBytes, List.mem_flatMap]
  rintro ⟨c, hc, hzero⟩
  obtain rfl := zero_mem_utf8EncodeChar hzero
  exact h hc

theorem ofNat_ne_nul {n : Nat} (hvalid : n.isValidChar) (hpos : 0 < n) :
    Char.ofNat n ≠ Char.ofNat 0 := by
  intro h
  have hcode := congrArg Char.toNat h
  have htoNat : (Char.ofNat n).toNat = n := by
    rw [Char.ofNat, dif_pos hvalid]
    rfl
  rw [htoNat] at hcode
  have hzero : (Char.ofNat 0).toNat = 0 := rfl
  omega

/-- Whatever octets complete the sequence, it denotes a character, and not NUL. -/
def Sound : Nat → Nat → Nat → Nat → Prop
  | 0, low, high, value | 1, low, high, value => ∀ b, low ≤ b → b ≤ high →
      (value * 64 + b % 64).isValidChar ∧ 0 < value * 64 + b % 64
  | missing + 2, low, high, value => ∀ b, low ≤ b → b ≤ high →
      Sound (missing + 1) 0x80 0xBF (value * 64 + b % 64)

theorem sound_first {b : Nat} {pending : Pending} (h : first b = .lead pending) :
    Sound pending.missing pending.low pending.high pending.value := by
  unfold first at h
  split at h
  · cases h
  split at h
  · cases h
  split at h
  · obtain rfl := First.lead.inj h
    intro b' hlow hhigh
    simp only [Nat.isValidChar]
    omega
  split at h
  · obtain rfl := First.lead.inj h
    intro b' hlow hhigh b'' hlow' hhigh'
    simp only [Nat.isValidChar] at hlow hhigh ⊢
    split at hlow <;> split at hhigh <;> omega
  split at h
  · obtain rfl := First.lead.inj h
    intro b' hlow hhigh b'' hlow' hhigh' b''' hlow'' hhigh''
    simp only [Nat.isValidChar] at hlow hhigh ⊢
    split at hlow <;> split at hhigh <;> omega
  · cases h

def SoundPending (pending : Option Pending) : Prop :=
  ∀ p, pending = some p → Sound p.missing p.low p.high p.value

theorem first_char {b value : Nat} (h : first b = .char value) : value = b ∧ b < 0x80 := by
  unfold first at h
  split at h
  · rename_i hb
    exact ⟨(First.char.inj h).symm, hb⟩
  · repeat (split at h <;> try cases h)

theorem replacement_ne_nul : replacement ≠ Char.ofNat 0 := by decide

theorem nul_notMem_lossyChars (octets : Bytes) (pending : Option Pending)
    (hpending : SoundPending pending) (h : (0 : UInt8) ∉ octets) :
    Char.ofNat 0 ∉ lossyChars pending octets := by
  have hchar : ∀ {b : UInt8} {value : Nat}, b ≠ 0 → first b.toNat = .char value →
      Char.ofNat value ≠ Char.ofNat 0 := by
    intro b value hb hfirst
    obtain ⟨rfl, hlt⟩ := first_char hfirst
    have hpos : 0 < b.toNat := by
      refine Nat.pos_of_ne_zero fun hzero => hb (UInt8.toNat_inj.mp hzero)
    exact ofNat_ne_nul (.inl (by omega)) hpos
  have hnone : SoundPending none := fun _ hp => by cases hp
  have hlead : ∀ {b : UInt8} {p : Pending}, first b.toNat = .lead p → SoundPending (some p) := by
    rintro b p hfirst _ hp
    obtain rfl := Option.some.inj hp
    exact sound_first hfirst
  induction octets generalizing pending with
  | nil =>
      cases pending with
      | none => simp [lossyChars]
      | some p => simpa [lossyChars] using replacement_ne_nul.symm
  | cons b rest ih =>
      rw [List.mem_cons, not_or] at h
      obtain ⟨hb, hrest⟩ := h
      have hb : b ≠ 0 := fun hzero => hb hzero.symm
      cases pending with
      | none =>
          unfold lossyChars
          split
          · rename_i value hfirst
            rw [List.mem_cons, not_or]
            exact ⟨(hchar hb hfirst).symm, ih none hnone hrest⟩
          · rename_i p hfirst
            exact ih (some p) (hlead hfirst) hrest
          · rw [List.mem_cons, not_or]
            exact ⟨replacement_ne_nul.symm, ih none hnone hrest⟩
      | some p =>
          have hp := hpending p rfl
          unfold lossyChars
          split
          · rename_i hrange
            simp only
            split
            · rename_i hmissing
              rw [hmissing] at hp
              obtain ⟨hvalid, hpos⟩ := hp b.toNat hrange.1 hrange.2
              rw [List.mem_cons, not_or]
              exact ⟨(ofNat_ne_nul hvalid hpos).symm, ih none hnone hrest⟩
            · rename_i hmissing
              rw [hmissing] at hp
              obtain ⟨hvalid, hpos⟩ := hp b.toNat hrange.1 hrange.2
              rw [List.mem_cons, not_or]
              exact ⟨(ofNat_ne_nul hvalid hpos).symm, ih none hnone hrest⟩
            · rename_i missing hmissing
              rw [hmissing] at hp
              apply ih _ _ hrest
              rintro _ hnext
              obtain rfl := Option.some.inj hnext
              exact hp b.toNat hrange.1 hrange.2
          · split
            · rename_i value hfirst
              simp only [List.mem_cons, not_or]
              exact ⟨replacement_ne_nul.symm, (hchar hb hfirst).symm, ih none hnone hrest⟩
            · rename_i p' hfirst
              rw [List.mem_cons, not_or]
              exact ⟨replacement_ne_nul.symm, ih (some p') (hlead hfirst) hrest⟩
            · simp only [List.mem_cons, not_or]
              exact ⟨replacement_ne_nul.symm, replacement_ne_nul.symm, ih none hnone hrest⟩

theorem zero_notMem_fromUtf8Lossy {octets : Bytes} (h : (0 : UInt8) ∉ octets) :
    (0 : UInt8) ∉ bytes (fromUtf8Lossy octets) := by
  rw [fromUtf8Lossy, bytes_ofList]
  exact zero_notMem_charBytes (nul_notMem_lossyChars octets none (fun _ hp => by cases hp) h)

end Nul

section Cut

/-- The characters in the first `n` octets, or nothing when the `n`-th octet is not the last of a
character. -/
def cutChars : List Char → Nat → Option (List Char)
  | _, 0 => some []
  | [], _ + 1 => none
  | c :: cs, n + 1 =>
      if c.utf8Size ≤ n + 1 then (cutChars cs (n + 1 - c.utf8Size)).map (c :: ·) else none

/-- The first `n` octets of a string as a string, if the cut falls between two characters. -/
def cut (s : String) (n : Nat) : Option String := (cutChars s.toList n).map String.ofList

/-- The characters behind the first `n` octets, or nothing when the cut falls inside a character. -/
def restChars : List Char → Nat → Option (List Char)
  | cs, 0 => some cs
  | [], _ + 1 => none
  | c :: cs, n + 1 => if c.utf8Size ≤ n + 1 then restChars cs (n + 1 - c.utf8Size) else none

/-- The octets from `i` up to `j` of a string as characters, if both cuts fall between two. -/
def slice (s : String) (i j : Nat) : Option (List Char) :=
  (restChars s.toList i).bind fun rest => cutChars rest (j - i)

end Cut

section Ascii

variable {cs : List Char}

theorem length_charBytes_cons (c : Char) (cs : List Char) :
    (charBytes (c :: cs)).length = c.utf8Size + (charBytes cs).length := by
  rw [charBytes_cons, List.length_append, String.length_utf8EncodeChar]

theorem length_charBytes_ascii (h : ∀ c ∈ cs, c.utf8Size = 1) :
    (charBytes cs).length = cs.length := by
  induction cs with
  | nil => rfl
  | cons c cs ih =>
      rw [List.forall_mem_cons] at h
      rw [length_charBytes_cons, ih h.2, h.1, List.length_cons, Nat.add_comm]

theorem restChars_ascii (h : ∀ c ∈ cs, c.utf8Size = 1) {n : Nat} (hn : n ≤ cs.length) :
    restChars cs n = some (cs.drop n) := by
  induction cs generalizing n with
  | nil =>
      obtain rfl := Nat.le_zero.mp hn
      rfl
  | cons c cs ih =>
      rw [List.forall_mem_cons] at h
      cases n with
      | zero => rfl
      | succ n =>
          rw [restChars, if_pos (by omega), h.1, Nat.add_sub_cancel,
            ih h.2 (Nat.le_of_succ_le_succ hn), List.drop_succ_cons]

theorem cutChars_ascii (h : ∀ c ∈ cs, c.utf8Size = 1) {n : Nat} (hn : n ≤ cs.length) :
    cutChars cs n = some (cs.take n) := by
  induction cs generalizing n with
  | nil =>
      obtain rfl := Nat.le_zero.mp hn
      rfl
  | cons c cs ih =>
      rw [List.forall_mem_cons] at h
      cases n with
      | zero => rfl
      | succ n =>
          rw [cutChars, if_pos (by omega), h.1, Nat.add_sub_cancel, ih h.2 (Nat.le_of_succ_le_succ hn),
            Option.map_some, List.take_succ_cons]

theorem slice_ascii (h : ∀ c ∈ cs, c.utf8Size = 1) {i j : Nat} (hij : i ≤ j) (hj : j ≤ cs.length) :
    slice (String.ofList cs) i j = some ((cs.drop i).take (j - i)) := by
  rw [slice, String.toList_ofList, restChars_ascii h (Nat.le_trans hij hj), Option.bind_some]
  refine cutChars_ascii (fun c hc => h c (List.mem_of_mem_drop hc)) ?_
  rw [List.length_drop]
  omega

end Ascii

end SmppHerald.Utf8
