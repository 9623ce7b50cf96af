import RT7.Base.Bytes

/-!
# UTF-16LE: strict decoding and its inverse

* `encode`, `decode`       characters to UTF-16 code units and back; `decode` is strict: an
                           unpaired surrogate makes the whole text undecodable;
* `decode_encode_append`   a prefix of encoded characters decodes to these characters;
* `bytesLE`, `unitsLE`     code units as little-endian bytes;
* `decodeLE`               `b.decode("utf-16-le")`, `none` where it raises `UnicodeDecodeError`;
* `decodeLE_padded`        an encoded name followed by NUL padding decodes to the name and NULs.
-/

namespace RT7.Utf16

/-- the code units of one character -/
def encodeChar (c : Char) : List Nat :=
  if c.toNat < 0x10000 then [c.toNat]
  else [0xD800 + (c.toNat - 0x10000) / 0x400, 0xDC00 + (c.toNat - 0x10000) % 0x400]

def encode (cs : List Char) : List Nat := cs.flatMap encodeChar

def decode : List Nat → Option (List Char)
  | [] => some []
  | u :: us =>
    if u < 0xD800 ∨ 0xE000 ≤ u then (decode us).map (Char.ofNat u :: ·)
    else if u < 0xDC00 then
      match us with
      | [] => none
      | v :: vs =>
        if 0xDC00 ≤ v ∧ v < 0xE000 then
          (decode vs).map (Char.ofNat (0x10000 + (u - 0xD800) * 0x400 + (v - 0xDC00)) :: ·)
        else none
    else none

theorem encode_nil : encode [] = [] := rfl
theorem encode_cons (c : Char) (cs : List Char) : encode (c :: cs) = encodeChar c ++ encode cs :=
  List.flatMap_cons

/-- a Unicode character is not a surrogate and is below `0x110000` -/
theorem char_range (c : Char) :
    c.toNat < 0xD800 ∨ (0xE000 ≤ c.toNat ∧ c.toNat < 0x110000) := by
  rcases c.valid with h | ⟨h1, h2⟩
  · exact Or.inl h
  · exact Or.inr ⟨h1, h2⟩

theorem encodeChar_lt {c : Char} {u : Nat} (h : u ∈ encodeChar c) : u < 65536 := by
  have hc := char_range c
  unfold encodeChar at h
  split at h
  · rw [List.mem_singleton] at h
    omega
  · rw [List.mem_cons, List.mem_singleton] at h
    omega

theorem encode_lt {cs : List Char} {u : Nat} (h : u ∈ encode cs) : u < 65536 := by
  obtain ⟨c, _, hc⟩ := List.mem_flatMap.mp h
  exact encodeChar_lt hc

theorem decode_scalar {u : Nat} (h : u < 0xD800 ∨ 0xE000 ≤ u) (us : List Nat) :
    decode (u :: us) = (decode us).map (Char.ofNat u :: ·) := by
  rw [decode.eq_def]
  exact if_pos h

theorem decode_pair {u v : Nat} (hu : 0xD800 ≤ u ∧ u < 0xDC00) (hv : 0xDC00 ≤ v ∧ v < 0xE000)
    (us : List Nat) : decode (u :: v :: us)
      = (decode us).map (Char.ofNat (0x10000 + (u - 0xD800) * 0x400 + (v - 0xDC00)) :: ·) := by
  have h1 : ¬ (u < 0xD800 ∨ 0xE000 ≤ u) := by omega
  rw [decode.eq_def]
  simp only [h1, hu.2, hv, if_true, if_false, and_self]

/-- the decoder reads one encoded character and goes on -/
theorem decode_encodeChar_append (c : Char) (us : List Nat) :
    decode (encodeChar c ++ us) = (decode us).map (c :: ·) := by
  have hc := char_range c
  unfold encodeChar
  by_cases hb : c.toNat < 0x10000
  · rw [if_pos hb, List.singleton_append, decode_scalar (by omega), Char.ofNat_toNat]
  · -- a character past the basic plane is a high and a low surrogate
    have h : 0x10000 + (0xD800 + (c.toNat - 0x10000) / 0x400 - 0xD800) * 0x400
        + (0xDC00 + (c.toNat - 0x10000) % 0x400 - 0xDC00) = c.toNat := by omega
    rw [if_neg hb]
    show decode (_ :: _ :: us) = _
    rw [decode_pair (by omega) (by omega), h, Char.ofNat_toNat]

theorem decode_encode_append (cs : List Char) (us : List Nat) :
    decode (encode cs ++ us) = (decode us).map (cs ++ ·) := by
  induction cs with
  | nil => simp [encode_nil]
  | cons c cs ih =>
    rw [encode_cons, List.append_assoc, decode_encodeChar_append, ih, Option.map_map]
    rfl

theorem decode_replicate_zero (n : Nat) :
    decode (List.replicate n 0) = some (List.replicate n '\x00') := by
  induction n with
  | zero => rfl
  | succ n ih =>
    rw [List.replicate_succ, decode_scalar (by omega), ih]
    rfl

/-! ## code units as bytes -/

def bytesLE (us : List Nat) : Bytes := us.flatMap (leBytes 2)

/-- Two bytes a code unit; a trailing odd byte is an error. -/
def unitsLE : Bytes → Option (List Nat)
  | [] => some []
  | [_] => none
  | a :: b :: bs => (unitsLE bs).map (leNat [a, b] :: ·)

theorem length_bytesLE (us : List Nat) : (bytesLE us).length = 2 * us.length := by
  induction us with
  | nil => rfl
  | cons u us ih =>
    show (leBytes 2 u ++ bytesLE us).length = _
    rw [List.length_append, length_leBytes, ih, List.length_cons]
    omega

theorem unitsLE_bytesLE {us : List Nat} (h : ∀ u ∈ us, u < 65536) : unitsLE (bytesLE us) = some us := by
  induction us with
  | nil => rfl
  | cons u us ih =>
    have hu : leNat (leBytes 2 u) = u := leNat_leBytes (by
      have := h u List.mem_cons_self
      omega)
    show (unitsLE (bytesLE us)).map (leNat (leBytes 2 u) :: ·) = _
    rw [ih fun v hv => h v (List.mem_cons_of_mem u hv), hu]
    rfl

theorem bytesLE_append (us vs : List Nat) : bytesLE (us ++ vs) = bytesLE us ++ bytesLE vs :=
  List.flatMap_append

theorem bytesLE_replicate_zero (n : Nat) :
    bytesLE (List.replicate n 0) = List.replicate (2 * n) 0 := by
  induction n with
  | zero => rfl
  | succ n ih =>
    show leBytes 2 0 ++ bytesLE (List.replicate n 0) = _
    rw [ih]
    rfl

/-- `b.decode("utf-16-le")` -/
def decodeLE (b : Bytes) : Option (List Char) := (unitsLE b).bind decode

/-- an encoded text and `n` NUL code units of padding -/
theorem decodeLE_padded (cs : List Char) (n : Nat) :
    decodeLE (bytesLE (encode cs) ++ List.replicate (2 * n) 0)
      = some (cs ++ List.replicate n '\x00') := by
  have hlt : ∀ u ∈ encode cs ++ List.replicate n 0, u < 65536 := by
    intro u hu
    rcases List.mem_append.mp hu with h | h
    · exact encode_lt h
    · rw [List.eq_of_mem_replicate h]
      omega
  rw [← bytesLE_replicate_zero, ← bytesLE_append, decodeLE, unitsLE_bytesLE hlt, Option.bind_some,
    decode_encode_append, decode_replicate_zero]
  rfl

end RT7.Utf16
