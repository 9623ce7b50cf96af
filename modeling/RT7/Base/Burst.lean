import RT7.Base.Crc32

/-!
# Bursts of differing bits, and what CRC-32 makes of them

* `bitAt b i`        the bit `i` of a byte string; in each byte the lowest bit comes first;
* `DifferWithin a b start n`   two strings of one length whose differing bits are among the `n` from
  `start` on;
* `BurstDetecting f`   `f` tells strings apart that differ within 32 consecutive bits;
* `feed`             the remainder after a list of bits, one bit at a time: `feed_xor`, `feed_word`;
* `crc32_burst`      CRC-32 detects bursts.
-/

namespace RT7

/-! ## bits -/

def bitAt : Bytes → Nat → Bool
  | [], _ => false
  | b :: bs, i => if i < 8 then b.toNat.testBit i else bitAt bs (i - 8)

structure DifferWithin (a b : Bytes) (start n : Nat) : Prop where
  length : a.length = b.length
  within : ∀ i, bitAt a i ≠ bitAt b i → start ≤ i ∧ i < start + n

def BurstDetecting (f : Bytes → UInt32) : Prop :=
  ∀ a b start, a ≠ b → DifferWithin a b start 32 → f a ≠ f b

section
variable {a b : Bytes} {i o n start : Nat}

theorem bitAt_cons_lt {c : UInt8} (h : i < 8) : bitAt (c :: b) i = c.toNat.testBit i := if_pos h

theorem bitAt_cons_ge {c : UInt8} (h : 8 ≤ i) : bitAt (c :: b) i = bitAt b (i - 8) :=
  if_neg (by omega)

theorem byte_eq_of_testBit {c d : UInt8} (h : ∀ i < 8, c.toNat.testBit i = d.toNat.testBit i) :
    c = d := by
  apply UInt8.toNat_inj.mp
  apply Nat.eq_of_testBit_eq
  intro i
  by_cases hi : i < 8
  · exact h i hi
  · have hlarge (e : UInt8) : e.toNat.testBit i = false := by
      refine Nat.testBit_lt_two_pow (Nat.lt_of_lt_of_le e.toNat_lt ?_)
      exact Nat.pow_le_pow_right (by decide) (by omega)
    rw [hlarge, hlarge]

theorem eq_of_bitAt (hlength : a.length = b.length) (h : ∀ i, bitAt a i = bitAt b i) : a = b := by
  induction a generalizing b with
  | nil => exact (List.length_eq_zero_iff.mp hlength.symm).symm
  | cons c a ih =>
    cases b with
    | nil => cases hlength
    | cons d b =>
      have hbyte : c = d := by
        apply byte_eq_of_testBit
        intro i hi
        have hbit := h i
        rwa [bitAt_cons_lt hi, bitAt_cons_lt hi] at hbit
      have hrest : a = b := by
        apply ih (Nat.succ.inj hlength)
        intro i
        have hbit := h (i + 8)
        rwa [bitAt_cons_ge (by omega), bitAt_cons_ge (by omega), Nat.add_sub_cancel] at hbit
      rw [hbyte, hrest]

theorem bitAt_drop : bitAt (b.drop o) i = bitAt b (8 * o + i) := by
  induction o generalizing b with
  | zero => simp
  | succ o ih =>
    cases b with
    | nil => rfl
    | cons c b =>
      rw [List.drop_succ_cons, ih, bitAt_cons_ge (by omega)]
      congr 1
      omega

theorem bitAt_take : bitAt (b.take n) i = if i < 8 * n then bitAt b i else false := by
  induction n generalizing b i with
  | zero => simp [bitAt]
  | succ n ih =>
    cases b with
    | nil => simp [bitAt]
    | cons c b =>
      rw [List.take_succ_cons]
      by_cases hi : i < 8
      · rw [bitAt_cons_lt hi, bitAt_cons_lt hi, if_pos (by omega)]
      · rw [bitAt_cons_ge (by omega), bitAt_cons_ge (by omega), ih]
        by_cases hn : i < 8 * (n + 1)
        · rw [if_pos hn, if_pos (by omega)]
        · rw [if_neg hn, if_neg (by omega)]

theorem bitAt_window : bitAt (window b o n) i = if i < 8 * n then bitAt b (8 * o + i) else false := by
  rw [window, bitAt_take, bitAt_drop]

theorem bitAt_append {c : Bytes} : bitAt (b ++ c) i =
    if i < 8 * b.length then bitAt b i else bitAt c (i - 8 * b.length) := by
  induction b generalizing i with
  | nil => simp
  | cons d b ih =>
    rw [List.cons_append, List.length_cons]
    by_cases hi : i < 8
    · rw [bitAt_cons_lt hi, bitAt_cons_lt hi, if_pos (by omega)]
    · rw [bitAt_cons_ge (by omega), bitAt_cons_ge (by omega), ih]
      by_cases hb : i < 8 * (b.length + 1)
      · rw [if_pos hb, if_pos (by omega)]
      · rw [if_neg hb, if_neg (by omega)]
        congr 1
        omega

/-- a part of two strings that differ within a burst -/
theorem DifferWithin.window (h : DifferWithin a b start 32) (o n : Nat) :
    DifferWithin (window a o n) (window b o n) (start - 8 * o) 32 where
  length := by rw [length_window, length_window, h.length]
  within := by
    intro i hi
    rw [bitAt_window, bitAt_window] at hi
    by_cases hn : i < 8 * n
    · rw [if_pos hn, if_pos hn] at hi
      have hin := h.within _ hi
      omega
    · rw [if_neg hn, if_neg hn] at hi
      exact absurd rfl hi

/-- parts without a differing bit are equal -/
theorem DifferWithin.window_eq (h : DifferWithin a b start 32)
    (hout : 8 * (o + n) ≤ start ∨ start + 32 ≤ 8 * o) : RT7.window a o n = RT7.window b o n := by
  apply eq_of_bitAt
  · rw [length_window, length_window, h.length]
  · intro i
    rw [bitAt_window, bitAt_window]
    by_cases hn : i < 8 * n
    · rw [if_pos hn, if_pos hn]
      by_contra hi
      have hin := h.within _ hi
      omega
    · rw [if_neg hn, if_neg hn]

theorem bitAt_eq_of_window (hpart : RT7.window a o n = RT7.window b o n) (hfront : 8 * o ≤ i)
    (hback : i < 8 * (o + n)) : bitAt a i = bitAt b i := by
  have hbit (c : Bytes) : bitAt (RT7.window c o n) (i - 8 * o) = bitAt c i := by
    rw [bitAt_window, if_pos (by omega)]
    congr 1
    omega
  rw [← hbit a, ← hbit b, hpart]

/-- strings that differ within a part, and are equal there -/
theorem DifferWithin.eq_of_window (h : DifferWithin a b start 32) (hfront : 8 * o ≤ start)
    (hback : start + 32 ≤ 8 * (o + n)) (hpart : RT7.window a o n = RT7.window b o n) : a = b := by
  apply eq_of_bitAt h.length
  intro i
  by_contra hi
  have hin := h.within i hi
  exact hi (bitAt_eq_of_window hpart (by omega) (by omega))

/-- a string with another byte -/
theorem differWithin_set (b : Bytes) (k : Nat) (c : UInt8) : DifferWithin b (b.set k c) (8 * k) 32 where
  length := List.length_set.symm
  within := by
    intro i hi
    by_contra hout
    apply hi
    induction b generalizing k i with
    | nil => rfl
    | cons d b ih =>
      cases k with
      | zero => rw [List.set_cons_zero, bitAt_cons_ge (by omega), bitAt_cons_ge (by omega)]
      | succ k =>
        rw [List.set_cons_succ] at hi ⊢
        by_cases h8 : i < 8
        · rw [bitAt_cons_lt h8, bitAt_cons_lt h8]
        · rw [bitAt_cons_ge (by omega), bitAt_cons_ge (by omega)] at hi ⊢
          exact ih k (i - 8) hi (by omega)

end

/-! ## the remainder, one bit at a time -/

namespace Crc32

/-- `bitStep` on bit vectors -/
def shift (c : BitVec 32) : BitVec 32 :=
  (c >>> 1) ^^^ (if c.getLsbD 0 then polynomial.toBitVec else 0#32)

def shifts : Nat → BitVec 32 → BitVec 32
  | 0, c => c
  | n + 1, c => shifts n (shift c)

def bit (b : Bool) : BitVec 32 := if b then 1#32 else 0#32

def feed : List Bool → BitVec 32 → BitVec 32
  | [], c => c
  | b :: bs, c => feed bs (shift (c ^^^ bit b))

/-- the first bit lowest -/
def word : List Bool → BitVec 32
  | [] => 0#32
  | b :: bs => bit b ^^^ (word bs <<< 1)

section
variable {b : Bool} {bs cs : List Bool} {c d x : BitVec 32} {i n : Nat}

theorem shift_xor (c d : BitVec 32) : shift (c ^^^ d) = shift c ^^^ shift d := by
  unfold shift
  rw [BitVec.getLsbD_xor, BitVec.ushiftRight_xor_distrib]
  cases c.getLsbD 0
  · cases d.getLsbD 0
    · simp
    · simp [BitVec.xor_assoc]
  · cases d.getLsbD 0
    · simp only [Bool.xor_false, if_true, Bool.false_eq_true, if_false, BitVec.xor_zero]
      ac_rfl
    · have hself : polynomial.toBitVec ^^^ polynomial.toBitVec = 0#32 := BitVec.xor_self
      simp only [Bool.xor_self, Bool.false_eq_true, if_false, if_true]
      rw [← hself]
      ac_rfl

theorem shift_zero : shift 0#32 = 0#32 := by decide

/-- the step can be undone: the polynomial has its highest bit -/
theorem shift_ne_zero (h : c ≠ 0#32) : shift c ≠ 0#32 := by
  intro hzero
  apply h
  have hbit (i : Nat) : (shift c).getLsbD i = false := by
    rw [hzero]
    exact BitVec.getLsbD_zero
  have hlow : c.getLsbD 0 = false := by
    have h31 := hbit 31
    unfold shift at h31
    cases hc : c.getLsbD 0 with
    | false => rfl
    | true =>
      rw [hc, BitVec.getLsbD_xor, BitVec.getLsbD_ushiftRight, BitVec.getLsbD_of_ge c _ (by omega)] at h31
      exact absurd h31 (by decide)
  apply BitVec.eq_of_getLsbD_eq
  intro i hi
  rw [BitVec.getLsbD_zero]
  cases i with
  | zero => exact hlow
  | succ i =>
    have hshift := hbit i
    unfold shift at hshift
    rw [hlow, if_neg Bool.false_ne_true, BitVec.xor_zero, BitVec.getLsbD_ushiftRight,
      Nat.add_comm] at hshift
    exact hshift

theorem shift_shiftLeft (h : x.getLsbD 31 = false) : shift (x <<< 1) = x := by
  have hlow : (x <<< 1).getLsbD 0 = false := by simp
  unfold shift
  rw [hlow, if_neg Bool.false_ne_true, BitVec.xor_zero]
  apply BitVec.eq_of_getLsbD_eq
  intro i hi
  rw [BitVec.getLsbD_ushiftRight, BitVec.getLsbD_shiftLeft]
  by_cases hlast : 1 + i < 32
  · simp [hlast]
  · have h31 : i = 31 := by omega
    rw [h31, h]
    simp

theorem shifts_zero (n : Nat) : shifts n 0#32 = 0#32 := by
  induction n with
  | zero => rfl
  | succ n ih => rw [shifts, shift_zero, ih]

theorem shifts_ne_zero (h : c ≠ 0#32) : shifts n c ≠ 0#32 := by
  induction n generalizing c with
  | zero => exact h
  | succ n ih => exact ih (shift_ne_zero h)

theorem feed_append : feed (bs ++ cs) c = feed cs (feed bs c) := by
  induction bs generalizing c with
  | nil => rfl
  | cons b bs ih => exact ih

/-- **The remainder is linear.** -/
theorem feed_xor (h : bs.length = cs.length) :
    feed (List.zipWith xor bs cs) (c ^^^ d) = feed bs c ^^^ feed cs d := by
  induction bs generalizing cs c d with
  | nil =>
    cases cs with
    | nil => rfl
    | cons b' cs => cases h
  | cons b bs ih =>
    cases cs with
    | nil => cases h
    | cons b' cs =>
      have hbit : bit (xor b b') = bit b ^^^ bit b' := by
        cases b
        · cases b' <;> decide
        · cases b' <;> decide
      show feed (List.zipWith xor bs cs) (shift (c ^^^ d ^^^ bit (xor b b'))) = _
      have hswap : c ^^^ d ^^^ (bit b ^^^ bit b') = (c ^^^ bit b) ^^^ (d ^^^ bit b') := by ac_rfl
      rw [hbit, hswap, shift_xor, ih (Nat.succ.inj h)]
      rfl

theorem feed_false (n : Nat) (c : BitVec 32) : feed (List.replicate n false) c = shifts n c := by
  induction n generalizing c with
  | zero => rfl
  | succ n ih =>
    show feed (List.replicate n false) (shift (c ^^^ bit false)) = shifts n (shift c)
    have hzero : c ^^^ bit false = c := BitVec.xor_zero
    rw [hzero, ih]

theorem getLsbD_word (hi : i < 32) : (word bs).getLsbD i = bs[i]?.getD false := by
  induction bs generalizing i with
  | nil => simp [word]
  | cons b bs ih =>
    rw [word, BitVec.getLsbD_xor, BitVec.getLsbD_shiftLeft]
    cases i with
    | zero => cases b <;> simp [bit]
    | succ i =>
      have hhigh : (bit b).getLsbD (i + 1) = false := by
        cases b
        · simp [bit]
        · simp [bit]
      rw [hhigh, List.getElem?_cons_succ, ← ih (by omega)]
      simp [hi]

/-- up to 32 bits come to the same as their word at once -/
theorem feed_word (h : bs.length ≤ 32) : feed bs c = shifts bs.length (c ^^^ word bs) := by
  induction bs generalizing c with
  | nil =>
    have hzero : c ^^^ word [] = c := BitVec.xor_zero
    rw [hzero]
    rfl
  | cons b bs ih =>
    have hlength : bs.length ≤ 31 := Nat.succ_le_succ_iff.mp h
    have hlast : (word bs).getLsbD 31 = false := by
      rw [getLsbD_word (by decide), List.getElem?_eq_none hlength]
      rfl
    have hshift : shift (c ^^^ word (b :: bs)) = shift (c ^^^ bit b) ^^^ word bs := by
      rw [word, ← BitVec.xor_assoc, shift_xor, shift_shiftLeft hlast]
    show feed bs (shift (c ^^^ bit b)) = shifts bs.length (shift (c ^^^ word (b :: bs)))
    rw [ih (by omega), hshift]

end

/-! ## the bits of bytes -/

def byteBits (b : UInt8) : List Bool := (List.range 8).map b.toNat.testBit

def bits (b : Bytes) : List Bool := b.flatMap byteBits

theorem getElem?_byteBits {b : UInt8} {i : Nat} :
    (byteBits b)[i]?.getD false = if i < 8 then b.toNat.testBit i else false := by
  rw [byteBits, List.getElem?_map]
  by_cases hi : i < 8
  · rw [List.getElem?_range hi, if_pos hi]
    rfl
  · rw [List.getElem?_eq_none (by rw [List.length_range]; omega), if_neg hi]
    rfl

theorem length_bits (b : Bytes) : (bits b).length = 8 * b.length := by
  induction b with
  | nil => rfl
  | cons c b ih =>
    show (byteBits c ++ bits b).length = 8 * (b.length + 1)
    have hbyte : (byteBits c).length = 8 := by simp [byteBits]
    rw [List.length_append, ih, hbyte]
    omega

theorem getElem?_bits (b : Bytes) (i : Nat) : (bits b)[i]?.getD false = bitAt b i := by
  induction b generalizing i with
  | nil => rfl
  | cons c b ih =>
    show (byteBits c ++ bits b)[i]?.getD false = _
    have hbyte : (byteBits c).length = 8 := by simp [byteBits]
    by_cases hi : i < 8
    · rw [List.getElem?_append_left (by omega), getElem?_byteBits, if_pos hi, bitAt_cons_lt hi]
    · rw [List.getElem?_append_right (by omega), hbyte, ih, bitAt_cons_ge (by omega)]

theorem low_bit (c : UInt32) : c &&& 1 = 1 ↔ c.toBitVec.getLsbD 0 = true := by
  have hone : (c &&& 1).toBitVec = BitVec.setWidth 32 (BitVec.ofBool (c.toBitVec.getLsbD 0)) := by
    rw [UInt32.toBitVec_and]
    exact BitVec.and_one_eq_setWidth_ofBool_getLsbD
  rw [← UInt32.toBitVec_inj, hone]
  cases c.toBitVec.getLsbD 0
  · exact iff_of_false (by decide) Bool.false_ne_true
  · exact iff_of_true (by decide) rfl

theorem bitStep_toBitVec (c : UInt32) : (bitStep c).toBitVec = shift c.toBitVec := by
  unfold bitStep shift
  by_cases h : c &&& 1 = 1
  · rw [if_pos h, if_pos ((low_bit c).mp h)]
    rfl
  · have hlow : ¬ c.toBitVec.getLsbD 0 = true := fun e => h ((low_bit c).mpr e)
    rw [if_neg h, if_neg hlow, BitVec.xor_zero]
    rfl

theorem bitSteps_toBitVec (n : Nat) (c : UInt32) :
    (bitSteps n c).toBitVec = shifts n c.toBitVec := by
  induction n generalizing c with
  | zero => rfl
  | succ n ih => rw [bitSteps, shifts, ih, bitStep_toBitVec]

theorem word_byteBits (b : UInt8) : word (byteBits b) = b.toUInt32.toBitVec := by
  apply BitVec.eq_of_getLsbD_eq
  intro i hi
  rw [getLsbD_word hi, getElem?_byteBits]
  have hbyte : b.toUInt32.toBitVec.getLsbD i = b.toNat.testBit i := by
    rw [← BitVec.testBit_toNat]
    rfl
  rw [hbyte]
  by_cases h8 : i < 8
  · rw [if_pos h8]
  · rw [if_neg h8]
    refine (Nat.testBit_lt_two_pow (Nat.lt_of_lt_of_le b.toNat_lt ?_)).symm
    exact Nat.pow_le_pow_right (by decide) (by omega)

theorem byteStep_toBitVec (c : UInt32) (b : UInt8) :
    (byteStep c b).toBitVec = feed (byteBits b) c.toBitVec := by
  have hlength : (byteBits b).length = 8 := by simp [byteBits]
  rw [feed_word (by omega), hlength, word_byteBits, byteStep, bitSteps_toBitVec, UInt32.toBitVec_xor]

theorem foldl_toBitVec (b : Bytes) (c : UInt32) :
    (b.foldl byteStep c).toBitVec = feed (bits b) c.toBitVec := by
  induction b generalizing c with
  | nil => rfl
  | cons d b ih =>
    show (b.foldl byteStep (byteStep c d)).toBitVec = feed (byteBits d ++ bits b) c.toBitVec
    rw [ih, byteStep_toBitVec, feed_append]

/-! ## bursts -/

theorem eq_replicate_false {bs : List Bool} (h : ∀ i : Nat, bs[i]?.getD false = false) :
    bs = List.replicate bs.length false := by
  rw [List.eq_replicate_iff]
  refine ⟨rfl, fun b hb => ?_⟩
  obtain ⟨i, hi, rfl⟩ := List.mem_iff_getElem.mp hb
  have hbit := h i
  rwa [List.getElem?_eq_getElem hi] at hbit

/-- **A burst of at most 32 bits leaves a remainder.** -/
theorem feed_burst {bs : List Bool} {start i : Nat}
    (hin : ∀ i : Nat, bs[i]?.getD false = true → start ≤ i ∧ i < start + 32)
    (hi : bs[i]?.getD false = true) : feed bs 0#32 ≠ 0#32 := by
  have hfalse (i : Nat) (h : ¬ (start ≤ i ∧ i < start + 32)) : bs[i]?.getD false = false := by
    rw [← Bool.not_eq_true]
    exact fun e => h (hin i e)
  have hfront := @eq_replicate_false (bs.take start) (by
    intro i
    rw [List.getElem?_take]
    by_cases hlt : i < start
    · rw [if_pos hlt]
      exact hfalse i (by omega)
    · rw [if_neg hlt]
      rfl)
  have hback := @eq_replicate_false ((bs.drop start).drop 32) (by
    intro i
    rw [List.getElem?_drop, List.getElem?_drop]
    exact hfalse _ (by omega))
  have hburst : ((bs.drop start).take 32).length ≤ 32 := List.length_take_le _ _
  have hword : word ((bs.drop start).take 32) ≠ 0#32 := by
    intro hzero
    have hi' := hin i hi
    have hbit : (word ((bs.drop start).take 32)).getLsbD (i - start) = true := by
      rw [getLsbD_word (by omega), List.getElem?_take, if_pos (by omega), List.getElem?_drop]
      have hindex : start + (i - start) = i := by omega
      rw [hindex, hi]
    rw [hzero, BitVec.getLsbD_zero] at hbit
    cases hbit
  have hsplit : bs = bs.take start ++ ((bs.drop start).take 32 ++ (bs.drop start).drop 32) := by
    rw [List.take_append_drop, List.take_append_drop]
  rw [hsplit, feed_append, feed_append, hfront, hback, feed_false, feed_false, shifts_zero,
    feed_word hburst, BitVec.zero_xor]
  exact shifts_ne_zero (shifts_ne_zero hword)

/-- **CRC-32 tells strings apart that differ within 32 consecutive bits.** -/
theorem crc32_burst : BurstDetecting crc32 := by
  intro a b start hne h hsame
  have hlength : (bits a).length = (bits b).length := by
    rw [length_bits, length_bits, h.length]
  have hfold : feed (bits a) (0xFFFFFFFF : UInt32).toBitVec
      = feed (bits b) (0xFFFFFFFF : UInt32).toBitVec := by
    rw [← foldl_toBitVec, ← foldl_toBitVec]
    have hnot : ~~~(a.foldl byteStep 0xFFFFFFFF) = ~~~(b.foldl byteStep 0xFFFFFFFF) := hsame
    rw [UInt32.not_inj.mp hnot]
  have hbit (i : Nat) : (List.zipWith xor (bits a) (bits b))[i]?.getD false
      = xor (bitAt a i) (bitAt b i) := by
    rw [← getElem?_bits, ← getElem?_bits]
    by_cases hi : i < (bits a).length
    · rw [List.getElem?_zipWith, List.getElem?_eq_getElem hi,
        List.getElem?_eq_getElem (hlength ▸ hi)]
      rfl
    · rw [List.getElem?_zipWith, List.getElem?_eq_none (by omega), List.getElem?_eq_none (by omega)]
      rfl
  obtain ⟨i, hi⟩ : ∃ i, bitAt a i ≠ bitAt b i := by
    by_contra hall
    apply hne
    apply eq_of_bitAt h.length
    intro i
    by_contra hi
    exact hall ⟨i, hi⟩
  refine @feed_burst (List.zipWith xor (bits a) (bits b)) start i ?_ ?_ ?_
  · intro j hj
    rw [hbit, bne_iff_ne] at hj
    exact h.within j hj
  · rw [hbit, bne_iff_ne]
    exact hi
  · have hxor := @feed_xor _ _ (0xFFFFFFFF : UInt32).toBitVec (0xFFFFFFFF : UInt32).toBitVec hlength
    rw [BitVec.xor_self, hfold, BitVec.xor_self] at hxor
    exact hxor

end Crc32

end RT7
