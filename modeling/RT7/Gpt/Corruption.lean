import RT7.Base.Burst
import RT7.Gpt.Slots

/-!
# Small corruptions of the primary table

Nothing is assumed of the checksum but that it tells strings apart that differ within 32 consecutive
bits (`BurstDetecting`).

* `InHeader`, `InEntries`   where the changed bits may be;
* `header_rejected`     a changed header is not acceptable: the changed bits are not in the checksum
  field alone, not outside of it, and what lies beside it is fixed;
* `entries_rejected`    a changed array does not have the checksum of the header;
* `corruption_caught`   the changed primary span is refused with every backup span.
-/

namespace RT7.Gpt
open Py

theorem leNat_inj {a b : Bytes} (hlength : a.length = b.length) (h : leNat a = leNat b) : a = b := by
  induction a generalizing b with
  | nil => exact (List.length_eq_zero_iff.mp hlength.symm).symm
  | cons c a ih =>
    cases b with
    | nil => cases hlength
    | cons d b =>
      rw [leNat, leNat] at h
      have hc := c.toNat_lt
      have hd := d.toNat_lt
      have hbyte : c = d := UInt8.toNat_inj.mp (by omega)
      have hrest : a = b := ih (Nat.succ.inj hlength) (by omega)
      rw [hbyte, hrest]

/-- The changed bits lie in the header, and neither its signature nor its size is changed. -/
structure InHeader (P P' : Bytes) (s : Nat) (header : GptHeader) (start : Nat) : Prop where
  front : 8 * s ≤ start
  back : start + 32 ≤ 8 * (s + header.headerSize)
  signature : window P' s 8 = window P s 8
  size : window P' (s + 12) 4 = window P (s + 12) 4

/-- The changed bits lie in the entry array. -/
structure InEntries (s : Nat) (header : GptHeader) (start : Nat) : Prop where
  front : 8 * (header.partitionEntryStartLba * s) ≤ start
  back : start + 32 ≤ 8 * (header.partitionEntryStartLba * s +
    header.numPartitionEntries * header.partitionEntrySize)

section
variable {a b zeros : Bytes} {start i : Nat}

theorem bitAt_setSlice (h : 20 ≤ a.length) (hzeros : zeros.length = 4) :
    bitAt (setSlice a 16 20 zeros) i =
      if i < 128 then bitAt a i else if i < 160 then bitAt zeros (i - 128) else bitAt a i := by
  have hfront : (a.take 16).length = 16 := by
    rw [List.length_take]
    omega
  rw [setSlice, List.append_assoc, bitAt_append, hfront]
  by_cases h1 : i < 128
  · rw [if_pos (by omega), if_pos h1, bitAt_take, if_pos (by omega)]
  · rw [if_neg (by omega), if_neg h1, bitAt_append, hzeros]
    by_cases h2 : i < 160
    · have hindex : i - 8 * 16 = i - 128 := by omega
      rw [if_pos (by omega), if_pos h2, hindex]
    · have hindex : 8 * 20 + (i - 8 * 16 - 8 * 4) = i := by omega
      rw [if_neg (by omega), if_neg h2, bitAt_drop, hindex]

/-- what differs with the checksum field cleared differs, and not in that field -/
theorem differ_setSlice (ha : 20 ≤ a.length) (hb : 20 ≤ b.length)
    (h : bitAt (setSlice a 16 20 [0, 0, 0, 0]) i ≠ bitAt (setSlice b 16 20 [0, 0, 0, 0]) i) :
    bitAt a i ≠ bitAt b i ∧ ¬ (128 ≤ i ∧ i < 160) := by
  rw [bitAt_setSlice ha rfl, bitAt_setSlice hb rfl] at h
  by_cases h1 : i < 128
  · rw [if_pos h1, if_pos h1] at h
    exact ⟨h, by omega⟩
  · rw [if_neg h1, if_neg h1] at h
    by_cases h2 : i < 160
    · rw [if_pos h2, if_pos h2] at h
      exact absurd rfl h
    · rw [if_neg h2, if_neg h2] at h
      exact ⟨h, by omega⟩

/-- **A burst that the checksum does not see is a burst in no place:** with the fields beside the
checksum field unchanged, the cleared strings or the checksum fields are the same, not both
different. -/
theorem burst_field (ha : 24 ≤ a.length) (h : DifferWithin a b start 32)
    (hbefore : window a 12 4 = window b 12 4) (hafter : window a 20 4 = window b 20 4) :
    setSlice a 16 20 [0, 0, 0, 0] = setSlice b 16 20 [0, 0, 0, 0] ∨
      window a 16 4 = window b 16 4 := by
  have hlength := h.length
  by_contra hboth
  obtain ⟨hcleared, hfield⟩ := not_or.mp hboth
  -- a changed bit outside the field
  obtain ⟨j, hj⟩ : ∃ j, bitAt (setSlice a 16 20 [0, 0, 0, 0]) j
      ≠ bitAt (setSlice b 16 20 [0, 0, 0, 0]) j := by
    by_contra hall
    apply hcleared
    apply eq_of_bitAt
    · simp only [setSlice, List.length_append, List.length_take, List.length_drop, hlength]
    · intro j
      by_contra hj
      exact hall ⟨j, hj⟩
  obtain ⟨hj, hout⟩ := differ_setSlice (by omega) (by omega) hj
  -- and one in the field
  obtain ⟨i, hi, hin⟩ : ∃ i, bitAt a i ≠ bitAt b i ∧ 128 ≤ i ∧ i < 160 := by
    by_contra hall
    apply hfield
    apply eq_of_bitAt
    · rw [length_window, length_window, hlength]
    · intro i
      rw [bitAt_window, bitAt_window]
      by_cases h4 : i < 8 * 4
      · rw [if_pos h4, if_pos h4]
        by_contra hi
        exact hall ⟨_, hi, by omega, by omega⟩
      · rw [if_neg h4, if_neg h4]
  have hwi := h.within i hi
  have hwj := h.within j hj
  by_cases hside : j < 128
  · exact hj (bitAt_eq_of_window hbefore (by omega) (by omega))
  · exact hj (bitAt_eq_of_window hafter (by omega) (by omega))

theorem eq_of_setSlice (hlength : a.length = b.length) (ha : 20 ≤ a.length)
    (hcleared : setSlice a 16 20 [0, 0, 0, 0] = setSlice b 16 20 [0, 0, 0, 0])
    (hfield : window a 16 4 = window b 16 4) : a = b := by
  apply eq_of_bitAt hlength
  intro i
  by_cases hin : 128 ≤ i ∧ i < 160
  · exact bitAt_eq_of_window hfield (by omega) (by omega)
  · have hbit : bitAt (setSlice a 16 20 [0, 0, 0, 0]) i = bitAt (setSlice b 16 20 [0, 0, 0, 0]) i := by
      rw [hcleared]
    rw [bitAt_setSlice ha rfl, bitAt_setSlice (by omega) rfl] at hbit
    by_cases h1 : i < 128
    · rwa [if_pos h1, if_pos h1] at hbit
    · rwa [if_neg h1, if_neg h1, if_neg (by omega), if_neg (by omega)] at hbit

end

section
variable {crc32 : Bytes → UInt32} {P P' : Bytes} {s start : Nat} {h h' : GptHeader}

/-- **A header with a burst is not acceptable.** -/
theorem header_rejected (hcrc : BurstDetecting crc32) (H : HeaderAt crc32 P s P.length h)
    (H' : HeaderAt crc32 P' s P'.length h') (hd : DifferWithin P P' start 32)
    (hin : InHeader P P' s h start) : P = P' := by
  have hfits := H.size
  have hinside := H.inside
  have hlength := hd.length
  -- the four bytes of a field, in the header and in the span
  have field (Q : Bytes) (n o : Nat) (ho : o + 4 ≤ n) :
      window (window Q s n) o 4 = window Q (s + o) 4 := window_window ho
  have hsize : h'.headerSize = h.headerSize := by
    rw [H.fields, H'.fields]
    show leNat (window (window P' s 92) 12 4) = leNat (window (window P s 92) 12 4)
    rw [field P' 92 12 (by decide), field P 92 12 (by decide), hin.size]
  have hcrcField (Q : Bytes) (k : GptHeader) (hk : k = GptHeader.decode (window Q s 92)) :
      k.headerCrc32 = leNat (window (window Q s h.headerSize) 16 4) := by
    rw [hk, field Q h.headerSize 16 (by omega), ← field Q 92 16 (by decide)]
    rfl
  have hreserved (Q : Bytes) (k : GptHeader) (hk : k = GptHeader.decode (window Q s 92)) :
      k.reserved = leNat (window (window Q s h.headerSize) 20 4) := by
    rw [hk, field Q h.headerSize 20 (by omega), ← field Q 92 20 (by decide)]
    rfl
  have hcleared := H.crc
  have hcleared' := H'.crc
  rw [hsize] at hcleared'
  rw [hcrcField P h H.fields] at hcleared
  rw [hcrcField P' h' H'.fields] at hcleared'
  have hzero := hreserved P h H.fields
  have hzero' := hreserved P' h' H'.fields
  rw [H.reserved] at hzero
  rw [H'.reserved] at hzero'
  have hbefore : window (window P s h.headerSize) 12 4 = window (window P' s h.headerSize) 12 4 := by
    rw [field P _ 12 (by omega), field P' _ 12 (by omega), hin.size]
  have hpart : DifferWithin (window P s h.headerSize) (window P' s h.headerSize) (start - 8 * s) 32 :=
    hd.window s h.headerSize
  have hlengthA : (window P s h.headerSize).length = h.headerSize := length_window_of_le hinside
  have hback := hin.back
  have hfront := hin.front
  -- from here on only the two headers count
  suffices hsame : window P s h.headerSize = window P' s h.headerSize by
    exact hd.eq_of_window hfront hback hsame
  generalize window P s h.headerSize = a at *
  generalize window P' s h.headerSize = b at *
  have hlengthB := hpart.length
  have hafter : window a 20 4 = window b 20 4 := by
    refine leNat_inj ?_ (hzero.symm.trans hzero')
    rw [length_window, length_window, hlengthB]
  have hfieldOf (e : setSlice a 16 20 [0, 0, 0, 0] = setSlice b 16 20 [0, 0, 0, 0]) :
      window a 16 4 = window b 16 4 := by
    refine leNat_inj ?_ ?_
    · rw [length_window, length_window, hlengthB]
    · rw [← hcleared, ← hcleared', e]
  have hclearedOf (e : window a 16 4 = window b 16 4) :
      setSlice a 16 20 [0, 0, 0, 0] = setSlice b 16 20 [0, 0, 0, 0] := by
    by_contra hne
    refine hcrc _ _ (start - 8 * s) hne ⟨?_, fun i hi => ?_⟩ ?_
    · simp only [setSlice, List.length_append, List.length_take, List.length_drop, hlengthB]
    · exact hpart.within i (differ_setSlice (by omega) (by omega) hi).1
    · apply UInt32.toNat_inj.mp
      rw [hcleared, hcleared', e]
  rcases burst_field (by omega) hpart hbefore hafter with e | e
  · exact eq_of_setSlice hlengthB (by omega) e (hfieldOf e)
  · exact eq_of_setSlice hlengthB (by omega) (hclearedOf e) e

/-- **An array with a burst is not acceptable under the same header.** -/
theorem entries_rejected {o sectorSize : Nat} {raw raw' : Bytes} {m m' : PartitionMap}
    (hcrc : BurstDetecting crc32) (H : EntriesAt crc32 P o P.length h sectorSize raw m)
    (H' : EntriesAt crc32 P' o P'.length h sectorSize raw' m') (hd : DifferWithin P P' start 32)
    (hfront : 8 * o ≤ start)
    (hback : start + 32 ≤ 8 * (o + h.numPartitionEntries * h.partitionEntrySize)) : P = P' := by
  refine hd.eq_of_window hfront hback ?_
  rw [← H.bytes, ← H'.bytes]
  by_contra hne
  have hpart := hd.window o (h.numPartitionEntries * h.partitionEntrySize)
  rw [← H.bytes, ← H'.bytes] at hpart
  apply hcrc raw raw' _ hne hpart
  apply UInt32.toNat_inj.mp
  rw [H.crc, H'.crc]

theorem signature_of_detect (hs : detectSectorSize P = s) (hne : s ≠ 0) :
    window P s 8 = efiPart ∧ (s = 0x200 ∨ s = 0x1000 ∧ window P 0x200 8 ≠ efiPart) := by
  by_cases hsmall : window P 0x200 8 = efiPart
  · rw [detectSectorSize_small hsmall] at hs
    subst hs
    exact ⟨hsmall, .inl rfl⟩
  · by_cases hlarge : window P 0x1000 8 = efiPart
    · rw [detectSectorSize_large hsmall hlarge] at hs
      subst hs
      exact ⟨hlarge, .inr ⟨rfl, hsmall⟩⟩
    · exfalso
      apply hne
      rw [← hs, detectSectorSize]
      have hw (n : Nat) : slice P n (n + 8) = window P n 8 := slice_eq_window P n 8
      simp only [hw]
      rw [List.find?_cons_of_neg (by simpa using hsmall), List.find?_cons_of_neg (by simpa using hlarge)]
      rfl

/-- the signature and the probe before it decide the sector size -/
theorem detectSectorSize_same (hs : detectSectorSize P = s) (hne : s ≠ 0)
    (hsignature : window P' s 8 = window P s 8)
    (hprobe : s = 0x1000 → window P' 0x200 8 = window P 0x200 8) : detectSectorSize P' = s := by
  obtain ⟨hsig, hcases⟩ := signature_of_detect hs hne
  rcases hcases with rfl | ⟨rfl, hsmall⟩
  · apply detectSectorSize_small
    rw [hsignature, hsig]
  · apply detectSectorSize_large
    · rw [hprobe rfl]
      exact hsmall
    · rw [hsignature, hsig]

end

/-- **Every small corruption of the primary table is refused, whatever the backup says.** -/
theorem corruption_caught {crc32 : Bytes → UInt32} (hcrc : BurstDetecting crc32) {P B : Bytes}
    {g : ParsedGpt} (hok : parseGptPair crc32 P B = .ok g) {header : GptHeader}
    (hheader : header = GptHeader.decode (window P g.sectorSize 92))
    (hlba : 2 ≤ header.partitionEntryStartLba)
    (hdisjoint : g.sectorSize + header.headerSize ≤ header.partitionEntryStartLba * g.sectorSize ∨
      header.partitionEntryStartLba * g.sectorSize +
        header.numPartitionEntries * header.partitionEntrySize ≤ g.sectorSize)
    {P' : Bytes} {start : Nat} (hne : P ≠ P') (hd : DifferWithin P P' start 32)
    (hwhere : InHeader P P' g.sectorSize header start ∨ InEntries g.sectorSize header start)
    (B' : Bytes) : ∃ message, parseGptPair crc32 P' B' = .error (.valueError message) := by
  obtain ⟨s, hp, hb, raw, m, H, rfl⟩ := parseGptPair_eq_ok.mp hok
  obtain rfl : header = hp := hheader.trans H.primaryHeader.fields.symm
  have hs : (ParsedGpt.ofHeader s header m).sectorSize = s := rfl
  rw [hs] at hdisjoint hwhere
  cases hrun : parseGptPair crc32 P' B' with
  | error e =>
    obtain ⟨message, rfl⟩ := parseGptPair_raises P' B' e hrun
    exact ⟨message, rfl⟩
  | ok g' =>
    exfalso
    apply hne
    obtain ⟨s', hp', hb', raw', m', H', -⟩ := parseGptPair_eq_ok.mp hrun
    have hsize := H.primaryHeader.size
    obtain ⟨-, hsector⟩ := signature_of_detect H.sector H.sector_ne
    rcases hwhere with hin | hin
    · have hfront := hin.front
      obtain rfl : s = s' := by
        refine (detectSectorSize_same H.sector H.sector_ne hin.signature ?_).symm.trans H'.sector
        rintro rfl
        exact (hd.window_eq (.inl (by omega))).symm
      exact header_rejected hcrc H.primaryHeader H'.primaryHeader hd hin
    · have hfront := hin.front
      have hback := hin.back
      have htwo : 2 * s ≤ header.partitionEntryStartLba * s := Nat.mul_le_mul_right s hlba
      have harray : s + header.headerSize ≤ header.partitionEntryStartLba * s := by omega
      have hsame : window P s 92 = window P' s 92 := hd.window_eq (.inl (by omega))
      have hprobe : window P 0x200 8 = window P' 0x200 8 := hd.window_eq (.inl (by omega))
      have hsignature : window P s 8 = window P' s 8 := hd.window_eq (.inl (by omega))
      obtain rfl : s = s' :=
        (detectSectorSize_same H.sector H.sector_ne hsignature.symm fun _ => hprobe.symm).symm.trans
          H'.sector
      obtain rfl : header = hp' := by
        rw [H.primaryHeader.fields, H'.primaryHeader.fields, hsame]
      exact entries_rejected hcrc H.primaryEntries H'.primaryEntries hd hfront hback

/-- the first letter of a partition name changed -/
theorem corruption_caught_small : ∃ message, parseGptPair Crc32.crc32
    (((smallLayout 0).primary Crc32.crc32).set 1080 0x63) ((smallLayout 0).backup Crc32.crc32)
      = .error (.valueError message) := by
  have hok := smallLayout_accepted Crc32.crc32 0
  have hheader := ((smallLayout 0).pairOk Crc32.crc32).primaryHeader.fields
  have hlength : 1080 < ((smallLayout 0).primary Crc32.crc32).length := by
    rw [Layout.length_primary]
    decide
  have hletter : ((smallLayout 0).primary Crc32.crc32)[1080]? = some 0x62 := by
    have hentries : (window ((smallLayout 0).primary Crc32.crc32) (2 * 0x200) (2 * 128))[56]?
        = some 0x62 := by
      have harray : window ((smallLayout 0).primary Crc32.crc32) (2 * 0x200) (2 * 128)
          = (smallLayout 0).entries := (smallLayout 0).window_primary_entries Crc32.crc32
      rw [harray]
      decide +kernel
    rwa [window, List.getElem?_take_of_lt (by decide), List.getElem?_drop] at hentries
  have hne : (smallLayout 0).primary Crc32.crc32
      ≠ ((smallLayout 0).primary Crc32.crc32).set 1080 0x63 := by
    intro e
    rw [e, List.getElem?_set_self hlength] at hletter
    cases hletter
  exact corruption_caught Crc32.crc32_burst hok hheader (by decide) (.inl (by decide)) hne
    (differWithin_set _ 1080 0x63) (.inr ⟨by decide, by decide⟩) _

end RT7.Gpt
