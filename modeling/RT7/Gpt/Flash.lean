import RT7.Gpt.Mirror

/-!
# Capture and validation agree with the flash: the patched `da_gpt`

* `daGpt`              the patched reader of mtkclient: geometry guard, two exact reads, two files;
* `SeesFlash`          the loader sees a flash image: its header fields are the encoded ones and its
                       reads return the bytes of the image;
* `FlashOk`            a well-formed GPT, read off the whole image by absolute LBA;
* `pairOk_iff_flashOk` two captured spans are an acceptable pair exactly when the image is well
                       formed (the offsets relative to the spans against the absolute ones);
* `daGpt_agrees`       the same for what `da_gpt` writes.
-/

namespace RT7.Gpt
open Py

/-! ## the reader -/

/-- the fields of `guid_gpt.header` that the patch reads -/
structure GuidHeader where
  signature : Bytes
  firstUsableLba : Nat
  lastUsableLba : Nat
  backupLba : Nat

structure GuidGpt where
  header : GuidHeader
  sectorsize : Nat

/-- `os.path.join(directory, name)` -/
def joinPath (directory name : String) : String :=
  if name.toList.head? = some '/' then name
  else if directory = "" ∨ directory.toList.getLast? = some '/' then directory ++ name
  else directory ++ "/" ++ name

/-- `read_exact`: `readflash` returns `none` where it returns no byte string. -/
def readExact (readflash : Int → Int → Option Bytes) (address length : Int) (label : String) :
    Except Exn Bytes :=
  match readflash address length with
  | none => .error (.runtimeError s!"Short read while capturing {label}")
  | some result =>
    if result.length ≠ length then .error (.runtimeError s!"Short read while capturing {label}")
    else .ok result

/-- the two output names of `da_gpt`, in a directory that may be `None` -/
def gptFilename (directory : Option String) : String := joinPath (directory.getD "") "gpt.bin"
def gptBackupFilename (directory : Option String) : String :=
  joinPath (directory.getD "") "gpt_backup.bin"

/-- The patched `DaHandler.da_gpt`: the files it writes, in order, with their contents. -/
def daGpt (getGpt : Option GuidGpt) (flashSize : Nat) (readflash : Int → Int → Option Bytes)
    (directory : Option String) : Except Exn (List (String × Bytes)) :=
  match getGpt with
  | none => .error (.runtimeError "Error reading GPT")
  | some guidGpt => do
    let header := guidGpt.header
    let sectorSize := guidGpt.sectorsize
    raiseIf (header.signature ≠ efiPart ∨ sectorSize ∉ [0x200, 0x1000])
      (.runtimeError "Invalid primary GPT header")
    let primarySectors : Int := header.firstUsableLba
    let backupSectors := primarySectors - 1
    let backupStartLba := header.backupLba - backupSectors + 1
    raiseIf (primarySectors < 3 ∨ backupSectors < 2 ∨ backupStartLba ≤ header.lastUsableLba ∨
        (header.backupLba + 1) * sectorSize > flashSize)
      (.runtimeError "Unsafe GPT geometry")
    let primary ← readExact readflash 0 (primarySectors * sectorSize) "primary GPT"
    let backup ← readExact readflash (backupStartLba * sectorSize) (backupSectors * sectorSize)
      "backup GPT"
    return [(gptFilename directory, primary), (gptBackupFilename directory, backup)]

theorem readExact_eq_ok {readflash : Int → Int → Option Bytes} {a n : Int} {label : String}
    {b : Bytes} : readExact readflash a n label = .ok b ↔ readflash a n = some b ∧ b.length = n := by
  unfold readExact
  cases readflash a n with
  | none => simp
  | some r =>
    by_cases h : (r.length : Int) = n
    · simp only [h, ne_eq, not_true, if_false, Except.ok.injEq, Option.some.injEq]
      exact ⟨fun e => ⟨e, e ▸ h⟩, fun e => e.1⟩
    · simp only [ne_eq, h, not_false_eq_true, if_true, Option.some.injEq, reduceCtorEq, false_iff]
      rintro ⟨rfl, e⟩
      exact h e

/-! ## the image behind the reader -/

/-- The loader sees the image `F`.  Its header fields are the ones encoded at the first byte past
sector 0; with 4096-byte sectors no signature stands at byte `0x200`. -/
structure SeesFlash (F : Bytes) (gpt : GuidGpt) (flashSize : Nat)
    (readflash : Int → Int → Option Bytes) : Prop where
  sector : gpt.sectorsize = 0x200 ∨ gpt.sectorsize = 0x1000
  signature : gpt.header.signature
    = (GptHeader.decode (window F gpt.sectorsize 92)).signature
  firstUsable : gpt.header.firstUsableLba
    = (GptHeader.decode (window F gpt.sectorsize 92)).firstUsableLba
  lastUsable : gpt.header.lastUsableLba
    = (GptHeader.decode (window F gpt.sectorsize 92)).lastUsableLba
  backup : gpt.header.backupLba = (GptHeader.decode (window F gpt.sectorsize 92)).backupLba
  flashSize_eq : flashSize = F.length
  reads : ∀ a n : Nat, a + n ≤ F.length → readflash a n = some (window F a n)
  not_small : gpt.sectorsize = 0x1000 → window F 0x200 8 ≠ efiPart

section
variable (crc32 : Bytes → UInt32)

/-- The image `F`, read by absolute LBA with sector size `s`, holds a well-formed GPT: the headers
`hp` at LBA 1 and `hb` at the backup LBA, the entry array `raw` stored in both spans, and its map. -/
structure FlashOk (F : Bytes) (s : Nat) (hp hb : GptHeader) (raw : Bytes)
    (partitions : PartitionMap) : Prop where
  mbr : window F 0x1FE 2 = [0x55, 0xAA]
  primaryHeader : HeaderAt crc32 F (1 * s) (hp.firstUsableLba * s) hp
  current : hp.currentLba = 1
  backupHeader : HeaderAt crc32 F (hp.backupLba * s) ((hp.backupLba + 1) * s) hb
  mirrored : mirroredFields hp = mirroredFields hb
  backupCurrent : hb.currentLba = hp.backupLba
  backupBackup : hb.backupLba = 1
  primaryEntries : EntriesAt crc32 F (hp.partitionEntryStartLba * s) (hp.firstUsableLba * s) hp s raw
    partitions
  backup_start : hp.backupLba + 2 ≤ hb.partitionEntryStartLba + hp.firstUsableLba
  backupEntries : EntriesAt crc32 F (hb.partitionEntryStartLba * s) ((hp.backupLba + 1) * s) hb s raw
    partitions

def FlashWellFormed (F : Bytes) (s : Nat) : Prop :=
  ∃ hp hb raw partitions, FlashOk crc32 F s hp hb raw partitions

/-- the dictionary that describes a well-formed image -/
def FlashTable (F : Bytes) (s : Nat) (g : ParsedGpt) : Prop :=
  ∃ hp hb raw partitions, FlashOk crc32 F s hp hb raw partitions ∧
    g = ParsedGpt.ofHeader s hp partitions

variable {crc32}

/-- `da_gpt`'s geometry guard, in natural numbers -/
structure SafeGeometry (F : Bytes) (s : Nat) (h : GptHeader) : Prop where
  three_le : 3 ≤ h.firstUsableLba
  last_lt : h.lastUsableLba + h.firstUsableLba < h.backupLba + 2
  inside : (h.backupLba + 1) * s ≤ F.length

/-- the captured primary span -/
def primarySpan (F : Bytes) (s : Nat) (h : GptHeader) : Bytes := window F 0 (h.firstUsableLba * s)

/-- the captured backup span -/
def backupSpan (F : Bytes) (s : Nat) (h : GptHeader) : Bytes :=
  window F ((h.backupLba + 2 - h.firstUsableLba) * s) ((h.firstUsableLba - 1) * s)

section
variable {F : Bytes} {s : Nat} {h : GptHeader}

/-- the span arithmetic: the backup span ends with sector `backup_lba` -/
theorem SafeGeometry.header_offset (G : SafeGeometry F s h) :
    (h.backupLba + 2 - h.firstUsableLba) * s + (h.firstUsableLba - 2) * s = h.backupLba * s := by
  have h1 := G.three_le
  have h2 := G.last_lt
  rw [← Nat.add_mul]
  congr 1
  omega

theorem SafeGeometry.span_stop (G : SafeGeometry F s h) :
    (h.backupLba + 2 - h.firstUsableLba) * s + (h.firstUsableLba - 1) * s
      = (h.backupLba + 1) * s := by
  have h1 := G.three_le
  have h2 := G.last_lt
  rw [← Nat.add_mul]
  congr 1
  omega

theorem SafeGeometry.length_primarySpan (G : SafeGeometry F s h) :
    (primarySpan F s h).length = h.firstUsableLba * s := by
  have h1 := G.three_le
  have h2 := G.last_lt
  have h3 : h.firstUsableLba * s ≤ (h.backupLba + 1) * s := Nat.mul_le_mul_right s (by omega)
  have h4 := G.inside
  exact length_window_of_le (by omega)

theorem SafeGeometry.length_backupSpan (G : SafeGeometry F s h) :
    (backupSpan F s h).length = (h.firstUsableLba - 1) * s := by
  have h1 := G.span_stop
  have h2 := G.inside
  exact length_window_of_le (by omega)

/-- the backup header fits the backup span -/
theorem SafeGeometry.two_sectors (G : SafeGeometry F s h) :
    (h.firstUsableLba - 2) * s + s = (h.firstUsableLba - 1) * s := by
  have h1 := G.three_le
  rw [← Nat.succ_mul]
  congr 1
  omega

/-! ## what the spans show of the image -/

theorem headerAt_primarySpan (h' : GptHeader) :
    HeaderAt crc32 (primarySpan F s h) s (h.firstUsableLba * s) h'
      ↔ HeaderAt crc32 F (1 * s) (h.firstUsableLba * s) h' := by
  unfold primarySpan
  rw [headerAt_window (Nat.le_refl _), Nat.zero_add, Nat.zero_add, Nat.one_mul]

theorem SafeGeometry.headerAt_backupSpan (G : SafeGeometry F s h) (h' : GptHeader) :
    HeaderAt crc32 (backupSpan F s h) ((h.firstUsableLba - 2) * s) ((h.firstUsableLba - 1) * s) h'
      ↔ HeaderAt crc32 F (h.backupLba * s) ((h.backupLba + 1) * s) h' := by
  unfold backupSpan
  rw [headerAt_window (Nat.le_refl _), G.header_offset, G.span_stop]

theorem entriesAt_primarySpan (h' : GptHeader) {raw : Bytes} {m : PartitionMap} :
    EntriesAt crc32 (primarySpan F s h) (h'.partitionEntryStartLba * s) (h.firstUsableLba * s) h' s
        raw m
      ↔ EntriesAt crc32 F (h'.partitionEntryStartLba * s) (h.firstUsableLba * s) h' s raw m := by
  unfold primarySpan
  rw [entriesAt_window (Nat.le_refl _), Nat.zero_add, Nat.zero_add]

theorem SafeGeometry.backupStart_eq (G : SafeGeometry F s h) :
    backupStart h = ((h.backupLba + 2 - h.firstUsableLba : ℕ) : Int) := by
  have h1 := G.three_le
  have h2 := G.last_lt
  unfold backupStart
  omega

/-- the entry array of the backup, where it does not begin before the span -/
theorem SafeGeometry.entriesAt_backupSpan (G : SafeGeometry F s h) {h' : GptHeader} {raw : Bytes}
    {m : PartitionMap} (hle : h.backupLba + 2 - h.firstUsableLba ≤ h'.partitionEntryStartLba) :
    EntriesAt crc32 (backupSpan F s h) ((h'.partitionEntryStartLba - backupStart h).toNat * s)
        ((h.firstUsableLba - 1) * s) h' s raw m
      ↔ EntriesAt crc32 F (h'.partitionEntryStartLba * s) ((h.backupLba + 1) * s) h' s raw m := by
  have hstart := G.backupStart_eq
  have e : ((h'.partitionEntryStartLba : Int) - backupStart h).toNat
      = h'.partitionEntryStartLba - (h.backupLba + 2 - h.firstUsableLba) := by omega
  unfold backupSpan
  rw [e, entriesAt_window (Nat.le_refl _), G.span_stop, ← Nat.add_mul, Nat.add_sub_cancel' hle]

end

/-- **The spans are an acceptable pair exactly when the image is well formed.** -/
theorem pairOk_iff_flashOk {F : Bytes} {s : Nat} (hs : detectSectorSize
      (primarySpan F s (GptHeader.decode (window F s 92))) = s)
    (hlow : 0x200 ≤ s) (G : SafeGeometry F s (GptHeader.decode (window F s 92))) {hp hb : GptHeader}
    {raw : Bytes} {m : PartitionMap} :
    PairOk crc32 (primarySpan F s (GptHeader.decode (window F s 92)))
        (backupSpan F s (GptHeader.decode (window F s 92))) s hp hb raw m
      ↔ FlashOk crc32 F s hp hb raw m := by
  set h := GptHeader.decode (window F s 92) with hdef
  have hP := G.length_primarySpan
  have hB := G.length_backupSpan
  have h3 := G.three_le
  have h2 := G.last_lt
  have hstart := G.backupStart_eq
  have hlen3 : 3 * s ≤ h.firstUsableLba * s := Nat.mul_le_mul_right s h3
  -- both readings take the primary header from the same 92 bytes
  have hwin : window (primarySpan F s h) s 92 = window F s 92 := by
    rw [primarySpan, window_window (by omega), Nat.zero_add]
  have hmbr : window (primarySpan F s h) 0x1FE 2 = window F 0x1FE 2 := by
    rw [primarySpan, window_window (by omega), Nat.zero_add]
  refine ⟨fun H => ?_, fun H => ?_⟩
  · obtain rfl : hp = h := by
      rw [H.primaryHeader.fields, hwin]
    have h1 := H.primaryHeader
    have h4 := H.backupHeader
    have h5 := H.primaryEntries
    have h6 := H.backupEntries
    have hle := H.start_le
    rw [hP, headerAt_primarySpan] at h1
    rw [hB, G.headerAt_backupSpan] at h4
    rw [hP, entriesAt_primarySpan] at h5
    rw [hB, G.entriesAt_backupSpan (by omega)] at h6
    exact ⟨hmbr ▸ H.mbr, h1, H.current, h4, H.mirrored, H.backupCurrent,
      H.backupBackup.trans H.current, h5, by omega, h6⟩
  · obtain rfl : hp = h := by
      rw [H.primaryHeader.fields, Nat.one_mul]
    have hle := H.backup_start
    refine ⟨hs, by omega, hmbr.trans H.mbr, ?_, H.current, hP, by omega, hB, ?_, H.mirrored,
      H.backupCurrent, H.backupBackup.trans H.current.symm, ?_, by omega, ?_⟩
    · rw [hP, headerAt_primarySpan]
      exact H.primaryHeader
    · rw [hB, G.headerAt_backupSpan]
      exact H.backupHeader
    · rw [hP, entriesAt_primarySpan]
      exact H.primaryEntries
    · rw [hB, G.entriesAt_backupSpan (by omega)]
      exact H.backupEntries

end

/-! ## what `da_gpt` writes -/

section
variable {F : Bytes} {gpt : GuidGpt} {flashSize : Nat} {readflash : Int → Int → Option Bytes}
  {directory : Option String} {files : List (String × Bytes)}

theorem SeesFlash.sector_le (H : SeesFlash F gpt flashSize readflash) : 0x200 ≤ gpt.sectorsize := by
  rcases H.sector with h | h <;> omega

/-- **A run of `da_gpt`** does not raise exactly when the signature is right and the geometry safe,
and then it writes the two spans. -/
theorem daGpt_eq_ok (H : SeesFlash F gpt flashSize readflash) :
    daGpt (some gpt) flashSize readflash directory = .ok files ↔
      gpt.header.signature = efiPart ∧
      SafeGeometry F gpt.sectorsize (GptHeader.decode (window F gpt.sectorsize 92)) ∧
      files = [(gptFilename directory,
          primarySpan F gpt.sectorsize (GptHeader.decode (window F gpt.sectorsize 92))),
        (gptBackupFilename directory,
          backupSpan F gpt.sectorsize (GptHeader.decode (window F gpt.sectorsize 92)))] := by
  have hsector : gpt.sectorsize ∈ [0x200, 0x1000] := by
    rcases H.sector with h | h
    · rw [h]
      decide
    · rw [h]
      decide
  unfold daGpt
  dsimp only
  rw [raiseIf_bind_eq_ok, raiseIf_bind_eq_ok, H.firstUsable, H.lastUsable, H.backup,
    H.flashSize_eq]
  set h := GptHeader.decode (window F gpt.sectorsize 92) with hdef
  set s := gpt.sectorsize with hsdef
  have hguard : ¬ ((h.firstUsableLba : Int) < 3 ∨ (h.firstUsableLba : Int) - 1 < 2 ∨
      (h.backupLba : Int) - (h.firstUsableLba - 1) + 1 ≤ h.lastUsableLba ∨
      (h.backupLba + 1) * s > F.length) ↔ SafeGeometry F s h := by
    constructor
    · intro hgeo
      exact ⟨by omega, by omega, Nat.le_of_not_lt fun hlt => hgeo (Or.inr (Or.inr (Or.inr hlt)))⟩
    · rintro ⟨h3, h2, h4⟩
      omega
  rw [hguard, not_or, not_not, not_not, and_assoc, and_iff_right hsector]
  refine and_congr_right fun _ => and_congr_right fun G => ?_
  have h3 := G.three_le
  have h2 := G.last_lt
  have h4 := G.inside
  have hle : h.firstUsableLba * s ≤ (h.backupLba + 1) * s := Nat.mul_le_mul_right s (by omega)
  have hstop := G.span_stop
  -- the two reads, at natural-number addresses
  have e1 : (h.firstUsableLba : Int) * s = ((h.firstUsableLba * s : ℕ) : Int) := by push_cast; rfl
  have e2 : ((h.backupLba : Int) - (h.firstUsableLba - 1) + 1) * s
      = (((h.backupLba + 2 - h.firstUsableLba) * s : ℕ) : Int) := by
    push_cast [show h.firstUsableLba ≤ h.backupLba + 2 by omega]
    ring
  have e3 : ((h.firstUsableLba : Int) - 1) * s = (((h.firstUsableLba - 1) * s : ℕ) : Int) := by
    push_cast [show 1 ≤ h.firstUsableLba by omega]
    rfl
  have r1 : readExact readflash 0 ((h.firstUsableLba * s : ℕ) : Int) "primary GPT"
      = .ok (primarySpan F s h) :=
    readExact_eq_ok.mpr ⟨H.reads 0 _ (by omega), congrArg _ G.length_primarySpan⟩
  have r2 : readExact readflash (((h.backupLba + 2 - h.firstUsableLba) * s : ℕ) : Int)
      (((h.firstUsableLba - 1) * s : ℕ) : Int) "backup GPT" = .ok (backupSpan F s h) :=
    readExact_eq_ok.mpr ⟨H.reads _ _ (by omega), congrArg _ G.length_backupSpan⟩
  rw [e1, e2, e3, r1, ok_bind, r2, ok_bind, pure_eq_ok]
  exact eq_comm

/-- the parser finds the sector size of the flash in the captured primary span -/
theorem detectSectorSize_primarySpan (H : SeesFlash F gpt flashSize readflash)
    (hsig : gpt.header.signature = efiPart)
    (G : SafeGeometry F gpt.sectorsize (GptHeader.decode (window F gpt.sectorsize 92))) :
    detectSectorSize (primarySpan F gpt.sectorsize
      (GptHeader.decode (window F gpt.sectorsize 92))) = gpt.sectorsize := by
  set h := GptHeader.decode (window F gpt.sectorsize 92) with hdef
  have h3 : 3 * gpt.sectorsize ≤ h.firstUsableLba * gpt.sectorsize :=
    Nat.mul_le_mul_right _ G.three_le
  have hlow := H.sector_le
  have hw : ∀ n : Nat, n + 8 ≤ h.firstUsableLba * gpt.sectorsize →
      window (primarySpan F gpt.sectorsize h) n 8 = window F n 8 := by
    intro n hn
    rw [primarySpan, window_window (by omega), Nat.zero_add]
  have hat : window F gpt.sectorsize 8 = efiPart := by
    have e : window (window F gpt.sectorsize 92) 0 8 = window F gpt.sectorsize 8 :=
      window_window (by omega)
    rw [← e, ← hsig, H.signature]
    rfl
  have h200 := hw 0x200 (by omega)
  rcases H.sector with hs | hs
  · rw [hs] at hat h200 ⊢
    exact detectSectorSize_small (h200.trans hat)
  · have hne := H.not_small hs
    have h1000 := hw 0x1000 (by omega)
    rw [← h200] at hne
    rw [hs] at hat hne h1000 ⊢
    exact detectSectorSize_large hne (h1000.trans hat)

/-- **Capture and validation agree with the flash itself.**  Whatever `da_gpt` writes for an image:
the two contents have the sizes the parser demands; what the parser takes for the backup header is
sector `backup_lba` of the image; and the parser accepts them exactly when the image, read by
absolute LBA, is well formed, with the dictionary that describes the image. -/
theorem daGpt_agrees (crc32 : Bytes → UInt32) (H : SeesFlash F gpt flashSize readflash)
    (hrun : daGpt (some gpt) flashSize readflash directory = .ok files) :
    ∃ P B, files = [(gptFilename directory, P), (gptBackupFilename directory, B)] ∧
      let s := detectSectorSize P
      let h := GptHeader.decode (window P s 92)
      s = gpt.sectorsize ∧
      (P.length = h.firstUsableLba * s ∧ (B.length : Int) = ((h.firstUsableLba : Int) - 1) * s) ∧
      window B (((h.backupLba : Int) - backupStart h) * s).toNat s
        = window F (gpt.header.backupLba * s) s ∧
      ((∃ g, parseGptPair crc32 P B = .ok g) ↔ FlashWellFormed crc32 F gpt.sectorsize) ∧
      ∀ g, parseGptPair crc32 P B = .ok g ↔ FlashTable crc32 F gpt.sectorsize g := by
  obtain ⟨hsig, G, rfl⟩ := (daGpt_eq_ok H).mp hrun
  have hs := detectSectorSize_primarySpan H hsig G
  have hlow := H.sector_le
  have hbak := H.backup
  have hfu3 : 3 * gpt.sectorsize ≤ (GptHeader.decode (window F gpt.sectorsize 92)).firstUsableLba
    * gpt.sectorsize := Nat.mul_le_mul_right _ G.three_le
  have hwin : window (primarySpan F gpt.sectorsize (GptHeader.decode (window F gpt.sectorsize 92)))
      gpt.sectorsize 92 = window F gpt.sectorsize 92 := by
    rw [primarySpan, window_window (by omega), Nat.zero_add]
  have hiff : ∀ g, parseGptPair crc32
      (primarySpan F gpt.sectorsize (GptHeader.decode (window F gpt.sectorsize 92)))
      (backupSpan F gpt.sectorsize (GptHeader.decode (window F gpt.sectorsize 92))) = .ok g
        ↔ FlashTable crc32 F gpt.sectorsize g := by
    intro g
    rw [parseGptPair_eq_ok]
    constructor
    · rintro ⟨s, hp, hb, raw, m, K, rfl⟩
      obtain rfl : s = gpt.sectorsize := K.sector.symm.trans hs
      exact ⟨hp, hb, raw, m, (pairOk_iff_flashOk hs hlow G).mp K, rfl⟩
    · rintro ⟨hp, hb, raw, m, K, rfl⟩
      exact ⟨_, hp, hb, raw, m, (pairOk_iff_flashOk hs hlow G).mpr K, rfl⟩
  refine ⟨_, _, rfl, ?_⟩
  dsimp only
  rw [hs, hwin]
  set h := GptHeader.decode (window F gpt.sectorsize 92) with hdef
  have h3 := G.three_le
  have h2 := G.two_sectors
  refine ⟨rfl, ⟨G.length_primarySpan, (backupLength_iff (by omega)).mpr G.length_backupSpan⟩, ?_, ?_,
    hiff⟩
  · rw [headerOffset_eq, toNat_sub_two _ (by omega), backupSpan, window_window (by omega),
      G.header_offset, hbak]
  · constructor
    · rintro ⟨g, hg⟩
      obtain ⟨hp, hb, raw, m, K, _⟩ := (hiff g).mp hg
      exact ⟨hp, hb, raw, m, K⟩
    · rintro ⟨hp, hb, raw, m, K⟩
      exact ⟨_, (hiff _).mpr ⟨hp, hb, raw, m, K, rfl⟩⟩

end

/-- a reader of the image `F` -/
def readImage (F : Bytes) (address length : Int) : Option Bytes :=
  some (slice F address (address + length))

/-- the eight sectors of the small disk -/
def smallFlash : Bytes :=
  (smallLayout 0).primary Crc32.crc32 ++
    (List.replicate (3 * 0x200) 0 ++ (smallLayout 0).backup Crc32.crc32)

def smallGpt : GuidGpt := ⟨⟨efiPart, 3, 5, 7⟩, 0x200⟩

theorem seesFlash_small : SeesFlash smallFlash smallGpt 0x1000 (readImage smallFlash) where
  sector := Or.inl rfl
  signature := by decide +kernel
  firstUsable := by decide +kernel
  lastUsable := by decide +kernel
  backup := by decide +kernel
  flashSize_eq := by decide +kernel
  reads := fun a n _ => congrArg some (slice_eq_window smallFlash a n)
  not_small := fun h => absurd h (by decide)

theorem daGpt_agrees_small :
    let h := GptHeader.decode (window smallFlash 0x200 92)
    ∃ P B, [(gptFilename none, primarySpan smallFlash 0x200 h),
        (gptBackupFilename none, backupSpan smallFlash 0x200 h)]
          = [(gptFilename none, P), (gptBackupFilename none, B)] ∧
      ((∃ g, parseGptPair Crc32.crc32 P B = .ok g) ↔
        FlashWellFormed Crc32.crc32 smallFlash smallGpt.sectorsize) := by
  intro h
  have G : SafeGeometry smallFlash 0x200 h :=
    ⟨by decide +kernel, by decide +kernel, by decide +kernel⟩
  have hrun : daGpt (some smallGpt) 0x1000 (readImage smallFlash) none
      = .ok [(gptFilename none, primarySpan smallFlash 0x200 h),
        (gptBackupFilename none, backupSpan smallFlash 0x200 h)] :=
    (daGpt_eq_ok seesFlash_small).mpr ⟨rfl, G, rfl⟩
  obtain ⟨P, B, hfiles, _, _, _, hiff, _⟩ := daGpt_agrees Crc32.crc32 seesFlash_small hrun
  exact ⟨P, B, hfiles, hiff⟩

end RT7.Gpt
