import RT7.Copy.Accept
import RT7.Copy.Transfer

/-!
# What the capture tool certifies, the copy tool reads

* `CaseDistinct`    no two partition names of the captured GPT are equal up to letter case;
* `convertible_manifestJson`   the manifest can be converted exactly when they are not: its other
  objects have keys that no casing confuses;
* `Accepted.length_eq`   the two files of an artifact have one size;
* `sourceVerification_captured`   on a certified directory the copy tool accepts, and verifies every
  artifact of both passes, exactly when `CaseDistinct` holds.

The whole parsed GPT is part of the manifest, with its partition names as the keys of an object, and
`ConvertFrom-Json` refuses two keys that differ in case only.
-/

namespace RT7.Copy

open Py Text Gpt Capture

def CaseDistinct (crc32 : Bytes → UInt32) (output : OutputDir) (cs : Casing) : Prop :=
  ∀ primary backup gpt, (output.pass "pass1").get? "gpt.bin" = some primary →
    (output.pass "pass1").get? "gpt_backup.bin" = some backup →
    parseGptPair crc32 primary backup = .ok gpt → (gpt.partitions.keys.map cs.key).Nodup

/-! ## the document -/

section
variable {cs : Casing}

theorem keysOk_map {α : Type} {l : List (String × α)} {f : α → Json} :
    keysOk cs (l.map fun m => (m.1, f m.2)) = true ↔
      ((l.map Prod.fst).map cs.key).Nodup ∧ ∀ name ∈ l.map Prod.fst, name ≠ "" := by
  rw [keysOk, Bool.and_eq_true, decide_eq_true_iff, List.all_eq_true, List.map_map, List.map_map,
    List.forall_mem_map, List.forall_mem_map]
  refine and_congr Iff.rfl (forall₂_congr fun m _ => ?_)
  exact decide_eq_true_iff

theorem plain_artifactJson : PlainNames ["size", "sha256", "verified_copies"] := by decide

theorem plain_manifest : PlainNames ["format", "mtkclient_commit", "gpt_capture_patch",
    "read_passes", "artifacts", "gpt", "slot_images_identical"] := by decide

theorem plain_gpt : PlainNames ["sector_size", "disk_guid", "primary_lba", "backup_lba",
    "first_usable_lba", "last_usable_lba", "partitions"] := by decide

theorem plain_partition : PlainNames ["first_lba", "last_lba", "size"] := by decide

theorem plain_slots : PlainNames (comparedBases ++ ["preloader_lu0_lu1"]) := by decide

theorem plain_artifacts : PlainNames (partitions.artifacts.map binName) := by decide

theorem keysOk_artifactJson (a : Artifact) :
    keysOk cs [("size", .num a.size), ("sha256", .str a.sha256),
      ("verified_copies", .num a.verifiedCopies)] = true :=
  keysOk_of_plain plain_artifactJson rfl

theorem convertible_artifactJson (a : Artifact) : convertible cs (artifactJson a) = true := by
  refine convertible_obj.mpr ⟨keysOk_artifactJson a, ?_⟩
  simp

theorem convertible_partitionJson (p : Partition) : convertible cs (partitionJson p) = true := by
  refine convertible_obj.mpr ⟨keysOk_of_plain plain_partition rfl, ?_⟩
  simp

/-- The manifest can be converted when its three tables can. -/
theorem convertible_manifestJson {artifacts : Dict String Artifact} {gpt : ParsedGpt}
    {slots : Dict String Bool} (ha : artifacts.keys ⊆ partitions.artifacts.map binName)
    (hs : slots.keys ⊆ comparedBases ++ ["preloader_lu0_lu1"])
    (hg : ∀ name ∈ gpt.partitions.keys, name ≠ "") :
    convertible cs (manifestJson artifacts gpt slots) = true ↔
      (gpt.partitions.keys.map cs.key).Nodup := by
  have hartifacts : convertible cs (.obj (artifacts.items.map fun a => (a.1, artifactJson a.2)))
      = true := by
    refine convertible_obj.mpr ⟨keysOk_map.mpr ⟨plain_artifacts.nodup_key cs artifacts.nodup ha, ?_⟩,
      List.forall_mem_map.mpr fun a _ => convertible_artifactJson a.2⟩
    intro name hn
    exact (plain_artifacts.1 name (ha hn)).2
  have hslots : convertible cs (.obj (slots.items.map fun s => (s.1, .bool s.2))) = true := by
    refine convertible_obj.mpr ⟨keysOk_map.mpr ⟨plain_slots.nodup_key cs slots.nodup hs, ?_⟩,
      List.forall_mem_map.mpr fun s _ => convertible_bool s.2⟩
    intro name hn
    exact (plain_slots.1 name (hs hn)).2
  have hpasses : convertible cs (.arr (capturePasses.map .str)) = true :=
    convertible_arr.mpr (List.forall_mem_map.mpr fun p _ => convertible_str p)
  have hpartitions : convertible cs
      (.obj (gpt.partitions.items.map fun p => (p.1, partitionJson p.2))) = true ↔
        (gpt.partitions.keys.map cs.key).Nodup := by
    rw [convertible_obj, keysOk_map]
    constructor
    · exact fun h => h.1.1
    · intro h
      exact ⟨⟨h, hg⟩, List.forall_mem_map.mpr fun p _ => convertible_partitionJson p.2⟩
  have hgpt : convertible cs (gptJson gpt) = true ↔ (gpt.partitions.keys.map cs.key).Nodup := by
    rw [← hpartitions, gptJson, convertible_obj]
    constructor
    · exact fun h => h.2 ("partitions", _) (by simp)
    · intro h
      refine ⟨keysOk_of_plain plain_gpt rfl, ?_⟩
      simp [h]
  rw [← hgpt, manifestJson, convertible_obj]
  constructor
  · exact fun h => h.2 ("gpt", gptJson gpt) (by simp)
  · intro h
    refine ⟨keysOk_of_plain plain_manifest rfl, ?_⟩
    simp [hartifacts, hslots, hpasses, h]

end

/-! ## the artifacts -/

/-- the entry of the table for one artifact -/
def entryOf (hash : Bytes → Digest) (output : OutputDir) (name : String) : ExpectedChecksum :=
  ⟨(artifactOf hash output name).sha256, (artifactOf hash output name).size⟩

section
variable {shell : Shell} {crc32 : Bytes → UInt32} {output : OutputDir}

theorem artifactMeta_artifactJson (F : Faithful shell crc32 output) {name : String} {a : Artifact}
    (hname : isArtifactName shell.casing name = true)
    (hhash : isHash shell.casing a.sha256 = true) (hcopies : a.verifiedCopies = 2)
    (hsize : a.size < 0x8000000000000000) :
    ArtifactMeta shell (name, (artifactJson a).sortKeys) ⟨a.sha256, a.size⟩ := by
  obtain ⟨sorted, hs, hperm⟩ := Json.sortKeys_obj [("size", .num a.size), ("sha256", .str a.sha256),
    ("verified_copies", .num a.verifiedCopies)]
  have hobj : (artifactJson a).sortKeys = .obj sorted := hs
  have hkeys : keysOk shell.casing sorted = true := by
    rw [keysOk_perm hperm]
    exact keysOk_of_plain plain_artifactJson rfl
  have hmember : ∀ m ∈ [("size", Json.num a.size), ("sha256", .str a.sha256),
      ("verified_copies", .num a.verifiedCopies)],
      member shell.casing m.1 (artifactJson a).sortKeys = .ok m.2.sortKeys := by
    intro m hm
    rw [hobj]
    exact member_of_mem hkeys (hperm.mem_iff.mpr (List.mem_map_of_mem hm))
  have hsize' : member shell.casing "size" _ = .ok (.num a.size) :=
    hmember ("size", .num a.size) (by simp)
  have hsha : member shell.casing "sha256" _ = .ok (.str a.sha256) :=
    hmember ("sha256", .str a.sha256) (by simp)
  have hcop : member shell.casing "verified_copies" _ = .ok (.num a.verifiedCopies) :=
    hmember ("verified_copies", .num a.verifiedCopies) (by simp)
  refine ⟨hname, ⟨_, hsha, F.toText a.sha256⟩, hhash, ⟨_, hcop, ?_⟩, ⟨_, hsize', F.toLong _ hsize⟩,
    Int.natCast_nonneg a.size⟩
  rw [hcopies]
  exact F.toInt

/-- every artifact has a name that the copy tool takes, and that is a plain component -/
theorem artifact_chars : ∀ a ∈ partitions.artifacts, binName a ≠ "" ∧ PlainSegment (binName a) ∧
    '/' ∉ (binName a).toList ∧ '\n' ∉ (binName a).toList := by decide +kernel

theorem artifact_class : ∀ a ∈ partitions.artifacts, (binName a).toList.all (fun c =>
    (97 ≤ c.toNat && c.toNat ≤ 122) || (48 ≤ c.toNat && c.toNat ≤ 57) || c = '_' || c = '.') = true := by
  decide +kernel

theorem mem_nameChars {c : Char} (h : ((97 ≤ c.toNat && c.toNat ≤ 122) ||
    (48 ≤ c.toNat && c.toNat ≤ 57) || c = '_' || c = '.') = true) : c ∈ nameChars := by
  have hletter : ∀ n < 26, Char.ofNat (97 + n) ∈ nameChars := by decide
  have hdigit : ∀ n < 10, Char.ofNat (48 + n) ∈ nameChars := by decide
  simp only [Bool.or_eq_true, Bool.and_eq_true, decide_eq_true_eq] at h
  obtain ((⟨hlow, hhigh⟩ | ⟨hlow, hhigh⟩) | rfl) | rfl := h
  · have hmem := hletter (c.toNat - 97) (by omega)
    rwa [Nat.add_sub_cancel' hlow, Char.ofNat_toNat] at hmem
  · have hmem := hdigit (c.toNat - 48) (by omega)
    rwa [Nat.add_sub_cancel' hlow, Char.ofNat_toNat] at hmem
  · decide
  · decide

theorem isArtifactName_binName {cs : Casing} {a : String} (ha : a ∈ partitions.artifacts) :
    isArtifactName cs (binName a) = true := by
  refine isArtifactName_of_chars (artifact_chars a ha).1 fun c hc => ?_
  exact mem_nameChars (List.all_eq_true.mp (artifact_class a ha) c hc)

theorem pass_chars : ∀ p ∈ capturePasses, PlainSegment p ∧ '/' ∉ p.toList ∧ '\n' ∉ p.toList := by
  decide

theorem relative_listed (name : String) {p : String} (hp : p ∈ capturePasses) :
    isPathRooted (p ++ "/" ++ name) = false := by
  rw [isPathRooted, String.toList_append, String.toList_append]
  obtain rfl | hp := List.mem_cons.mp hp
  · rfl
  · obtain rfl := List.mem_singleton.mp hp
    rfl

/-! ## the table and the lines -/

variable {gpt1 gpt2 : ParsedGpt}

theorem content_captured (H : Accepted crc32 shell.hash output gpt1 gpt2) {p a : String}
    (hp : p ∈ capturePasses) (ha : a ∈ partitions.artifacts) :
    (output.pass p).get? (binName a) = some (contentOf output p (binName a)) := by
  have hread := readable_artifactNames H.pass1 H.pass2
  obtain ⟨c, hc⟩ := hread p hp (binName a) ((mem_artifactNames H.pass1).mpr ⟨a, ha, rfl⟩)
  rw [hc, contentOf_eq hc]

/-- one entry serves both passes -/
theorem entryOf_eq (H : Accepted crc32 shell.hash output gpt1 gpt2) {p a : String}
    (hp : p ∈ capturePasses) (ha : a ∈ partitions.artifacts) :
    entryOf shell.hash output (binName a)
      = ⟨(shell.hash (contentOf output p (binName a))).hexdigest,
          (contentOf output p (binName a)).length⟩ := by
  have hcases : p = "pass1" ∨ p = "pass2" := by simpa [capturePasses] using hp
  cases hcases with
  | inl e => rw [e]; rfl
  | inr e =>
    rw [e, ← H.hashes a ha, ← length_contentOf H.pass1 H.pass2 H.same ha]
    rfl

/-- the files of both passes, in the order of the lines -/
def listing (output : OutputDir) : List (String × String) :=
  (artifactNames output).flatMap fun name => capturePasses.map fun p => (p, name)

theorem mem_listing (H : PassOk crc32 (output.pass "pass1") gpt1) {f : String × String} :
    f ∈ listing output ↔
      f.1 ∈ capturePasses ∧ ∃ a ∈ partitions.artifacts, binName a = f.2 := by
  rw [listing, List.mem_flatMap, ← mem_artifactNames H]
  constructor
  · rintro ⟨name, hn, hf⟩
    obtain ⟨p, hp, rfl⟩ := List.mem_map.mp hf
    exact ⟨hp, hn⟩
  · rintro ⟨hp, hn⟩
    exact ⟨f.2, hn, List.mem_map.mpr ⟨f.1, hp, rfl⟩⟩

theorem allLines_eq : allLines shell.hash output (artifactNames output)
    = (listing output).map fun f => listingLine shell f.1 f.2 (contentOf output f.1 f.2) := by
  rw [allLines, listing, List.map_flatMap]
  refine List.flatMap_congr fun name _ => ?_
  rw [List.map_map]
  refine List.map_congr_left fun p _ => ?_
  show (shell.hash (contentOf output p name)).hexdigest ++ "  " ++ p ++ "/" ++ name
    = (shell.hash (contentOf output p name)).hexdigest ++ "  " ++ (p ++ "/" ++ name)
  simp only [String.append_assoc]

theorem keys_listing : (listing output).map (fun f => pairKey shell f.1 f.2)
    = wanted shell (artifactNames output) := by
  rw [listing, List.map_flatMap, wanted]
  refine List.flatMap_congr fun name _ => ?_
  rw [List.map_map]
  rfl

theorem nodup_key_artifactNames (cs : Casing) (H : PassOk crc32 (output.pass "pass1") gpt1) :
    ((artifactNames output).map cs.key).Nodup :=
  plain_artifacts.nodup_key cs (nodup_artifactNames output) (artifactNames_perm H).subset

/-! ## the sorted document -/

theorem twoPasses_captured (F : Faithful shell crc32 output) :
    TwoPasses shell (capturePasses.map .str) := by
  rw [TwoPasses, List.map_map]
  refine List.map_congr_left fun p _ => ?_
  exact congrArg shell.casing.key (F.toText p)

/-- the properties that the copy tool finds in the manifest -/
theorem members_manifestJson {cs : Casing} {artifacts : Dict String Artifact} {gpt : ParsedGpt}
    {slots : Dict String Bool} (h : convertible cs (manifestJson artifacts gpt slots) = true) :
    ∃ props, props.Perm (artifacts.items.map fun a => (a.1, (artifactJson a.2).sortKeys)) ∧
      keysOk cs props = true ∧
      member cs "format" (manifestJson artifacts gpt slots).sortKeys = .ok (.num 2) ∧
      member cs "read_passes" (manifestJson artifacts gpt slots).sortKeys
        = .ok (.arr (capturePasses.map .str)) ∧
      member cs "artifacts" (manifestJson artifacts gpt slots).sortKeys = .ok (.obj props) := by
  obtain ⟨props, hprops, hperm⟩ :=
    Json.sortKeys_obj (artifacts.items.map fun a => (a.1, artifactJson a.2))
  rw [List.map_map] at hperm
  have hsorted : convertible cs (manifestJson artifacts gpt slots).sortKeys = true := by
    rw [convertible_sortKeys]
    exact h
  have hmember : ∀ name value, (name, value) ∈ [("format", Json.num 2),
      ("read_passes", .arr (capturePasses.map .str)),
      ("artifacts", .obj (artifacts.items.map fun a => (a.1, artifactJson a.2)))] →
      member cs name (manifestJson artifacts gpt slots).sortKeys = .ok value.sortKeys := by
    intro name value hm
    unfold manifestJson at hsorted ⊢
    obtain ⟨sorted, hs, hp⟩ := Json.sortKeys_obj [("format", .num 2),
      ("mtkclient_commit", .str mtkclientCommit),
      ("gpt_capture_patch", .str mtkclientGptPatchMarker),
      ("read_passes", .arr (capturePasses.map .str)),
      ("artifacts", .obj (artifacts.items.map fun a => (a.1, artifactJson a.2))),
      ("gpt", gptJson gpt),
      ("slot_images_identical", .obj (slots.items.map fun s => (s.1, .bool s.2)))]
    rw [hs] at hsorted ⊢
    refine member_of_mem (convertible_obj.mp hsorted).1 (hp.mem_iff.mpr ?_)
    refine List.mem_map.mpr ⟨(name, value), ?_, rfl⟩
    simp only [List.mem_cons, List.not_mem_nil, or_false] at hm ⊢
    rcases hm with hm | hm | hm
    · exact .inl hm
    · exact .inr (.inr (.inr (.inl hm)))
    · exact .inr (.inr (.inr (.inr (.inl hm))))
  have hartifacts := hmember "artifacts"
    (.obj (artifacts.items.map fun a => (a.1, artifactJson a.2))) (by simp)
  rw [hprops] at hartifacts
  have hobj := convertible_member hsorted hartifacts
  exact ⟨props, hperm, (convertible_obj.mp hobj).1, hmember "format" (.num 2) (by simp),
    hmember "read_passes" (.arr (capturePasses.map .str)) (by simp), hartifacts⟩

/-! ## the copy tool on a certified directory -/

variable {artifacts : Dict String Artifact} {slots : Dict String Bool} {vol : Volume}
  {root : SourceRoot}

/-- the directory that the capture tool leaves -/
def certified (shell : Shell) (output : OutputDir) (artifacts : Dict String Artifact)
    (gpt : ParsedGpt) (slots : Dict String Bool) : OutputDir :=
  { output with
    checksumManifest := some (asciiBytes (String.join
      ((allLines shell.hash output (artifactNames output)).map fun l => l ++ "\n")))
    captureManifest := some (asciiBytes ((manifestJson artifacts gpt slots).dumps ++ "\n")) }

/-- the manifest is an object, and is converted when its keys allow it -/
theorem convertFromJson_manifest {raw : Bytes}
    (hread : shell.readJson raw = some (manifestJson artifacts gpt1 slots).sortKeys)
    {document : Json} : convertFromJson shell raw = .ok document ↔
      convertible shell.casing (manifestJson artifacts gpt1 slots) = true ∧
        document = (manifestJson artifacts gpt1 slots).sortKeys := by
  rw [← convertible_sortKeys]
  unfold manifestJson at hread ⊢
  obtain ⟨sorted, hs, -⟩ := Json.sortKeys_obj [("format", .num 2),
    ("mtkclient_commit", .str mtkclientCommit),
    ("gpt_capture_patch", .str mtkclientGptPatchMarker),
    ("read_passes", .arr (capturePasses.map .str)),
    ("artifacts", .obj (artifacts.items.map fun a => (a.1, artifactJson a.2))),
    ("gpt", gptJson gpt1),
    ("slot_images_identical", .obj (slots.items.map fun s => (s.1, .bool s.2)))]
  rw [hs] at hread ⊢
  exact convertFromJson_obj hread

/-- the table that the script builds: one entry for each artifact, for both passes -/
theorem expectedChecksums_captured (F : Faithful shell crc32 output)
    (H : Accepted crc32 shell.hash output gpt1 gpt2)
    (hsizes : ∀ a ∈ partitions.artifacts, (contentOf output "pass1" (binName a)).length < 0x8000000000000000)
    {props : List (String × Json)} (hperm : props.Perm ((artifactNames output).map fun name =>
      (name, (artifactJson (artifactOf shell.hash output name)).sortKeys)))
    (hkeys : keysOk shell.casing props = true) :
    ∃ expected, expectedChecksums shell (capturePasses.map .str) props = .ok expected ∧
      expected.items.length = 2 * (artifactNames output).length ∧
      ∀ p ∈ capturePasses, ∀ a ∈ partitions.artifacts,
        expected.get? (pairKey shell p (binName a))
          = some (entryOf shell.hash output (binName a)) := by
  have hmeta : ∀ q ∈ props, ArtifactMeta shell q (entryOf shell.hash output q.1) := by
    intro q hq
    obtain ⟨name, hn, rfl⟩ := List.mem_map.mp (hperm.mem_iff.mp hq)
    obtain ⟨a, ha, rfl⟩ := (mem_artifactNames H.pass1).mp hn
    exact artifactMeta_artifactJson F (isArtifactName_binName ha) (isHash_hexdigest _) rfl
      (hsizes a ha)
  have hentries : List.Forall₂ (ArtifactMeta shell) props
      (props.map fun q => entryOf shell.hash output q.1) := by
    rw [List.forall₂_map_right_iff, List.forall₂_same]
    exact hmeta
  have htwo := twoPasses_captured F
  obtain ⟨hitems, hkeysOf⟩ := items_table hentries.length_eq hkeys htwo
  refine ⟨_, expectedChecksums_eq_ok.mpr ⟨_, hentries, rfl⟩, ?_, ?_⟩
  · have hlen := congrArg List.length hkeysOf
    rw [Dict.keys, List.length_map, length_wanted, List.length_map, hperm.length_eq,
      List.length_map] at hlen
    exact hlen
  · intro p hp a ha
    have hq : (binName a, (artifactJson (artifactOf shell.hash output (binName a))).sortKeys)
        ∈ props := hperm.mem_iff.mpr
      (List.mem_map_of_mem ((mem_artifactNames H.pass1).mpr ⟨a, ha, rfl⟩))
    refine Dict.get?_eq_some.mpr ?_
    rw [hitems, ← List.map_prod_left_eq_zip]
    refine List.mem_flatMap.mpr ⟨_, List.mem_map_of_mem hq, List.mem_map.mpr ⟨.str p, ?_, ?_⟩⟩
    · exact List.mem_map_of_mem hp
    · rw [F.toText]

/-- `Get-Content` reads the listing line by line. -/
theorem getContent_allLines (F : Faithful shell crc32 output)
    (H : Accepted crc32 shell.hash output gpt1 gpt2) :
    shell.getContent (asciiBytes (String.join
      ((allLines shell.hash output (artifactNames output)).map fun l => l ++ "\n")))
      = allLines shell.hash output (artifactNames output) := by
  have hplain : ∀ line ∈ allLines shell.hash output (artifactNames output),
      Ascii line ∧ OneLine line := allLines_plain H.pass1
  rw [F.getContent _ (ascii_join_lines fun line hl => (hplain line hl).1),
    readLines_join fun line hl => (hplain line hl).2]

/-- Every line of the listing names a file that is there, with its entry in the table. -/
theorem present_listing (H : Accepted crc32 shell.hash output gpt1 gpt2)
    (T : Transferred (certified shell output artifacts gpt1 slots) shell.casing vol root)
    {expected : Expected}
    (hget : ∀ p ∈ capturePasses, ∀ a ∈ partitions.artifacts,
      expected.get? (pairKey shell p (binName a))
        = some (entryOf shell.hash output (binName a))) :
    ∀ f ∈ listing output, Present shell vol root expected f.1 f.2 (contentOf output f.1 f.2) := by
  rintro ⟨p, name⟩ hf
  obtain ⟨hp, a, ha, rfl⟩ := (mem_listing H.pass1).mp hf
  have hchars := artifact_chars a ha
  refine ⟨pass_chars p hp, hchars.2, relative_listed _ hp, ?_, ?_⟩
  · rw [hget p hp a ha, entryOf_eq H hp ha]
  · exact T.files p hp a ha _ (content_captured H hp ha)

/-- The copy tool accepts what can be converted. -/
theorem exists_run (F : Faithful shell crc32 output)
    (H : Accepted crc32 shell.hash output gpt1 gpt2)
    (hitems : artifacts.items = (artifactNames output).map
      fun name => (name, artifactOf shell.hash output name))
    (T : Transferred (certified shell output artifacts gpt1 slots) shell.casing vol root)
    (hread : shell.readJson (asciiBytes ((manifestJson artifacts gpt1 slots).dumps ++ "\n"))
      = some (manifestJson artifacts gpt1 slots).sortKeys)
    (hconv : convertible shell.casing (manifestJson artifacts gpt1 slots) = true) :
    ∃ v, sourceVerification shell vol root = .ok v ∧ Complete shell vol root v ∧
      (v.artifacts.map Prod.fst).Perm (partitions.artifacts.map binName) := by
  obtain ⟨props, hperm, hkeys, hformat, hpasses, hartifacts⟩ := members_manifestJson hconv
  rw [hitems, List.map_map] at hperm
  have hpass : ∀ p, (certified shell output artifacts gpt1 slots).pass p = output.pass p :=
    fun _ => rfl
  have hsizes : ∀ a ∈ partitions.artifacts,
      (contentOf output "pass1" (binName a)).length < 0x8000000000000000 := by
    intro a ha
    exact T.sizes "pass1" (by decide) a ha _ (content_captured H (by decide) ha)
  obtain ⟨expected, hexpected, hcount, hget⟩ := expectedChecksums_captured F H hsizes hperm hkeys
  have hlines := getContent_allLines F H
  have hpresent := present_listing H T hget
  have hloop := loop_accepts hpresent (by
    rw [keys_listing]
    exact nodup_wanted (nodup_key_artifactNames shell.casing H.pass1))
  have hnames : (props.map Prod.fst).Perm (partitions.artifacts.map binName) := by
    refine (hperm.map Prod.fst).trans ?_
    rw [List.map_map]
    exact (List.Perm.of_eq (List.map_id _)).trans (artifactNames_perm H.pass1)
  have hlength : (allLines shell.hash output (artifactNames output)).length
      = expected.items.length := by
    rw [hcount, allLines_eq, List.length_map, ← length_wanted shell, ← keys_listing,
      List.length_map]
  have hrun : Run shell vol root
      ⟨capturePasses.map .str, props, allLines shell.hash output (artifactNames output),
        expected.items.length⟩ _ _ (manifestJson artifacts gpt1 slots).sortKeys (.num 2)
      (.arr (capturePasses.map .str)) expected :=
    { captureManifestFile := by
        rw [segmentsOf_joinPath (by decide)]
        exact T.captureManifest _ rfl
      checksumManifestFile := by
        rw [segmentsOf_joinPath (by decide)]
        exact T.checksumManifest _ rfl
      document := (convertFromJson_manifest hread).mpr ⟨hconv, rfl⟩
      formatMember := hformat
      format := F.toInt
      readPassesMember := hpasses
      readPasses := rfl
      artifacts := hartifacts
      joined := by
        show shell.casing.key (join ',' [shell.toText (.str "pass1"), shell.toText (.str "pass2")])
          = _
        rw [F.toText, F.toText]
        rfl
      nonempty := by
        rintro rfl
        exact absurd hnames.length_eq (by decide)
      table := hexpected
      lines := hlines.symm
      count := hlength
      expectedChecksumCount := rfl
      loop := by
        rw [allLines_eq]
        exact hloop }
  refine ⟨_, sourceVerification_eq_ok.mpr ⟨T.source, verifyCapture_eq_ok.mpr
    ⟨_, _, _, _, _, _, hrun⟩⟩, hrun.complete T.source (twoPasses_captured F), hnames⟩

/-- An accepted manifest was converted. -/
theorem convertible_of_run (T : Transferred (certified shell output artifacts gpt1 slots)
      shell.casing vol root)
    (hread : shell.readJson (asciiBytes ((manifestJson artifacts gpt1 slots).dumps ++ "\n"))
      = some (manifestJson artifacts gpt1 slots).sortKeys) {v : Verification}
    (h : sourceVerification shell vol root = .ok v) :
    convertible shell.casing (manifestJson artifacts gpt1 slots) = true := by
  obtain ⟨_, hverify⟩ := sourceVerification_eq_ok.mp h
  obtain ⟨raw, _, _, _, _, _, hrun⟩ := verifyCapture_eq_ok.mp hverify
  have hfile := hrun.captureManifestFile
  rw [segmentsOf_joinPath (by decide), T.captureManifest _ rfl] at hfile
  cases hfile
  exact ((convertFromJson_manifest hread).mp hrun.document).1

theorem caseDistinct_iff (H : PassOk crc32 (output.pass "pass1") gpt1) (cs : Casing) :
    CaseDistinct crc32 output cs ↔ (gpt1.partitions.keys.map cs.key).Nodup := by
  obtain ⟨primary, backup, hp, hb, hok⟩ := H.parsed
  constructor
  · intro h
    exact h primary backup gpt1 hp hb hok
  · intro h primary' backup' gpt hp' hb' hok'
    cases hp.symm.trans hp'
    cases hb.symm.trans hb'
    cases hok.symm.trans hok'
    exact h

/-- What precedes the copy tool, on a certified directory. -/
theorem certified_of_ok
    (hok : (validateCapture crc32 shell.hash partitions.sizes output).1 = .ok ()) :
    ∃ checksumLines gpt1 gpt2 artifacts slots,
      certify crc32 shell.hash partitions.sizes output
        = .ok (checksumLines, manifestJson artifacts gpt1 slots) ∧
      Accepted crc32 shell.hash output gpt1 gpt2 ∧
      artifacts.items = (artifactNames output).map
        (fun name => (name, artifactOf shell.hash output name)) ∧
      (∀ cs : Casing, convertible cs (manifestJson artifacts gpt1 slots) = true ↔
        CaseDistinct crc32 output cs) ∧
      (validateCapture crc32 shell.hash partitions.sizes output).2
        = certified shell output artifacts gpt1 slots := by
  cases hrun : certify crc32 shell.hash partitions.sizes output with
  | error e =>
    rw [validateCapture_of_error hrun] at hok
    cases hok
  | ok r =>
    obtain ⟨gpt1, gpt2, artifacts, slots, H, hitems, hslots, rfl⟩ := certify_eq_ok.mp hrun
    have hartifacts : artifacts.keys ⊆ partitions.artifacts.map binName := by
      rw [keys_of_items hitems]
      exact (artifactNames_perm H.pass1).subset
    obtain ⟨primary, backup, -, -, hparse⟩ := H.pass1.parsed
    refine ⟨_, gpt1, gpt2, artifacts, slots, rfl, H, hitems, ?_, ?_⟩
    · intro cs
      rw [caseDistinct_iff H.pass1, convertible_manifestJson hartifacts (slotComparisons_keys hslots)
        (parseGptPair_name_ne hparse)]
    · rw [validateCapture_of_ok H.pass1 hrun]
      rfl

theorem caseDistinct_of_accepted (F : Faithful shell crc32 output)
    (hok : (validateCapture crc32 shell.hash partitions.sizes output).1 = .ok ())
    (T : Transferred (validateCapture crc32 shell.hash partitions.sizes output).2 shell.casing vol
      root) {v : Verification} (hv : sourceVerification shell vol root = .ok v) :
    CaseDistinct crc32 output shell.casing := by
  obtain ⟨_, gpt1, gpt2, artifacts, slots, hcert, H, hitems, hconv, hout⟩ := certified_of_ok hok
  rw [hout] at T
  exact (hconv shell.casing).mp (convertible_of_run T (F.readJson _ _ hcert) hv)

/-- **What the capture tool certifies, the copy tool accepts and verifies**, exactly when no two
partition names are equal up to letter case. -/
theorem sourceVerification_captured (F : Faithful shell crc32 output)
    (hok : (validateCapture crc32 shell.hash partitions.sizes output).1 = .ok ())
    (T : Transferred (validateCapture crc32 shell.hash partitions.sizes output).2 shell.casing vol
      root) :
    (∃ v, sourceVerification shell vol root = .ok v ∧ Complete shell vol root v ∧
      (v.artifacts.map Prod.fst).Perm (partitions.artifacts.map binName)) ↔
      CaseDistinct crc32 output shell.casing := by
  constructor
  · rintro ⟨v, hv, -⟩
    exact caseDistinct_of_accepted F hok T hv
  · intro hdistinct
    obtain ⟨_, gpt1, gpt2, artifacts, slots, hcert, H, hitems, hconv, hout⟩ := certified_of_ok hok
    rw [hout] at T
    exact exists_run F H hitems T (F.readJson _ _ hcert) ((hconv shell.casing).mpr hdistinct)

end

/-! ## two captures -/

/-- the directory that the capture tool leaves for a disk with the given layout -/
def capturedOf (crc32 : Bytes → UInt32) (hash : Bytes → Digest) (L : Layout) : OutputDir :=
  (validateCapture crc32 hash partitions.sizes (captureOf crc32 L)).2

theorem artifactSize_lt : ∀ a ∈ partitions.artifacts,
    a = "gpt" ∨ a = "gpt_backup" ∨
      ((fixedSizes partitions.sizes).get? a).getD 0 < 0x8000000000000000 := by decide +kernel

theorem transferred_capturedOf {crc32 : Bytes → UInt32} {hash : Bytes → Digest} {L : Layout}
    (hL : Lists L) (hsize : L.parsed.firstUsableLba * L.parsed.sectorSize < 0x8000000000000000)
    (cs : Casing) (root : SourceRoot) :
    Transferred (capturedOf crc32 hash L) cs (volumeOf root.parts (capturedOf crc32 hash L))
      root := by
  have hpass : ∀ p, (capturedOf crc32 hash L).pass p = imageDir crc32 L := by
    intro p
    rw [capturedOf, pass_validateCapture, OutputDir.pass]
    exact ite_self _
  refine transferred_volumeOf ?_ ?_
  · intro p _
    rw [hpass, keys_imageDir]
    exact plain_artifacts.nodup_key cs (List.Nodup.of_map _ plain_artifacts.2)
      (List.Subset.refl _)
  · intro p _ a ha content hc
    rw [hpass] at hc
    rw [(passOk_imageDir crc32 L hL).length_eq ha hc, artifactSize]
    have hbackup : (L.parsed.firstUsableLba - 1) * L.parsed.sectorSize
        ≤ L.parsed.firstUsableLba * L.parsed.sectorSize :=
      Nat.mul_le_mul_right _ (Nat.sub_le _ _)
    split_ifs with h1 h2
    · exact hsize
    · exact Nat.lt_of_le_of_lt hbackup hsize
    · exact ((artifactSize_lt a ha).resolve_left h1).resolve_left h2

/-- the copy tool, on the directory that the capture of a layout leaves -/
def copyOf (crc32 : Bytes → UInt32) (hash : Bytes → Digest) (L : Layout) :
    Except Fault Verification :=
  sourceVerification (captureShell crc32 hash (captureOf crc32 L))
    (volumeOf Fixture.root.parts (capturedOf crc32 hash L)) Fixture.root

theorem sourceVerification_captured_table :
    ∃ v, copyOf Crc32.crc32 Sha256.sha256 tableLayout = .ok v ∧
      Complete (captureShell Crc32.crc32 Sha256.sha256 (captureOf Crc32.crc32 tableLayout))
        (volumeOf Fixture.root.parts (capturedOf Crc32.crc32 Sha256.sha256 tableLayout))
        Fixture.root v ∧
      (v.artifacts.map Prod.fst).Perm (partitions.artifacts.map binName) := by
  -- for every layout whose names no casing confuses
  have hall : ∀ (crc32 : Bytes → UInt32) (hash : Bytes → Digest) (L : Layout), Lists L →
      L.parsed.firstUsableLba * L.parsed.sectorSize < 0x8000000000000000 →
      PlainNames L.parsed.partitions.keys →
      ∃ v, copyOf crc32 hash L = .ok v ∧
        Complete (captureShell crc32 hash (captureOf crc32 L))
          (volumeOf Fixture.root.parts (capturedOf crc32 hash L)) Fixture.root v ∧
        (v.artifacts.map Prod.fst).Perm (partitions.artifacts.map binName) := by
    intro crc32 hash L hL hsize hplain
    have H := accepted_captureOf crc32 hash hL
    refine (sourceVerification_captured (faithful_captureShell crc32 hash _) H.validateCapture_ok
      (transferred_capturedOf hL hsize _ _)).mpr ?_
    exact (caseDistinct_iff H.pass1 _).mpr
      (hplain.nodup_key _ (Dict.nodup _) (List.Subset.refl _))
  exact hall Crc32.crc32 Sha256.sha256 tableLayout lists_tableLayout (by decide)
    (by decide +kernel)

/-- Two names that are equal up to case: certified, and refused. -/
theorem copyOf_clash (crc32 : Bytes → UInt32) (hash : Bytes → Digest) {L : Layout}
    (hL : Lists L) (hsize : L.parsed.firstUsableLba * L.parsed.sectorSize < 0x8000000000000000)
    (hclash : ¬ (L.parsed.partitions.keys.map Casing.ordinal.key).Nodup) :
    (validateCapture crc32 hash partitions.sizes (captureOf crc32 L)).1 = .ok () ∧
      ¬ ∃ v, copyOf crc32 hash L = .ok v := by
  have H := accepted_captureOf crc32 hash hL
  refine ⟨H.validateCapture_ok, ?_⟩
  rintro ⟨v, hv⟩
  refine hclash ((caseDistinct_iff H.pass1 Casing.ordinal).mp ?_)
  exact caseDistinct_of_accepted (faithful_captureShell crc32 hash _) H.validateCapture_ok
    (transferred_capturedOf hL hsize _ _) hv

/-- The table of the tablet with one more partition, whose name is that of another in upper
case. -/
def clashLayout : Layout :=
  placedLayout (place 3 (partitions.sizes.items ++ [("BOOT_A", 0x2800000)])) (by decide)

theorem lists_clashLayout : Lists clashLayout := by decide

/-- The capture tool certifies that disk, and the copy tool refuses the certified directory. -/
theorem sourceVerification_clash :
    (validateCapture Crc32.crc32 Sha256.sha256 partitions.sizes
      (captureOf Crc32.crc32 clashLayout)).1 = .ok () ∧
    Faithful (captureShell Crc32.crc32 Sha256.sha256 (captureOf Crc32.crc32 clashLayout))
      Crc32.crc32 (captureOf Crc32.crc32 clashLayout) ∧
    Transferred (capturedOf Crc32.crc32 Sha256.sha256 clashLayout) Casing.ordinal
      (volumeOf Fixture.root.parts (capturedOf Crc32.crc32 Sha256.sha256 clashLayout))
      Fixture.root ∧
    ¬ ∃ v, copyOf Crc32.crc32 Sha256.sha256 clashLayout = .ok v := by
  have hsize : clashLayout.parsed.firstUsableLba * clashLayout.parsed.sectorSize
      < 0x8000000000000000 := by decide
  have hclash : ¬ (clashLayout.parsed.partitions.keys.map Casing.ordinal.key).Nodup := by
    decide +kernel
  have h := copyOf_clash Crc32.crc32 Sha256.sha256 lists_clashLayout hsize hclash
  exact ⟨h.1, faithful_captureShell _ _ _,
    transferred_capturedOf lists_clashLayout hsize _ _, h.2⟩

end RT7.Copy
