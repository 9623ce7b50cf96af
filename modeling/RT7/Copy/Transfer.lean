import RT7.Copy.Complete
import RT7.Capture.Validate

/-!
# A capture directory on the drive of the copy tool

* `Faithful`        the readers and casts of the shell, on what the capture tool writes;
* `Transferred`     the drive of the copy tool holds what the capture tool left;
* `volumeOf`        a drive with nothing but the directory; `transferred_volumeOf`
* `captureShell`    a shell whose reader of documents knows the manifest of one capture.
-/

namespace RT7.Copy

open Py Text Gpt Capture

section
variable (shell : Shell) (crc32 : Bytes → UInt32) (output : OutputDir)

structure Faithful : Prop where
  readJson : ∀ checksumLines document,
    certify crc32 shell.hash partitions.sizes output = .ok (checksumLines, document) →
    shell.readJson (asciiBytes (document.dumps ++ "\n")) = some document.sortKeys
  getContent : ∀ text, Ascii text → shell.getContent (asciiBytes text) = readLines text
  toInt : shell.toInt (.num 2) = some 2
  toLong : ∀ n : Nat, n < 0x8000000000000000 → shell.toLong (.num n) = some (n : Int)
  toText : ∀ s, shell.toText (.str s) = s

/-- No file is longer than a file can be. -/
structure Transferred (cs : Casing) (vol : Volume) (root : SourceRoot) : Prop where
  source : vol.container cs root.parts = true
  captureManifest : ∀ raw, output.captureManifest = some raw →
    vol.leaf cs (root.parts ++ ["capture-manifest.json"]) = some raw
  checksumManifest : ∀ raw, output.checksumManifest = some raw →
    vol.leaf cs (root.parts ++ ["SHA256SUMS.txt"]) = some raw
  files : ∀ p ∈ capturePasses, ∀ a ∈ partitions.artifacts, ∀ content,
    (output.pass p).get? (binName a) = some content →
    vol.leaf cs (root.parts ++ [p, binName a]) = some content
  sizes : ∀ p ∈ capturePasses, ∀ a ∈ partitions.artifacts, ∀ content,
    (output.pass p).get? (binName a) = some content → content.length < 0x8000000000000000

end

/-! ## a drive that holds the directory -/

/-- the manifests that are there -/
def manifests (output : OutputDir) : List (String × Bytes) :=
  (output.captureManifest.map fun raw => ("capture-manifest.json", raw)).toList ++
    (output.checksumManifest.map fun raw => ("SHA256SUMS.txt", raw)).toList

def volumeOf (parts : List String) (output : OutputDir) : Volume :=
  [(parts, .directory)] ++
    ((manifests output).map fun m => (parts ++ [m.1], .file m.2)) ++
    (capturePasses.map fun p => (parts ++ [p], .directory)) ++
    capturePasses.flatMap fun p =>
      (output.pass p).items.map fun f => (parts ++ [p, f.1], .file f.2)

theorem plain_top :
    PlainNames ["capture-manifest.json", "SHA256SUMS.txt", "pass1", "pass2"] := by decide

section
variable {cs : Casing} {parts : List String} {output : OutputDir}

theorem mem_manifests {m : String × Bytes} : m ∈ manifests output ↔
    (m.1 = "capture-manifest.json" ∧ output.captureManifest = some m.2) ∨
      (m.1 = "SHA256SUMS.txt" ∧ output.checksumManifest = some m.2) := by
  obtain ⟨name, raw⟩ := m
  simp [manifests, eq_comm, and_comm]

theorem mem_volumeOf {e : List String × Entry} : e ∈ volumeOf parts output ↔
    e = (parts, .directory) ∨
      (∃ m ∈ manifests output, (parts ++ [m.1], Entry.file m.2) = e) ∨
      (∃ p ∈ capturePasses, (parts ++ [p], Entry.directory) = e) ∨
      ∃ p ∈ capturePasses, ∃ f ∈ (output.pass p).items,
        (parts ++ [p, f.1], Entry.file f.2) = e := by
  simp only [volumeOf, List.mem_append, List.mem_singleton, List.mem_map, List.mem_flatMap, or_assoc]

/-- Below the source, paths that are equal up to case have the same shape. -/
theorem below_inj {s t : List String}
    (h : (parts ++ s).map cs.key = (parts ++ t).map cs.key) : s.map cs.key = t.map cs.key := by
  rw [List.map_append, List.map_append] at h
  exact List.append_cancel_left h

theorem top_inj {a b : String}
    (ha : a ∈ ["capture-manifest.json", "SHA256SUMS.txt", "pass1", "pass2"])
    (hb : b ∈ ["capture-manifest.json", "SHA256SUMS.txt", "pass1", "pass2"])
    (h : cs.key a = cs.key b) : a = b :=
  List.inj_on_of_nodup_map
    (plain_top.nodup_key cs (by decide) (List.Subset.refl _)) ha hb h

theorem top_of_manifest {m : String × Bytes} (h : m ∈ manifests output) :
    m.1 ∈ ["capture-manifest.json", "SHA256SUMS.txt"] := by
  rcases mem_manifests.mp h with ⟨e, -⟩ | ⟨e, -⟩
  · simp [e]
  · simp [e]

theorem manifest_unique {m m' : String × Bytes} (h : m ∈ manifests output)
    (h' : m' ∈ manifests output) (e : m.1 = m'.1) : m.2 = m'.2 := by
  have hne : "capture-manifest.json" ≠ "SHA256SUMS.txt" := by decide
  rcases mem_manifests.mp h with ⟨e1, h1⟩ | ⟨e1, h1⟩
  · rcases mem_manifests.mp h' with ⟨e2, h2⟩ | ⟨e2, h2⟩
    · exact Option.some.inj (h1.symm.trans h2)
    · exact absurd (e1.symm.trans (e.trans e2)) hne
  · rcases mem_manifests.mp h' with ⟨e2, h2⟩ | ⟨e2, h2⟩
    · exact absurd (e2.symm.trans (e.symm.trans e1)) hne
    · exact Option.some.inj (h1.symm.trans h2)

theorem mem_top_of_pass {p : String} (h : p ∈ capturePasses) :
    p ∈ ["capture-manifest.json", "SHA256SUMS.txt", "pass1", "pass2"] :=
  List.mem_append_right ["capture-manifest.json", "SHA256SUMS.txt"] h

theorem mem_top_of_manifest {m : String × Bytes} (h : m ∈ manifests output) :
    m.1 ∈ ["capture-manifest.json", "SHA256SUMS.txt", "pass1", "pass2"] :=
  List.mem_append_left ["pass1", "pass2"] (top_of_manifest h)

theorem lookup_manifest {m : String × Bytes} (h : m ∈ manifests output) :
    (volumeOf parts output).lookup cs (parts ++ [m.1]) = some (.file m.2) := by
  refine Volume.lookup_of_unique (List.append_ne_nil_of_right_ne_nil _ (List.cons_ne_nil _ _))
    (mem_volumeOf.mpr (.inr (.inl ⟨m, h, rfl⟩))) ?_
  intro e he hkey
  rcases mem_volumeOf.mp he with rfl | ⟨m', hm', rfl⟩ | ⟨p, hp, rfl⟩ | ⟨p, -, f, -, rfl⟩
  · have hlen := congrArg List.length hkey
    simp at hlen
  · have hname := List.cons.inj (below_inj hkey)
    rw [manifest_unique hm' h
      (top_inj (mem_top_of_manifest hm') (mem_top_of_manifest h) hname.1)]
  · have hname := List.cons.inj (below_inj hkey)
    have e := top_inj (mem_top_of_pass hp) (mem_top_of_manifest h) hname.1
    have hdis : ∀ x ∈ ["capture-manifest.json", "SHA256SUMS.txt"], x ∉ capturePasses := by decide
    exact absurd (e ▸ hp) (hdis _ (top_of_manifest h))
  · have hlen := congrArg List.length (below_inj hkey)
    simp at hlen

theorem lookup_pass {p : String} {f : String × Bytes} (hp : p ∈ capturePasses)
    (hf : f ∈ (output.pass p).items)
    (hnames : ((output.pass p).keys.map cs.key).Nodup) :
    (volumeOf parts output).lookup cs (parts ++ [p, f.1]) = some (.file f.2) := by
  refine Volume.lookup_of_unique (List.append_ne_nil_of_right_ne_nil _ (List.cons_ne_nil _ _))
    (mem_volumeOf.mpr (.inr (.inr (.inr ⟨p, hp, f, hf, rfl⟩)))) ?_
  intro e he hkey
  rcases mem_volumeOf.mp he with rfl | ⟨m', -, rfl⟩ | ⟨q, -, rfl⟩ | ⟨q, hq, g, hg, rfl⟩
  · have hlen := congrArg List.length hkey
    simp at hlen
  · have hlen := congrArg List.length (below_inj hkey)
    simp at hlen
  · have hlen := congrArg List.length (below_inj hkey)
    simp at hlen
  · have hpath := List.cons.inj (below_inj hkey)
    have e := top_inj (mem_top_of_pass hq) (mem_top_of_pass hp) hpath.1
    subst e
    have hname : g.1 = f.1 := List.inj_on_of_nodup_map hnames (List.mem_map_of_mem hg)
      (List.mem_map_of_mem hf) (List.cons.inj hpath.2).1
    have hget := Dict.get?_eq_some.mpr (show (f.1, g.2) ∈ (output.pass q).items from hname ▸ hg)
    rw [Dict.get?_eq_some.mpr (show (f.1, f.2) ∈ (output.pass q).items from hf)] at hget
    rw [Option.some.inj hget]

/-- the directory itself, on a drive that holds nothing else -/
theorem transferred_volumeOf {root : SourceRoot}
    (hnames : ∀ p ∈ capturePasses, ((output.pass p).keys.map cs.key).Nodup)
    (hsizes : ∀ p ∈ capturePasses, ∀ a ∈ partitions.artifacts, ∀ content,
      (output.pass p).get? (binName a) = some content → content.length < 0x8000000000000000) :
    Transferred output cs (volumeOf root.parts output) root := by
  refine ⟨?_, ?_, ?_, ?_, hsizes⟩
  · refine decide_eq_true ?_
    by_cases hroot : root.parts = []
    · rw [Volume.lookup, if_pos hroot]
    · refine Volume.lookup_of_unique hroot (mem_volumeOf.mpr (.inl rfl)) ?_
      intro e he hkey
      rcases mem_volumeOf.mp he with rfl | ⟨m, -, rfl⟩ | ⟨q, -, rfl⟩ | ⟨q, -, g, -, rfl⟩
      · rfl
      · have hlen := congrArg List.length hkey
        simp at hlen
      · rfl
      · have hlen := congrArg List.length hkey
        simp at hlen
  · intro raw h
    exact Volume.leaf_eq_some.mpr (lookup_manifest (m := (_, raw)) (mem_manifests.mpr (.inl ⟨rfl, h⟩)))
  · intro raw h
    exact Volume.leaf_eq_some.mpr (lookup_manifest (m := (_, raw)) (mem_manifests.mpr (.inr ⟨rfl, h⟩)))
  · intro p hp a _ content h
    exact Volume.leaf_eq_some.mpr
      (lookup_pass (f := (binName a, content)) hp (Dict.get?_eq_some.mp h) (hnames p hp))

end

/-! ## a shell that reads the manifest of one capture -/

def captureShell (crc32 : Bytes → UInt32) (hash : Bytes → Digest) (output : OutputDir) : Shell :=
  plainShell (fun _ => ((certify crc32 hash partitions.sizes output).toOption).map
    fun r => r.2.sortKeys) hash

theorem faithful_captureShell (crc32 : Bytes → UInt32) (hash : Bytes → Digest)
    (output : OutputDir) : Faithful (captureShell crc32 hash output) crc32 output where
  readJson lines document h := by
    show ((certify crc32 hash partitions.sizes output).toOption).map _ = _
    have h : certify crc32 hash partitions.sizes output = .ok (lines, document) := h
    rw [h]
    rfl
  getContent text h := by
    show readLines (decodeAscii (asciiBytes text)) = _
    rw [decodeAscii_asciiBytes h]
  toInt := rfl
  toLong n h := by
    have hle : -0x8000000000000000 ≤ (n : Int) := by omega
    have hlt : (n : Int) < 0x8000000000000000 := by omega
    simp only [captureShell, plainShell, if_pos (And.intro hle hlt)]
  toText _ := rfl

end RT7.Copy
