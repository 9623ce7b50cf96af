import RT7.Copy.Manifest

/-!
# The source capture is verified before it is copied

* `Volume`          the files and directories of a drive; lookup ignores letter case;
* `matchLine`, `checkLine`   a line of `SHA256SUMS.txt` and the checks that the script makes on it;
* `sourceVerification`   the script up to the end of its loop over the lines;
* `LineOk`, `foldlM_checkLine`   what one turn of the loop says, and what the whole loop says;
* `Run`, `verifyCapture_eq_ok`   what the script has read and checked when it comes to the end.
-/

namespace RT7.Copy

open Py Text

/-! ## the drive -/

inductive Entry where
  | file (content : Bytes)
  | directory
  deriving DecidableEq, Repr

/-- What stands below the drive letter, by the components of its path. -/
abbrev Volume := List (List String × Entry)

namespace Volume
variable (cs : Casing) (vol : Volume)

def lookup (path : List String) : Option Entry :=
  if path = [] then some .directory
  else (vol.find? fun e => e.1.map cs.key = path.map cs.key).map Prod.snd

/-- `Test-Path -PathType Container` -/
def container (path : List String) : Bool := vol.lookup cs path = some .directory

/-- `Test-Path -PathType Leaf`, with the content of the file -/
def leaf (path : List String) : Option Bytes :=
  match vol.lookup cs path with
  | some (.file content) => some content
  | _ => none

variable {cs vol}

theorem lookup_congr {path path' : List String} (h : path.map cs.key = path'.map cs.key) :
    vol.lookup cs path = vol.lookup cs path' := by
  have hnil : path = [] ↔ path' = [] := by
    rw [← List.map_eq_nil_iff (f := cs.key), h, List.map_eq_nil_iff]
  unfold lookup
  rw [h]
  by_cases hp : path = []
  · rw [if_pos hp, if_pos (hnil.mp hp)]
  · rw [if_neg hp, if_neg (fun e => hp (hnil.mpr e))]

theorem leaf_congr {path path' : List String} (h : path.map cs.key = path'.map cs.key) :
    vol.leaf cs path = vol.leaf cs path' := by
  rw [leaf, lookup_congr h]
  rfl

theorem leaf_eq_some {path : List String} {content : Bytes} :
    vol.leaf cs path = some content ↔ vol.lookup cs path = some (.file content) := by
  unfold leaf
  cases h : vol.lookup cs path with
  | none => simp
  | some entry => cases entry with
    | file c => simp
    | directory => simp

theorem leaf_of_container {path : List String} (h : vol.container cs path = true) :
    vol.leaf cs path = none := by
  rw [leaf, of_decide_eq_true h]

theorem lookup_cons_self {path : List String} {entry : Entry} (hne : path ≠ []) :
    Volume.lookup cs ((path, entry) :: vol) path = some entry := by
  rw [lookup, if_neg hne, List.find?_cons_of_pos]
  · rfl
  · exact decide_eq_true rfl

theorem lookup_cons_ne {path : List String} {e : List String × Entry}
    (h : e.1.map cs.key ≠ path.map cs.key) :
    Volume.lookup cs (e :: vol) path = vol.lookup cs path := by
  rw [lookup, lookup, List.find?_cons_of_neg]
  exact fun hm => h (of_decide_eq_true hm)

/-- A path is found when every entry that matches is the one wanted. -/
theorem lookup_of_unique {path : List String} {entry : Entry}
    (hne : path ≠ []) (hmem : (path, entry) ∈ vol)
    (huniq : ∀ e ∈ vol, e.1.map cs.key = path.map cs.key → e.2 = entry) :
    vol.lookup cs path = some entry := by
  rw [lookup, if_neg hne]
  cases hf : vol.find? fun e => e.1.map cs.key = path.map cs.key with
  | none => exact absurd (decide_eq_true rfl) (List.find?_eq_none.mp hf _ hmem)
  | some e =>
    have hfound := List.find?_some hf
    have hkey : e.1.map cs.key = path.map cs.key := of_decide_eq_true hfound
    rw [Option.map_some, huniq e (List.mem_of_find?_eq_some hf) hkey]

/-- paths that are distinct up to case -/
theorem lookup_of_nodup (h : (vol.map fun e => e.1.map cs.key).Nodup) {path : List String}
    {entry : Entry} (hne : path ≠ []) (hmem : (path, entry) ∈ vol) :
    vol.lookup cs path = some entry := by
  refine lookup_of_unique hne hmem ?_
  intro e he hkey
  rw [List.inj_on_of_nodup_map h he hmem hkey]

end Volume

/-! ## one line of SHA256SUMS.txt -/

/-- `-match '^(?<hash>[0-9a-fA-F]{64})  (?<path>.+)$'` -/
def matchLine (cs : Casing) (line : String) : Option (String × String) :=
  let body := dropFinalNewline line.toList
  let hash := body.take 64
  match body.drop 64 with
  | ' ' :: ' ' :: path =>
    if hash.all (inClass cs hexChars) ∧ path ≠ [] ∧ '\n' ∉ path then
      some (String.ofList hash, String.ofList path)
    else none
  | _ => none

/-- the key of the path that a line lists -/
def lineKey (cs : Casing) (line : String) : List Char :=
  match matchLine cs line with
  | none => []
  | some listed => cs.key (replace '\\' '/' listed.2)

section
variable (shell : Shell) (vol : Volume) (root : SourceRoot)

/-- one turn of the loop over the lines; `seen` is `$seenChecksums` -/
def checkLine (expectedChecksums : Expected) (seen : List (List Char)) (line : String) :
    Except Fault (List (List Char)) := do
  let listed ← require (matchLine shell.casing line) (.throw s!"Invalid SHA256SUMS line: {line}")
  let listedHash := listed.1
  let listedPath := replace '\\' '/' listed.2
  let listedKey := shell.casing.key listedPath
  let expected ← require (expectedChecksums.get? listedKey)
    (.throw s!"SHA256SUMS contains an unexpected artifact path: {listedPath}")
  raiseIf (listedKey ∈ seen)
    (.throw s!"SHA256SUMS contains a duplicate artifact path: {listedPath}")
  raiseIf (shell.casing.key listedHash ≠ shell.casing.key expected.hash)
    (.throw s!"Capture manifest and SHA256SUMS disagree for: {listedPath}")
  let artifactPath ← getRelativeArtifactPath shell.casing root listedPath
  let content ← require (vol.leaf shell.casing (segmentsOf artifactPath))
    (.throw s!"Captured artifact is missing: {artifactPath}")
  raiseIf ((content.length : Int) ≠ expected.size)
    (.throw s!"Captured artifact size mismatch: {artifactPath}")
  let actualHash := shell.fileHash content
  raiseIf (shell.casing.key actualHash ≠ shell.casing.key listedHash)
    (.throw s!"Captured artifact hash mismatch: {artifactPath}")
  return listedKey :: seen

/-! ## the script up to the end of the loop -/

/-- What the script knows of an accepted capture. -/
structure Verification where
  readPasses : List Json
  artifacts : List (String × Json)
  lines : List String
  expectedChecksumCount : Nat

def checkSource : Except Fault Unit :=
  raiseIf (vol.container shell.casing root.parts = false)
    (.throw s!"Source capture directory does not exist: {root.text}")

def verifyCapture : Except Fault Verification := do
  let captureManifestPath := joinPath root.text "capture-manifest.json"
  let checksumManifestPath := joinPath root.text "SHA256SUMS.txt"
  let captureManifestRaw ← require (vol.leaf shell.casing (segmentsOf captureManifestPath))
    (.throw s!"Verified capture metadata is missing: {captureManifestPath}")
  let checksumManifestRaw ← require (vol.leaf shell.casing (segmentsOf checksumManifestPath))
    (.throw s!"Verified capture metadata is missing: {checksumManifestPath}")
  let captureManifest ← convertFromJson shell captureManifestRaw
  let formatValue ← member shell.casing "format" captureManifest
  let format ← cast (shell.toInt formatValue)
  raiseIf (format ≠ 2)
    (.throw s!"Unsupported capture manifest format: {shell.toText formatValue}")
  let readPassesValue ← member shell.casing "read_passes" captureManifest
  let readPasses := elements readPassesValue
  let artifactsValue ← member shell.casing "artifacts" captureManifest
  let artifactProperties ← properties artifactsValue
  raiseIf (shell.casing.key (join ',' (readPasses.map shell.toText))
      ≠ shell.casing.key "pass1,pass2" ∨ artifactProperties = [])
    (.throw "Capture manifest does not describe two verified read passes.")
  let expected ← expectedChecksums shell readPasses artifactProperties
  let checksumLines := shell.getContent checksumManifestRaw
  let expectedChecksumCount := expected.items.length
  raiseIf (checksumLines.length ≠ expectedChecksumCount)
    (.throw <| s!"SHA256SUMS contains {checksumLines.length} entries; " ++
      s!"expected {expectedChecksumCount}.")
  let _seen ← checksumLines.foldlM (checkLine shell vol root expected) []
  return ⟨readPasses, artifactProperties, checksumLines, expectedChecksumCount⟩

def sourceVerification : Except Fault Verification := do
  checkSource shell vol root
  verifyCapture shell vol root

end

/-! ## what the loop says -/

/-- The checks on one line that do not depend on the lines before it. -/
structure LineOk (shell : Shell) (vol : Volume) (root : SourceRoot) (expectedChecksums : Expected)
    (line listedHash path : String) (expected : ExpectedChecksum) (artifactPath : String)
    (content : Bytes) : Prop where
  isMatch : matchLine shell.casing line = some (listedHash, path)
  listed : expectedChecksums.get? (shell.casing.key (replace '\\' '/' path)) = some expected
  agree : shell.casing.key listedHash = shell.casing.key expected.hash
  below : getRelativeArtifactPath shell.casing root (replace '\\' '/' path) = .ok artifactPath
  leaf : vol.leaf shell.casing (segmentsOf artifactPath) = some content
  size : (content.length : Int) = expected.size
  hash : shell.casing.key (shell.fileHash content) = shell.casing.key listedHash

section
variable {shell : Shell} {vol : Volume} {root : SourceRoot} {expectedChecksums : Expected}

theorem lineKey_of_match {cs : Casing} {line : String} {listed : String × String}
    (h : matchLine cs line = some listed) :
    lineKey cs line = cs.key (replace '\\' '/' listed.2) := by
  rw [lineKey, h]

theorem checkLine_eq_ok {seen seen' : List (List Char)} {line : String} :
    checkLine shell vol root expectedChecksums seen line = .ok seen' ↔
      (∃ listedHash path expected artifactPath content,
        LineOk shell vol root expectedChecksums line listedHash path expected artifactPath content) ∧
      lineKey shell.casing line ∉ seen ∧ seen' = lineKey shell.casing line :: seen := by
  unfold checkLine
  simp only [bind_eq_ok, require_eq_ok, raiseIf_eq_ok, exists_const, pure_eq_ok, not_not]
  constructor
  · rintro ⟨listed, hm, expected, he, hseen, hagree, path, hbelow, content, hleaf, hsize, hhash,
      rfl⟩
    rw [lineKey_of_match hm]
    exact ⟨⟨_, _, expected, path, content, hm, he, hagree, hbelow, hleaf, hsize, hhash⟩, hseen, rfl⟩
  · rintro ⟨⟨_, _, expected, path, content, hm, he, hagree, hbelow, hleaf, hsize, hhash⟩, hseen,
      rfl⟩
    rw [lineKey_of_match hm] at hseen ⊢
    exact ⟨_, hm, expected, he, hseen, hagree, path, hbelow, content, hleaf, hsize, hhash, rfl⟩

/-- The whole loop. Induction on the lines, with the keys seen so far left general. -/
theorem foldlM_checkLine {lines : List String} {seen : List (List Char)} :
    (∃ seen', lines.foldlM (checkLine shell vol root expectedChecksums) seen = .ok seen') ↔
      (∀ line ∈ lines, ∃ listedHash path expected artifactPath content,
        LineOk shell vol root expectedChecksums line listedHash path expected artifactPath content) ∧
      (lines.map (lineKey shell.casing)).Nodup ∧
      ∀ line ∈ lines, lineKey shell.casing line ∉ seen := by
  induction lines generalizing seen with
  | nil =>
    rw [List.foldlM_nil]
    exact ⟨fun _ => ⟨List.forall_mem_nil _, List.nodup_nil, List.forall_mem_nil _⟩,
      fun _ => ⟨seen, rfl⟩⟩
  | cons line lines ih =>
    have hstep : (∃ seen', (line :: lines).foldlM (checkLine shell vol root expectedChecksums) seen
        = .ok seen') ↔ ∃ mid, checkLine shell vol root expectedChecksums seen line = .ok mid ∧
          ∃ seen', lines.foldlM (checkLine shell vol root expectedChecksums) mid = .ok seen' := by
      simp only [List.foldlM_cons, bind_eq_ok]
      constructor
      · rintro ⟨seen', mid, hmid, hrun⟩
        exact ⟨mid, hmid, seen', hrun⟩
      · rintro ⟨mid, hmid, seen', hrun⟩
        exact ⟨seen', mid, hmid, hrun⟩
    rw [hstep, List.map_cons, List.nodup_cons, List.forall_mem_cons, List.forall_mem_cons]
    constructor
    · rintro ⟨mid, hmid, hrun⟩
      obtain ⟨hline, hnew, rfl⟩ := checkLine_eq_ok.mp hmid
      obtain ⟨hlines, hnd, hseen⟩ := ih.mp hrun
      refine ⟨⟨hline, hlines⟩, ⟨?_, hnd⟩, hnew, ?_⟩
      · intro hm
        obtain ⟨line', hl, he⟩ := List.mem_map.mp hm
        exact hseen line' hl (he ▸ List.mem_cons_self)
      · intro line' hl hm
        exact hseen line' hl (List.mem_cons_of_mem _ hm)
    · rintro ⟨⟨hline, hlines⟩, ⟨hfresh, hnd⟩, hnew, hseen⟩
      refine ⟨_, checkLine_eq_ok.mpr ⟨hline, hnew, rfl⟩, ih.mpr ⟨hlines, hnd, ?_⟩⟩
      intro line' hl hm
      cases List.mem_cons.mp hm with
      | inl he => exact hfresh (he ▸ List.mem_map_of_mem hl)
      | inr hm => exact hseen line' hl hm

end

/-! ## what an accepted run has read -/

structure Run (shell : Shell) (vol : Volume) (root : SourceRoot) (v : Verification)
    (captureManifestRaw checksumManifestRaw : Bytes)
    (captureManifest formatValue readPassesValue : Json) (expected : Expected) : Prop where
  captureManifestFile : vol.leaf shell.casing
    (segmentsOf (joinPath root.text "capture-manifest.json")) = some captureManifestRaw
  checksumManifestFile : vol.leaf shell.casing
    (segmentsOf (joinPath root.text "SHA256SUMS.txt")) = some checksumManifestRaw
  document : convertFromJson shell captureManifestRaw = .ok captureManifest
  formatMember : member shell.casing "format" captureManifest = .ok formatValue
  format : shell.toInt formatValue = some 2
  readPassesMember : member shell.casing "read_passes" captureManifest = .ok readPassesValue
  readPasses : v.readPasses = elements readPassesValue
  artifacts : member shell.casing "artifacts" captureManifest = .ok (.obj v.artifacts)
  joined : shell.casing.key (join ',' (v.readPasses.map shell.toText))
    = shell.casing.key "pass1,pass2"
  nonempty : v.artifacts ≠ []
  table : expectedChecksums shell v.readPasses v.artifacts = .ok expected
  lines : v.lines = shell.getContent checksumManifestRaw
  count : v.lines.length = expected.items.length
  expectedChecksumCount : v.expectedChecksumCount = expected.items.length
  loop : ∃ seen, v.lines.foldlM (checkLine shell vol root expected) [] = .ok seen

section
variable {shell : Shell} {vol : Volume} {root : SourceRoot}

theorem verifyCapture_eq_ok {v : Verification} :
    verifyCapture shell vol root = .ok v ↔
      ∃ captureManifestRaw checksumManifestRaw captureManifest formatValue readPassesValue expected,
        Run shell vol root v captureManifestRaw checksumManifestRaw captureManifest formatValue
          readPassesValue expected := by
  unfold verifyCapture
  simp only [bind_eq_ok, require_eq_ok, raiseIf_eq_ok, exists_const, pure_eq_ok, not_not, not_or,
    cast, properties_eq_ok]
  constructor
  · rintro ⟨craw, hcraw, sraw, hsraw, doc, hdoc, fv, hfv, format, hformat, h2, rp, hrp, av, hav,
      props, rfl, ⟨hjoin, hne⟩, expected, hexp, hcount, seen, hloop, rfl⟩
    exact ⟨craw, sraw, doc, fv, rp, expected, hcraw, hsraw, hdoc, hfv, h2 ▸ hformat, hrp, rfl, hav,
      hjoin, hne, hexp, rfl, hcount, rfl, seen, hloop⟩
  · rintro ⟨craw, sraw, doc, fv, rp, expected, h⟩
    obtain ⟨seen, hloop⟩ := h.loop
    have hrp := h.readPasses
    have hlines := h.lines
    have hcount := h.expectedChecksumCount
    obtain ⟨readPasses, artifacts, lines, count⟩ := v
    subst hrp hlines hcount
    exact ⟨craw, h.captureManifestFile, sraw, h.checksumManifestFile, doc, h.document, fv,
      h.formatMember, 2, h.format, rfl, rp, h.readPassesMember, _, h.artifacts, artifacts, rfl,
      ⟨h.joined, h.nonempty⟩, expected, h.table, h.count, seen, hloop, rfl⟩

theorem sourceVerification_eq_ok {v : Verification} :
    sourceVerification shell vol root = .ok v ↔
      vol.container shell.casing root.parts = true ∧ verifyCapture shell vol root = .ok v := by
  unfold sourceVerification
  rw [checkSource, raiseIf_bind_eq_ok, Bool.not_eq_false]

end

end RT7.Copy
