import RT7.Copy.Verify

/-!
# What the script accepts

* `isArtifactName_of_chars`, `isHash_hexdigest`   names of the allowed characters and digests pass;
* `matchLine_checksum`   a line that lists a digest and a path is read as these two;
* `Present`         a file that is in the table, on the drive, and of the size and digest listed;
* `loop_accepts`    the loop accepts the lines of files that are present.
-/

namespace RT7.Copy

open Py Text

/-! ## character classes -/

section
variable {cs : Casing}

theorem inClass_of_mem {cls : List Char} {c : Char} (h : c ∈ cls) : inClass cs cls c = true :=
  List.any_eq_true.mpr ⟨c, h, decide_eq_true rfl⟩

theorem dropFinalNewline_of_not_mem {l : List Char} (h : '\n' ∉ l) : dropFinalNewline l = l := by
  rw [dropFinalNewline, if_neg]
  intro e
  exact h (List.mem_of_getLast? e)

theorem isArtifactName_of_chars {name : String} (hne : name ≠ "")
    (h : ∀ c ∈ name.toList, c ∈ nameChars) : isArtifactName cs name = true := by
  have hnl : '\n' ∉ name.toList := fun hm => absurd (h '\n' hm) (by decide)
  have hlist : name.toList ≠ [] := fun e => hne (String.toList_eq_nil_iff.mp e)
  rw [isArtifactName, dropFinalNewline_of_not_mem hnl]
  refine Bool.and_eq_true_iff.mpr ⟨decide_eq_true hlist, List.all_eq_true.mpr ?_⟩
  intro c hc
  exact inClass_of_mem (h c hc)

theorem hexDigit_plain : ∀ n < 16, hexDigit n ∈ hexChars ∧ hexDigit n ≠ '\n' ∧
    (hexDigit n).toUpper.toNat < 128 ∧ (hexDigit n).toNat < 128 ∧
    (hexDigit n).toUpper.toLower = (hexDigit n).toLower := by decide

theorem hexdigest_class (d : Digest) : d.hexdigest.toList.all (inClass cs hexChars) = true := by
  refine List.all_eq_true.mpr fun c hc => ?_
  obtain ⟨n, hn, rfl⟩ := Digest.mem_hexdigest hc
  exact inClass_of_mem (hexDigit_plain n hn).1

theorem isHash_hexdigest (d : Digest) : isHash cs d.hexdigest = true := by
  have hnl : '\n' ∉ d.hexdigest.toList := by
    intro hm
    obtain ⟨n, hn, e⟩ := Digest.mem_hexdigest hm
    exact (hexDigit_plain n hn).2.1 e.symm
  rw [isHash, dropFinalNewline_of_not_mem hnl]
  exact Bool.and_eq_true_iff.mpr ⟨decide_eq_true d.length_hexdigest, hexdigest_class d⟩

/-- the digest in upper case is the digest, up to case -/
theorem key_fileHash (shell : Shell) (content : Bytes) :
    shell.casing.key (shell.fileHash content) = shell.casing.key (shell.hash content).hexdigest := by
  rw [Shell.fileHash, Casing.key_ofList, Casing.key, List.map_map]
  refine List.map_congr_left fun c hc => ?_
  obtain ⟨n, hn, rfl⟩ := Digest.mem_hexdigest hc
  have hd := hexDigit_plain n hn
  exact (shell.casing.ascii _ _ hd.2.2.1 hd.2.2.2.1).mpr hd.2.2.2.2

/-- digests that are equal up to case are equal -/
theorem key_hexdigest_injective {d d' : Digest} (h : cs.key d.hexdigest = cs.key d'.hexdigest) :
    d = d' := by
  have hlower : ∀ n < 16, (hexDigit n).toNat < 128 ∧ (hexDigit n).toLower = hexDigit n := by decide
  have hascii : ∀ d : Digest, ∀ c ∈ d.hexdigest.toList, c.toNat < 128 := by
    intro d c hc
    obtain ⟨n, hn, rfl⟩ := Digest.mem_hexdigest hc
    exact (hlower n hn).1
  have hid : ∀ d : Digest, d.hexdigest.toList.map Char.toLower = d.hexdigest.toList := by
    intro d
    refine Eq.trans (List.map_congr_left fun c hc => ?_) (List.map_id _)
    obtain ⟨n, hn, rfl⟩ := Digest.mem_hexdigest hc
    exact (hlower n hn).2
  have hmap := (Casing.map_fold_eq_iff (hascii d) (hascii d')).mp h
  rw [hid, hid] at hmap
  exact Digest.hexdigest_injective (String.toList_inj.mp hmap)

/-! ## one line -/

theorem matchLine_checksum (d : Digest) {path : String} (hne : path ≠ "")
    (hnl : '\n' ∉ path.toList) : matchLine cs (d.hexdigest ++ "  " ++ path)
      = some (d.hexdigest, path) := by
  have hlen := d.length_hexdigest
  have htoList : (d.hexdigest ++ "  " ++ path).toList
      = d.hexdigest.toList ++ ' ' :: ' ' :: path.toList := by
    rw [String.toList_append, String.toList_append, List.append_assoc]
    rfl
  have hnone : '\n' ∉ (d.hexdigest ++ "  " ++ path).toList := by
    rw [htoList]
    intro hm
    cases List.mem_append.mp hm with
    | inl hm =>
      obtain ⟨n, hn, e⟩ := Digest.mem_hexdigest hm
      exact (hexDigit_plain n hn).2.1 e.symm
    | inr hm => simp [hnl] at hm
  have hpath : path.toList ≠ [] := fun e => hne (String.toList_eq_nil_iff.mp e)
  unfold matchLine
  dsimp only
  rw [dropFinalNewline_of_not_mem hnone, htoList, ← hlen, List.take_left, List.drop_left]
  show (if d.hexdigest.toList.all (inClass cs hexChars) = true ∧ path.toList ≠ [] ∧
    '\n' ∉ path.toList then some (String.ofList d.hexdigest.toList, String.ofList path.toList)
    else none) = _
  rw [if_pos ⟨hexdigest_class d, hpath, hnl⟩, String.ofList_toList, String.ofList_toList]

end

/-! ## the loop -/

/-- A file of the listing: a pass, a name and a content. -/
structure Present (shell : Shell) (vol : Volume) (root : SourceRoot) (expectedChecksums : Expected)
    (passName name : String) (content : Bytes) : Prop where
  plainPass : PlainSegment passName ∧ '/' ∉ passName.toList ∧ '\n' ∉ passName.toList
  plainName : PlainSegment name ∧ '/' ∉ name.toList ∧ '\n' ∉ name.toList
  relative : isPathRooted (passName ++ "/" ++ name) = false
  listed : expectedChecksums.get? (pairKey shell passName name)
    = some ⟨(shell.hash content).hexdigest, content.length⟩
  file : vol.leaf shell.casing (root.parts ++ [passName, name]) = some content

section
variable {shell : Shell} {vol : Volume} {root : SourceRoot} {expectedChecksums : Expected}

/-- the line that lists a file -/
def listingLine (shell : Shell) (passName name : String) (content : Bytes) : String :=
  (shell.hash content).hexdigest ++ "  " ++ (passName ++ "/" ++ name)

theorem Present.lineOk {passName name : String} {content : Bytes}
    (h : Present shell vol root expectedChecksums passName name content) :
    LineOk shell vol root expectedChecksums (listingLine shell passName name content)
      (shell.hash content).hexdigest (passName ++ "/" ++ name)
      ⟨(shell.hash content).hexdigest, content.length⟩
      (root.bare ++ "\\" ++ join '\\' [passName, name]) content := by
  have hjoin : passName ++ "/" ++ name = join '/' [passName, name] := by
    rw [join_cons_cons, join_singleton]
    rfl
  have hmem : ∀ c, c ∈ (passName ++ "/" ++ name).toList ↔
      c ∈ passName.toList ∨ c = '/' ∨ c ∈ name.toList := by
    intro c
    rw [String.toList_append, String.toList_append, List.append_assoc, List.mem_append]
    exact or_congr_right List.mem_cons
  have hne : passName ++ "/" ++ name ≠ "" := by
    intro e
    have hslash := (hmem '/').mpr (.inr (.inl rfl))
    rw [e] at hslash
    exact List.not_mem_nil hslash
  have hnl : '\n' ∉ (passName ++ "/" ++ name).toList := by
    rw [hmem]
    rintro (hm | hm | hm)
    · exact h.plainPass.2.2 hm
    · exact absurd hm (by decide)
    · exact h.plainName.2.2 hm
  have hback : '\\' ∉ (passName ++ "/" ++ name).toList := by
    rw [hmem]
    rintro (hm | hm | hm)
    · exact h.plainPass.1.2.2.2 hm
    · exact absurd hm (by decide)
    · exact h.plainName.1.2.2.2 hm
  have hplain : ∀ s ∈ [passName, name], PlainSegment s := by
    simpa using ⟨h.plainPass.1, h.plainName.1⟩
  have hslash : ∀ s ∈ [passName, name], '/' ∉ s.toList := by
    simpa using ⟨h.plainPass.2.1, h.plainName.2.1⟩
  have hrooted := h.relative
  rw [hjoin] at hrooted
  obtain ⟨hpath, hsegments⟩ := getRelativeArtifactPath_plain shell.casing root
    (List.cons_ne_nil _ _) hplain hslash hrooted
  refine ⟨matchLine_checksum _ hne hnl, ?_, rfl, ?_, ?_, rfl, key_fileHash shell content⟩
  · rw [replace_of_not_mem hback]
    exact h.listed
  · rw [replace_of_not_mem hback, hjoin]
    exact hpath
  · rw [hsegments]
    exact h.file

theorem Present.lineKey {passName name : String} {content : Bytes}
    (h : Present shell vol root expectedChecksums passName name content) :
    lineKey shell.casing (listingLine shell passName name content)
      = pairKey shell passName name := by
  have hback : '\\' ∉ (passName ++ "/" ++ name).toList := by
    rw [String.toList_append, String.toList_append, List.append_assoc, List.mem_append]
    rintro (hm | hm)
    · exact h.plainPass.1.2.2.2 hm
    · cases hm with
      | tail _ hm => exact h.plainName.1.2.2.2 hm
  rw [lineKey_of_match h.lineOk.isMatch, replace_of_not_mem hback]
  rfl

/-- The loop accepts the lines of files that are present, one line for each. -/
theorem loop_accepts {files : List (String × String)} {content : String × String → Bytes}
    (h : ∀ f ∈ files, Present shell vol root expectedChecksums f.1 f.2 (content f))
    (hnd : (files.map fun f => pairKey shell f.1 f.2).Nodup) :
    ∃ seen, (files.map fun f => listingLine shell f.1 f.2 (content f)).foldlM
      (checkLine shell vol root expectedChecksums) [] = .ok seen := by
  have hkeys : (files.map fun f => listingLine shell f.1 f.2 (content f)).map
      (Copy.lineKey shell.casing) = files.map fun f => pairKey shell f.1 f.2 := by
    rw [List.map_map]
    exact List.map_congr_left fun f hf => (h f hf).lineKey
  refine foldlM_checkLine.mpr ⟨?_, ?_, ?_⟩
  · intro line hl
    obtain ⟨f, hf, rfl⟩ := List.mem_map.mp hl
    exact ⟨_, _, _, _, _, (h f hf).lineOk⟩
  · rw [hkeys]
    exact hnd
  · intro line _
    exact List.not_mem_nil

end

end RT7.Copy
