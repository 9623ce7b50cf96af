import RT7.Copy.Accept
import Mathlib.Data.List.Perm.Subperm

/-!
# No artifact escapes the verification

* `below`           the path below the source that a pass and an artifact name;
* `ArtifactVerified`   one artifact of one pass: its metadata, its line and its file agree;
* `Complete`        the lines are a bijection with the artifacts of both passes, and every artifact
  of both passes is verified;
* `TwoPasses`       `read_passes` lists the two passes, as two entries;
* `perm_wanted`     the counting argument: equal counts, membership and no duplicates;
* `pieces_listed`, `lookup_listed`   the pieces of a listed path, and where it leads;
* `sourceVerification_complete`   an accepted capture is complete exactly when `TwoPasses` holds.

The script compares the joined text of `read_passes` with `pass1,pass2`, so one entry that holds the
comma passes the test; then there is one key for each artifact and not two.
-/

namespace RT7.Copy

open Py Text

/-- `{pass1, pass2}` -/
def passNames : List String := ["pass1", "pass2"]

/-- An artifact that is called `.` is the file of the pass itself. -/
def below (passName artifactName : String) : List String :=
  if artifactName = "." then [passName] else [passName, artifactName]

section
variable (shell : Shell)

structure ArtifactVerified (vol : Volume) (root : SourceRoot) (v : Verification) (passName : String)
    (artifact : String × Json) (expected : ExpectedChecksum) (line listedHash path : String)
    (content : Bytes) : Prop where
  valid : ArtifactMeta shell artifact expected
  mem : line ∈ v.lines
  isMatch : matchLine shell.casing line = some (listedHash, path)
  path : shell.casing.key (replace '\\' '/' path) = pairKey shell passName artifact.1
  file : vol.lookup shell.casing (root.parts ++ below passName artifact.1) = some (.file content)
  size : (content.length : Int) = expected.size
  manifestHash : shell.casing.key (shell.fileHash content) = shell.casing.key expected.hash
  listedHash : shell.casing.key (shell.fileHash content) = shell.casing.key listedHash

/-- the keys of all artifacts of both passes -/
def wanted (names : List String) : List (List Char) :=
  names.flatMap fun name => passNames.map fun p => pairKey shell p name

structure Complete (vol : Volume) (root : SourceRoot) (v : Verification) : Prop where
  listed : (v.lines.map (lineKey shell.casing)).Perm (wanted shell (v.artifacts.map Prod.fst))
  distinct : (wanted shell (v.artifacts.map Prod.fst)).Nodup
  verified : ∀ passName ∈ passNames, ∀ artifact ∈ v.artifacts,
    ∃ expected line listedHash path content,
      ArtifactVerified shell vol root v passName artifact expected line listedHash path content

def TwoPasses (readPasses : List Json) : Prop :=
  readPasses.map (fun p => shell.casing.key (shell.toText p)) = passNames.map shell.casing.key

end

/-! ## names and keys -/

section
variable {cs : Casing}

theorem not_mem_artifactName {name : String} (h : isArtifactName cs name = true) {c : Char}
    (hc : c.toNat < 128) (ha : c.isAlpha = false) (hnl : c ≠ '\n') (hn : c ∉ nameChars) :
    c ∉ name.toList := by
  intro hm
  have hbody : c ∈ dropFinalNewline name.toList := by
    unfold dropFinalNewline
    split_ifs with hlast
    · have hne : name.toList ≠ [] := List.ne_nil_of_mem hm
      rw [← List.dropLast_append_getLast hne] at hm
      cases List.mem_append.mp hm with
      | inl hm => exact hm
      | inr hm =>
        rw [List.getLast?_eq_some_getLast hne] at hlast
        exact absurd ((List.mem_singleton.mp hm).trans (Option.some.inj hlast)) hnl
    · exact hm
  have hall := (Bool.and_eq_true _ _ ▸ h).2
  obtain ⟨d, hd, he⟩ := List.any_eq_true.mp (List.all_eq_true.mp hall c hbody)
  exact hn (cs.caseless c d hc ha (of_decide_eq_true he) ▸ hd)

theorem artifactName_ne_empty {name : String} (h : isArtifactName cs name = true) : name ≠ "" := by
  rintro rfl
  exact absurd h Bool.false_ne_true

theorem length_key_passNames {p : String} (hp : p ∈ passNames) : (cs.key p).length = 5 := by
  rw [cs.length_key]
  revert p
  decide

theorem noSep_passNames {p : String} (hp : p ∈ passNames) :
    '/' ∉ p.toList ∧ '\\' ∉ p.toList ∧ ',' ∉ p.toList := by
  revert p
  decide

theorem key_passNames_ne : cs.key "pass1" ≠ cs.key "pass2" := by
  intro h
  have hlast : (cs.key "pass1").getLast? = (cs.key "pass2").getLast? := congrArg _ h
  have hfold : cs.fold '1' = cs.fold '2' := Option.some.inj hlast
  exact absurd ((cs.ascii '1' '2' (by decide) (by decide)).mp hfold) (by decide)

theorem pairKey_eq (shell : Shell) (p n : String) :
    pairKey shell p n = shell.casing.key p ++ shell.casing.fold '/' :: shell.casing.key n := by
  rw [pairKey, Casing.key_append, Casing.key_append, List.append_assoc]
  rfl

end

section
variable {shell : Shell}

/-- the pass and the name can be read off a key -/
theorem pairKey_inj {p p' n n' : String} (hp : p ∈ passNames) (hp' : p' ∈ passNames)
    (h : pairKey shell p n = pairKey shell p' n') :
    shell.casing.key p = shell.casing.key p' ∧ shell.casing.key n = shell.casing.key n' := by
  rw [pairKey_eq, pairKey_eq] at h
  have hsplit := List.append_inj h
    ((length_key_passNames hp).trans (length_key_passNames hp').symm)
  exact ⟨hsplit.1, (List.cons.inj hsplit.2).2⟩

theorem nodup_wanted {names : List String} (h : (names.map shell.casing.key).Nodup) :
    (wanted shell names).Nodup := by
  refine List.nodup_flatMap.mpr ⟨?_, ?_⟩
  · intro name _
    refine List.nodup_cons.mpr ⟨?_, List.nodup_singleton _⟩
    intro hm
    have hkey := (pairKey_inj (by decide) (by decide) (List.mem_singleton.mp hm)).1
    exact key_passNames_ne hkey
  · refine (List.pairwise_map.mp h).imp ?_
    intro a b hab k ha hb
    obtain ⟨p, hp, rfl⟩ := List.mem_map.mp ha
    obtain ⟨q, hq, he⟩ := List.mem_map.mp hb
    exact hab (pairKey_inj hq hp he).2.symm

theorem length_wanted (shell : Shell) (names : List String) :
    (wanted shell names).length = 2 * names.length := by
  induction names with
  | nil => rfl
  | cons name names ih =>
    rw [wanted, List.flatMap_cons, List.length_append, ← wanted, ih, List.length_cons]
    show 2 + _ = _
    omega

end

/-! ## the passes -/

theorem join_eq_two_passes {cs : Casing} {texts : List String}
    (h : cs.key (join ',' texts) = cs.key "pass1,pass2") :
    texts.map cs.key = passNames.map cs.key ∨ texts.length ≤ 1 := by
  have hcomma : ',' ∉ "pass2".toList := by decide
  have hnot : ∀ {l : List Char}, l.map cs.fold = cs.key "pass2" → ',' ∉ l := by
    intro l hl hm
    exact hcomma (Casing.mem_of_map_eq (by decide) (by decide) hl hm)
  cases texts with
  | nil => exact .inr (Nat.zero_le 1)
  | cons x rest => cases rest with
    | nil => exact .inr (Nat.le_refl 1)
    | cons y rest =>
      left
      have hkey : (x.toList ++ ',' :: (join ',' (y :: rest)).toList).map cs.fold
          = ("pass1".toList ++ ',' :: "pass2".toList).map cs.fold := by
        rw [← toList_join_cons_cons]
        exact h
      -- the first entry ends at the first comma
      have hx : ',' ∉ x.toList := by
        intro hm
        obtain ⟨s, t, hst, hs⟩ := List.eq_append_cons_of_mem hm
        rw [hst, List.append_assoc] at hkey
        have hsplit := Casing.map_split (by decide) (by decide) hs (by decide) hkey
        exact hnot hsplit.2 (List.mem_append_right t List.mem_cons_self)
      have hsplit := Casing.map_split (by decide) (by decide) hx (by decide) hkey
      -- and there is no other one
      cases rest with
      | nil =>
        rw [join_singleton] at hsplit
        exact congrArg₂ (fun a b => [a, b]) hsplit.1 hsplit.2
      | cons z rest =>
        refine absurd ?_ (hnot hsplit.2)
        rw [toList_join_cons_cons]
        exact List.mem_append_right _ List.mem_cons_self

theorem length_pairs (shell : Shell) (readPasses : List Json)
    (artifacts : List ((String × Json) × ExpectedChecksum)) :
    (pairs shell readPasses artifacts).length = artifacts.length * readPasses.length := by
  induction artifacts with
  | nil => rw [List.length_nil, Nat.zero_mul]; rfl
  | cons a artifacts ih =>
    rw [pairs, List.flatMap_cons, List.length_append, ← pairs, ih, List.length_map,
      List.length_cons, Nat.succ_mul, Nat.add_comm]

/-- the keys of the table, when the passes are the two -/
theorem keys_pairs {shell : Shell} {readPasses : List Json} (h : TwoPasses shell readPasses)
    (artifacts : List ((String × Json) × ExpectedChecksum)) :
    (pairs shell readPasses artifacts).map Prod.fst
      = wanted shell (artifacts.map fun a => a.1.1) := by
  have hone : ∀ n, readPasses.map (fun p => pairKey shell (shell.toText p) n)
      = passNames.map fun p => pairKey shell p n := by
    intro n
    have hmap : ∀ texts : List String, texts.map (fun p => pairKey shell p n)
        = (texts.map shell.casing.key).map
            fun k => k ++ shell.casing.fold '/' :: shell.casing.key n := by
      intro texts
      rw [List.map_map]
      exact List.map_congr_left fun p _ => pairKey_eq shell p n
    have hreads : readPasses.map (fun p => pairKey shell (shell.toText p) n)
        = (readPasses.map shell.toText).map fun p => pairKey shell p n := by
      rw [List.map_map]
      rfl
    have htexts : (readPasses.map shell.toText).map shell.casing.key
        = passNames.map shell.casing.key := by
      rw [List.map_map]
      exact h
    rw [hreads, hmap, hmap, htexts]
  rw [pairs, wanted, List.map_flatMap, List.flatMap_map]
  refine List.flatMap_congr fun a _ => ?_
  rw [List.map_map, ← hone]
  rfl

/-! ## where a listed path leads -/

section
variable {shell : Shell} {vol : Volume} {root : SourceRoot}

theorem pushSegment_of_length {s : String} (h : 2 < s.toList.length) (stack : List String) :
    pushSegment stack s = s :: stack := by
  have hne : ∀ t : String, t.toList.length ≤ 2 → s ≠ t := by
    rintro t ht rfl
    omega
  rw [pushSegment, if_neg, if_neg (hne ".." (by decide))]
  rintro (e | e)
  · exact hne "" (by decide) e
  · exact hne "." (by decide) e

/-- a text that is equal up to case to a text without cases -/
theorem eq_of_key_eq {cs : Casing} {s t : String}
    (ht : Casing.Caseless t.toList) (h : cs.key s = cs.key t) : s = t :=
  String.toList_inj.mp (Casing.eq_of_map_eq ht h)

/-- A listed path with the key of a pass and an artifact has the two as its pieces. -/
theorem pieces_listed {passName artifactName listedPath : String} (hp : passName ∈ passNames)
    (hname : isArtifactName shell.casing artifactName = true)
    (hkey : shell.casing.key listedPath = pairKey shell passName artifactName) :
    ∃ s t, listedPath = join '/' [s, t] ∧ shell.casing.key s = shell.casing.key passName ∧
      shell.casing.key t = shell.casing.key artifactName ∧
      ∀ x ∈ [s, t], '/' ∉ x.toList ∧ '\\' ∉ x.toList := by
  have hslash : '/' ∉ artifactName.toList :=
    not_mem_artifactName hname (by decide) (by decide) (by decide) (by decide)
  have hback : '\\' ∉ artifactName.toList :=
    not_mem_artifactName hname (by decide) (by decide) (by decide) (by decide)
  have hchars : listedPath.toList.map shell.casing.fold
      = (passName.toList ++ '/' :: artifactName.toList).map shell.casing.fold := by
    rw [List.map_append]
    exact hkey.trans (pairKey_eq shell passName artifactName)
  have hmem : '/' ∈ listedPath.toList := Casing.mem_of_map_eq (by decide) (by decide) hchars.symm
    (List.mem_append_right _ List.mem_cons_self)
  obtain ⟨s, t, hst, hs⟩ := List.eq_append_cons_of_mem hmem
  rw [hst] at hchars
  have hsplit := Casing.map_split (by decide) (by decide) hs (noSep_passNames hp).1 hchars
  have hnot : ∀ {c : Char} {l l' : List Char}, c.toNat < 128 → c.isAlpha = false →
      l.map shell.casing.fold = l'.map shell.casing.fold → c ∉ l' → c ∉ l :=
    fun hc ha he hn hm => hn (Casing.mem_of_map_eq hc ha he hm)
  refine ⟨String.ofList s, String.ofList t, ?_, ?_, ?_, fun x hx => ?_⟩
  · rw [← String.toList_inj, toList_join_cons_cons, join_singleton, String.toList_ofList,
      String.toList_ofList]
    exact hst
  · rw [shell.casing.key_ofList]
    exact hsplit.1
  · rw [shell.casing.key_ofList]
    exact hsplit.2
  · cases hx with
    | head =>
      rw [String.toList_ofList]
      exact ⟨hs, hnot (by decide) (by decide) hsplit.1 (noSep_passNames hp).2.1⟩
    | tail _ hx =>
      rw [List.mem_singleton.mp hx, String.toList_ofList]
      exact ⟨hnot (by decide) (by decide) hsplit.2 hslash,
        hnot (by decide) (by decide) hsplit.2 hback⟩

/-- The pass stays a segment, and the artifact is pushed behind it. -/
theorem segments_listed {s t artifactPath : String} (hlen : 2 < s.toList.length)
    (hsep : ∀ x ∈ [s, t], '/' ∉ x.toList ∧ '\\' ∉ x.toList)
    (hpath : getRelativeArtifactPath shell.casing root (join '/' [s, t]) = .ok artifactPath) :
    segmentsOf artifactPath = (pushSegment (s :: root.parts.reverse) t).reverse := by
  have hnative : replace '/' '\\' (join '/' [s, t]) = join '\\' [s, t] :=
    replace_join fun x hx => (hsep x hx).1
  rw [(getRelativeArtifactPath_eq_ok.mp hpath).2.2, segmentsOf_child, hnative,
    split_join (List.cons_ne_nil _ _) fun x hx => (hsep x hx).2]
  show (pushSegment (pushSegment root.parts.reverse s) t).reverse = _
  rw [pushSegment_of_length hlen]

/-- The file that a listed path names stands where the pass and the artifact say. -/
theorem lookup_listed {passName artifactName listedPath artifactPath : String} {content : Bytes}
    (hsource : vol.container shell.casing root.parts = true) (hp : passName ∈ passNames)
    (hname : isArtifactName shell.casing artifactName = true)
    (hkey : shell.casing.key listedPath = pairKey shell passName artifactName)
    (hpath : getRelativeArtifactPath shell.casing root listedPath = .ok artifactPath)
    (hleaf : vol.leaf shell.casing (segmentsOf artifactPath) = some content) :
    vol.lookup shell.casing (root.parts ++ below passName artifactName) = some (.file content) := by
  obtain ⟨s, t, rfl, hkeys, hkeyt, hsep⟩ := pieces_listed hp hname hkey
  have hlen : 2 < s.toList.length := by
    rw [← shell.casing.length_key, hkeys, length_key_passNames hp]
    decide
  have hsegments := segments_listed hlen hsep hpath
  -- the artifact is a segment of its own unless it is one of the two dots
  have hempty : t ≠ "" := by
    intro e
    rw [e] at hkeyt
    exact artifactName_ne_empty hname (shell.casing.key_eq_nil.mp hkeyt.symm)
  have hdot : t = "." ↔ artifactName = "." := by
    refine ⟨fun e => ?_, fun e => ?_⟩
    · exact eq_of_key_eq (by decide) (hkeyt.symm.trans (congrArg _ e))
    · exact eq_of_key_eq (by decide) (hkeyt.trans (congrArg _ e))
  have hdots : t ≠ ".." := by
    intro e
    rw [e, pushSegment, if_neg (by decide), if_pos rfl, List.tail_cons, List.reverse_reverse]
      at hsegments
    rw [hsegments, Volume.leaf_of_container hsource] at hleaf
    cases hleaf
  rw [← Volume.leaf_eq_some, ← hleaf]
  apply Volume.leaf_congr
  rw [hsegments, below, pushSegment]
  by_cases hd : artifactName = "."
  · rw [if_pos hd, if_pos (.inr (hdot.mpr hd)), List.reverse_cons, List.reverse_reverse,
      List.map_append, List.map_append]
    exact congrArg _ (congrArg (fun k => [k]) hkeys.symm)
  · rw [if_neg hd, if_neg (by simp [hempty, hdot, hd]), if_neg hdots, List.reverse_cons,
      List.reverse_cons, List.reverse_reverse, List.append_assoc, List.map_append, List.map_append]
    exact congrArg _ (congrArg₂ (fun k k' => [k, k']) hkeys.symm hkeyt.symm)

/-! ## accepted captures -/

/-- every property has its entry -/
theorem exists_entry {properties : List (String × Json)} {entries : List ExpectedChecksum}
    (h : List.Forall₂ (ArtifactMeta shell) properties entries) {a : String × Json}
    (ha : a ∈ properties) : ∃ e, (a, e) ∈ properties.zip entries ∧ ArtifactMeta shell a e := by
  induction h with
  | nil => cases ha
  | cons hmeta hrest ih =>
    rename_i b e properties entries
    cases ha with
    | head => exact ⟨e, List.mem_cons_self, hmeta⟩
    | tail _ ha =>
      obtain ⟨e', hmem, hmeta'⟩ := ih ha
      exact ⟨e', List.mem_cons_of_mem _ hmem, hmeta'⟩

/-- the names of the artifacts are distinct up to case -/
theorem nodup_names {artifacts : List (String × Json)} (h : keysOk shell.casing artifacts = true) :
    ((artifacts.map Prod.fst).map shell.casing.key).Nodup := by
  rw [List.map_map]
  exact of_decide_eq_true (Bool.and_eq_true _ _ ▸ h).1

/-- The table, when the passes are the two. -/
theorem items_table {readPasses : List Json} {artifacts : List (String × Json)}
    {entries : List ExpectedChecksum} (hlen : artifacts.length = entries.length)
    (hkeys : keysOk shell.casing artifacts = true) (htwo : TwoPasses shell readPasses) :
    (Dict.empty.setAll (pairs shell readPasses (artifacts.zip entries))).items
        = pairs shell readPasses (artifacts.zip entries) ∧
      (Dict.empty.setAll (pairs shell readPasses (artifacts.zip entries))).keys
        = wanted shell (artifacts.map Prod.fst) := by
  have hfst : (artifacts.zip entries).map (fun a => a.1.1) = artifacts.map Prod.fst := by
    rw [← List.map_fst_zip (Nat.le_of_eq hlen), List.map_map, List.map_fst_zip (Nat.le_of_eq hlen)]
    rfl
  have hpairs : (pairs shell readPasses (artifacts.zip entries)).map Prod.fst
      = wanted shell (artifacts.map Prod.fst) := by
    rw [keys_pairs htwo, hfst]
  have hitems := Dict.items_setAll (d := Dict.empty)
    (l := pairs shell readPasses (artifacts.zip entries)) (by
      show ((pairs shell readPasses (artifacts.zip entries)).map Prod.fst).Nodup
      rw [hpairs]
      exact nodup_wanted (nodup_names hkeys))
  refine ⟨hitems, ?_⟩
  rw [Dict.keys, hitems]
  exact hpairs

variable {v : Verification} {captureManifestRaw checksumManifestRaw : Bytes}
  {captureManifest formatValue readPassesValue : Json} {expected : Expected}

theorem Run.keysOk (h : Run shell vol root v captureManifestRaw checksumManifestRaw captureManifest
    formatValue readPassesValue expected) : keysOk shell.casing v.artifacts = true :=
  (convertible_obj.mp
    (convertible_member (convertible_convertFromJson h.document) h.artifacts)).1

/-- Equal counts, membership and no duplicates: every artifact of both passes is listed. -/
theorem Run.complete (h : Run shell vol root v captureManifestRaw checksumManifestRaw
    captureManifest formatValue readPassesValue expected)
    (hsource : vol.container shell.casing root.parts = true)
    (htwo : TwoPasses shell v.readPasses) : Complete shell vol root v := by
  obtain ⟨entries, hmetas, rfl⟩ := expectedChecksums_eq_ok.mp h.table
  obtain ⟨hitems, hkeys⟩ := items_table hmetas.length_eq h.keysOk htwo
  obtain ⟨hlines, hnd, -⟩ := foldlM_checkLine.mp h.loop
  have hsub : v.lines.map (lineKey shell.casing) ⊆ wanted shell (v.artifacts.map Prod.fst) := by
    intro k hk
    obtain ⟨line, hline, rfl⟩ := List.mem_map.mp hk
    obtain ⟨_, _, e, _, _, hok⟩ := hlines line hline
    rw [← hkeys, lineKey_of_match hok.isMatch, ← Dict.get?_isSome, hok.listed]
    rfl
  have hlen : (wanted shell (v.artifacts.map Prod.fst)).length ≤ (v.lines.map (lineKey shell.casing)).length := by
    rw [List.length_map, h.count, ← hkeys, Dict.keys, List.length_map]
  have hperm := (List.subperm_of_subset hnd hsub).perm_of_length_le hlen
  refine ⟨hperm, nodup_wanted (nodup_names h.keysOk), ?_⟩
  intro passName hp artifact ha
  have hmem : pairKey shell passName artifact.1 ∈ v.lines.map (lineKey shell.casing) :=
    hperm.mem_iff.mpr (List.mem_flatMap.mpr
      ⟨artifact.1, List.mem_map_of_mem ha, List.mem_map_of_mem hp⟩)
  obtain ⟨line, hline, hkey⟩ := List.mem_map.mp hmem
  obtain ⟨listedHash, path, e, artifactPath, content, hok⟩ := hlines line hline
  rw [lineKey_of_match hok.isMatch] at hkey
  -- the entry of the table is the one of this artifact
  obtain ⟨e', hzip, hmeta⟩ := exists_entry hmetas ha
  have hpair : (pairKey shell passName artifact.1, e') ∈
      (Dict.empty.setAll (pairs shell v.readPasses (v.artifacts.zip entries))).items := by
    have hpass : shell.casing.key passName ∈
        v.readPasses.map fun p => shell.casing.key (shell.toText p) := by
      rw [htwo]
      exact List.mem_map_of_mem hp
    obtain ⟨p, hread, hpkey⟩ := List.mem_map.mp hpass
    have hpk : pairKey shell (shell.toText p) artifact.1 = pairKey shell passName artifact.1 := by
      rw [pairKey_eq, pairKey_eq, hpkey]
    rw [hitems, ← hpk]
    exact List.mem_flatMap.mpr ⟨(artifact, e'), hzip,
      List.mem_map_of_mem (f := fun p => (pairKey shell (shell.toText p) artifact.1, e')) hread⟩
  have hsame : e = e' := by
    have hget := hok.listed
    rw [hkey, Dict.get?_eq_some.mpr hpair] at hget
    exact (Option.some.inj hget).symm
  subst hsame
  exact ⟨e, line, listedHash, path, content, hmeta, hline, hok.isMatch, hkey,
    lookup_listed hsource hp hmeta.name hkey hok.below hok.leaf, hok.size,
    hok.hash.trans hok.agree, hok.hash⟩

/-- One entry gives one key for each artifact, which is too few for two passes. -/
theorem Run.twoPasses (h : Run shell vol root v captureManifestRaw checksumManifestRaw
    captureManifest formatValue readPassesValue expected)
    (hcomplete : Complete shell vol root v) : TwoPasses shell v.readPasses := by
  cases join_eq_two_passes h.joined with
  | inl htwo =>
    rw [List.map_map] at htwo
    exact htwo
  | inr hone =>
    exfalso
    obtain ⟨entries, hmetas, rfl⟩ := expectedChecksums_eq_ok.mp h.table
    have hlisted := hcomplete.listed.length_eq
    rw [List.length_map, length_wanted, List.length_map, h.count] at hlisted
    have hcount := Dict.length_setAll_le Dict.empty
      (pairs shell v.readPasses (v.artifacts.zip entries))
    rw [length_pairs, List.length_zip, ← hmetas.length_eq, Nat.min_self, hlisted] at hcount
    have hpos : 0 < v.artifacts.length := List.length_pos_iff.mpr h.nonempty
    have hle := Nat.mul_le_mul_left v.artifacts.length
      (Nat.le_trans (Nat.le_of_eq (List.length_map _).symm) hone)
    have hzero : (Dict.empty : Expected).items.length = 0 := rfl
    omega

/-- **An accepted capture is complete exactly when `read_passes` lists the two passes.** -/
theorem sourceVerification_complete (h : sourceVerification shell vol root = .ok v) :
    Complete shell vol root v ↔ TwoPasses shell v.readPasses := by
  obtain ⟨hsource, hverify⟩ := sourceVerification_eq_ok.mp h
  obtain ⟨_, _, _, _, _, _, hrun⟩ := verifyCapture_eq_ok.mp hverify
  exact ⟨hrun.twoPasses, hrun.complete hsource⟩

end

/-! ## the fixture of the tests -/

/-- a shell for ASCII texts and integers in range -/
def plainShell (readJson : Bytes → Option Json) (hash : Bytes → Digest) : Shell where
  casing := Casing.ordinal
  readJson := readJson
  getContent raw := readLines (decodeAscii raw)
  toInt
    | .num n => if -0x80000000 ≤ n ∧ n < 0x80000000 then some n else none
    | _ => none
  toLong
    | .num n => if -0x8000000000000000 ≤ n ∧ n < 0x8000000000000000 then some n else none
    | _ => none
  toText
    | .str s => s
    | .num n => toString n
    | _ => ""
  hash := hash

namespace Fixture
variable (readPasses : List String)

def payload : Bytes := asciiBytes "verified-rt7-test"

def hash : String := "6ebd4523358559f1ec9a82bcc8c204dc3e56d55437c8e6c880f0c56499c17440"

def manifest : String :=
  "\x7b \"format\": 2, \"read_passes\": [\"" ++ String.intercalate "\", \"" readPasses ++
    "\"], \"artifacts\": \x7b \"test.bin\": \x7b \"size\": 17, \"sha256\": \"" ++ hash ++
    "\", \"verified_copies\": 2 \x7d \x7d \x7d\n"

def artifacts : List (String × Json) :=
  [("test.bin", .obj [("size", .num 17), ("sha256", .str hash), ("verified_copies", .num 2)])]

def document : Json :=
  .obj [("format", .num 2), ("read_passes", .arr (readPasses.map .str)),
    ("artifacts", .obj artifacts)]

def lines : List String := readPasses.map fun p => hash ++ "  " ++ p ++ "/test.bin"

def sums : String := String.join ((lines readPasses).map fun line => line ++ "\n")

def root : SourceRoot where
  letter := 'C'
  parts := ["rt7-test-capture"]
  trailing := false
  alpha := rfl
  plain := by decide

def volume : Volume :=
  [(root.parts, .directory),
    (root.parts ++ ["capture-manifest.json"], .file (asciiBytes (manifest readPasses))),
    (root.parts ++ ["SHA256SUMS.txt"], .file (asciiBytes (sums readPasses)))] ++
  readPasses.flatMap fun p =>
    [(root.parts ++ [p], .directory), (root.parts ++ [p, "test.bin"], .file payload)]

/-- the readers, on the two manifests of the fixture -/
def shell : Shell :=
  { plainShell (fun _ => some (document readPasses)) Sha256.sha256 with
    getContent := fun _ => lines readPasses }

/-- the script on a capture with these read passes -/
def run : Except Fault Verification :=
  sourceVerification (shell readPasses) (volume readPasses) root

theorem hexdigest_payload : (Sha256.sha256 payload).hexdigest = hash := by decide +kernel

theorem plain_artifact : PlainNames ["size", "sha256", "verified_copies"] ∧
    PlainNames ["format", "read_passes", "artifacts"] ∧ PlainNames ["test.bin"] := by decide

/-- the entry of the artifact, of each pass -/
def table : Expected :=
  Dict.empty.setAll (pairs (shell readPasses) (readPasses.map .str) (artifacts.zip [⟨hash, 17⟩]))

theorem expectedChecksums_table :
    expectedChecksums (shell readPasses) (readPasses.map .str) artifacts = .ok (table readPasses) := by
  have hkeys : keysOk Casing.ordinal
      [("size", .num 17), ("sha256", .str hash), ("verified_copies", .num 2)] = true :=
    keysOk_of_plain plain_artifact.1 rfl
  have hchars : "test.bin".toList.all (fun c => nameChars.contains c) = true := by decide
  refine expectedChecksums_eq_ok.mpr ⟨_, .cons ?_ .nil, rfl⟩
  refine ⟨isArtifactName_of_chars (by decide) fun c hc => ?_, ⟨.str hash, member_of_mem hkeys ?_, rfl⟩, ?_,
    ⟨.num 2, member_of_mem hkeys ?_, rfl⟩, ⟨.num 17, member_of_mem hkeys ?_, rfl⟩, by decide⟩
  · exact List.contains_iff_mem.mp (List.all_eq_true.mp hchars c hc)
  · exact List.mem_cons_of_mem _ List.mem_cons_self
  · exact hexdigest_payload ▸ isHash_hexdigest _
  · exact List.mem_cons_of_mem _ (List.mem_cons_of_mem _ List.mem_cons_self)
  · exact List.mem_cons_self

/-- the two manifests, whatever the passes hold -/
theorem leaf_manifests :
    (volume readPasses).leaf Casing.ordinal (segmentsOf (joinPath root.text "capture-manifest.json"))
      = some (asciiBytes (manifest readPasses)) ∧
    (volume readPasses).leaf Casing.ordinal (segmentsOf (joinPath root.text "SHA256SUMS.txt"))
      = some (asciiBytes (sums readPasses)) := by
  have hpaths : segmentsOf (joinPath root.text "capture-manifest.json")
        = root.parts ++ ["capture-manifest.json"] ∧
      segmentsOf (joinPath root.text "SHA256SUMS.txt") = root.parts ++ ["SHA256SUMS.txt"] := by
    decide +kernel
  have hne : Casing.ordinal.key "capture-manifest.json" ≠ Casing.ordinal.key "SHA256SUMS.txt" := by
    decide
  have hroot (name : String) : root.parts.map Casing.ordinal.key
      ≠ (root.parts ++ [name]).map Casing.ordinal.key := by
    intro e
    have hlength := congrArg List.length e
    rw [List.length_map, List.length_map, List.length_append, List.length_singleton] at hlength
    omega
  have hsome (name : String) : root.parts ++ [name] ≠ [] :=
    List.append_ne_nil_of_right_ne_nil _ (List.cons_ne_nil _ _)
  refine ⟨Volume.leaf_eq_some.mpr ?_, Volume.leaf_eq_some.mpr ?_⟩
  · rw [hpaths.1]
    exact (Volume.lookup_cons_ne (hroot _)).trans (Volume.lookup_cons_self (hsome _))
  · rw [hpaths.2]
    refine (Volume.lookup_cons_ne (hroot _)).trans ((Volume.lookup_cons_ne ?_).trans
      (Volume.lookup_cons_self (hsome _)))
    rw [List.map_append, List.map_append]
    exact fun e => hne (List.cons.inj (List.append_cancel_left e)).1

theorem lines_eq : lines readPasses = (readPasses.map fun p => (p, "test.bin")).map
    fun f => listingLine (shell readPasses) f.1 f.2 payload := by
  rw [List.map_map]
  refine List.map_congr_left fun p _ => ?_
  show hash ++ "  " ++ p ++ ("/" ++ "test.bin")
    = (Sha256.sha256 payload).hexdigest ++ "  " ++ (p ++ "/" ++ "test.bin")
  rw [hexdigest_payload, String.append_assoc, String.append_assoc, String.append_assoc,
    String.append_assoc]

variable {readPasses}

/-- the keys of the document are distinct, so its properties are found -/
theorem keysOk_document :
    keysOk Casing.ordinal [("format", .num 2), ("read_passes", .arr (readPasses.map .str)),
      ("artifacts", .obj artifacts)] = true := keysOk_of_plain plain_artifact.2.1 rfl

theorem convertible_document : convertible Casing.ordinal (document readPasses) = true := by
  have hartifacts : convertible Casing.ordinal (.obj artifacts) = true := by
    refine convertible_obj.mpr ⟨keysOk_of_plain plain_artifact.2.2 rfl, List.forall_mem_singleton.mpr ?_⟩
    refine convertible_obj.mpr ⟨keysOk_of_plain plain_artifact.1 rfl, ?_⟩
    simp
  refine convertible_obj.mpr ⟨keysOk_document, ?_⟩
  simp [hartifacts, convertible_arr]

theorem items_table
    (hdistinct : (readPasses.map fun p => pairKey (shell readPasses) p "test.bin").Nodup) :
    (table readPasses).items
      = readPasses.map fun p => (pairKey (shell readPasses) p "test.bin", ⟨hash, 17⟩) := by
  have hpairs : pairs (shell readPasses) (readPasses.map .str) (artifacts.zip [⟨hash, 17⟩])
      = readPasses.map fun p => (pairKey (shell readPasses) p "test.bin", ⟨hash, 17⟩) := by
    rw [pairs, artifacts, List.zip_cons_cons, List.flatMap_cons, List.zip_nil_left, List.flatMap_nil,
      List.append_nil, List.map_map]
    rfl
  rw [table, hpairs]
  refine Dict.items_setAll ?_
  show ((readPasses.map _).map Prod.fst).Nodup
  rw [List.map_map]
  exact hdistinct

/-- A capture with these read passes is accepted, if the artifact stands where each of them says. -/
theorem run_eq_ok
    (hdistinct : (readPasses.map fun p => pairKey (shell readPasses) p "test.bin").Nodup)
    (hjoin : Casing.ordinal.key (join ',' readPasses) = Casing.ordinal.key "pass1,pass2")
    (hpasses : ∀ p ∈ readPasses, (PlainSegment p ∧ '/' ∉ p.toList ∧ '\n' ∉ p.toList) ∧
      isPathRooted (p ++ "/" ++ "test.bin") = false ∧
      (volume readPasses).leaf Casing.ordinal (root.parts ++ [p, "test.bin"]) = some payload) :
    run readPasses
      = .ok ⟨readPasses.map .str, artifacts, lines readPasses, (table readPasses).items.length⟩ := by
  have hitems := items_table hdistinct
  have hpresent : ∀ p ∈ readPasses, Present (shell readPasses) (volume readPasses) root
      (table readPasses) p "test.bin" payload := by
    intro p hp
    obtain ⟨hplain, hrelative, hfile⟩ := hpasses p hp
    refine ⟨hplain, by decide, hrelative, Dict.get?_eq_some.mpr ?_, hfile⟩
    show (_, (⟨(Sha256.sha256 payload).hexdigest, 17⟩ : ExpectedChecksum)) ∈ _
    rw [hitems, hexdigest_payload]
    exact List.mem_map_of_mem hp
  have hfiles := leaf_manifests readPasses
  refine sourceVerification_eq_ok.mpr ⟨rfl, verifyCapture_eq_ok.mpr
    ⟨asciiBytes (manifest readPasses), asciiBytes (sums readPasses), document readPasses, .num 2,
      .arr (readPasses.map .str), table readPasses, ?_⟩⟩
  exact {
    captureManifestFile := hfiles.1
    checksumManifestFile := hfiles.2
    document := (convertFromJson_obj rfl).mpr ⟨convertible_document, rfl⟩
    formatMember := member_of_mem keysOk_document List.mem_cons_self
    format := rfl
    readPassesMember := member_of_mem keysOk_document (List.mem_cons_of_mem _ List.mem_cons_self)
    readPasses := rfl
    artifacts := member_of_mem keysOk_document
      (List.mem_cons_of_mem _ (List.mem_cons_of_mem _ List.mem_cons_self))
    joined := by
      rw [List.map_map]
      exact (congrArg (fun texts => Casing.ordinal.key (join ',' texts)) (List.map_id _)).trans hjoin
    nonempty := List.cons_ne_nil _ _
    table := expectedChecksums_table readPasses
    lines := rfl
    count := by
      rw [hitems, List.length_map]
      exact List.length_map _
    expectedChecksumCount := rfl
    loop := by
      dsimp only
      rw [lines_eq]
      refine loop_accepts (fun f hf => ?_) ?_
      · obtain ⟨p, hp, rfl⟩ := List.mem_map.mp hf
        exact hpresent p hp
      · rw [List.map_map]
        exact hdistinct }

theorem run_two : ∃ v, run passNames = .ok v :=
  ⟨_, run_eq_ok (by decide +kernel) (by decide +kernel) (by decide +kernel)⟩

/-- One entry `pass1,pass2`, one directory of that name and one line. -/
theorem run_joined :
    ∃ v, run ["pass1,pass2"] = .ok v ∧ v.lines.length = 1 ∧ v.artifacts.length = 1 :=
  ⟨_, run_eq_ok (List.nodup_singleton _) rfl (by decide +kernel), rfl, rfl⟩

end Fixture

theorem sourceVerification_complete_fixture :
    ∃ v, Fixture.run passNames = .ok v ∧
      (Complete (Fixture.shell passNames) (Fixture.volume passNames) Fixture.root v ↔
        TwoPasses (Fixture.shell passNames) v.readPasses) := by
  obtain ⟨v, hv⟩ := Fixture.run_two
  exact ⟨v, hv, sourceVerification_complete hv⟩

/-- The script accepts the joined entry, and nothing is there of either pass. -/
theorem sourceVerification_joined :
    ∃ v, Fixture.run ["pass1,pass2"] = .ok v ∧
      ¬ Complete (Fixture.shell ["pass1,pass2"]) (Fixture.volume ["pass1,pass2"]) Fixture.root v := by
  obtain ⟨v, hv, hlines, hartifacts⟩ := Fixture.run_joined
  refine ⟨v, hv, ?_⟩
  intro hcomplete
  have hlen := hcomplete.listed.length_eq
  rw [List.length_map, length_wanted, List.length_map, hlines, hartifacts] at hlen
  exact absurd hlen (by decide)

end RT7.Copy
