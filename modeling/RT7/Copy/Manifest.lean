import RT7.Copy.Path
import RT7.Base.Json
import RT7.Base.Sha256

/-!
# The two manifests, as the copy script reads them

* `Shell`           what the script takes from PowerShell: letter case, readers, conversions, hash;
* `convertFromJson`, `member`   the object behind a manifest and its properties;
* `expectedChecksums`   the table that the script builds from the capture manifest;
* `ArtifactMeta`    what makes the metadata of one artifact valid; `expectedChecksums_eq_ok` says
  that the table is built exactly from valid metadata, and how.
-/

namespace RT7.Copy

open Py Text

/-- What the script relies on: the comparison of texts, `Get-Content` with and without `-Raw`, the
reader of `ConvertFrom-Json`, the casts, and `Get-FileHash`. -/
structure Shell where
  casing : Casing
  readJson : Bytes → Option Json
  getContent : Bytes → List String
  toInt : Json → Option Int
  toLong : Json → Option Int
  toText : Json → String
  hash : Bytes → Digest

/-- the text that `Get-FileHash` gives, in upper case -/
def Shell.fileHash (shell : Shell) (content : Bytes) : String :=
  String.ofList ((shell.hash content).hexdigest.toList.map Char.toUpper)

/-! ## objects -/

section
variable (cs : Casing)

/-- the keys of one object are not empty and stay distinct when letter case is ignored -/
def keysOk (members : List (String × Json)) : Bool :=
  decide ((members.map fun m => cs.key m.1).Nodup) && members.all fun m => m.1 ≠ ""

mutual

/-- Every object of the document can become a `PSCustomObject`. -/
def convertible : Json → Bool
  | .arr items => convertibleList items
  | .obj members => keysOk cs members && convertibleMembers members
  | _ => true

def convertibleList : List Json → Bool
  | [] => true
  | item :: items => convertible item && convertibleList items

def convertibleMembers : List (String × Json) → Bool
  | [] => true
  | m :: members => convertibleMember m && convertibleMembers members

def convertibleMember : String × Json → Bool
  | (_, value) => convertible value

end

/-- a property of one object -/
def objectMember (name : String) : Json → Option Json
  | .obj members => (members.find? fun m => cs.key m.1 = cs.key name).map fun m => m.2
  | _ => none

/-- the elements of `@(value)` -/
def elements : Json → List Json
  | .arr items => items
  | value => [value]

/-- the values that `$value.name` finds; the members of an array are those of its elements -/
def memberValues (name : String) : Json → List Json
  | .arr items => (items.filterMap (objectMember cs name)).flatMap elements
  | value => (objectMember cs name value).toList

/-- `$value.name` in strict mode -/
def member (name : String) (value : Json) : Except Fault Json :=
  match memberValues cs name value with
  | [] => .error (.terminating name)
  | [v] => .ok v
  | vs => .ok (.arr vs)

end

/-- `@($value.PSObject.Properties)`; what is not an object ends the script here or at the first
`sha256` -/
def properties : Json → Except Fault (List (String × Json))
  | .obj members => .ok members
  | _ => .error (.terminating "Properties")

/-- `[int]` and `[long]` -/
def cast (converted : Option Int) : Except Fault Int := require converted (.terminating "cast")

/-- `ConvertFrom-Json`, whose pipeline unwraps an array of one element -/
def convertFromJson (shell : Shell) (raw : Bytes) : Except Fault Json :=
  match shell.readJson raw with
  | none => .error (.terminating "ConvertFrom-Json")
  | some document =>
    if convertible shell.casing document = false then .error (.terminating "ConvertFrom-Json")
    else match document with
      | .arr [item] => .ok item
      | document => .ok document

/-! What can be converted is made of values that can be. -/

section
variable {cs : Casing}

@[simp] theorem convertible_num (n : Int) : convertible cs (.num n) = true := rfl
@[simp] theorem convertible_str (s : String) : convertible cs (.str s) = true := rfl
@[simp] theorem convertible_bool (b : Bool) : convertible cs (.bool b) = true := rfl

theorem convertibleList_eq_true {items : List Json} :
    convertibleList cs items = true ↔ ∀ item ∈ items, convertible cs item = true := by
  induction items with
  | nil => exact ⟨fun _ => List.forall_mem_nil _, fun _ => rfl⟩
  | cons item items ih =>
    rw [convertibleList, Bool.and_eq_true, ih, List.forall_mem_cons]

theorem convertibleMembers_eq_true {members : List (String × Json)} :
    convertibleMembers cs members = true ↔ ∀ m ∈ members, convertible cs m.2 = true := by
  induction members with
  | nil => exact ⟨fun _ => List.forall_mem_nil _, fun _ => rfl⟩
  | cons m members ih =>
    rw [convertibleMembers, Bool.and_eq_true, ih, List.forall_mem_cons, convertibleMember]

theorem convertible_arr {items : List Json} :
    convertible cs (.arr items) = true ↔ ∀ item ∈ items, convertible cs item = true := by
  rw [convertible, convertibleList_eq_true]

theorem convertible_obj {members : List (String × Json)} :
    convertible cs (.obj members) = true ↔
      keysOk cs members = true ∧ ∀ m ∈ members, convertible cs m.2 = true := by
  rw [convertible, Bool.and_eq_true, convertibleMembers_eq_true]

theorem convertible_objectMember {name : String} {value v : Json}
    (hv : convertible cs value = true) (h : objectMember cs name value = some v) :
    convertible cs v = true := by
  cases value with
  | obj members =>
    obtain ⟨m, hm, rfl⟩ := Option.map_eq_some_iff.mp h
    exact (convertible_obj.mp hv).2 m (List.mem_of_find?_eq_some hm)
  | _ => cases h

theorem convertible_elements {value v : Json} (hv : convertible cs value = true)
    (h : v ∈ elements value) : convertible cs v = true := by
  cases value with
  | arr items => exact convertible_arr.mp hv v h
  | _ =>
    rw [List.mem_singleton.mp h]
    exact hv

theorem convertible_memberValues {name : String} {value v : Json}
    (hv : convertible cs value = true) (h : v ∈ memberValues cs name value) :
    convertible cs v = true := by
  cases value with
  | arr items =>
    obtain ⟨r, hr, hw⟩ := List.mem_flatMap.mp h
    obtain ⟨item, hitem, hr⟩ := List.mem_filterMap.mp hr
    exact convertible_elements (convertible_objectMember (convertible_arr.mp hv item hitem) hr) hw
  | _ => exact @convertible_objectMember cs name _ v hv (Option.mem_toList.mp h)

/-- the value of a property can be converted too -/
theorem convertible_member {name : String} {value v : Json} (hv : convertible cs value = true)
    (h : member cs name value = .ok v) : convertible cs v = true := by
  unfold member at h
  split at h
  · cases h
  · rename_i w hone
    cases h
    exact convertible_memberValues hv (hone ▸ List.mem_singleton_self v)
  · cases h
    exact convertible_arr.mpr fun w hw => convertible_memberValues hv hw

theorem convertible_convertFromJson {shell : Shell} {raw : Bytes} {document : Json}
    (h : convertFromJson shell raw = .ok document) : convertible shell.casing document = true := by
  unfold convertFromJson at h
  split at h
  · cases h
  · rename_i d hd
    split_ifs at h with hc
    have hd : convertible shell.casing d = true := Bool.of_not_eq_false hc
    split at h
    · cases h
      exact convertible_arr.mp hd document (List.mem_singleton_self document)
    · cases h
      exact hd

theorem convertFromJson_obj {shell : Shell} {raw : Bytes} {members : List (String × Json)}
    (hread : shell.readJson raw = some (.obj members)) {document : Json} :
    convertFromJson shell raw = .ok document ↔
      convertible shell.casing (.obj members) = true ∧ document = .obj members := by
  rw [convertFromJson, hread]
  dsimp only
  by_cases h : convertible shell.casing (.obj members) = true
  · rw [if_neg (by rw [h]; exact Bool.true_eq_false.mp)]
    simp [h, eq_comm]
  · rw [if_pos (Bool.of_not_eq_true h)]
    simp [h]

/-- The order of the members plays no part. -/
theorem keysOk_perm {members members' : List (String × Json)} (h : members.Perm members') :
    keysOk cs members = keysOk cs members' := by
  have hnd : (members.map fun m => cs.key m.1).Nodup ↔ (members'.map fun m => cs.key m.1).Nodup :=
    (h.map _).nodup_iff
  rw [keysOk, keysOk, decide_eq_decide.mpr hnd, h.all_eq]

mutual

theorem convertible_sortKeys :
    ∀ document : Json, convertible cs document.sortKeys = convertible cs document
  | .null | .bool _ | .num _ | .real _ | .str _ => by rw [Json.sortKeys]
  | .arr items => by
    rw [Json.sortKeys, convertible, convertible, convertible_sortKeysList items]
  | .obj members => by
    obtain ⟨sorted, hs, hperm⟩ := Json.sortKeys_obj members
    rw [← Json.sortKeysMembers_eq] at hperm
    have hkeys : keysOk cs (Json.sortKeysMembers members) = keysOk cs members := by
      rw [keysOk, keysOk, Json.sortKeysMembers_eq, List.map_map, List.all_map]
      rfl
    have hvalues : convertibleMembers cs sorted
        = convertibleMembers cs (Json.sortKeysMembers members) := by
      rw [Bool.eq_iff_iff, convertibleMembers_eq_true, convertibleMembers_eq_true]
      exact forall_congr' fun m => by rw [hperm.mem_iff]
    rw [hs, convertible, convertible, keysOk_perm hperm, hkeys, hvalues,
      convertible_sortKeysMembers members]

theorem convertible_sortKeysList : ∀ items : List Json,
    convertibleList cs (Json.sortKeysList items) = convertibleList cs items
  | [] => rfl
  | item :: items => by
    rw [Json.sortKeysList, convertibleList, convertibleList, convertible_sortKeys item,
      convertible_sortKeysList items]

theorem convertible_sortKeysMembers : ∀ members : List (String × Json),
    convertibleMembers cs (Json.sortKeysMembers members) = convertibleMembers cs members
  | [] => rfl
  | m :: members => by
    rw [Json.sortKeysMembers, convertibleMembers, convertibleMembers,
      convertible_sortKeysMember m, convertible_sortKeysMembers members]

theorem convertible_sortKeysMember : ∀ m : String × Json,
    convertibleMember cs (Json.sortKeysMember m) = convertibleMember cs m
  | (_, value) => by
    rw [Json.sortKeysMember, convertibleMember, convertibleMember, convertible_sortKeys value]

end

/-- an object whose keys are names that no casing confuses -/
theorem keysOk_of_plain {names : List String} (h : PlainNames names)
    {members : List (String × Json)} (e : members.map Prod.fst = names) :
    keysOk cs members = true := by
  have hkeys := h.nodup_key cs (List.Nodup.of_map _ h.2) (List.Subset.refl names)
  rw [← e, List.map_map] at hkeys
  refine Bool.and_eq_true_iff.mpr ⟨decide_eq_true hkeys, List.all_eq_true.mpr ?_⟩
  intro m hm
  exact decide_eq_true (h.1 m.1 (e ▸ List.mem_map_of_mem hm)).2

/-- a property of an object with distinct keys -/
theorem member_of_mem {members : List (String × Json)} (hk : keysOk cs members = true)
    {name : String} {value : Json} (h : (name, value) ∈ members) :
    member cs name (.obj members) = .ok value := by
  have hnd : (members.map fun m => cs.key m.1).Nodup :=
    of_decide_eq_true (Bool.and_eq_true _ _ ▸ hk).1
  have hfind : members.find? (fun m => cs.key m.1 = cs.key name) = some (name, value) := by
    cases hf : members.find? fun m => cs.key m.1 = cs.key name with
    | none => exact absurd (decide_eq_true rfl) (List.find?_eq_none.mp hf _ h)
    | some m =>
      have hm := List.find?_some hf
      have hkey : cs.key m.1 = cs.key name := of_decide_eq_true hm
      rw [List.inj_on_of_nodup_map hnd (List.mem_of_find?_eq_some hf) h hkey]
  have hvalues : memberValues cs name (.obj members) = [value] := by
    show ((members.find? _).map _).toList = _
    rw [hfind]
    rfl
  rw [member, hvalues]

theorem properties_eq_ok {value : Json} {members : List (String × Json)} :
    properties value = .ok members ↔ value = .obj members := by
  cases value <;> simp [properties]

end

/-! ## the checks of one artifact -/

def nameChars : List Char :=
  "ABCDEFGHIJKLMNOPQRSTUVWXYZabcdefghijklmnopqrstuvwxyz0123456789._-".toList

def hexChars : List Char := "0123456789abcdefABCDEF".toList

/-- a character class, ignoring case -/
def inClass (cs : Casing) (cls : List Char) (c : Char) : Bool :=
  cls.any fun d => cs.fold d = cs.fold c

/-- `$` also matches in front of a final line break. -/
def dropFinalNewline (l : List Char) : List Char :=
  if l.getLast? = some '\n' then l.dropLast else l

/-- `-match '^[A-Za-z0-9._-]+$'` -/
def isArtifactName (cs : Casing) (name : String) : Bool :=
  let body := dropFinalNewline name.toList
  body ≠ [] && body.all (inClass cs nameChars)

/-- `-match '^[0-9a-fA-F]{64}$'` -/
def isHash (cs : Casing) (text : String) : Bool :=
  let body := dropFinalNewline text.toList
  body.length = 64 && body.all (inClass cs hexChars)

structure ExpectedChecksum where
  hash : String
  size : Int

/-- `$expectedChecksums`; a hashtable ignores the case of its keys -/
abbrev Expected := Dict (List Char) ExpectedChecksum

section
variable (shell : Shell)

/-- the key of an artifact in a pass -/
def pairKey (passName artifactName : String) : List Char :=
  shell.casing.key (passName ++ "/" ++ artifactName)

def record (readPasses : List Json) (artifactName : String) (entry : ExpectedChecksum)
    (expected : Expected) : Expected :=
  readPasses.foldl (fun expected passName =>
    expected.set (pairKey shell (shell.toText passName) artifactName) entry) expected

/-- one turn of the loop over the artifacts -/
def addArtifact (readPasses : List Json) (expected : Expected) (artifactProperty : String × Json) :
    Except Fault Expected := do
  let artifactName := artifactProperty.1
  let artifact := artifactProperty.2
  let invalid := Fault.throw s!"Invalid verified artifact metadata: {artifactName}"
  let sha256 ← member shell.casing "sha256" artifact
  let artifactHash := shell.toText sha256
  raiseIf (isArtifactName shell.casing artifactName = false) invalid
  raiseIf (isHash shell.casing artifactHash = false) invalid
  let verifiedCopies ← member shell.casing "verified_copies" artifact
  let copies ← cast (shell.toInt verifiedCopies)
  raiseIf (copies ≠ 2) invalid
  let sizeValue ← member shell.casing "size" artifact
  let size ← cast (shell.toLong sizeValue)
  raiseIf (size < 0) invalid
  return record shell readPasses artifactName ⟨artifactHash, size⟩ expected

def expectedChecksums (readPasses : List Json) (artifactProperties : List (String × Json)) :
    Except Fault Expected :=
  artifactProperties.foldlM (addArtifact shell readPasses) Dict.empty

/-- The metadata of one artifact is valid, with this hash and size. -/
structure ArtifactMeta (artifactProperty : String × Json) (entry : ExpectedChecksum) : Prop where
  name : isArtifactName shell.casing artifactProperty.1 = true
  sha256 : ∃ v, member shell.casing "sha256" artifactProperty.2 = .ok v ∧
    shell.toText v = entry.hash
  isHash : isHash shell.casing entry.hash = true
  copies : ∃ v, member shell.casing "verified_copies" artifactProperty.2 = .ok v ∧
    shell.toInt v = some 2
  size : ∃ v, member shell.casing "size" artifactProperty.2 = .ok v ∧
    shell.toLong v = some entry.size
  size_nonneg : 0 ≤ entry.size

end

section
variable {shell : Shell} {readPasses : List Json}

theorem addArtifact_eq_ok {expected expected' : Expected} {p : String × Json} :
    addArtifact shell readPasses expected p = .ok expected' ↔
      ∃ entry, ArtifactMeta shell p entry ∧
        expected' = record shell readPasses p.1 entry expected := by
  unfold addArtifact
  simp only [bind_eq_ok, raiseIf_eq_ok, exists_const, cast, require_eq_ok, pure_eq_ok,
    Bool.not_eq_false, not_not, not_lt]
  constructor
  · rintro ⟨v, hv, hname, hhash, w, hw, copies, hcopies, h2, z, hz, size, hsize, h0, rfl⟩
    exact ⟨⟨shell.toText v, size⟩, ⟨hname, ⟨v, hv, rfl⟩, hhash, ⟨w, hw, h2 ▸ hcopies⟩,
      ⟨z, hz, hsize⟩, h0⟩, rfl⟩
  · rintro ⟨entry, ⟨hname, ⟨v, hv, hhashText⟩, hhash, ⟨w, hw, hcopies⟩, ⟨z, hz, hsize⟩, h0⟩, rfl⟩
    refine ⟨v, hv, hname, hhashText ▸ hhash, w, hw, 2, hcopies, rfl, z, hz, entry.size, hsize, h0, ?_⟩
    rw [hhashText]

theorem record_eq (artifactName : String) (entry : ExpectedChecksum) (expected : Expected) :
    record shell readPasses artifactName entry expected = expected.setAll
      (readPasses.map fun p => (pairKey shell (shell.toText p) artifactName, entry)) := by
  rw [Dict.setAll, List.foldl_map]
  rfl

/-- the keys and the entries of the table, in the order of insertion -/
def pairs (shell : Shell) (readPasses : List Json)
    (artifacts : List ((String × Json) × ExpectedChecksum)) :
    List (List Char × ExpectedChecksum) :=
  artifacts.flatMap fun a =>
    readPasses.map fun p => (pairKey shell (shell.toText p) a.1.1, a.2)

/-- Induction on the artifacts; `entries` are their hashes and sizes. -/
theorem foldlM_addArtifact {properties : List (String × Json)} {expected expected' : Expected} :
    properties.foldlM (addArtifact shell readPasses) expected = .ok expected' ↔
      ∃ entries, List.Forall₂ (ArtifactMeta shell) properties entries ∧
        expected' = expected.setAll (pairs shell readPasses (properties.zip entries)) := by
  induction properties generalizing expected with
  | nil =>
    rw [List.foldlM_nil, pure_eq_ok]
    constructor
    · rintro rfl
      exact ⟨[], .nil, rfl⟩
    · rintro ⟨entries, -, rfl⟩
      rfl
  | cons p properties ih =>
    have hcons : ∀ entry entries, expected.setAll
        (pairs shell readPasses ((p, entry) :: properties.zip entries)) =
          (record shell readPasses p.1 entry expected).setAll
            (pairs shell readPasses (properties.zip entries)) := by
      intro entry entries
      rw [pairs, List.flatMap_cons, record_eq, Dict.setAll, List.foldl_append]
      rfl
    rw [List.foldlM_cons, bind_eq_ok]
    constructor
    · rintro ⟨d, hd, hrun⟩
      obtain ⟨entry, hmeta, rfl⟩ := addArtifact_eq_ok.mp hd
      obtain ⟨entries, hall, rfl⟩ := ih.mp hrun
      exact ⟨entry :: entries, .cons hmeta hall, (hcons entry entries).symm⟩
    · rintro ⟨entries, hall, rfl⟩
      cases hall with
      | cons hmeta hall =>
        rename_i entry entries
        exact ⟨_, addArtifact_eq_ok.mpr ⟨entry, hmeta, rfl⟩,
          ih.mpr ⟨entries, hall, hcons entry entries⟩⟩

/-- **The table is built exactly from valid metadata**, and holds an entry for every pass and
artifact. -/
theorem expectedChecksums_eq_ok {properties : List (String × Json)} {expected : Expected} :
    expectedChecksums shell readPasses properties = .ok expected ↔
      ∃ entries, List.Forall₂ (ArtifactMeta shell) properties entries ∧
        expected = Dict.empty.setAll (pairs shell readPasses (properties.zip entries)) :=
  foldlM_addArtifact

end

end RT7.Copy
