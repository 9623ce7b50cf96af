import RT7.Kernel.Build

/-!
# Which artifacts the checksums vouch for

* `Sealed`          the list of checksums is a part of the list of one completed build;
* `Inv`             what holds of the work directory at every moment, with `ensures_buildKernel`;
* `Building`        where a run stands that copies its artifacts;
* `exists_done_buildKernel`   a run that nothing disturbs ends well, if the patches apply and `make`
  makes its files;
* `Reached`         what runs leave that are killed anywhere, with anything between them;
* `artifacts_of_one_build`   artifacts that are verified are those of one build of patched sources.
-/

namespace RT7.Kernel.Build

open Shell

variable {P ι : Type} (x : Setup P ι)

/-- The list of checksums is a part of the one that belongs to a completed build. -/
def Sealed (s : Work) : Prop := ∀ content, s.artifacts sumsName = some content →
  ∃ b ∈ s.releases, ∃ full, sumsOf x (b.product x) = some full ∧ content <+: full

structure Inv (s : Work) : Prop where
  sealed : Sealed x s
  patched : ∀ b ∈ s.releases, b.Patched x

/-- A run has made `b`, and copied some of its artifacts. -/
structure Building (b : Release) (earlier : List Release) (done : List String) (s : Work) : Prop where
  inv : Inv x s
  made : s.releases = b :: earlier
  output : s.output = b.output
  copied : ∀ name ∈ done, s.artifacts name = b.product x name ∧ (b.product x name).isSome = true

variable {x} {b : Release} {earlier : List Release} {done : List String} {s t : Work} {name : String} {e : Failure}
  {content : Bytes}

theorem putArtifact_self (name : String) (content : Bytes) (s : Work) :
    (s.putArtifact name content).artifacts name = some content := Function.update_self _ _ _

theorem putOutput_self (name : String) (content : Bytes) (s : Work) :
    (s.putOutput name content).output name = some content := Function.update_self _ _ _

theorem putArtifact_other {other : String} (h : other ≠ name) (content : Bytes) (s : Work) :
    (s.putArtifact name content).artifacts other = s.artifacts other := Function.update_of_ne h _ _

theorem putArtifact_putArtifact (name : String) (c c' : Bytes) (s : Work) :
    (s.putArtifact name c').putArtifact name c = s.putArtifact name c := by
  unfold Work.putArtifact
  rw [Function.update_idem]

theorem putOutput_putOutput (name : String) (c c' : Bytes) (s : Work) :
    (s.putOutput name c').putOutput name c = s.putOutput name c := by
  unfold Work.putOutput
  rw [Function.update_idem]

theorem Inv.same (h : Inv x s) (hsums : t.artifacts sumsName = s.artifacts sumsName)
    (hreleases : t.releases = s.releases) : Inv x t where
  sealed content hcontent := by
    rw [hreleases]
    exact h.sealed content (hsums ▸ hcontent)
  patched := by
    rw [hreleases]
    exact h.patched

theorem Inv.putArtifact (h : Inv x s) (hname : sumsName ≠ name) (content : Bytes) :
    Inv x (s.putArtifact name content) := h.same (putArtifact_other hname content s) rfl

/-! ## the run up to the build -/

/-- The series have been applied, and `make` sees what they have left. -/
theorem ensures_applyKernelPatches {R : Work → Prop}
    (hstop : ∀ kernel modules, R { s with kernel := kernel, modules := modules })
    {Q : Unit → Work → Prop}
    (h : ∀ kernel modules output, Release.Patched x ⟨kernel, modules, output⟩ →
      Q () { s with kernel := kernel, modules := modules }) :
    Ensures (applyKernelPatches x) s Q R := by
  refine Ensures.bind (ensures_guard (hstop _ _) fun _ => ?_)
  refine Ensures.bind (ensures_within (ensures_relabel ⟨fun _ kernel hkernel => ?_, fun _ kernel _ => ?_⟩))
  · have hk := checkReverse_of_yields x.kernelSeries.kept hkernel
    refine ensures_within (ensures_relabel ⟨fun _ modules hmodules => ?_, fun _ modules _ => ?_⟩)
    · have hm := checkReverse_of_yields x.modulesSeries.kept hmodules
      exact h kernel modules (fun _ => none) ⟨hk, hm⟩
    · exact hstop kernel modules
  · exact hstop kernel s.modules

theorem ensures_copyFile {Q : Unit → Work → Prop} {R : Work → Prop} {read : Work → Option Bytes}
    {put : Bytes → Work → Work} (hput : ∀ c c' s, put c (put c' s) = put c s) (hstart : R s)
    (hstop : ∀ content, read s = some content → ∀ k, R (put (content.take k) s))
    (h : ∀ content, read s = some content → Q () (put content s)) :
    Ensures (copyFile e read put) s Q R := by
  refine Ensures.bind (ensures_command hstart fun content t hread => ?_)
  obtain ⟨c, hc, hpair⟩ := Option.map_eq_some_iff.mp hread
  cases hpair
  exact ensures_writeOut hput hstart (hstop content hc) (h content hc)

/-! ## the artifacts -/

theorem Building.mem (h : Building x b earlier done s) : b ∈ s.releases := by
  rw [h.made]
  exact List.mem_cons_self

theorem Building.putArtifact (h : Building x b earlier done s) (hname : name ∉ done) (hsums : sumsName ≠ name)
    (content : Bytes) : Building x b earlier done (s.putArtifact name content) where
  inv := h.inv.putArtifact hsums content
  made := h.made
  output := h.output
  copied other hother := by
    have hne : other ≠ name := fun heq => hname (heq ▸ hother)
    rw [putArtifact_other hne]
    exact h.copied other hother

theorem Building.copy (h : Building x b earlier done s) (hname : name ∉ done) (hsums : sumsName ≠ name)
    (hproduct : b.product x name = some content) :
    Building x b earlier (name :: done) (s.putArtifact name content) where
  inv := h.inv.putArtifact hsums content
  made := h.made
  output := h.output
  copied other hother := by
    rcases List.mem_cons.mp hother with rfl | hother
    · rw [putArtifact_self, hproduct]
      exact ⟨rfl, rfl⟩
    · exact (h.putArtifact hname hsums content).copied other hother

/-- `cp` of an artifact -/
theorem Building.ensures_cp {read : Work → Option Bytes} (h : Building x b earlier done s)
    (hname : name ∉ done) (hsums : sumsName ≠ name) (hread : read s = b.product x name) :
    Ensures (copyFile e read (Work.putArtifact name)) s (fun _ => Building x b earlier (name :: done)) (Inv x) := by
  refine ensures_copyFile (putArtifact_putArtifact name) h.inv (fun content _ k => ?_) fun content hc => ?_
  · exact h.inv.putArtifact hsums _
  · exact h.copy hname hsums (hread ▸ hc)

/-- `gzip -c` into an artifact -/
theorem Building.ensures_redirect {read : Work → Option Bytes} (h : Building x b earlier done s)
    (hname : name ∉ done) (hsums : sumsName ≠ name)
    (hread : ∀ content, read (s.putArtifact name content) = b.product x name) :
    Ensures (redirect e read (Work.putArtifact name)) s (fun _ => Building x b earlier (name :: done)) (Inv x) := by
  refine Ensures.bind (ensures_act h.inv fun t ht => ?_)
  cases ht
  exact (h.putArtifact hname hsums []).ensures_cp hname hsums (hread [])

/-! ## the checksums -/

theorem plain_artifactNames : ∀ name ∈ artifactNames, Sums.Plain name ∧ Text.Ascii name := by decide

theorem sumsName_not_mem : sumsName ∉ artifactNames := by decide

/-- a part of a list, as a reader sees it -/
theorem exists_prefix {files : Files} {full : Bytes} (hfull : sumsOf x files = some full)
    (htorn : content <+: full) :
    ∃ l, Sums.entriesOf x.hash files artifactNames = some l ∧ (Text.decodeAscii content).toList <+: Sums.text l ∧
      (content = full → (Text.decodeAscii content).toList = Sums.text l) := by
  obtain ⟨text, htext, rfl⟩ := Option.map_eq_some_iff.mp hfull
  obtain ⟨l, hl, rfl⟩ := Option.map_eq_some_iff.mp htext
  obtain ⟨hnames, -⟩ := Sums.of_entriesOf hl
  have hascii : ∀ c ∈ Sums.text l, c.toNat < 128 := by
    refine Sums.ascii_text fun e he => ?_
    exact (plain_artifactNames e.2 (hnames ▸ List.mem_map_of_mem he)).2
  rw [Text.asciiBytes, String.toList_ofList] at htorn
  obtain ⟨p, hp, rfl⟩ := List.prefix_map_iff.mp htorn
  have hread : Text.decodeAscii (p.map fun c => UInt8.ofNat c.toNat) = String.ofList p := by
    have hp' : Text.Ascii (String.ofList p) := Text.ascii_ofList.mpr fun c hc => hascii c (hp.subset hc)
    rw [← Text.decodeAscii_asciiBytes hp', Text.asciiBytes, String.toList_ofList]
  refine ⟨l, hl, by rwa [hread, String.toList_ofList], fun heq => ?_⟩
  rw [heq, Text.decodeAscii_asciiBytes (Text.ascii_ofList.mpr hascii), String.toList_ofList]

/-- what a content list of checksums says of the artifacts -/
theorem product_of_verified (hs : Inv x s) (hv : Verified x s) :
    ∃ b ∈ s.releases, b.Patched x ∧ ∀ name ∈ artifactNames, ∃ content product,
      s.artifacts name = some content ∧ b.product x name = some product ∧
        x.hash content = x.hash product := by
  obtain ⟨content, hcontent, hcheck, hall⟩ := hv
  obtain ⟨b, hb, full, hfull, hprefix⟩ := hs.sealed content hcontent
  obtain ⟨l, hl, hpart, -⟩ := exists_prefix hfull hprefix
  obtain ⟨hnames, hentries⟩ := Sums.of_entriesOf hl
  have hmem : ∀ e ∈ l, e.2 ∈ artifactNames := fun e he => hnames ▸ List.mem_map_of_mem he
  have hlisted := Sums.entries_torn (fun e he => (plain_artifactNames e.2 (hmem e he)).1)
    (hnames ▸ by decide) hpart fun e he => hall e.2 (hmem e he)
  have hne : l ≠ [] := by
    rintro rfl
    cases hnames
  have hfiles := (Sums.check_listed hlisted hne).mp hcheck
  refine ⟨b, hb, hs.patched b hb, fun name hname => ?_⟩
  obtain ⟨e, he, rfl⟩ := List.mem_map.mp (hnames.symm ▸ hname : name ∈ l.map Prod.snd)
  obtain ⟨c, hc, hhash⟩ := hfiles e he
  obtain ⟨product, hproduct, hhash'⟩ := hentries e he
  exact ⟨c, product, hc, hproduct, hhash.trans hhash'.symm⟩

/-! ## a whole run -/

theorem sealed_take (hb : b ∈ s.releases) {full : Bytes} (hfull : sumsOf x (b.product x) = some full)
    (k : Nat) : Sealed x (s.putArtifact sumsName (full.take k)) := by
  intro content hcontent
  rw [putArtifact_self] at hcontent
  cases hcontent
  exact ⟨b, hb, full, hfull, List.take_prefix k full⟩

theorem Inv.putSums (h : Inv x s) (hb : b ∈ s.releases) {full : Bytes}
    (hfull : sumsOf x (b.product x) = some full) (k : Nat) :
    Inv x (s.putArtifact sumsName (full.take k)) := ⟨sealed_take hb hfull k, h.patched⟩

/-- what a run that ends well has done -/
structure Finished (x : Setup P ι) (b : Release) (earlier : List Release) (t : Work) : Prop where
  made : t.releases = b :: earlier
  verified : Verified x t
  artifacts : ∀ name ∈ artifactNames, t.artifacts name = b.product x name ∧
    (b.product x name).isSome = true

theorem Building.sums (h : Building x b earlier done s) (hall : ∀ name ∈ artifactNames, name ∈ done) :
    ∃ full, sumsOf x (b.product x) = some full ∧
      ∀ c, sumsOf x (s.putArtifact sumsName c).artifacts = some full := by
  have hcopied : ∀ name ∈ artifactNames, ∃ content, b.product x name = some content := fun name hname =>
    Option.isSome_iff_exists.mp (h.copied name (hall name hname)).2
  obtain ⟨l, hl⟩ : ∃ l, Sums.entriesOf x.hash (b.product x) artifactNames = some l :=
    Sums.exists_entriesOf hcopied
  refine ⟨Text.asciiBytes (String.ofList (Sums.text l)), by rw [sumsOf, Sums.sha256sum, hl]; rfl, fun c => ?_⟩
  have hsame : Sums.entriesOf x.hash (s.putArtifact sumsName c).artifacts artifactNames = some l := by
    rw [← hl]
    refine Sums.entriesOf_congr fun name hname => ?_
    have hne : name ≠ sumsName := fun heq => sumsName_not_mem (heq ▸ hname)
    rw [putArtifact_other hne, (h.copied name (hall name hname)).1]
  rw [sumsOf, Sums.sha256sum, hsame]
  rfl

theorem Building.verified (h : Building x b earlier done s) (hall : ∀ name ∈ artifactNames, name ∈ done)
    {full : Bytes} (hfull : sumsOf x (b.product x) = some full) :
    Finished x b earlier (s.putArtifact sumsName full) := by
  have hothers : ∀ name ∈ artifactNames, (s.putArtifact sumsName full).artifacts name = b.product x name ∧
      (b.product x name).isSome = true := by
    intro name hname
    have hne : name ≠ sumsName := fun heq => sumsName_not_mem (heq ▸ hname)
    rw [putArtifact_other hne]
    exact h.copied name (hall name hname)
  refine ⟨h.made, ⟨full, putArtifact_self _ _ _, ?_⟩, hothers⟩
  obtain ⟨l, hl, -, hread⟩ := exists_prefix hfull (List.prefix_refl full)
  obtain ⟨hnames, hentries⟩ := Sums.of_entriesOf hl
  have hmem : ∀ e ∈ l, e.2 ∈ artifactNames := fun e he => hnames ▸ List.mem_map_of_mem he
  have hlisted := Sums.entries_text fun e he => (plain_artifactNames e.2 (hmem e he)).1
  have hne : l ≠ [] := by
    rintro rfl
    cases hnames
  rw [hread rfl]
  refine ⟨(Sums.check_listed hlisted hne).mpr fun e he => ?_, fun name hname => ?_⟩
  · rw [(hothers e.2 (hmem e he)).1]
    exact hentries e he
  · rw [hlisted, Sums.listed, List.map_map]
    exact hnames.symm ▸ hname

theorem Building.ensures_sums (h : Building x b earlier done s) (hall : ∀ name ∈ artifactNames, name ∈ done) :
    Ensures (redirect .sha256sum (fun s => sumsOf x s.artifacts) (Work.putArtifact sumsName)) s
      (fun _ t => Inv x t ∧ Finished x b earlier t) (Inv x) := by
  obtain ⟨full, hfull, hread⟩ := h.sums hall
  refine Ensures.bind (ensures_act h.inv fun t ht => ?_)
  cases ht
  have hempty : Inv x (s.putArtifact sumsName []) := h.inv.putSums h.mem hfull 0
  refine ensures_copyFile (putArtifact_putArtifact sumsName) hempty (fun content hc k => ?_) fun content hc => ?_
  · rw [hread] at hc
    cases hc
    rw [putArtifact_putArtifact]
    exact h.inv.putSums h.mem hfull k
  · rw [hread] at hc
    cases hc
    rw [putArtifact_putArtifact]
    have hlast := h.inv.putSums h.mem hfull full.length
    rw [List.take_length] at hlast
    exact ⟨hlast, h.verified hall hfull⟩

theorem Building.ensures_copyArtifacts (h : Building x b earlier [] s) :
    Ensures (copyArtifacts x) s (fun _ t => Inv x t ∧ Finished x b earlier t) (Inv x) := by
  have hread : ∀ {done : List String} {s : Work} {path : String}, Building x b earlier done s →
      s.output path = b.output path := fun h => by rw [h.output]
  refine Ensures.bind ((h.ensures_cp (by decide) (by decide) (hread h)).mono (fun _ s₁ h₁ => ?_) fun _ => id)
  refine Ensures.bind ((h₁.ensures_redirect (by decide) (by decide) fun c => ?_).mono
    (fun _ s₂ h₂ => ?_) fun _ => id)
  · exact congrArg (Option.map x.gzip) (hread (h₁.putArtifact (by decide) (by decide) c))
  refine Ensures.bind ((h₂.ensures_cp (by decide) (by decide) (hread h₂)).mono (fun _ s₃ h₃ => ?_) fun _ => id)
  refine Ensures.bind ((h₃.ensures_cp (by decide) (by decide) (hread h₃)).mono (fun _ s₄ h₄ => ?_) fun _ => id)
  refine Ensures.bind ((h₄.ensures_sums (by decide)).mono (fun _ s₅ h₅ => ?_) fun _ => id)
  refine ensures_act h₅.1 fun t ht => ?_
  cases ht
  exact h₅

/-- **What a run does**, from any work directory, wherever it is cut off. -/
theorem ensures_buildKernel (h : Inv x s) (i : ι) :
    Ensures (buildKernel x i) s (fun _ t => Inv x t ∧ ∃ b, b.Patched x ∧ Finished x b s.releases t) (Inv x) := by
  refine Ensures.bind (ensures_guard h fun _ => ?_)
  refine Ensures.bind (ensures_guard h fun _ => ?_)
  refine Ensures.bind (ensures_guard h fun _ => ?_)
  refine Ensures.bind (ensures_applyKernelPatches (fun _ _ => h.same rfl rfl) fun kernel modules output hp => ?_)
  have h₁ : Inv x { s with kernel := kernel, modules := modules } := h.same rfl rfl
  refine Ensures.bind (ensures_act h₁ fun t ht => ?_)
  cases ht
  refine Ensures.bind (ensures_copyFile (putOutput_putOutput ".config") h₁ (fun _ _ k => h.same rfl rfl)
    fun config _ => ?_)
  refine Ensures.bind (Ensures.bind (ensures_act (h.same rfl rfl) fun t ht => ?_))
  cases ht
  refine ensures_act (h.same rfl rfl) fun t ht => ?_
  obtain ⟨configured, -, rfl⟩ := Option.map_eq_some_iff.mp ht
  refine Ensures.bind (Ensures.bind (ensures_act (h.same rfl rfl) fun t ht => ?_))
  cases ht
  refine ensures_act (h.same rfl rfl) fun t ht => ?_
  obtain ⟨made, -, rfl⟩ := Option.map_eq_some_iff.mp ht
  have hpatched : Release.Patched x ⟨kernel, modules, made⟩ := ⟨hp.kernel, hp.modules⟩
  have hinv : Inv x { s with
      kernel := kernel, modules := modules, output := made,
      releases := ⟨kernel, modules, made⟩ :: s.releases } := by
    refine ⟨fun content hcontent => ?_, fun b hb => ?_⟩
    · obtain ⟨b, hb, hfull⟩ := h.sealed content hcontent
      exact ⟨b, List.mem_cons_of_mem _ hb, hfull⟩
    · rcases List.mem_cons.mp hb with rfl | hb
      · exact hpatched
      · exact h.patched b hb
  have hbuilding : Building x ⟨kernel, modules, made⟩ s.releases [] _ :=
    ⟨hinv, rfl, rfl, fun name hname => absurd hname List.not_mem_nil⟩
  exact hbuilding.ensures_copyArtifacts.mono (fun _ t ht => ⟨ht.1, _, hpatched, ht.2⟩) fun _ => id

/-! ## a run that nothing disturbs -/

section goes
variable {read : Work → Option Bytes} {put : Bytes → Work → Work}

theorem goes_copyFile (hput : ∀ c c' s, put c (put c' s) = put c s) (hread : read s = some content) :
    Goes (copyFile e read put) s () (put content s) := by
  have hwrite := goes_forEach (e := e) (fun k => put (content.take k)) (List.range (content.length + 1)) s
  rw [foldl_put hput, List.take_length] at hwrite
  refine Goes.bind (goes_command ?_) hwrite
  rw [hread]
  rfl

theorem goes_redirect (hput : ∀ c c' s, put c (put c' s) = put c s)
    (hread : read (put [] s) = some content) : Goes (redirect e read put) s () (put content s) := by
  have hcopy := goes_copyFile (e := e) hput hread
  rw [hput] at hcopy
  exact Goes.bind (goes_act rfl) (f := fun _ => copyFile e read put) hcopy

theorem exists_goes_copyArtifacts {image map config : Bytes} (himage : s.output bootImage = some image)
    (hmap : s.output "System.map" = some map) (hconfig : s.output ".config" = some config) :
    ∃ t, Goes (copyArtifacts x) s () t := by
  let s₁ := s.putArtifact "Image" image
  let s₂ := s₁.putArtifact "Image.gz" (x.gzip image)
  let s₃ := s₂.putArtifact "System.map" map
  let s₄ := s₃.putArtifact "kernel.config" config
  have hgzip : (s.output bootImage).map x.gzip = some (x.gzip image) := by
    rw [himage]
    rfl
  have hall : ∀ name ∈ artifactNames, ∃ c, (s₄.putArtifact sumsName []).artifacts name = some c := by
    refine List.forall_mem_cons.mpr ⟨⟨image, ?_⟩, List.forall_mem_cons.mpr ⟨⟨x.gzip image, ?_⟩,
      List.forall_mem_cons.mpr ⟨⟨map, ?_⟩, List.forall_mem_singleton.mpr ⟨config, ?_⟩⟩⟩⟩
    all_goals simp [s₁, s₂, s₃, s₄, putArtifact_self, putArtifact_other, sumsName]
  obtain ⟨l, hl⟩ : ∃ l, Sums.entriesOf x.hash (s₄.putArtifact sumsName []).artifacts artifactNames = some l :=
    Sums.exists_entriesOf hall
  have hsums : sumsOf x (s₄.putArtifact sumsName []).artifacts
      = some (Text.asciiBytes (String.ofList (Sums.text l))) := by
    rw [sumsOf, Sums.sha256sum, hl]
    rfl
  refine ⟨s₄.putArtifact sumsName (Text.asciiBytes (String.ofList (Sums.text l))), ?_⟩
  refine Goes.bind (r := s₁) (goes_copyFile (putArtifact_putArtifact _) himage) ?_
  refine Goes.bind (r := s₂) (goes_redirect (putArtifact_putArtifact _) hgzip) ?_
  refine Goes.bind (r := s₃) (goes_copyFile (putArtifact_putArtifact _) hmap) ?_
  refine Goes.bind (r := s₄) (goes_copyFile (putArtifact_putArtifact _) hconfig) ?_
  exact Goes.bind (goes_redirect (putArtifact_putArtifact _) hsums) (goes_act rfl)

/-- Sources that are prepared, to which the patches apply, are built if `make` makes its files. -/
theorem exists_done_buildKernel {i : ι} {n : Nat} {config : Bytes} (hprepared : s.kernel.prepared = true)
    (hclang : s.clang = true) (hconfig : s.sourceConfig = some config)
    (hpatches : ∃ k r, applyKernelPatches x (fun _ => false) n s = .done () k r)
    (hmake : ∀ r, r.output ".config" = some config → ∃ u t, Goes (makeConfig (x.olddefconfig i)) r () u ∧
      Goes (makeImage (x.image i)) u () t ∧ ∃ image map made, t.output bootImage = some image ∧
        t.output "System.map" = some map ∧ t.output ".config" = some made) :
    ∃ k t, buildKernel x i (fun _ => false) n s = .done () k t := by
  obtain ⟨m, r, hr⟩ := hpatches
  have hkept : r.sourceConfig = some config := by
    have hensures : Ensures (applyKernelPatches x) s (fun _ t => t.sourceConfig = s.sourceConfig) fun _ => True :=
      ensures_applyKernelPatches (fun _ _ => trivial) fun _ _ _ _ => rfl
    exact (hensures.ends () r ⟨_, n, m, hr⟩).trans hconfig
  obtain ⟨u, t, hconfigured, hmade, image, map, made, himage, hmap, hmadeConfig⟩ :=
    hmake (r.putOutput ".config" config) (putOutput_self _ _ _)
  obtain ⟨last, hlast⟩ := exists_goes_copyArtifacts (x := x) himage hmap hmadeConfig
  have hcopy : Goes (copyFile (.cp ".config") Work.sourceConfig (Work.putOutput ".config")) r ()
      (r.putOutput ".config" config) := goes_copyFile (putOutput_putOutput _) hkept
  have hrest : Goes (do
      act .mkdir fun s => some s
      copyFile (.cp ".config") Work.sourceConfig (Work.putOutput ".config")
      makeConfig (x.olddefconfig i)
      makeImage (x.image i)
      copyArtifacts x) r () last := by
    refine Goes.bind (goes_act rfl) ?_
    exact Goes.bind hcopy (Goes.bind hconfigured (Goes.bind hmade hlast))
  obtain ⟨k, hdone⟩ := hrest m
  refine ⟨k, last, ?_⟩
  refine bind_eq_done.mpr ⟨(), n, s, ifThen_of_false (by rw [hprepared]; rfl) _ n, ?_⟩
  refine bind_eq_done.mpr ⟨(), n, s, ifThen_of_false (by rw [hclang]; rfl) _ n, ?_⟩
  refine bind_eq_done.mpr ⟨(), n, s, ifThen_of_false (by rw [hconfig]; rfl) _ n, ?_⟩
  exact bind_eq_done.mpr ⟨(), m, r, hr, hdone⟩

end goes

/-! ## sequences of runs -/

/-- What runs leave; between them anything happens, but nobody else writes the list of checksums. -/
inductive Reached (x : Setup P ι) (s₀ : Work) : Work → Prop
  | start : Reached x s₀ s₀
  | elsewhere {s t : Work} (before : Reached x s₀ s)
      (sums : t.artifacts sumsName = s.artifacts sumsName) (releases : t.releases = s.releases) :
      Reached x s₀ t
  | run {s : Work} (before : Reached x s₀ s) (i : ι) (fails : Nat → Bool) :
      Reached x s₀ (buildKernel x i fails 0 s).state

theorem reached_inv {s₀ : Work} (h₀ : Inv x s₀) (h : Reached x s₀ s) : Inv x s := by
  induction h with
  | start => exact h₀
  | elsewhere before sums releases ih => exact ih.same sums releases
  | run before i fails ih =>
    exact ((ensures_buildKernel ih i).mono (fun _ _ ht => ht.1) fun _ => id).state fails 0

/-- **The artifacts of one build.** Whatever runs were killed wherever, and whatever has happened to
the sources, the configuration, the output and the artifacts between them: artifacts that are verified
have the digests of what one completed build has made, from sources with every patch. A run that ends
well leaves its own artifacts, and they are verified. -/
theorem artifacts_of_one_build (x : Setup P ι) (s₀ : Work) (hsums : s₀.artifacts sumsName = none)
    (hreleases : s₀.releases = []) :
    (∀ s, Reached x s₀ s → Verified x s → ∃ b ∈ s.releases, b.Patched x ∧
      ∀ name ∈ artifactNames, ∃ content product, s.artifacts name = some content ∧
        b.product x name = some product ∧ x.hash content = x.hash product) ∧
    ∀ s, Reached x s₀ s → ∀ i t, Yields (buildKernel x i) s () t →
      Verified x t ∧ ∃ b, t.releases = b :: s.releases ∧ b.Patched x ∧
        ∀ name ∈ artifactNames, t.artifacts name = b.product x name ∧
          (b.product x name).isSome = true := by
  have h₀ : Inv x s₀ := by
    refine ⟨fun content hcontent => ?_, fun b hb => ?_⟩
    · rw [hsums] at hcontent
      cases hcontent
    · rw [hreleases] at hb
      cases hb
  refine ⟨fun s hs hv => product_of_verified (reached_inv h₀ hs) hv, fun s hs i t ht => ?_⟩
  obtain ⟨-, b, hpatched, hfinished⟩ := (ensures_buildKernel (reached_inv h₀ hs) i).ends () t ht
  exact ⟨hfinished.verified, b, hfinished.made, hpatched, hfinished.artifacts⟩

/-! ## a build that was started twice -/

def sampleImage : Make where
  debris s := Function.update s.output bootImage (some [])
  result s := some (Function.update (Function.update s.output bootImage (some [0x4D, 0x5A]))
    "System.map" (some [0x0A]))

/-- the series of this repository -/
def sampleSetup : Setup Patch Unit where
  git := firstGit.calls
  kernelSeries := ⟨some kernelSeries, kernelSeries_apart.imp keptBy_of_file⟩
  modulesSeries := ⟨some modulesSeries, List.pairwise_pair.mpr siaAuxInit_keeps⟩
  hash := Sha256.sha256
  gzip content := 0x1F :: 0x8B :: content
  olddefconfig _ := ⟨Work.output, fun s => some s.output⟩
  image _ := sampleImage

def sampleSource (patches : List Patch) : Source where
  prepared := true
  files name := (patches.filter fun p => p.file = name).head?.map fun _ =>
    (patches.filter fun p => p.file = name).flatMap Patch.old

def sampleWork : Work where
  kernel := sampleSource kernelSeries
  modules := sampleSource modulesSeries
  clang := true
  sourceConfig := some (Text.asciiBytes "CONFIG_ARM64=y\n")
  output _ := none
  artifacts _ := none
  releases := []

/-- the first run is killed when it has written one byte of the image -/
def killedBuild : Ending Work Failure Unit :=
  buildKernel sampleSetup () (fun n => n = 32) 0 sampleWork

def sampleBuild : Ending Work Failure Unit :=
  buildKernel sampleSetup () (fun _ => false) 0 killedBuild.state

/-- `make` goes through -/
theorem sample_makes {config : Bytes} (r : Work) (h : r.output ".config" = some config) :
    ∃ u t, Goes (makeConfig (sampleSetup.olddefconfig ())) r () u ∧
      Goes (makeImage (sampleSetup.image ())) u () t ∧ ∃ image map made, t.output bootImage = some image ∧
        t.output "System.map" = some map ∧ t.output ".config" = some made := by
  let made : Files := Function.update (Function.update (Function.update r.output bootImage (some []))
    bootImage (some [0x4D, 0x5A])) "System.map" (some [0x0A])
  refine ⟨r, { r with output := made, releases := ⟨r.kernel, r.modules, made⟩ :: r.releases },
    Goes.bind (goes_act rfl) (goes_act rfl), Goes.bind (goes_act rfl) (goes_act rfl),
    [0x4D, 0x5A], [0x0A], config, ?_, ?_, ?_⟩
  · simp [made, bootImage]
  · simp [made]
  · simp [made, bootImage, h]

theorem artifacts_of_one_build_sample : killedBuild.failure = some (.cp "Image") ∧
    Verified sampleSetup sampleBuild.state ∧
    ∃ b, sampleBuild.state.releases = b :: killedBuild.state.releases ∧ b.Patched sampleSetup ∧
      sampleBuild.state.artifacts "Image" = b.product sampleSetup "Image" := by
  have hruns : killedBuild.failure = some (.cp "Image") ∧
      killedBuild.state.kernel.prepared = true ∧ killedBuild.state.clang = true ∧
      killedBuild.state.sourceConfig = sampleWork.sourceConfig ∧
      (applyKernelPatches sampleSetup (fun _ => false) 0 killedBuild.state).failure = none := by
    decide +kernel
  obtain ⟨hfailure, hprepared, hclang, hconfig, hpatched⟩ := hruns
  obtain ⟨_, m, hpatches⟩ := Ending.exists_done hpatched
  obtain ⟨k, t, hdone⟩ := exists_done_buildKernel hprepared hclang hconfig ⟨m, _, hpatches⟩ sample_makes
  have hstate : sampleBuild.state = t := congrArg Ending.state hdone
  have hkilled : Reached sampleSetup sampleWork killedBuild.state := .run .start () _
  obtain ⟨hverified, b, hmade, hpatched, hartifacts⟩ :=
    (artifacts_of_one_build sampleSetup sampleWork rfl rfl).2 _ hkilled () t ⟨_, 0, k, hdone⟩
  rw [hstate]
  exact ⟨hfailure, hverified, b, hmade, hpatched, (hartifacts "Image" (by decide)).1⟩

end RT7.Kernel.Build
