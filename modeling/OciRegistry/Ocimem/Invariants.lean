import OciRegistry.Ocimem.Content

/-!
# The in-memory registry: invariants of every run

What holds of the content of every registry a run reaches. Each invariant is a property of one
repository that reads only its tags, manifests and blobs (`ReadsContent`); it holds of the
empty repository and survives the two stores `Registry.step_content` names, a blob and a
manifest with its tags. `Registry.step_forall` turns that into the step lemma once for all of
them, and the run lemma is an induction over `Reachable`.

* Content addressing: a manifest is stored under a valid digest its bytes verify against, a
  blob under the canonical digest of its bytes (`stored_objects_content_addressed`).
* Child references: without lax child references every stored manifest has the blobs and
  manifests it refers to in its repository (`stored_manifest_references_present`).
* Tags: given digests that do not collide, a tag holds the digest and the size of a stored
  manifest (`tagged_manifest_stored`). Its media type may be another's: an untagged push of
  the same bytes under another media type replaces the manifest and keeps the tags
  (`tagged_manifest_media_type_diverges`).
* Immutable tags are write-once over every run (`Registry.run_tags_of_immutable`); yet a push
  that names a tag already holding its content returns at that tag, and the tags after it in
  the list are never looked at (`immutable_push_skips_later_tags`).
-/

namespace OciRegistry.Ocimem

open PushManifestParameters

variable (lib : Lib)

/-! ## Invariants of the repositories' content -/

/-- A property of repositories that reads only their tags, manifests and blobs. -/
def ReadsContent (P : Repository → Prop) : Prop :=
  ∀ a b : Repository, a.tags = b.tags → a.manifests = b.manifests → a.blobs = b.blobs → P a → P b

lemma Registry.forall_getRepo_setRepo {P : Repository → Prop} {r : Registry} {n : String}
    {repo : Repository} (h : ∀ m, P (r.getRepo m)) (hn : P repo) (m : String) :
    P ((r.setRepo n repo).getRepo m) := by
  rw [getRepo_setRepo]
  split_ifs
  exacts [hn, h m]

/-- A property of every repository that reads only content survives a call once it survives
each store of `Registry.step_content`. -/
lemma Registry.step_forall {P : Repository → Prop} (hP : ReadsContent P) {r : Registry}
    (h : ∀ n, P (r.getRepo n))
    (hblob : ∀ n d b, (lib.fromBytes b.data = d ∨ ∃ m, (r.getRepo m).blobs d = some b) →
      P ((r.getRepo n).setBlob d b))
    (hman : ∀ n dig mt data info tags, lib.validate dig = .ok () → lib.verified dig data = true →
      lib.getManifestInfo mt data = .ok info →
      (r.cfg.laxChildReferences = false → RefsIn (r.getRepo n) info) →
      (r.cfg.immutableTags = true → ∀ t ∈ tags, (r.getRepo n).tags t = none) →
      P (((r.getRepo n).setManifest dig { mediaType := mt, data, info }).setTags tags
        (pushedDesc dig mt data)))
    (op : Op) (n : String) : P ((r.step lib op).getRepo n) := by
  have transfer : ∀ {r₀ : Registry}, (∀ m, P (r₀.getRepo m)) → SameContent r₀ (r.step lib op) →
      P ((r.step lib op).getRepo n) := fun h₀ hs =>
    hP _ _ (hs n).1.symm (hs n).2.1.symm (hs n).2.2.symm (h₀ n)
  rcases r.step_content lib op with hs | ⟨m, d, b, hb, hs⟩ |
    ⟨m, dig, mt, data, info, tags, hval, hver, hinfo, hrefs, hfree, hs⟩
  · exact transfer h hs
  · exact transfer (Registry.forall_getRepo_setRepo h (hblob m d b hb)) hs
  · exact transfer (Registry.forall_getRepo_setRepo h (hman m dig mt data info tags hval hver hinfo
      hrefs hfree)) hs

/-! ## Content addressing -/

/-- Every object of a repository is stored under a digest of its bytes: a manifest under a
valid digest its bytes verify against, a blob under the canonical digest of its bytes. -/
structure Repository.ContentAddressed (repo : Repository) : Prop where
  manifests : ∀ d b, repo.manifests d = some b → lib.validate d = .ok () ∧ lib.verified d b.data = true
  blobs : ∀ d b, repo.blobs d = some b → lib.fromBytes b.data = d

lemma Repository.ContentAddressed.readsContent : ReadsContent (Repository.ContentAddressed lib) :=
  fun _ _ _ hm hb h => ⟨fun d b hd => h.manifests d b (hm ▸ hd), fun d b hd => h.blobs d b (hb ▸ hd)⟩

lemma Repository.ContentAddressed.setBlob {repo : Repository} (h : repo.ContentAddressed lib)
    {d : Digest} {b : Blob} (hb : lib.fromBytes b.data = d) : (repo.setBlob d b).ContentAddressed lib where
  manifests := h.manifests
  blobs d' b' hd := by
    rw [setBlob_blobs] at hd
    split_ifs at hd with he
    · cases hd
      exact hb.trans he.symm
    · exact h.blobs d' b' hd

lemma Repository.ContentAddressed.store {repo : Repository} (h : repo.ContentAddressed lib)
    {dig : Digest} {mt : String} {data : Bytes} {info : ManifestInfo} (tags : List String)
    (desc : Descriptor) (hval : lib.validate dig = .ok ()) (hver : lib.verified dig data = true) :
    ((repo.setManifest dig { mediaType := mt, data, info }).setTags tags desc).ContentAddressed lib where
  manifests d b hd := by
    rw [setManifest_setTags_manifests] at hd
    split_ifs at hd with he
    · cases hd
      exact he ▸ ⟨hval, hver⟩
    · exact h.manifests d b hd
  blobs d b hd := h.blobs d b (by simpa using hd)

/-- Every repository of a reachable registry is content-addressed. -/
lemma Reachable.contentAddressed {r : Registry} (hr : Reachable lib r) (n : String) :
    (r.getRepo n).ContentAddressed lib := by
  induction hr generalizing n with
  | new cfg => exact ⟨fun _ _ h => Option.noConfusion h, fun _ _ h => Option.noConfusion h⟩
  | step op _ ih =>
    refine Registry.step_forall lib (Repository.ContentAddressed.readsContent lib) ih
      (fun m d b hb => (ih m).setBlob lib ?_) (fun m _ _ _ _ tags hval hver _ _ _ =>
        (ih m).store lib tags _ hval hver) op n
    rcases hb with hb | ⟨m', hb⟩
    exacts [hb, (ih m').blobs d b hb]

/-- In every reachable registry a manifest is stored under a valid digest its bytes verify
against, and a blob under the canonical digest of its bytes. -/
theorem stored_objects_content_addressed {r : Registry} (hr : Reachable lib r) (n : String)
    (d : Digest) (b : Blob) :
    ((r.getRepo n).manifests d = some b → lib.validate d = .ok () ∧ lib.verified d b.data = true) ∧
    ((r.getRepo n).blobs d = some b → lib.fromBytes b.data = d) :=
  ⟨(hr.contentAddressed lib n).manifests d b, (hr.contentAddressed lib n).blobs d b⟩

/-- A manifest format with references, to run the invariants on: a manifest lists the blob of
its first byte and, when more bytes follow, the manifest of those bytes under its own media
type. -/
def linkedRefs (mt : String) : Bytes → List DescInfo
  | [] => []
  | x :: rest =>
    { name := "config", kind := .blob,
      desc := { mediaType := "blob", digest := Lib.reference.fromBytes [x] } } ::
      if rest = [] then []
      else [{ name := "parent", kind := .manifest,
              desc := { mediaType := mt, digest := Lib.reference.fromBytes rest } }]

/-- `Lib.reference` with manifests in the format of `linkedRefs`. -/
def Lib.linked : Lib :=
  { Lib.reference with getManifestInfo := fun mt data => .ok { descriptors := linkedRefs mt data } }

/-- The blobs `[7]` and `[8]` pushed, then the manifest `[7]` and the manifest `[8, 7]`, which
refers to the blob `[8]` and to the manifest `[7]`. -/
def linkedPushes : Registry :=
  (Registry.new {}).run Lib.linked
    [.pushBlob "repo" { mediaType := "blob", digest := Lib.reference.fromBytes [7], size := 1 } (.ok [7]),
     .pushBlob "repo" { mediaType := "blob", digest := Lib.reference.fromBytes [8], size := 1 } (.ok [8]),
     .pushManifest "repo" [7] "m" none, .pushManifest "repo" [8, 7] "m" none]

theorem linkedPushes_content_addressed :
    ((linkedPushes.getRepo "repo").manifests (Lib.reference.fromBytes [8, 7]) =
        some { mediaType := "m", data := [8, 7], info := { descriptors := linkedRefs "m" [8, 7] } } ∧
      Lib.linked.validate (Lib.reference.fromBytes [8, 7]) = .ok () ∧
      Lib.linked.verified (Lib.reference.fromBytes [8, 7]) [8, 7] = true) ∧
    ((linkedPushes.getRepo "repo").blobs (Lib.reference.fromBytes [8]) =
        some { mediaType := "blob", data := [8] } ∧
      Lib.linked.fromBytes [8] = Lib.reference.fromBytes [8]) := by
  have hm : (linkedPushes.getRepo "repo").manifests (Lib.reference.fromBytes [8, 7]) =
      some { mediaType := "m", data := [8, 7], info := { descriptors := linkedRefs "m" [8, 7] } } := by
    decide
  have hb : (linkedPushes.getRepo "repo").blobs (Lib.reference.fromBytes [8]) =
      some { mediaType := "blob", data := [8] } := by decide
  exact ⟨⟨hm, (stored_objects_content_addressed Lib.linked ((Reachable.new _).run _ _) _ _ _).1 hm⟩,
    hb, (stored_objects_content_addressed Lib.linked ((Reachable.new _).run _ _) _ _ _).2 hb⟩

/-! ## Child references -/

lemma RefsIn.mono {a b : Repository} {info : ManifestInfo} (h : RefsIn a info)
    (hb : ∀ d, (a.blobs d).isSome → (b.blobs d).isSome)
    (hm : ∀ d, (a.manifests d).isSome → (b.manifests d).isSome) : RefsIn b info :=
  fun i hi => ⟨fun hk => hb _ ((h i hi).1 hk), fun hk => hm _ ((h i hi).2 hk)⟩

/-- Every manifest of a repository carries what `getManifestInfo` extracts from its bytes and,
unless child references are lax, has what it refers to in the repository. -/
def Repository.RefsPresent (lax : Bool) (repo : Repository) : Prop :=
  ∀ d b, repo.manifests d = some b →
    lib.getManifestInfo b.mediaType b.data = .ok b.info ∧ (lax = false → RefsIn repo b.info)

lemma Repository.RefsPresent.readsContent (lax : Bool) :
    ReadsContent (Repository.RefsPresent lib lax) := fun a b _ hm hb h d x hd => by
  obtain ⟨hi, hr⟩ := h d x (hm ▸ hd)
  exact ⟨hi, fun hl => (hr hl).mono (fun _ => by rw [hb]; exact id) (fun _ => by rw [hm]; exact id)⟩

lemma Repository.RefsPresent.setBlob {lax : Bool} {repo : Repository}
    (h : repo.RefsPresent lib lax) (d : Digest) (b : Blob) : (repo.setBlob d b).RefsPresent lib lax :=
  fun d' b' hd => by
    obtain ⟨hi, hr⟩ := h d' b' hd
    refine ⟨hi, fun hl => (hr hl).mono (fun e he => ?_) (fun _ => id)⟩
    rw [setBlob_blobs]
    split_ifs <;> simp [he]

lemma Repository.RefsPresent.store {lax : Bool} {repo : Repository} (h : repo.RefsPresent lib lax)
    {dig : Digest} {mt : String} {data : Bytes} {info : ManifestInfo} (tags : List String)
    (desc : Descriptor) (hinfo : lib.getManifestInfo mt data = .ok info)
    (hrefs : lax = false → RefsIn repo info) :
    ((repo.setManifest dig { mediaType := mt, data, info }).setTags tags desc).RefsPresent lib lax := by
  have grow : ∀ i, RefsIn repo i →
      RefsIn ((repo.setManifest dig { mediaType := mt, data, info }).setTags tags desc) i :=
    fun i hi => hi.mono (fun _ => by simp) (fun e he => by
      rw [setManifest_setTags_manifests]
      split_ifs <;> simp [he])
  intro d b hd
  rw [setManifest_setTags_manifests] at hd
  split_ifs at hd
  · cases hd
    exact ⟨hinfo, fun hl => grow _ (hrefs hl)⟩
  · obtain ⟨hi, hr⟩ := h d b hd
    exact ⟨hi, fun hl => grow _ (hr hl)⟩

/-- Every repository of a reachable registry has its manifests' references, as its configuration
asks. -/
lemma Reachable.refsPresent {r : Registry} (hr : Reachable lib r) (n : String) :
    (r.getRepo n).RefsPresent lib r.cfg.laxChildReferences := by
  induction hr generalizing n with
  | new cfg => exact fun _ _ h => Option.noConfusion h
  | step op _ ih =>
    rw [Registry.step_cfg]
    exact Registry.step_forall lib (Repository.RefsPresent.readsContent lib _) ih
      (fun m d b _ => (ih m).setBlob lib d b)
      (fun m _ _ _ _ tags _ _ hinfo hrefs _ => (ih m).store lib tags _ hinfo hrefs) op n

/-- Without lax child references, every manifest of a reachable registry holds what
`getManifestInfo` extracted from it when it was stored, and each blob and manifest it refers to
is in its repository. -/
theorem stored_manifest_references_present {r : Registry} (hr : Reachable lib r)
    (hlax : r.cfg.laxChildReferences = false) {n : String} {d : Digest} {b : Blob}
    (hb : (r.getRepo n).manifests d = some b) :
    lib.getManifestInfo b.mediaType b.data = .ok b.info ∧ RefsIn (r.getRepo n) b.info :=
  let h := hr.refsPresent lib n d b hb
  ⟨h.1, h.2 hlax⟩

theorem linkedPushes_references_present :
    (linkedRefs "m" [8, 7]).map DescInfo.kind = [.blob, .manifest] ∧
    Lib.linked.getManifestInfo "m" [8, 7] = .ok { descriptors := linkedRefs "m" [8, 7] } ∧
      RefsIn (linkedPushes.getRepo "repo") { descriptors := linkedRefs "m" [8, 7] } :=
  ⟨by decide, stored_manifest_references_present Lib.linked (r := linkedPushes) (n := "repo")
    (d := Lib.reference.fromBytes [8, 7])
    (b := { mediaType := "m", data := [8, 7], info := { descriptors := linkedRefs "m" [8, 7] } })
    ((Reachable.new _).run _ _) (by simp [linkedPushes]) (by decide)⟩

/-! ## Tags -/

/-- A manifest pushed with tag `t` under media type `a`, then pushed again, untagged, under `b`. -/
def repushed : Registry :=
  (Registry.new {}).run Lib.reference
    [.pushManifest "repo" [1] "a" (some { tags := ["t"] }), .pushManifest "repo" [1] "b" none]

/-- Every tag of a repository holds the digest and the size of a manifest stored there. -/
def Repository.TagsStored (repo : Repository) : Prop :=
  ∀ t D, repo.tags t = some D → ∃ b, repo.manifests D.digest = some b ∧ b.data.length = D.size

lemma Repository.TagsStored.readsContent : ReadsContent Repository.TagsStored :=
  fun _ _ ht hm _ h t D hD => hm ▸ h t D (ht ▸ hD)

/-- Storing a manifest keeps every tag on a stored manifest of its size: a tag of the push holds
the new manifest, and one that held the same digest holds the same bytes, as no two byte
strings verify against one digest. -/
lemma Repository.TagsStored.store {repo : Repository} (h : repo.TagsStored)
    (hca : repo.ContentAddressed lib) (hcf : lib.CollisionFree) {dig : Digest} {mt : String}
    {data : Bytes} {info : ManifestInfo} (tags : List String) (hver : lib.verified dig data = true) :
    ((repo.setManifest dig { mediaType := mt, data, info }).setTags tags
      (pushedDesc dig mt data)).TagsStored := by
  intro t D hD
  rw [setManifest_setTags_tags] at hD
  split_ifs at hD
  · cases hD
    exact ⟨{ mediaType := mt, data, info }, by simp, by simp⟩
  · obtain ⟨b, hb, hlen⟩ := h t D hD
    rw [setManifest_setTags_manifests]
    split_ifs with he
    · have hsame : data = b.data := hcf dig _ _ hver (he ▸ (hca.manifests _ _ hb).2)
      exact ⟨_, rfl, hsame ▸ hlen⟩
    · exact ⟨b, hb, hlen⟩

/-- In a reachable registry whose digests do not collide, every tag is on a stored manifest of
its size. -/
lemma Reachable.tagsStored {r : Registry} (hr : Reachable lib r) (hcf : lib.CollisionFree)
    (n : String) : (r.getRepo n).TagsStored := by
  induction hr generalizing n with
  | new cfg => exact fun _ _ h => Option.noConfusion h
  | step op hr ih =>
    exact Registry.step_forall lib Repository.TagsStored.readsContent ih
      (fun m _ _ _ t D hD => by simpa using ih m t D hD)
      (fun m _ _ _ _ tags _ hver _ _ _ => (ih m).store lib (hr.contentAddressed lib m) hcf tags hver)
      op n

/-- Given digests that do not collide, in every reachable registry the digest a tag holds is the
key of a stored manifest, whose bytes verify against it and are as many as the tag's size. -/
theorem tagged_manifest_stored {r : Registry} (hr : Reachable lib r) (hcf : lib.CollisionFree)
    {n t : String} {D : Descriptor} (ht : (r.getRepo n).tags t = some D) :
    ∃ b, (r.getRepo n).manifests D.digest = some b ∧ b.data.length = D.size ∧
      lib.verified D.digest b.data = true := by
  obtain ⟨b, hb, hlen⟩ := hr.tagsStored lib hcf n t D ht
  exact ⟨b, hb, hlen, ((hr.contentAddressed lib n).manifests _ _ hb).2⟩

theorem repushed_tag_stored :
    ∃ b, (repushed.getRepo "repo").manifests (Lib.reference.fromBytes [1]) = some b ∧
      (b.data.length : Int) = 1 ∧ Lib.reference.verified (Lib.reference.fromBytes [1]) b.data = true :=
  tagged_manifest_stored Lib.reference (r := repushed) (n := "repo") (t := "t")
    (D := pushedDesc (Lib.reference.fromBytes [1]) "a" [1])
    ((Reachable.new _).run _ _) Lib.reference_collisionFree (by decide)

/-- The descriptor a tag holds need not be the stored manifest's, even with digests that do not
collide: after `repushed` the tag holds media type `a` and the manifest `b`. -/
theorem tagged_manifest_media_type_diverges :
    Lib.reference.CollisionFree ∧
    ¬ ∀ r, Reachable Lib.reference r → ∀ n t D, (r.getRepo n).tags t = some D →
      ∃ b, (r.getRepo n).manifests D.digest = some b ∧ b.mediaType = D.mediaType ∧
        b.data.length = D.size := by
  refine ⟨Lib.reference_collisionFree, fun h => ?_⟩
  obtain ⟨b, hb, hmt, -⟩ := h repushed ((Reachable.new _).run _ _) "repo" "t"
    (pushedDesc (Lib.reference.fromBytes [1]) "a" [1]) (by decide)
  have hm : (repushed.getRepo "repo").manifests (Lib.reference.fromBytes [1]) =
      some { mediaType := "b", data := [1] } := by decide
  rw [pushedDesc_digest, hm] at hb
  cases hb
  exact absurd hmt (by decide)

/-! ## Immutable tags -/

/-- With immutable tags no call changes a tag that is set. -/
lemma Registry.step_tags_of_immutable {r : Registry} (himm : r.cfg.immutableTags = true) (op : Op)
    {n t : String} {D : Descriptor} (h : (r.getRepo n).tags t = some D) :
    ((r.step lib op).getRepo n).tags t = some D := by
  rcases r.step_content lib op with hs | ⟨m, d, b, -, hs⟩ |
    ⟨m, dig, mt, data, info, tags, -, -, -, -, hfree, hs⟩
  · rw [(hs n).1, h]
  · rw [(hs n).1, getRepo_setRepo]
    split_ifs with hm
    · subst hm
      simpa using h
    · exact h
  · rw [(hs n).1, getRepo_setRepo]
    split_ifs with hm
    · subst hm
      have ht : t ∉ tags := fun ht => by simp [hfree himm t ht] at h
      simpa [ht] using h
    · exact h

/-- With immutable tags a tag, once set, keeps its descriptor over every run. -/
lemma Registry.run_tags_of_immutable {r : Registry} (himm : r.cfg.immutableTags = true)
    (ops : List Op) {n t : String} {D : Descriptor} (h : (r.getRepo n).tags t = some D) :
    ((r.run lib ops).getRepo n).tags t = some D := by
  induction ops generalizing r with
  | nil => exact h
  | cons op ops ih =>
    exact ih (by rwa [Registry.step_cfg]) (r.step_tags_of_immutable lib himm op h)

/-- An immutable registry where tag `t2` holds the manifest `[2]` and tag `t1` the manifest
`[1]`, both of media type `m`. -/
def twoTags : Registry :=
  (Registry.new { immutableTags := true }).run Lib.reference
    [.pushManifest "repo" [2] "m" (some { tags := ["t2"] }),
     .pushManifest "repo" [1] "m" (some { tags := ["t1"] })]

/-- A push of `[1]` naming `t1` and then `t2` succeeds although `t2` holds another digest: the
tag loop returns at `t1`. -/
theorem immutable_push_skips_later_tags :
    (twoTags.getRepo "repo").tags "t2" = some (pushedDesc (Lib.reference.fromBytes [2]) "m" [2]) ∧
    Lib.reference.fromBytes [2] ≠ Lib.reference.fromBytes [1] ∧
    (twoTags.pushManifest Lib.reference "repo" [1] "m" (some { tags := ["t1", "t2"] })).1 =
      .ok (pushedDesc (Lib.reference.fromBytes [1]) "m" [1]) :=
  ⟨by decide, by decide, rfl⟩

/-- Two later pushes that name `t2`, of another manifest and of `[2]` under another media type,
leave `t2` as it was. -/
theorem twoTags_t2_kept :
    ((twoTags.run Lib.reference
      [.pushManifest "repo" [1] "m" (some { tags := ["t2"] }),
       .pushManifest "repo" [2] "n" (some { tags := ["t2"] })]).getRepo "repo").tags "t2" =
      some (pushedDesc (Lib.reference.fromBytes [2]) "m" [2]) :=
  Registry.run_tags_of_immutable Lib.reference rfl _ (by decide)

end OciRegistry.Ocimem
