import OciRegistry.Ocimem.Registry

/-!
# The in-memory registry: blob and manifest writes

Model of `writer.go` of package `ocimem`: `PushBlob`, `MountBlob`, `PushManifest` and
`checkManifestReferences`. Each method runs under the registry mutex and is one function from
the registry to its Go result pair and the registry after the call. `PushManifest` is cut along
its blocks: `manifestDigest` (the digest), `tagLoop` (the tag loop with its early returns),
`checkPushedDescriptor` (the descriptor check) and `checkManifestReferences` (the references);
the `for` loops are structural recursions over their lists.

Each method has one inversion lemma (`*_spec`) that says everything a call can do; every later
proof about the writers starts from it and never unfolds the method again.
-/

namespace OciRegistry.Ocimem

open PushManifestParameters

variable (lib : Lib)

/-- A repository with a blob stored under a digest (Go `repo.blobs[dig] = b`). -/
def Repository.setBlob (repo : Repository) (dig : Digest) (b : Blob) : Repository :=
  { repo with blobs := Function.update repo.blobs dig b }

/-- A repository with a manifest stored under a digest (Go `repo.manifests[dig] = b`). -/
def Repository.setManifest (repo : Repository) (dig : Digest) (b : Blob) : Repository :=
  { repo with manifests := Function.update repo.manifests dig b }

/-- A repository with a tag set (Go `repo.tags[tag] = desc`). -/
def Repository.setTag (repo : Repository) (tag : String) (desc : Descriptor) : Repository :=
  { repo with tags := Function.update repo.tags tag desc }

/-- The tag writes that end `PushManifest` (Go `for _, tag := range tags { repo.tags[tag] = desc }`). -/
def Repository.setTags (repo : Repository) (tags : List String) (desc : Descriptor) : Repository :=
  tags.foldl (fun repo tag => repo.setTag tag desc) repo

/-- `Registry.PushBlob`: reads the content, checks it against the descriptor, stores it under
the descriptor's digest. -/
def Registry.pushBlob (r : Registry) (repoName : String) (desc : Descriptor)
    (content : Except String Bytes) : Except Error Descriptor × Registry :=
  match content with
  | .error e => (.error (.text ("cannot read content: " ++ e)), r)
  | .ok data =>
    match checkDescriptor lib desc (some data) with
    | .error e => (.error (.format "invalid descriptor: " e ""), r)
    | .ok () =>
      match r.makeRepo repoName with
      | .error e => (.error e, r)
      | .ok (repo, r) =>
        let b : Blob := { mediaType := desc.mediaType, data }
        (.ok desc, r.setRepo repoName (repo.setBlob desc.digest b))

/-- `Registry.MountBlob`: makes the blob of `fromRepo` at a digest the blob of `toRepo` there. -/
def Registry.mountBlob (r : Registry) (fromRepo toRepo : String) (dig : Digest) :
    Except Error Descriptor × Registry :=
  match r.makeRepo toRepo with
  | .error e => (.error e, r)
  | .ok (rto, r) =>
    match r.blobForDigest fromRepo dig with
    | .error e => (.error e, r)
    | .ok b => (.ok (b.descriptor lib), r.setRepo toRepo (rto.setBlob dig b))

/-- `errCannotOverwriteTag`. -/
def errCannotOverwriteTag : Error := .wrap "" (.code .denied) ": cannot overwrite tag"

/-- The digest block of `PushManifest`: a supplied digest, validated and verified against the
data, or else the canonical digest of the data. -/
def manifestDigest (params : Option PushManifestParameters) (data : Bytes) : Except Error Digest :=
  match digestOf params with
  | some d =>
    match lib.validate d with
    | .error e => .error (.wrap ("invalid digest: " ++ e ++ ": ") (.code .digestInvalid) "")
    | .ok () =>
      if lib.verified d data then .ok d
      else .error (.wrap "digest mismatch: " (.code .digestInvalid) "")
  | none => .ok (lib.fromBytes data)

/-- The tag loop of `PushManifest`: `none` when every tag may be written, `some currDesc` when
the loop returns early with the descriptor an immutable tag already holds. -/
def tagLoop (immutableTags : Bool) (repoTags : String → Option Descriptor) (dig : Digest)
    (mediaType : String) : List String → Except Error (Option Descriptor)
  | [] => .ok none
  | tag :: tags =>
    if !Ociref.isValidTag tag then .error (.text "invalid tag")
    else if immutableTags then
      match repoTags tag with
      | some currDesc =>
        if dig = currDesc.digest then
          if currDesc.mediaType ≠ mediaType then
            .error (.wrap "" (.code .denied) ": mismatched media type")
          else .ok (some currDesc)
        else .error errCannotOverwriteTag
      | none => tagLoop immutableTags repoTags dig mediaType tags
    else tagLoop immutableTags repoTags dig mediaType tags

/-- The descriptor check of `PushManifest`: `CheckDescriptor` against the data for a canonical
digest, the media type alone for a supplied one. -/
def checkPushedDescriptor (params : Option PushManifestParameters) (desc : Descriptor)
    (data : Bytes) : Except Error Unit :=
  match digestOf params with
  | none =>
    match checkDescriptor lib desc (some data) with
    | .error e => .error (.format "invalid descriptor: " e "")
    | .ok () => .ok ()
  | some _ =>
    if desc.mediaType = "" then .error (.text "invalid descriptor: no media type in descriptor")
    else .ok ()

/-- The loop of `checkManifestReferences` over the descriptors a manifest refers to. -/
def checkReferences (repo : Repository) : List DescInfo → Except Error Unit
  | [] => .ok ()
  | info :: infos =>
    match checkDescriptor lib info.desc none with
    | .error e => .error (.format ("bad descriptor in " ++ info.name ++ ": ") e "")
    | .ok () =>
      match info.kind with
      | .blob =>
        if (repo.blobs info.desc.digest).isNone then
          .error (.text ("blob for " ++ info.name ++ " not found"))
        else checkReferences repo infos
      | .manifest =>
        if (repo.manifests info.desc.digest).isNone then
          .error (.text ("manifest for " ++ info.name ++ " not found"))
        else checkReferences repo infos
      | .subjectManifest => checkReferences repo infos

/-- `Registry.checkManifestReferences`: parses the manifest and, unless child references are
lax, checks every blob and manifest it refers to is in the repository. -/
def Registry.checkManifestReferences (r : Registry) (repoName mediaType : String) (data : Bytes) :
    Except Error ManifestInfo :=
  match lib.getManifestInfo mediaType data with
  | .error e => .error e
  | .ok info =>
    if r.cfg.laxChildReferences then .ok info
    else
      match r.repo repoName with
      | .error e => .error e
      | .ok repo =>
        match checkReferences lib repo info.descriptors with
        | .error e => .error e
        | .ok () => .ok info

/-- `Registry.PushManifest`. -/
def Registry.pushManifest (r : Registry) (repoName : String) (data : Bytes) (mediaType : String)
    (params : Option PushManifestParameters) : Except Error Descriptor × Registry :=
  match r.makeRepo repoName with
  | .error e => (.error e, r)
  | .ok (repo, r) =>
    match manifestDigest lib params data with
    | .error e => (.error e, r)
    | .ok dig =>
      let desc : Descriptor := { digest := dig, mediaType, size := data.length }
      match tagLoop r.cfg.immutableTags repo.tags dig mediaType (tagsOf params) with
      | .error e => (.error e, r)
      | .ok (some currDesc) => (.ok currDesc, r)
      | .ok none =>
        match checkPushedDescriptor lib params desc data with
        | .error e => (.error e, r)
        | .ok () =>
          match r.checkManifestReferences lib repoName desc.mediaType data with
          | .error e => (.error (.format "invalid manifest: " e ""), r)
          | .ok info =>
            let b : Blob := { mediaType, data, info }
            (.ok desc, r.setRepo repoName ((repo.setManifest dig b).setTags (tagsOf params) desc))

/-! ## Repository updates -/

@[simp] lemma Repository.setBlob_blobs (repo : Repository) (dig : Digest) (b : Blob) (d : Digest) :
    (repo.setBlob dig b).blobs d = if d = dig then some b else repo.blobs d :=
  Function.update_apply _ _ _ _

@[simp] lemma Repository.setBlob_tags (repo : Repository) (dig : Digest) (b : Blob) :
    (repo.setBlob dig b).tags = repo.tags := rfl

@[simp] lemma Repository.setBlob_manifests (repo : Repository) (dig : Digest) (b : Blob) :
    (repo.setBlob dig b).manifests = repo.manifests := rfl

@[simp] lemma Repository.setBlob_uploads (repo : Repository) (dig : Digest) (b : Blob) :
    (repo.setBlob dig b).uploads = repo.uploads := rfl

/-- The tag loop writes each tag of its list, and nothing else. -/
lemma Repository.setTags_eq (repo : Repository) (tags : List String) (desc : Descriptor) :
    repo.setTags tags desc =
      { repo with tags := fun t => if t ∈ tags then some desc else repo.tags t } := by
  induction tags generalizing repo with
  | nil => rfl
  | cons tag tags ih =>
    rw [setTags, List.foldl_cons, ← setTags, ih]
    congr 1
    funext t
    by_cases h : t = tag <;> simp [setTag, Function.update_apply, h]

@[simp] lemma Repository.setManifest_setTags_tags (repo : Repository) (dig : Digest) (b : Blob)
    (tags : List String) (desc : Descriptor) (t : String) :
    ((repo.setManifest dig b).setTags tags desc).tags t =
      if t ∈ tags then some desc else repo.tags t := by
  simp [setTags_eq, setManifest]

@[simp] lemma Repository.setManifest_setTags_manifests (repo : Repository) (dig : Digest) (b : Blob)
    (tags : List String) (desc : Descriptor) (d : Digest) :
    ((repo.setManifest dig b).setTags tags desc).manifests d =
      if d = dig then some b else repo.manifests d := by
  simp [setTags_eq, setManifest, Function.update_apply]

@[simp] lemma Repository.setManifest_setTags_blobs (repo : Repository) (dig : Digest) (b : Blob)
    (tags : List String) (desc : Descriptor) :
    ((repo.setManifest dig b).setTags tags desc).blobs = repo.blobs := by
  simp [setTags_eq, setManifest]

@[simp] lemma Repository.setManifest_setTags_uploads (repo : Repository) (dig : Digest) (b : Blob)
    (tags : List String) (desc : Descriptor) :
    ((repo.setManifest dig b).setTags tags desc).uploads = repo.uploads := by
  simp [setTags_eq, setManifest]

@[simp] lemma Repository.setBlob_setBlob (repo : Repository) (d : Digest) (b b' : Blob) :
    (repo.setBlob d b).setBlob d b' = repo.setBlob d b' := by
  simp [setBlob, Function.update_idem]

lemma Repository.setManifest_of_manifests {repo : Repository} {dig : Digest} {b : Blob}
    (h : repo.manifests dig = some b) : repo.setManifest dig b = repo := by
  cases repo
  simp only [setManifest, Repository.mk.injEq, true_and, and_true]
  exact Function.update_eq_self_iff.2 h.symm

lemma Repository.setTags_of_tags {repo : Repository} {tags : List String} {desc : Descriptor}
    (h : ∀ t ∈ tags, repo.tags t = some desc) : repo.setTags tags desc = repo := by
  rw [setTags_eq]
  congr 1
  funext t
  split_ifs with ht
  exacts [(h t ht).symm, rfl]

/-! ## The blocks of `PushManifest` -/

/-- The digest a push ends up with is the supplied one, else the canonical one; either way it is
valid and the data verifies against it. -/
lemma manifestDigest_ok {params : Option PushManifestParameters} {data : Bytes} {dig : Digest}
    (h : manifestDigest lib params data = .ok dig) :
    dig = (digestOf params).getD (lib.fromBytes data) ∧ lib.validate dig = .ok () ∧
      lib.verified dig data = true := by
  unfold manifestDigest at h
  split at h
  · rename_i d hd
    split at h
    · cases h
    · rename_i hval
      split_ifs at h with hver
      cases h
      exact ⟨by simp [hd], hval, hver⟩
  · rename_i hd
    cases h
    exact ⟨by simp [hd], lib.validate_fromBytes data, lib.verified_fromBytes data⟩

/-- One turn of the tag loop on a valid tag. -/
lemma tagLoop_cons_of_valid {imm : Bool} {m : String → Option Descriptor} {dig : Digest}
    {mt tag : String} {tags : List String} (hv : Ociref.isValidTag tag = true) :
    tagLoop imm m dig mt (tag :: tags) =
      match imm, m tag with
      | true, some currDesc =>
        if dig = currDesc.digest then
          if currDesc.mediaType ≠ mt then .error (.wrap "" (.code .denied) ": mismatched media type")
          else .ok (some currDesc)
        else .error errCannotOverwriteTag
      | _, _ => tagLoop imm m dig mt tags := by
  cases imm <;> cases hm : m tag <;> simp [tagLoop, hv, hm]

/-- A tag loop runs to its end exactly on valid tags that, for immutable tags, are absent. -/
lemma tagLoop_eq_none_iff {imm : Bool} {m : String → Option Descriptor} {dig : Digest} {mt : String} :
    ∀ {tags : List String}, tagLoop imm m dig mt tags = .ok none ↔
      ∀ t ∈ tags, Ociref.isValidTag t ∧ (imm → m t = none)
  | [] => by simp [tagLoop]
  | tag :: tags => by
    cases hv : Ociref.isValidTag tag
    · simp [tagLoop, hv]
    rw [tagLoop_cons_of_valid hv, List.forall_mem_cons, ← @tagLoop_eq_none_iff imm m dig mt tags]
    cases imm <;> cases m tag <;> simp [hv]
    split_ifs <;> simp

/-- A tag loop returns early only for immutable tags, with the descriptor a tag of its list
holds, of the pushed digest and media type. -/
lemma tagLoop_some {imm : Bool} {m : String → Option Descriptor} {dig : Digest} {mt : String}
    {d : Descriptor} : ∀ {tags : List String}, tagLoop imm m dig mt tags = .ok (some d) →
      imm ∧ ∃ t ∈ tags, m t = some d ∧ d.digest = dig ∧ d.mediaType = mt
  | [], h => by simp [tagLoop] at h
  | tag :: tags, h => by
    cases hv : Ociref.isValidTag tag
    · simp [tagLoop, hv] at h
    rw [tagLoop_cons_of_valid hv] at h
    have ih := @tagLoop_some imm m dig mt d tags
    cases imm <;> cases hm : m tag <;> simp only [hm] at h
    · exact absurd (ih h).1 Bool.false_ne_true
    · exact absurd (ih h).1 Bool.false_ne_true
    · obtain ⟨-, t, ht, h⟩ := ih h
      exact ⟨rfl, t, List.mem_cons_of_mem _ ht, h⟩
    · split_ifs at h with hd hmt
      cases h
      exact ⟨rfl, tag, List.mem_cons_self _ _, hm, hd.symm, not_not.1 hmt⟩

/-- The blobs and manifests a manifest refers to are in a repository (a subject may dangle). -/
def RefsIn (repo : Repository) (info : ManifestInfo) : Prop :=
  ∀ i ∈ info.descriptors, (i.kind = .blob → (repo.blobs i.desc.digest).isSome) ∧
    (i.kind = .manifest → (repo.manifests i.desc.digest).isSome)

/-- One turn of the reference loop: the head descriptor is sane and present, and the rest pass. -/
lemma checkReferences_cons {repo : Repository} {i : DescInfo} {infos : List DescInfo} :
    checkReferences lib repo (i :: infos) = .ok () ↔
      (checkDescriptor lib i.desc none = .ok () ∧
        (i.kind = .blob → (repo.blobs i.desc.digest).isSome) ∧
        (i.kind = .manifest → (repo.manifests i.desc.digest).isSome)) ∧
      checkReferences lib repo infos = .ok () := by
  obtain ⟨name, kind, desc⟩ := i
  simp only [checkReferences]
  cases checkDescriptor lib desc none with
  | error e => simp
  | ok u =>
    cases kind with
    | blob => cases repo.blobs desc.digest <;> simp
    | manifest => cases repo.manifests desc.digest <;> simp
    | subjectManifest => simp

/-- The reference loop passes exactly when every descriptor is sane and every blob and manifest
is in the repository. -/
lemma checkReferences_eq_ok {repo : Repository} : ∀ {infos : List DescInfo},
    checkReferences lib repo infos = .ok () ↔
      ∀ i ∈ infos, checkDescriptor lib i.desc none = .ok () ∧
        (i.kind = .blob → (repo.blobs i.desc.digest).isSome) ∧
        (i.kind = .manifest → (repo.manifests i.desc.digest).isSome)
  | [] => by simp [checkReferences]
  | _ :: _ => by
    rw [List.forall_mem_cons]
    exact (checkReferences_cons lib).trans (and_congr_right' checkReferences_eq_ok)

lemma checkReferences_mono {a b : Repository} {infos : List DescInfo}
    (h : checkReferences lib a infos = .ok ())
    (hb : ∀ d, (a.blobs d).isSome → (b.blobs d).isSome)
    (hm : ∀ d, (a.manifests d).isSome → (b.manifests d).isSome) :
    checkReferences lib b infos = .ok () :=
  (checkReferences_eq_ok lib).2 fun i hi =>
    let h' := (checkReferences_eq_ok lib).1 h i hi
    ⟨h'.1, fun hk => hb _ (h'.2.1 hk), fun hk => hm _ (h'.2.2 hk)⟩

/-- A manifest passes the reference check with what `getManifestInfo` extracts, and, unless
child references are lax, with everything it refers to in the repository. -/
lemma Registry.checkManifestReferences_ok {r : Registry} {n mt : String} {data : Bytes}
    {info : ManifestInfo} (h : r.checkManifestReferences lib n mt data = .ok info) :
    lib.getManifestInfo mt data = .ok info ∧
      (r.cfg.laxChildReferences = false → RefsIn (r.getRepo n) info) := by
  unfold checkManifestReferences at h
  split at h
  · cases h
  rename_i info' hi
  split_ifs at h with hlax
  · cases h
    exact ⟨hi, by simp [hlax]⟩
  · unfold repo at h
    cases hr : r.repos n <;> simp only [hr] at h
    · cases h
    · split at h
      · cases h
      · rename_i hc
        cases h
        refine ⟨hi, fun _ i hi' => ?_⟩
        have := ((checkReferences_eq_ok lib).1 hc i hi').2
        simpa [getRepo, hr] using this

/-- In a registry where the repository is stored, the reference check passes exactly when the
manifest parses and, unless child references are lax, the reference loop passes. -/
lemma Registry.checkManifestReferences_withRepo_eq_ok {r : Registry} {n mt : String} {data : Bytes}
    {info : ManifestInfo} :
    (r.withRepo n).checkManifestReferences lib n mt data = .ok info ↔
      lib.getManifestInfo mt data = .ok info ∧
        (r.cfg.laxChildReferences = false → checkReferences lib (r.getRepo n) info.descriptors = .ok ()) := by
  have hr : (r.withRepo n).repos n = some (r.getRepo n) := by simp [withRepo]
  unfold checkManifestReferences repo
  cases hi : lib.getManifestInfo mt data with
  | error e => simp
  | ok i =>
    cases hl : r.cfg.laxChildReferences
    · simp only [withRepo_cfg, hl, hr]
      cases hc : checkReferences lib (r.getRepo n) i.descriptors <;> simp <;> rintro rfl <;> simp [hc]
    · simp [hl]

/-! ## Inversion lemmas -/

/-- Everything `PushBlob` can do: fail and change nothing, or store the checked content. -/
lemma Registry.pushBlob_spec {r r' : Registry} {n : String} {desc : Descriptor}
    {content : Except String Bytes} {res : Except Error Descriptor}
    (h : r.pushBlob lib n desc content = (res, r')) :
    (∃ e, res = .error e ∧ r' = r) ∨
    (res = .ok desc ∧ Ociref.isValidRepository n ∧ ∃ data, content = .ok data ∧
      checkDescriptor lib desc (some data) = .ok () ∧
      r' = r.setRepo n ((r.getRepo n).setBlob desc.digest { mediaType := desc.mediaType, data })) := by
  unfold pushBlob at h
  split at h
  · exact .inl ⟨_, (Prod.mk.inj h).1.symm, (Prod.mk.inj h).2.symm⟩
  split at h
  · exact .inl ⟨_, (Prod.mk.inj h).1.symm, (Prod.mk.inj h).2.symm⟩
  rw [Registry.makeRepo_eq] at h
  split_ifs at h with hv
  · rename_i data _ hc
    obtain ⟨rfl, rfl⟩ := Prod.mk.inj h
    exact .inr ⟨rfl, hv, data, rfl, hc, by simp⟩
  · exact .inl ⟨_, (Prod.mk.inj h).1.symm, (Prod.mk.inj h).2.symm⟩

/-- Everything `MountBlob` can do: fail, having perhaps created the target repository, or store
the source's blob in the target. -/
lemma Registry.mountBlob_spec {r r' : Registry} {fromRepo toRepo : String} {dig : Digest}
    {res : Except Error Descriptor} (h : r.mountBlob lib fromRepo toRepo dig = (res, r')) :
    (∃ e, res = .error e ∧ (r' = r ∨ r' = r.withRepo toRepo)) ∨
    (Ociref.isValidRepository toRepo ∧ ∃ b, (r.withRepo toRepo).blobForDigest fromRepo dig = .ok b ∧
      res = .ok (b.descriptor lib) ∧ r' = r.setRepo toRepo ((r.getRepo toRepo).setBlob dig b)) := by
  unfold mountBlob at h
  rw [Registry.makeRepo_eq] at h
  split_ifs at h with hv
  · dsimp only at h
    split at h
    · exact .inl ⟨_, (Prod.mk.inj h).1.symm, .inr (Prod.mk.inj h).2.symm⟩
    · rename_i b hb
      obtain ⟨rfl, rfl⟩ := Prod.mk.inj h
      exact .inr ⟨hv, b, hb, rfl, by simp⟩
  · exact .inl ⟨_, (Prod.mk.inj h).1.symm, .inl (Prod.mk.inj h).2.symm⟩

/-- A mount of a blob the source holds, to a valid target, stores it there. -/
lemma Registry.mountBlob_eq_of_blob {r : Registry} {fromRepo toRepo : String} {dig : Digest} {b : Blob}
    (hv : Ociref.isValidRepository toRepo) (hb : (r.getRepo fromRepo).blobs dig = some b) :
    r.mountBlob lib fromRepo toRepo dig =
      (.ok (b.descriptor lib), r.setRepo toRepo ((r.getRepo toRepo).setBlob dig b)) := by
  have : (r.withRepo toRepo).blobForDigest fromRepo dig = .ok b := by
    rw [blobForDigest_eq_ok, getRepo_withRepo, hb]
  simp only [mountBlob, makeRepo_eq, if_pos hv, this, setRepo_withRepo]

/-- The descriptor `PushManifest` builds for its data. -/
def pushedDesc (dig : Digest) (mediaType : String) (data : Bytes) : Descriptor :=
  { digest := dig, mediaType, size := data.length }

@[simp] lemma pushedDesc_digest (dig : Digest) (mt : String) (data : Bytes) :
    (pushedDesc dig mt data).digest = dig := rfl

@[simp] lemma pushedDesc_mediaType (dig : Digest) (mt : String) (data : Bytes) :
    (pushedDesc dig mt data).mediaType = mt := rfl

@[simp] lemma pushedDesc_size (dig : Digest) (mt : String) (data : Bytes) :
    (pushedDesc dig mt data).size = data.length := rfl

/-- Everything `PushManifest` can do: fail, having perhaps created the repository; return early
on an immutable tag that already holds the content; or store the manifest and its tags. -/
lemma Registry.pushManifest_spec {r r' : Registry} {n : String} {data : Bytes} {mt : String}
    {params : Option PushManifestParameters} {res : Except Error Descriptor}
    (h : r.pushManifest lib n data mt params = (res, r')) :
    (∃ e, res = .error e ∧ (r' = r ∨ r' = r.withRepo n)) ∨
    (Ociref.isValidRepository n ∧ ∃ dig, manifestDigest lib params data = .ok dig ∧
      ((∃ d, tagLoop r.cfg.immutableTags (r.getRepo n).tags dig mt (tagsOf params) = .ok (some d) ∧
          res = .ok d ∧ r' = r.withRepo n) ∨
       (tagLoop r.cfg.immutableTags (r.getRepo n).tags dig mt (tagsOf params) = .ok none ∧
        checkPushedDescriptor lib params (pushedDesc dig mt data) data = .ok () ∧
        ∃ info, (r.withRepo n).checkManifestReferences lib n mt data = .ok info ∧
          res = .ok (pushedDesc dig mt data) ∧
          r' = r.setRepo n (((r.getRepo n).setManifest dig { mediaType := mt, data, info }).setTags
            (tagsOf params) (pushedDesc dig mt data))))) := by
  unfold pushManifest at h
  rw [Registry.makeRepo_eq] at h
  by_cases hv : Ociref.isValidRepository n
  · rw [if_pos hv] at h
    dsimp only at h
    split at h
    · exact .inl ⟨_, (Prod.mk.inj h).1.symm, .inr (Prod.mk.inj h).2.symm⟩
    rename_i dig hdig
    simp only [withRepo_cfg] at h
    split at h
    · exact .inl ⟨_, (Prod.mk.inj h).1.symm, .inr (Prod.mk.inj h).2.symm⟩
    · rename_i d hd
      obtain ⟨rfl, rfl⟩ := Prod.mk.inj h
      exact .inr ⟨hv, dig, hdig, .inl ⟨d, hd, rfl, rfl⟩⟩
    rename_i hnone
    split at h
    · exact .inl ⟨_, (Prod.mk.inj h).1.symm, .inr (Prod.mk.inj h).2.symm⟩
    rename_i hc
    split at h
    · exact .inl ⟨_, (Prod.mk.inj h).1.symm, .inr (Prod.mk.inj h).2.symm⟩
    rename_i info hinfo
    obtain ⟨rfl, rfl⟩ := Prod.mk.inj h
    exact .inr ⟨hv, dig, hdig, .inr ⟨hnone, hc, info, hinfo, rfl, by rw [setRepo_withRepo]; rfl⟩⟩
  · rw [if_neg hv] at h
    exact .inl ⟨_, (Prod.mk.inj h).1.symm, .inl (Prod.mk.inj h).2.symm⟩

/-- A push that returns early at an immutable tag leaves the registry `makeRepo` leaves. -/
lemma Registry.pushManifest_eq_of_tagLoop_some {r : Registry} {n : String} {data : Bytes} {mt : String}
    {params : Option PushManifestParameters} {dig : Digest} {d : Descriptor}
    (hv : Ociref.isValidRepository n) (hdig : manifestDigest lib params data = .ok dig)
    (hsome : tagLoop r.cfg.immutableTags (r.getRepo n).tags dig mt (tagsOf params) = .ok (some d)) :
    r.pushManifest lib n data mt params = (.ok d, r.withRepo n) := by
  simp only [pushManifest, makeRepo_eq, if_pos hv, hdig, withRepo_cfg, getRepo_withRepo, hsome]

/-- A push that passes every check stores the manifest and its tags. -/
lemma Registry.pushManifest_eq_of_checks {r : Registry} {n : String} {data : Bytes} {mt : String}
    {params : Option PushManifestParameters} {dig : Digest} {info : ManifestInfo}
    (hv : Ociref.isValidRepository n) (hdig : manifestDigest lib params data = .ok dig)
    (hnone : tagLoop r.cfg.immutableTags (r.getRepo n).tags dig mt (tagsOf params) = .ok none)
    (hc : checkPushedDescriptor lib params (pushedDesc dig mt data) data = .ok ())
    (hinfo : (r.withRepo n).checkManifestReferences lib n mt data = .ok info) :
    r.pushManifest lib n data mt params = (.ok (pushedDesc dig mt data),
      r.setRepo n (((r.getRepo n).setManifest dig { mediaType := mt, data, info }).setTags
        (tagsOf params) (pushedDesc dig mt data))) := by
  simp only [pushManifest, makeRepo_eq, if_pos hv, hdig, withRepo_cfg, getRepo_withRepo, hnone]
  rw [show ({ digest := dig, mediaType := mt, size := data.length } : Descriptor) =
    pushedDesc dig mt data from rfl, hc]
  simp only [hinfo, setRepo_withRepo]

end OciRegistry.Ocimem
