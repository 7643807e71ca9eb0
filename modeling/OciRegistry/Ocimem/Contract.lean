import OciRegistry.Ocimem.Content

/-!
# The in-memory registry: what one write call guarantees

The contract of one `PushManifest` call, and the retry law of the writers.

`PushManifest` is all-or-nothing: a failed call changes no content, and a call that succeeds
returns a descriptor of a valid digest its data verifies against, under the media type it was
given (`pushManifest_outcome`). It then either stored the manifest with every one of its tags,
or, with immutable tags, found every requested tag already holding that digest and media type
and changed nothing. In the second case the data need not be what the registry holds under that
digest: an untagged push may have stored it since under another media type. The theorem leaves
out the calls where, with immutable tags, one requested tag already holds the pushed digest and
media type and another does not: the tag loop returns at the first such tag and never looks at
the rest (`immutable_push_skips_later_tags`).

A write that succeeded may be retried: from the registry it left, the same call succeeds with the
same result and changes nothing (`write_calls_idempotent`). For `PushManifest` the retry either
returns early at the first tag, which now holds the pushed descriptor, or passes the reference
check again, since blobs and manifests are never removed, and rewrites what is there.
-/

namespace OciRegistry.Ocimem

open PushManifestParameters

variable (lib : Lib)

/-! ## `PushManifest` is all-or-nothing -/

lemma Registry.pushBlob_retry {r r₁ : Registry} {n : String} {desc d : Descriptor}
    {content : Except String Bytes} (h : r.pushBlob lib n desc content = (.ok d, r₁)) :
    r₁.pushBlob lib n desc content = (.ok d, r₁) := by
  rcases pushBlob_spec lib h with ⟨e, he, -⟩ | ⟨hres, hv, data, rfl, hc, rfl⟩
  · cases he
  · simp [pushBlob, hc, makeRepo_eq, hv, getRepo_setRepo, hres]

lemma Registry.mountBlob_retry {r r₁ : Registry} {fromRepo toRepo : String} {dig : Digest}
    {d : Descriptor} (h : r.mountBlob lib fromRepo toRepo dig = (.ok d, r₁)) :
    r₁.mountBlob lib fromRepo toRepo dig = (.ok d, r₁) := by
  rcases mountBlob_spec lib h with ⟨e, he, -⟩ | ⟨hv, b, hb, hres, rfl⟩
  · cases he
  rw [blobForDigest_eq_ok, getRepo_withRepo] at hb
  have hb₁ : ((r.setRepo toRepo ((r.getRepo toRepo).setBlob dig b)).getRepo fromRepo).blobs dig =
      some b := by
    rw [getRepo_setRepo]
    split_ifs
    · simp
    · exact hb
  rw [mountBlob_eq_of_blob lib hv hb₁, hres]
  simp [getRepo_setRepo]

/-- A push whose manifest and tags a registry already holds, and whose checks pass there,
changes nothing but storing the repository. -/
lemma Registry.pushManifest_of_stored {r : Registry} {n : String} {data : Bytes} {mt : String}
    {params : Option PushManifestParameters} {dig : Digest} {info : ManifestInfo}
    (hv : Ociref.isValidRepository n) (hdig : manifestDigest lib params data = .ok dig)
    (hvalid : ∀ t ∈ tagsOf params, Ociref.isValidTag t)
    (hc : checkPushedDescriptor lib params (pushedDesc dig mt data) data = .ok ())
    (hget : lib.getManifestInfo mt data = .ok info)
    (hrefs : r.cfg.laxChildReferences = false →
      checkReferences lib (r.getRepo n) info.descriptors = .ok ())
    (hm : (r.getRepo n).manifests dig = some { mediaType := mt, data, info })
    (ht : ∀ t ∈ tagsOf params, (r.getRepo n).tags t = some (pushedDesc dig mt data)) :
    r.pushManifest lib n data mt params = (.ok (pushedDesc dig mt data), r.withRepo n) := by
  by_cases hearly : r.cfg.immutableTags = true ∧ tagsOf params ≠ []
  · obtain ⟨t, ts, hts⟩ := List.exists_cons_of_ne_nil hearly.2
    have hmem : t ∈ tagsOf params := hts ▸ List.mem_cons_self t ts
    refine pushManifest_eq_of_tagLoop_some lib hv hdig ?_
    rw [hts, tagLoop_cons_of_valid (hvalid t hmem)]
    simp [hearly.1, ht t hmem]
  · have hnone : tagLoop r.cfg.immutableTags (r.getRepo n).tags dig mt (tagsOf params) = .ok none :=
      tagLoop_eq_none_iff.2 fun t h =>
        ⟨hvalid t h, fun himm => absurd ⟨himm, List.ne_nil_of_mem h⟩ hearly⟩
    rw [pushManifest_eq_of_checks lib hv hdig hnone hc
      ((checkManifestReferences_withRepo_eq_ok lib).2 ⟨hget, hrefs⟩),
      Repository.setManifest_of_manifests hm, Repository.setTags_of_tags ht]
    rfl

lemma Registry.pushManifest_retry {r r₁ : Registry} {n : String} {data : Bytes} {mt : String}
    {params : Option PushManifestParameters} {desc : Descriptor}
    (h : r.pushManifest lib n data mt params = (.ok desc, r₁)) :
    r₁.pushManifest lib n data mt params = (.ok desc, r₁) := by
  rcases pushManifest_spec lib h with ⟨e, he, -⟩ |
    ⟨hv, dig, hdig, ⟨d, hsome, hres, rfl⟩ | ⟨hnone, hc, info, hinfo, hres, rfl⟩⟩
  · cases he
  · rw [pushManifest_eq_of_tagLoop_some lib hv hdig (by simpa using hsome), hres, withRepo_withRepo]
  · cases hres
    obtain ⟨hget, hrefs⟩ := (checkManifestReferences_withRepo_eq_ok lib).1 hinfo
    refine (pushManifest_of_stored lib hv hdig (fun t ht => (tagLoop_eq_none_iff.1 hnone t ht).1) hc
      hget (fun hl => checkReferences_mono lib (hrefs (by simpa using hl)) (by simp [getRepo_setRepo])
        fun d hd => ?_) (by simp [getRepo_setRepo]) (fun t ht => by simp [getRepo_setRepo, ht])).trans
        (by rw [withRepo_setRepo])
    simp only [getRepo_setRepo, if_true, Repository.setManifest_setTags_manifests]
    split_ifs <;> simp [hd]

/-- The writers may be retried: in either configuration and for every tag list, a
`PushManifest`, `PushBlob` or `MountBlob` that succeeded succeeds again with the same result
from the registry it left, and leaves that registry as it is. -/
theorem write_calls_idempotent (r : Registry) :
    (∀ n data mt params desc r₁, r.pushManifest lib n data mt params = (.ok desc, r₁) →
      r₁.pushManifest lib n data mt params = (.ok desc, r₁)) ∧
    (∀ n desc content d r₁, r.pushBlob lib n desc content = (.ok d, r₁) →
      r₁.pushBlob lib n desc content = (.ok d, r₁)) ∧
    (∀ fromRepo toRepo dig d r₁, r.mountBlob lib fromRepo toRepo dig = (.ok d, r₁) →
      r₁.mountBlob lib fromRepo toRepo dig = (.ok d, r₁)) :=
  ⟨fun _ _ _ _ _ _ h => Registry.pushManifest_retry lib h,
    fun _ _ _ _ _ h => Registry.pushBlob_retry lib h,
    fun _ _ _ _ _ h => Registry.mountBlob_retry lib h⟩

/-- The blob `[1]` of media type `m`, under its reference digest. -/
def blobOne : Descriptor := { mediaType := "m", digest := Lib.reference.fromBytes [1], size := 1 }

theorem retried_writes :
    ((Registry.new {}).pushManifest Lib.reference "repo" [1] "m" (some { tags := ["t"] })).2.pushManifest
        Lib.reference "repo" [1] "m" (some { tags := ["t"] }) =
      (.ok (pushedDesc (Lib.reference.fromBytes [1]) "m" [1]),
        ((Registry.new {}).pushManifest Lib.reference "repo" [1] "m" (some { tags := ["t"] })).2) ∧
    ((Registry.new {}).pushBlob Lib.reference "a" blobOne (.ok [1])).2.pushBlob Lib.reference "a"
        blobOne (.ok [1]) =
      (.ok blobOne, ((Registry.new {}).pushBlob Lib.reference "a" blobOne (.ok [1])).2) ∧
    (((Registry.new {}).pushBlob Lib.reference "a" blobOne (.ok [1])).2.mountBlob Lib.reference "a"
        "b" blobOne.digest).2.mountBlob Lib.reference "a" "b" blobOne.digest =
      (.ok blobOne, (((Registry.new {}).pushBlob Lib.reference "a" blobOne (.ok [1])).2.mountBlob
        Lib.reference "a" "b" blobOne.digest).2) :=
  ⟨(write_calls_idempotent Lib.reference (Registry.new {})).1 _ _ _ _ _ _ rfl,
    (write_calls_idempotent Lib.reference (Registry.new {})).2.1 _ _ _ _ _ rfl,
    (write_calls_idempotent Lib.reference
      ((Registry.new {}).pushBlob Lib.reference "a" blobOne (.ok [1])).2).2.2 _ _ _ _ _ rfl⟩

/-! ## A supplied canonical digest -/

/-- Supplying the canonical digest of the data gives the digest block what it computes without
one. -/
lemma manifestDigest_canonical (tags : List String) (data : Bytes) :
    manifestDigest lib (some { tags, digest := lib.fromBytes data }) data =
      manifestDigest lib (some { tags }) data := by
  simp only [manifestDigest, digestOf]
  split_ifs
  · rfl
  · simp [lib.validate_fromBytes, lib.verified_fromBytes]

/-- With the canonical digest and the length of the data in the descriptor, the descriptor check
of a supplied digest and that of none agree, but for an empty media type, which both refuse
with the same text, one written out, the other wrapped with `%v`. -/
lemma checkPushedDescriptor_canonical (tags : List String) (desc : Descriptor) {data : Bytes}
    (hd : desc.digest = lib.fromBytes data) (hs : desc.size = data.length) :
    checkPushedDescriptor lib (some { tags, digest := lib.fromBytes data }) desc data =
        checkPushedDescriptor lib (some { tags }) desc data ∨
      (desc.mediaType = "" ∧
        checkPushedDescriptor lib (some { tags, digest := lib.fromBytes data }) desc data =
          .error (.text "invalid descriptor: no media type in descriptor") ∧
        checkPushedDescriptor lib (some { tags }) desc data =
          .error (.format "invalid descriptor: " (.text "no media type in descriptor") "")) := by
  by_cases hmt : desc.mediaType = "" <;> by_cases hnil : lib.fromBytes data = "" <;>
    simp [checkPushedDescriptor, digestOf, checkDescriptor, checkMediaType, hd, hs,
      lib.validate_fromBytes, hmt, hnil]

/-- Supplying the canonical digest of the data in the push parameters acts as supplying none:
the call leaves the same registry and returns the same result, except that on an empty media type
both fail with the error text "invalid descriptor: no media type in descriptor", built in two
ways. -/
theorem pushManifest_canonical_digest (r : Registry) (n : String) (data : Bytes) (mt : String)
    (tags : List String) :
    (r.pushManifest lib n data mt (some { tags, digest := lib.fromBytes data })).2 =
      (r.pushManifest lib n data mt (some { tags })).2 ∧
    ((r.pushManifest lib n data mt (some { tags, digest := lib.fromBytes data })).1 =
        (r.pushManifest lib n data mt (some { tags })).1 ∨
      (mt = "" ∧
        (r.pushManifest lib n data mt (some { tags, digest := lib.fromBytes data })).1 =
          .error (.text "invalid descriptor: no media type in descriptor") ∧
        (r.pushManifest lib n data mt (some { tags })).1 =
          .error (.format "invalid descriptor: " (.text "no media type in descriptor") ""))) := by
  have hdig : manifestDigest lib (some { tags }) data = .ok (lib.fromBytes data) := rfl
  unfold Registry.pushManifest
  rw [manifestDigest_canonical, hdig]
  simp only [tagsOf]
  rcases r.makeRepo n with e | ⟨repo, r₁⟩
  · exact ⟨rfl, .inl rfl⟩
  dsimp only
  rcases tagLoop r₁.cfg.immutableTags repo.tags (lib.fromBytes data) mt tags with
    e | _ | currDesc
  · exact ⟨rfl, .inl rfl⟩
  · rcases checkPushedDescriptor_canonical lib tags
        { digest := lib.fromBytes data, mediaType := mt, size := data.length } rfl rfl with
      heq | ⟨hmt, h₁, h₂⟩
    · rw [heq]
      exact ⟨rfl, .inl rfl⟩
    · rw [h₁, h₂]
      exact ⟨rfl, .inr ⟨hmt, rfl, rfl⟩⟩
  · exact ⟨rfl, .inl rfl⟩

end OciRegistry.Ocimem
