import OciRegistry.Ocimem.Run

/-!
# The in-memory registry: what a call does to the content

The content of a registry is what its repositories hold: tags, manifests and blobs.
`Registry.step_content` says once and for all what one call can do to it: nothing (the upload
calls, every failed call, and a push that `PushManifest` short-cuts), store one blob, or store
one manifest with its tags after the checks of `PushManifest`. Each invariant of
`Invariants.lean` is then a three-case argument over this lemma and never looks at a writer
again.
-/

namespace OciRegistry.Ocimem

open PushManifestParameters

variable (lib : Lib)

/-- Two registries hold the same tags, manifests and blobs in every repository. -/
def SameContent (r r' : Registry) : Prop :=
  ∀ n, (r'.getRepo n).tags = (r.getRepo n).tags ∧ (r'.getRepo n).manifests = (r.getRepo n).manifests ∧
    (r'.getRepo n).blobs = (r.getRepo n).blobs

lemma SameContent.refl (r : Registry) : SameContent r r := fun _ => ⟨rfl, rfl, rfl⟩

lemma SameContent.trans {r r' r'' : Registry} (h₁ : SameContent r r') (h₂ : SameContent r' r'') :
    SameContent r r'' := fun n =>
  ⟨(h₂ n).1.trans (h₁ n).1, (h₂ n).2.1.trans (h₁ n).2.1, (h₂ n).2.2.trans (h₁ n).2.2⟩

lemma SameContent.withRepo (r : Registry) (n : String) : SameContent r (r.withRepo n) := fun _ => by
  simp

lemma SameContent.modifyBuffer (r : Registry) (w : Nat) (f : Buffer → Buffer) :
    SameContent r (r.modifyBuffer w f) := SameContent.refl r

/-- A repository's upload ids and the heap are no part of the content. -/
lemma SameContent.setUpload (r : Registry) (n : String) (l : List Buffer) (u : String) (w : Nat) :
    SameContent r (Registry.setRepo { r with buffers := l } n ((r.getRepo n).setUpload u w)) :=
  fun m => by
    by_cases h : m = n
    · subst h; simp [Registry.getRepo_setRepo, Repository.setUpload]
    · simp [Registry.getRepo_setRepo, h, Registry.getRepo]

/-- Storing the same repository in registries of the same content. -/
lemma SameContent.setRepo {r r' : Registry} (h : SameContent r r') (n : String) (repo : Repository) :
    SameContent (r.setRepo n repo) (r'.setRepo n repo) := fun m => by
  by_cases hm : m = n <;> simp [Registry.getRepo_setRepo, hm, h m]

/-- A resume changes upload ids and buffers only. -/
lemma resume_content (r : Registry) (n id : String) (offset : Int) :
    SameContent r (r.step lib (.pushBlobChunkedResume n id offset)) := by
  rcases hp : r.pushBlobChunkedResume lib n id offset with ⟨res, r'⟩
  simp only [Registry.step, hp]
  rcases Registry.pushBlobChunkedResume_spec lib hp with ⟨e, -, rfl⟩ | ⟨-, w, -, ⟨-, rfl⟩ | ⟨-, rfl, rfl⟩⟩
  · exact SameContent.refl _
  · exact (SameContent.withRepo r n).trans (SameContent.modifyBuffer _ _ _)
  · exact (SameContent.setUpload r n _ _ _).trans (SameContent.modifyBuffer _ _ _)

/-- What one call can do to the content: nothing; store a blob addressed by its canonical digest
or copied from the same key of a repository; or store a manifest whose digest is valid and
verified, with its tags, after the tag loop and the reference check of `PushManifest`. -/
lemma Registry.step_content (r : Registry) (op : Op) :
    SameContent r (r.step lib op) ∨
    (∃ n d b, (lib.fromBytes b.data = d ∨ ∃ m, (r.getRepo m).blobs d = some b) ∧
      SameContent (r.setRepo n ((r.getRepo n).setBlob d b)) (r.step lib op)) ∨
    (∃ n dig mt data info tags, lib.validate dig = .ok () ∧ lib.verified dig data = true ∧
      lib.getManifestInfo mt data = .ok info ∧
      (r.cfg.laxChildReferences = false → RefsIn (r.getRepo n) info) ∧
      (r.cfg.immutableTags = true → ∀ t ∈ tags, (r.getRepo n).tags t = none) ∧
      SameContent (r.setRepo n (((r.getRepo n).setManifest dig { mediaType := mt, data, info }).setTags
        tags (pushedDesc dig mt data))) (r.step lib op)) := by
  cases op with
  | pushBlob n desc content =>
    rcases hp : r.pushBlob lib n desc content with ⟨res, r'⟩
    simp only [step, hp]
    rcases pushBlob_spec lib hp with ⟨e, -, rfl⟩ | ⟨-, -, data, -, hc, rfl⟩
    · exact .inl (SameContent.refl _)
    · exact .inr (.inl ⟨n, _, _, .inl (checkDescriptor_some_ok lib hc).1, SameContent.refl _⟩)
  | pushBlobChunked n => exact .inl (resume_content lib r n "" 0)
  | pushBlobChunkedResume n id offset => exact .inl (resume_content lib r n id offset)
  | write w data =>
    rcases hp : r.write w data with ⟨res, r'⟩
    simp only [step, hp]
    rcases write_spec hp with ⟨e, -, rfl⟩ | ⟨b, b', -, -, -, rfl⟩
    · exact .inl (SameContent.refl _)
    · exact .inl (SameContent.modifyBuffer r w _)
  | commit w dig =>
    rcases hp : r.commit lib w dig with ⟨res, r'⟩
    simp only [step, hp]
    rcases commit_spec lib hp with ⟨e, -, rfl⟩ | ⟨b, -, -, hd, -, rfl⟩
    · exact .inl (SameContent.refl _)
    · exact .inr (.inl ⟨_, dig, _, .inl hd, (SameContent.modifyBuffer r w _).setRepo _ _⟩)
  | cancel w => exact .inl (SameContent.modifyBuffer r w _)
  | mountBlob fromRepo toRepo dig =>
    rcases hp : r.mountBlob lib fromRepo toRepo dig with ⟨res, r'⟩
    simp only [step, hp]
    rcases mountBlob_spec lib hp with ⟨e, -, rfl | rfl⟩ | ⟨-, b, hb, -, rfl⟩
    · exact .inl (SameContent.refl _)
    · exact .inl (SameContent.withRepo r toRepo)
    · rw [blobForDigest_eq_ok, getRepo_withRepo] at hb
      exact .inr (.inl ⟨toRepo, dig, b, .inr ⟨fromRepo, hb⟩, SameContent.refl _⟩)
  | pushManifest n data mt params =>
    rcases hp : r.pushManifest lib n data mt params with ⟨res, r'⟩
    simp only [step, hp]
    rcases pushManifest_spec lib hp with
      ⟨e, -, rfl | rfl⟩ | ⟨-, dig, hdig, ⟨d, -, -, rfl⟩ | ⟨hnone, -, info, hinfo, -, rfl⟩⟩
    · exact .inl (SameContent.refl _)
    · exact .inl (SameContent.withRepo r n)
    · exact .inl (SameContent.withRepo r n)
    · obtain ⟨-, hval, hver⟩ := manifestDigest_ok lib hdig
      obtain ⟨hget, hrefs⟩ := checkManifestReferences_ok lib hinfo
      simp only [withRepo_cfg, getRepo_withRepo] at hrefs
      exact .inr (.inr ⟨n, dig, mt, data, info, tagsOf params, hval, hver, hget, hrefs,
        fun himm t ht => (tagLoop_eq_none_iff.1 hnone t ht).2 himm, SameContent.refl _⟩)

end OciRegistry.Ocimem
