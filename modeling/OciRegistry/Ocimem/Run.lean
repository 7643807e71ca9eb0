import OciRegistry.Ocimem.Upload

/-!
# The in-memory registry: runs and frames

The calls a client makes on the registry's writers, as one inductive `Op`; `Registry.step` makes
one call, atomic under the registry mutex; a run is a sequence of calls (`Registry.run`) and
`Reachable` the registries some run reaches from an empty one of any configuration.

The frame condition: each call has a `Footprint`, the repository it targets (the one of the
session for a write, commit or cancel) and the entries of it the call may write, and
`Registry.step_touches_only_footprint` shows a call changes nothing outside it. Each case comes
from the writer's inversion lemma and the three ways a writer changes the registry: storing a
repository (`Frame.setRepo`), changing a buffer (`Frame.modifyBuffer`) and allocating one.
-/

namespace OciRegistry.Ocimem

open PushManifestParameters

variable (lib : Lib)

/-- The calls on the registry's writers and on the upload writers it hands out. -/
inductive Op where
  | pushBlob (repoName : String) (desc : Descriptor) (content : Except String Bytes)
  | pushBlobChunked (repoName : String)
  | pushBlobChunkedResume (repoName id : String) (offset : Int)
  | write (w : Nat) (data : Bytes)
  | commit (w : Nat) (dig : Digest)
  | cancel (w : Nat)
  | mountBlob (fromRepo toRepo : String) (dig : Digest)
  | pushManifest (repoName : String) (data : Bytes) (mediaType : String)
      (params : Option PushManifestParameters)

/-- One call, atomic under the registry mutex: the registry after it. -/
def Registry.step (r : Registry) : Op → Registry
  | .pushBlob n desc content => (r.pushBlob lib n desc content).2
  | .pushBlobChunked n => (r.pushBlobChunked lib n).2
  | .pushBlobChunkedResume n id offset => (r.pushBlobChunkedResume lib n id offset).2
  | .write w data => (r.write w data).2
  | .commit w dig => (r.commit lib w dig).2
  | .cancel w => r.cancel w
  | .mountBlob fromRepo toRepo dig => (r.mountBlob lib fromRepo toRepo dig).2
  | .pushManifest n data mt params => (r.pushManifest lib n data mt params).2

/-- The registry after a sequence of calls, one after another. -/
def Registry.run (r : Registry) (ops : List Op) : Registry := ops.foldl (Registry.step lib) r

@[simp] lemma Registry.run_nil (r : Registry) : r.run lib [] = r := rfl

@[simp] lemma Registry.run_cons (r : Registry) (op : Op) (ops : List Op) :
    r.run lib (op :: ops) = (r.step lib op).run lib ops := rfl

/-- The registries some run reaches from an empty one. -/
inductive Reachable : Registry → Prop where
  | new (cfg : Config) : Reachable (Registry.new cfg)
  | step {r : Registry} (op : Op) : Reachable r → Reachable (r.step lib op)

/-- A run from a reachable registry ends in a reachable registry. -/
lemma Reachable.run {r : Registry} (h : Reachable lib r) : ∀ ops, Reachable lib (r.run lib ops)
  | [] => h
  | op :: ops => (h.step op).run ops

/-- The repository a buffer's session was opened in (the empty name past the heap). -/
def Registry.bufferRepo (r : Registry) (w : Nat) : String := (r.buffers[w]?.map (·.repoName)).getD ""

/-- The entries a call may change: in one repository, some tags, manifests, blobs and upload
ids, and some buffers of the heap. -/
structure Footprint where
  repo : String
  tags : String → Prop := fun _ => False
  manifests : Digest → Prop := fun _ => False
  blobs : Digest → Prop := fun _ => False
  uploads : String → Prop := fun _ => False
  buffers : Nat → Prop := fun _ => False

/-- The footprint of each call, read in the registry it is made on. -/
def Op.footprint (r : Registry) : Op → Footprint
  | .pushBlob n desc _ => { repo := n, blobs := (· = desc.digest) }
  | .pushBlobChunked n =>
    { repo := n, uploads := (· = (newBuffer lib n "" r.buffers.length).id),
      buffers := fun w => (r.getRepo n).uploads "" = some w }
  | .pushBlobChunkedResume n id _ =>
    { repo := n, uploads := (· = (newBuffer lib n id r.buffers.length).id),
      buffers := fun w => (r.getRepo n).uploads id = some w }
  | .write w _ => { repo := r.bufferRepo w, buffers := (· = w) }
  | .commit w dig => { repo := r.bufferRepo w, blobs := (· = dig), buffers := (· = w) }
  | .cancel w => { repo := r.bufferRepo w, buffers := (· = w) }
  | .mountBlob _ toRepo dig => { repo := toRepo, blobs := (· = dig) }
  | .pushManifest n data _ params =>
    { repo := n, manifests := (· = (digestOf params).getD (lib.fromBytes data)),
      tags := (· ∈ tagsOf params) }

/-- `r'` differs from `r` only inside a footprint: the other repositories are as they were, in
the target only the footprint's entries may differ, buffers outside it are untouched, every
buffer stays with its repository and new ones may only be added. -/
structure Frame (fp : Footprint) (r r' : Registry) : Prop where
  other : ∀ n, n ≠ fp.repo → r'.getRepo n = r.getRepo n
  tags : ∀ t, ¬fp.tags t → (r'.getRepo fp.repo).tags t = (r.getRepo fp.repo).tags t
  manifests : ∀ d, ¬fp.manifests d → (r'.getRepo fp.repo).manifests d = (r.getRepo fp.repo).manifests d
  blobs : ∀ d, ¬fp.blobs d → (r'.getRepo fp.repo).blobs d = (r.getRepo fp.repo).blobs d
  uploads : ∀ u, ¬fp.uploads u → (r'.getRepo fp.repo).uploads u = (r.getRepo fp.repo).uploads u
  buffers : ∀ w, w < r.buffers.length → ¬fp.buffers w → r'.buffers[w]? = r.buffers[w]?
  owners : ∀ w, w < r.buffers.length → r'.bufferRepo w = r.bufferRepo w
  length : r.buffers.length ≤ r'.buffers.length
  cfg : r'.cfg = r.cfg

lemma Frame.refl (fp : Footprint) (r : Registry) : Frame fp r r :=
  ⟨fun _ _ => rfl, fun _ _ => rfl, fun _ _ => rfl, fun _ _ => rfl, fun _ _ => rfl,
    fun _ _ _ => rfl, fun _ _ => rfl, Nat.le_refl _, rfl⟩

lemma Frame.trans {fp : Footprint} {r r' r'' : Registry} (h₁ : Frame fp r r') (h₂ : Frame fp r' r'') :
    Frame fp r r'' where
  other n hn := (h₂.other n hn).trans (h₁.other n hn)
  tags t ht := (h₂.tags t ht).trans (h₁.tags t ht)
  manifests d hd := (h₂.manifests d hd).trans (h₁.manifests d hd)
  blobs d hd := (h₂.blobs d hd).trans (h₁.blobs d hd)
  uploads u hu := (h₂.uploads u hu).trans (h₁.uploads u hu)
  buffers w hw hb := (h₂.buffers w (Nat.lt_of_lt_of_le hw h₁.length) hb).trans (h₁.buffers w hw hb)
  owners w hw := (h₂.owners w (Nat.lt_of_lt_of_le hw h₁.length)).trans (h₁.owners w hw)
  length := Nat.le_trans h₁.length h₂.length
  cfg := h₂.cfg.trans h₁.cfg

/-- Creating the target repository changes nothing a frame sees. -/
lemma Frame.withRepo (fp : Footprint) (r : Registry) : Frame fp r (r.withRepo fp.repo) :=
  ⟨fun _ _ => by simp, fun _ _ => by simp, fun _ _ => by simp, fun _ _ => by simp,
    fun _ _ => by simp, fun _ _ _ => rfl, fun _ _ => rfl, Nat.le_refl _, rfl⟩

/-- Storing the target repository changed only inside the footprint. -/
lemma Frame.setRepo {fp : Footprint} {r : Registry} {repo : Repository}
    (ht : ∀ t, ¬fp.tags t → repo.tags t = (r.getRepo fp.repo).tags t)
    (hm : ∀ d, ¬fp.manifests d → repo.manifests d = (r.getRepo fp.repo).manifests d)
    (hb : ∀ d, ¬fp.blobs d → repo.blobs d = (r.getRepo fp.repo).blobs d)
    (hu : ∀ u, ¬fp.uploads u → repo.uploads u = (r.getRepo fp.repo).uploads u) :
    Frame fp r (r.setRepo fp.repo repo) where
  other n hn := by simp [Registry.getRepo_setRepo, hn]
  tags t h := by simpa [Registry.getRepo_setRepo] using ht t h
  manifests d h := by simpa [Registry.getRepo_setRepo] using hm d h
  blobs d h := by simpa [Registry.getRepo_setRepo] using hb d h
  uploads u h := by simpa [Registry.getRepo_setRepo] using hu u h
  buffers _ _ _ := rfl
  owners _ _ := rfl
  length := Nat.le_refl _
  cfg := rfl

/-- Changing a buffer in a way that keeps its repository keeps every buffer's repository. -/
lemma Registry.bufferRepo_modifyBuffer {r : Registry} {w : Nat} {f : Buffer → Buffer}
    (hf : ∀ b, r.buffers[w]? = some b → (f b).repoName = b.repoName) (v : Nat) :
    (r.modifyBuffer w f).bufferRepo v = r.bufferRepo v := by
  unfold bufferRepo
  rw [modifyBuffer_buffers]
  split_ifs with h
  · subst h
    cases hb : r.buffers[w]? <;> simp [hb, hf]
  · rfl

/-- Changing a buffer of the footprint, in a way that keeps its repository. -/
lemma Frame.modifyBuffer {fp : Footprint} {r : Registry} {w : Nat} {f : Buffer → Buffer}
    (hw : fp.buffers w) (hf : ∀ b, r.buffers[w]? = some b → (f b).repoName = b.repoName) :
    Frame fp r (r.modifyBuffer w f) where
  other _ _ := rfl
  tags _ _ := rfl
  manifests _ _ := rfl
  blobs _ _ := rfl
  uploads _ _ := rfl
  buffers v _ hv := by
    rw [Registry.modifyBuffer_buffers, if_neg]
    rintro rfl
    exact hv hw
  owners v _ := Registry.bufferRepo_modifyBuffer hf v
  length := by simp [Registry.modifyBuffer]
  cfg := rfl

/-- Allocating a buffer at the end of the heap and registering it in the target. -/
lemma Frame.alloc {fp : Footprint} {r : Registry} {b : Buffer} {repo : Repository} (f : Buffer → Buffer)
    (ht : repo.tags = (r.getRepo fp.repo).tags) (hm : repo.manifests = (r.getRepo fp.repo).manifests)
    (hb : repo.blobs = (r.getRepo fp.repo).blobs)
    (hu : ∀ u, ¬fp.uploads u → repo.uploads u = (r.getRepo fp.repo).uploads u) :
    Frame fp r ((Registry.setRepo { r with buffers := r.buffers ++ [b] } fp.repo repo).modifyBuffer
      r.buffers.length f) where
  other n hn := by simp [Registry.getRepo_setRepo, hn, Registry.getRepo]
  tags t _ := by simp [Registry.getRepo_setRepo, ht]
  manifests d _ := by simp [Registry.getRepo_setRepo, hm]
  blobs d _ := by simp [Registry.getRepo_setRepo, hb]
  uploads u h := by simpa [Registry.getRepo_setRepo] using hu u h
  buffers v hv _ := by
    rw [Registry.modifyBuffer_buffers, if_neg (Nat.ne_of_gt hv)]
    exact List.getElem?_append_left hv
  owners v hv := by
    simp only [Registry.bufferRepo, Registry.modifyBuffer_buffers, if_neg (Nat.ne_of_gt hv)]
    rw [Registry.setRepo_buffers, List.getElem?_append_left hv]
  length := by simp [Registry.modifyBuffer]
  cfg := rfl

/-- `PushBlob` writes only the blob under the descriptor's digest. -/
lemma Registry.pushBlob_frame (r : Registry) (n : String) (desc : Descriptor)
    (content : Except String Bytes) :
    Frame ((Op.pushBlob n desc content).footprint lib r) r (r.pushBlob lib n desc content).2 := by
  rcases hp : r.pushBlob lib n desc content with ⟨res, r'⟩
  rcases pushBlob_spec lib hp with ⟨e, -, rfl⟩ | ⟨-, -, data, -, -, rfl⟩
  · exact Frame.refl _ _
  · simp only [Op.footprint]
    exact Frame.setRepo (fun _ _ => rfl) (fun _ _ => rfl) (fun _ hd => by simp_all) (fun _ _ => rfl)

/-- `PushBlobChunkedResume` writes only the upload entry of its id and the buffer it returns. -/
lemma Registry.pushBlobChunkedResume_frame (r : Registry) (n id : String) (offset : Int) :
    Frame ((Op.pushBlobChunkedResume n id offset).footprint lib r) r
      (r.pushBlobChunkedResume lib n id offset).2 := by
  rcases hp : r.pushBlobChunkedResume lib n id offset with ⟨res, r'⟩
  simp only [Op.footprint]
  rcases pushBlobChunkedResume_spec lib hp with ⟨e, -, rfl⟩ | ⟨-, w, -, ⟨hu, rfl⟩ | ⟨-, rfl, rfl⟩⟩
  · exact Frame.refl _ _
  · exact (Frame.withRepo _ r).trans (Frame.modifyBuffer hu fun _ _ => rfl)
  · exact Frame.alloc _ rfl rfl rfl fun u hu => by simp_all [Repository.setUpload, Function.update_apply]

/-- A write through a writer changes only its buffer. -/
lemma Registry.write_frame (r : Registry) (w : Nat) (data : Bytes) :
    Frame ((Op.write w data).footprint lib r) r (r.write w data).2 := by
  rcases hp : r.write w data with ⟨res, r'⟩
  rcases write_spec hp with ⟨e, -, rfl⟩ | ⟨b, b', hb, hw, -, rfl⟩
  · exact Frame.refl _ _
  · refine Frame.modifyBuffer rfl fun b₀ hb₀ => ?_
    rw [hb] at hb₀
    cases hb₀
    rw [(Buffer.write_ok hw).2.2]

/-- A commit changes only its buffer and the blob under the committed digest, in the repository
the session was opened in. -/
lemma Registry.commit_frame (r : Registry) (w : Nat) (dig : Digest) :
    Frame ((Op.commit w dig).footprint lib r) r (r.commit lib w dig).2 := by
  rcases hp : r.commit lib w dig with ⟨res, r'⟩
  rcases commit_spec lib hp with ⟨e, -, rfl⟩ | ⟨b, hb, -, -, -, rfl⟩
  · exact Frame.refl _ _
  · have hrepo : r.bufferRepo w = b.repoName := by simp [bufferRepo, hb]
    simp only [Op.footprint, hrepo]
    refine (Frame.modifyBuffer rfl fun b₀ hb₀ => ?_).trans (Frame.setRepo (fun _ _ => rfl) (fun _ _ => rfl)
      (fun d hd => ?_) (fun _ _ => rfl))
    · rw [hb] at hb₀
      cases hb₀
      rfl
    · simp_all

/-- A cancel changes only its buffer. -/
lemma Registry.cancel_frame (r : Registry) (w : Nat) :
    Frame ((Op.cancel w).footprint lib r) r (r.cancel w) :=
  Frame.modifyBuffer rfl fun b _ => by split <;> rfl

/-- `MountBlob` writes only the blob under the digest in the target repository. -/
lemma Registry.mountBlob_frame (r : Registry) (fromRepo toRepo : String) (dig : Digest) :
    Frame ((Op.mountBlob fromRepo toRepo dig).footprint lib r) r
      (r.mountBlob lib fromRepo toRepo dig).2 := by
  rcases hp : r.mountBlob lib fromRepo toRepo dig with ⟨res, r'⟩
  simp only [Op.footprint]
  rcases mountBlob_spec lib hp with ⟨e, -, rfl | rfl⟩ | ⟨-, b, -, -, rfl⟩
  · exact Frame.refl _ _
  · exact Frame.withRepo _ r
  · exact Frame.setRepo (fun _ _ => rfl) (fun _ _ => rfl) (fun _ hd => by simp_all) (fun _ _ => rfl)

/-- `PushManifest` writes only the manifest under its digest and the tags it names. -/
lemma Registry.pushManifest_frame (r : Registry) (n : String) (data : Bytes) (mt : String)
    (params : Option PushManifestParameters) :
    Frame ((Op.pushManifest n data mt params).footprint lib r) r
      (r.pushManifest lib n data mt params).2 := by
  rcases hp : r.pushManifest lib n data mt params with ⟨res, r'⟩
  simp only [Op.footprint]
  rcases pushManifest_spec lib hp with
    ⟨e, -, rfl | rfl⟩ | ⟨-, dig, hdig, ⟨d, -, -, rfl⟩ | ⟨-, -, info, -, -, rfl⟩⟩
  · exact Frame.refl _ _
  · exact Frame.withRepo _ r
  · exact Frame.withRepo _ r
  · rw [← (manifestDigest_ok lib hdig).1]
    exact Frame.setRepo (fun _ ht => by simp_all) (fun _ hd => by simp_all) (fun _ _ => by simp)
      (fun _ _ => by simp)

/-- Every call changes the registry only inside its footprint. -/
lemma Registry.step_frame (r : Registry) (op : Op) : Frame (op.footprint lib r) r (r.step lib op) := by
  cases op with
  | pushBlob n desc content => exact r.pushBlob_frame lib n desc content
  | pushBlobChunked n => exact r.pushBlobChunkedResume_frame lib n "" 0
  | pushBlobChunkedResume n id offset => exact r.pushBlobChunkedResume_frame lib n id offset
  | write w data => exact r.write_frame lib w data
  | commit w dig => exact r.commit_frame lib w dig
  | cancel w => exact r.cancel_frame lib w
  | mountBlob fromRepo toRepo dig => exact r.mountBlob_frame lib fromRepo toRepo dig
  | pushManifest n data mt params => exact r.pushManifest_frame lib n data mt params

/-- No call changes the configuration. -/
@[simp] lemma Registry.step_cfg (r : Registry) (op : Op) : (r.step lib op).cfg = r.cfg :=
  (r.step_frame lib op).cfg

/-- Every call changes the registry only inside its footprint, and a mount writes there the
source repository's entry. -/
theorem step_touches_only_footprint (r : Registry) (op : Op) :
    Frame (op.footprint lib r) r (r.step lib op) ∧
    ∀ fromRepo toRepo dig, op = .mountBlob fromRepo toRepo dig →
      ((r.step lib op).getRepo toRepo).blobs dig = (r.getRepo toRepo).blobs dig ∨
      ((r.step lib op).getRepo toRepo).blobs dig = (r.getRepo fromRepo).blobs dig := by
  refine ⟨r.step_frame lib op, ?_⟩
  · rintro fromRepo toRepo dig rfl
    rcases hp : r.mountBlob lib fromRepo toRepo dig with ⟨res, r'⟩
    simp only [Registry.step, hp]
    rcases Registry.mountBlob_spec lib hp with ⟨e, -, rfl | rfl⟩ | ⟨-, b, hb, -, rfl⟩
    · exact .inl rfl
    · exact .inl (by simp)
    · rw [Registry.blobForDigest_eq_ok, Registry.getRepo_withRepo] at hb
      exact .inr (by simp [Registry.getRepo_setRepo, hb])

end OciRegistry.Ocimem
