import OciRegistry.Ocimem.Invariants
import OciRegistry.Ocimem.Sessions

/-!
# The in-memory registry: what a run never loses

The writers of `writer.go` only ever add to the registry: nothing in it deletes a tag, a
manifest, a blob, an upload id or a session. A push may overwrite an entry, but with content
addressing and digests that do not collide, only with the same bytes: a blob is stored under
the canonical digest of its bytes, a manifest under a digest its bytes verify against
(`Reachable.contentAddressed`). A session's bytes only grow, by writes at their end, and a closed
session no longer changes. `Registry.Grows` says all of this of two registries, and
`run_loses_nothing` shows it of every run from a reachable registry.

What a call does to one session is said once (`Registry.step_buffer`): it leaves it, records a
resume's offset, appends a write, cancels it, or commits it and stores its bytes as a blob of
the repository it was opened in. With `Registry.Grows` this gives the guarantee of a commit:
once `Commit` has returned a descriptor, the session's bytes stay stored under its digest over
every later run (`committed_upload_kept`).
-/

namespace OciRegistry.Ocimem

variable (lib : Lib)

/-- Under collision-free digests the canonical digest of some bytes determines them. -/
lemma Lib.CollisionFree.fromBytes_injective {lib : Lib} (h : lib.CollisionFree) :
    Function.Injective lib.fromBytes := fun a b hab =>
  h _ a b (lib.verified_fromBytes a) (hab ▸ lib.verified_fromBytes b)

/-! ## Repositories -/

/-- A repository keeps the content of another: its tags are still set, its manifests and blobs
still stored with the same bytes (their media types may differ). -/
structure Repository.KeepsContent (a b : Repository) : Prop where
  tags : ∀ t, (a.tags t).isSome → (b.tags t).isSome
  manifests : ∀ d x, a.manifests d = some x → ∃ x', b.manifests d = some x' ∧ x'.data = x.data
  blobs : ∀ d x, a.blobs d = some x → ∃ x', b.blobs d = some x' ∧ x'.data = x.data

namespace Repository.KeepsContent

lemma refl (a : Repository) : a.KeepsContent a :=
  ⟨fun _ h => h, fun _ x h => ⟨x, h, rfl⟩, fun _ x h => ⟨x, h, rfl⟩⟩

lemma trans {a b c : Repository} (h₁ : a.KeepsContent b) (h₂ : b.KeepsContent c) : a.KeepsContent c where
  tags t h := h₂.tags t (h₁.tags t h)
  manifests d x h := let ⟨y, hy, hyx⟩ := h₁.manifests d x h
    let ⟨z, hz, hzy⟩ := h₂.manifests d y hy; ⟨z, hz, hzy.trans hyx⟩
  blobs d x h := let ⟨y, hy, hyx⟩ := h₁.blobs d x h
    let ⟨z, hz, hzy⟩ := h₂.blobs d y hy; ⟨z, hz, hzy.trans hyx⟩

lemma of_eq {a b : Repository} (ht : b.tags = a.tags) (hm : b.manifests = a.manifests)
    (hb : b.blobs = a.blobs) : a.KeepsContent b :=
  ⟨fun t h => by rwa [ht], fun _ x h => ⟨x, by rwa [hm], rfl⟩, fun _ x h => ⟨x, by rwa [hb], rfl⟩⟩

end Repository.KeepsContent

section Store

variable {lib} {repo : Repository} (hca : repo.ContentAddressed lib) (hcf : lib.CollisionFree)
include hca hcf

/-- Storing a blob under the canonical digest of its bytes keeps a content-addressed
repository's content. -/
lemma Repository.keepsContent_setBlob {d : Digest} {x : Blob} (hx : lib.fromBytes x.data = d) :
    repo.KeepsContent (repo.setBlob d x) where
  tags _ h := h
  manifests _ y h := ⟨y, h, rfl⟩
  blobs d' y h := by
    by_cases he : d' = d
    · subst he
      exact ⟨x, by simp, hcf.fromBytes_injective (hx.trans (hca.blobs _ y h).symm)⟩
    · exact ⟨y, by simp [he, h], rfl⟩

/-- Storing a manifest its bytes verify against, with its tags, keeps a content-addressed
repository's content. -/
lemma Repository.keepsContent_store {dig : Digest} {mt : String} {data : Bytes} {info : ManifestInfo}
    (tags : List String) (desc : Descriptor) (hver : lib.verified dig data = true) :
    repo.KeepsContent ((repo.setManifest dig { mediaType := mt, data, info }).setTags tags desc) where
  tags t h := by
    rw [setManifest_setTags_tags]
    split_ifs
    exacts [rfl, h]
  manifests d y h := by
    by_cases he : d = dig
    · subst he
      exact ⟨{ mediaType := mt, data, info }, by simp, hcf _ _ _ hver (hca.manifests _ y h).2⟩
    · exact ⟨y, by simp [he, h], rfl⟩
  blobs _ y h := ⟨y, by simpa using h, rfl⟩

end Store

/-- In a reachable registry a call keeps the content of every repository, given digests that do
not collide. -/
lemma Registry.step_keepsContent (hcf : lib.CollisionFree) {r : Registry} (hr : Reachable lib r)
    (op : Op) (n : String) : (r.getRepo n).KeepsContent ((r.step lib op).getRepo n) := by
  have hca := hr.contentAddressed lib
  have transfer : ∀ {r₀ : Registry}, (r.getRepo n).KeepsContent (r₀.getRepo n) →
      SameContent r₀ (r.step lib op) → (r.getRepo n).KeepsContent ((r.step lib op).getRepo n) :=
    fun h hs => h.trans (.of_eq (hs n).1 (hs n).2.1 (hs n).2.2)
  rcases r.step_content lib op with hs | ⟨m, d, x, hx, hs⟩ |
    ⟨m, dig, mt, data, info, tags, -, hver, -, -, -, hs⟩
  · exact transfer (.refl _) hs
  all_goals
    refine transfer ?_ hs
    rw [Registry.getRepo_setRepo]
    split_ifs with hn
    swap
    · exact .refl _
    subst hn
  · refine (r.getRepo n).keepsContent_setBlob (hca n) hcf ?_
    rcases hx with hx | ⟨m', hm'⟩
    exacts [hx, (hca m').blobs d x hm']
  · exact (r.getRepo n).keepsContent_store (hca n) hcf tags _ hver

/-! ## Sessions -/

/-- A session after some calls: in the same repository under the same id, with its bytes at most
extended; a closed session keeps its state and its bytes. -/
def Buffer.Extends (b b' : Buffer) : Prop :=
  b'.repoName = b.repoName ∧ b'.id = b.id ∧ b.buf <+: b'.buf ∧
    (b.Terminal → b'.state = b.state ∧ b'.buf = b.buf)

lemma Buffer.Extends.refl (b : Buffer) : b.Extends b :=
  ⟨rfl, rfl, List.prefix_refl _, fun _ => ⟨rfl, rfl⟩⟩

lemma Buffer.Extends.trans {a b c : Buffer} (h₁ : a.Extends b) (h₂ : b.Extends c) : a.Extends c :=
  ⟨h₂.1.trans h₁.1, h₂.2.1.trans h₁.2.1, h₁.2.2.1.trans h₂.2.2.1, fun ht =>
    have hb := h₁.2.2.2 ht
    have hc := h₂.2.2.2 (by rwa [Buffer.Terminal, hb.1])
    ⟨hc.1.trans hb.1, hc.2.trans hb.2⟩⟩

/-- Everything a call can do to a session of the heap: leave it, record a resume's offset,
append a write at the offset it expects, cancel it, or commit it under the canonical digest of
its bytes and store them as a blob of its repository under that digest. The last three need an
open session. -/
lemma Registry.step_buffer {r : Registry} {w : Nat} {b : Buffer} (h : r.buffers[w]? = some b)
    (op : Op) : ∃ b', (r.step lib op).buffers[w]? = some b' ∧
      (b' = b ∨ (∃ offset, b' = setOffset offset b) ∨
        (∃ data, op = .write w data ∧ b.state = .open ∧
          b' = { b with buf := b.buf ++ data, checkStartOffset := b.buf.length + data.length }) ∨
        (b.state = .open ∧ b' = { b with state := .cancelled }) ∨
        (b.state = .open ∧ b' = { b with state := .committed (uploadDesc (lib.fromBytes b.buf) b) } ∧
          ((r.step lib op).getRepo b.repoName).blobs (lib.fromBytes b.buf) =
            some { mediaType := uploadMediaType, data := b.buf })) := by
  by_cases hfp : (op.footprint lib r).buffers w
  swap
  · have hw : w < r.buffers.length := (List.getElem?_eq_some_iff.1 h).1
    exact ⟨b, ((r.step_frame lib op).buffers w hw hfp).trans h, .inl rfl⟩
  have resume : ∀ n id offset, (r.getRepo n).uploads id = some w →
      ∃ b', (r.pushBlobChunkedResume lib n id offset).2.buffers[w]? = some b' ∧
        (b' = b ∨ ∃ offset, b' = setOffset offset b) := fun n id offset hu => by
    rcases hp : r.pushBlobChunkedResume lib n id offset with ⟨res, r'⟩
    rcases pushBlobChunkedResume_spec lib hp with ⟨e, -, rfl⟩ | ⟨-, w', -, ⟨hu', rfl⟩ | ⟨hu', -⟩⟩
    · exact ⟨b, h, .inl rfl⟩
    · obtain rfl : w' = w := Option.some.inj (hu'.symm.trans hu)
      exact ⟨setOffset offset b, by simp [modifyBuffer_buffers, h], .inr ⟨offset, rfl⟩⟩
    · simp [hu] at hu'
  cases op with
  | pushBlob | mountBlob | pushManifest => exact absurd hfp id
  | pushBlobChunked n =>
    obtain ⟨b', hb', hor⟩ := resume n "" 0 hfp
    exact ⟨b', hb', hor.imp_right .inl⟩
  | pushBlobChunkedResume n id offset =>
    obtain ⟨b', hb', hor⟩ := resume n id offset hfp
    exact ⟨b', hb', hor.imp_right .inl⟩
  | write v data =>
    obtain rfl : w = v := hfp
    rcases hp : r.write w data with ⟨res, r'⟩
    simp only [step, hp]
    rcases write_spec hp with ⟨e, -, rfl⟩ | ⟨b₀, b', hb₀, hw, -, rfl⟩
    · exact ⟨b, h, .inl rfl⟩
    obtain rfl := Option.some.inj (hb₀.symm.trans h)
    obtain ⟨hopen, -, rfl⟩ := Buffer.write_ok hw
    exact ⟨_, by simp [modifyBuffer_buffers, hb₀], .inr (.inr (.inl ⟨data, rfl, hopen, rfl⟩))⟩
  | commit v dig =>
    obtain rfl : w = v := hfp
    rcases hp : r.commit lib w dig with ⟨res, r'⟩
    simp only [step, hp]
    rcases commit_spec lib hp with ⟨e, -, rfl⟩ | ⟨b₀, hb₀, hopen, rfl, -, rfl⟩
    · exact ⟨b, h, .inl rfl⟩
    obtain rfl := Option.some.inj (hb₀.symm.trans h)
    exact ⟨_, by simp [modifyBuffer_buffers, hb₀],
      .inr (.inr (.inr (.inr ⟨hopen, rfl, by simp [getRepo_setRepo]⟩)))⟩
  | cancel v =>
    obtain rfl : w = v := hfp
    refine ⟨_, by rw [step, cancel, modifyBuffer_buffers, if_pos rfl, h]; rfl, ?_⟩
    dsimp only
    split
    · exact .inr (.inr (.inr (.inl ⟨‹_›, rfl⟩)))
    · exact .inl rfl

/-- A call extends every session of the heap. -/
lemma Registry.step_extends {r : Registry} {w : Nat} {b : Buffer} (h : r.buffers[w]? = some b)
    (op : Op) : ∃ b', (r.step lib op).buffers[w]? = some b' ∧ b.Extends b' := by
  obtain ⟨b', hb', hcases⟩ := r.step_buffer lib h op
  refine ⟨b', hb', ?_⟩
  rcases hcases with rfl | ⟨offset, rfl⟩ | ⟨data, -, hopen, rfl⟩ | ⟨hopen, rfl⟩ | ⟨hopen, rfl, -⟩
  · exact .refl _
  · exact ⟨rfl, rfl, List.prefix_refl _, fun _ => ⟨rfl, rfl⟩⟩
  · exact ⟨rfl, rfl, List.prefix_append _ _, fun ht => absurd hopen ht⟩
  · exact ⟨rfl, rfl, List.prefix_refl _, fun ht => absurd hopen ht⟩
  · exact ⟨rfl, rfl, List.prefix_refl _, fun ht => absurd hopen ht⟩

/-! ## The bytes of a session -/

/-- The bytes a call on `r` appends to session `w`: those of a write through `w` that is
accepted. -/
def Op.acceptedWrite (r : Registry) (w : Nat) : Op → Option Bytes
  | .write v data =>
    if v = w then
      match (r.write v data).1 with
      | .ok _ => some data
      | .error _ => none
    else none
  | _ => none

/-- The data of the writes through session `w` that a run from `r` accepts, in the order it
makes them: what the session should hold, whoever makes the calls. -/
def Registry.acceptedWrites (r : Registry) (w : Nat) : List Op → List Bytes
  | [] => []
  | op :: ops => (op.acceptedWrite r w).toList ++ (r.step lib op).acceptedWrites w ops

/-- A call appends to a session exactly the bytes of an accepted write through it. -/
lemma Registry.step_buf {r : Registry} {w : Nat} {b : Buffer} (h : r.buffers[w]? = some b)
    (op : Op) : ∃ b', (r.step lib op).buffers[w]? = some b' ∧
      b'.buf = b.buf ++ (op.acceptedWrite r w).getD [] := by
  cases op with
  | write v data =>
    simp only [step, Op.acceptedWrite]
    rcases hp : r.write v data with ⟨res, r'⟩
    rcases write_spec hp with ⟨e, rfl, rfl⟩ | ⟨b₀, b', hb₀, hw, rfl, rfl⟩
    · exact ⟨b, h, by simp⟩
    by_cases hv : v = w
    · subst hv
      obtain rfl := Option.some.inj (hb₀.symm.trans h)
      exact ⟨b', by simp [modifyBuffer_buffers, hb₀], by simp [(Buffer.write_ok hw).2.2]⟩
    · exact ⟨b, by simp [modifyBuffer_buffers, hv, h], by simp [hv]⟩
  | _ =>
    obtain ⟨b', hb', hcases⟩ := r.step_buffer lib h _
    refine ⟨b', hb', ?_⟩
    rcases hcases with rfl | ⟨_, rfl⟩ | ⟨_, hop, -⟩ | ⟨-, rfl⟩ | ⟨-, rfl, -⟩
    all_goals first | cases hop | simp [Op.acceptedWrite, setOffset]

/-- Over every run, whoever makes the calls and in whatever order, a session holds its bytes
before the run followed by the data of the writes through it that were accepted, in the order
they were made: no accepted write is lost, repeated, reordered or mixed with another session's. -/
theorem session_holds_accepted_writes {r : Registry} {w : Nat} {b : Buffer}
    (h : r.buffers[w]? = some b) (ops : List Op) :
    ∃ b', (r.run lib ops).buffers[w]? = some b' ∧
      b'.buf = b.buf ++ (r.acceptedWrites lib w ops).flatten := by
  induction ops generalizing r b with
  | nil => exact ⟨b, h, by simp [Registry.acceptedWrites]⟩
  | cons op ops ih =>
    obtain ⟨b₁, h₁, hbuf₁⟩ := r.step_buf lib h op
    obtain ⟨b', h', hbuf'⟩ := ih h₁
    refine ⟨b', h', ?_⟩
    rw [hbuf', hbuf₁, Registry.acceptedWrites, List.flatten_append]
    cases op.acceptedWrite r w <;> simp

/-! ## Runs -/

/-- Nothing of `r` is lost in `r'`: every repository keeps its content and its upload ids, and
every session of the heap is still there, extended. -/
structure Registry.Grows (r r' : Registry) : Prop where
  content : ∀ n, (r.getRepo n).KeepsContent (r'.getRepo n)
  uploads : ∀ n u, ((r.getRepo n).uploads u).isSome → ((r'.getRepo n).uploads u).isSome
  buffers : ∀ (w : Nat) (b : Buffer), r.buffers[w]? = some b → ∃ b', r'.buffers[w]? = some b' ∧ b.Extends b'

lemma Registry.Grows.refl (r : Registry) : r.Grows r :=
  ⟨fun _ => .refl _, fun _ _ h => h, fun _ b h => ⟨b, h, .refl _⟩⟩

lemma Registry.Grows.trans {r r' r'' : Registry} (h₁ : r.Grows r') (h₂ : r'.Grows r'') : r.Grows r'' where
  content n := (h₁.content n).trans (h₂.content n)
  uploads n u h := h₂.uploads n u (h₁.uploads n u h)
  buffers w b h := let ⟨b', hb', he⟩ := h₁.buffers w b h
    let ⟨b'', hb'', he'⟩ := h₂.buffers w b' hb'; ⟨b'', hb'', he.trans he'⟩

/-- In a reachable registry, with digests that do not collide, a call loses nothing. -/
lemma Registry.step_grows (hcf : lib.CollisionFree) {r : Registry} (hr : Reachable lib r) (op : Op) :
    r.Grows (r.step lib op) :=
  ⟨r.step_keepsContent lib hcf hr op, fun _ _ h => r.step_uploads lib h op,
    fun _ _ h => r.step_extends lib h op⟩

/-- Over every run from a reachable registry, with digests that do not collide, nothing is lost:
every tag stays set, every manifest and blob stays stored with the same bytes, every upload id
stays registered, and every session stays in the heap, in its repository under its id, its
bytes at most extended and, once it is closed, its state and bytes unchanged. -/
theorem run_loses_nothing (hcf : lib.CollisionFree) {r : Registry} (hr : Reachable lib r)
    (ops : List Op) : r.Grows (r.run lib ops) := by
  induction ops generalizing r with
  | nil => exact .refl r
  | cons op ops ih => exact (r.step_grows lib hcf hr op).trans (ih (hr.step op))

/-- A registry that has seen no push yet, then a re-push of the blob `[1]` under media type `b`. -/
theorem repushed_loses_nothing :
    repushed.Grows (repushed.run Lib.reference
      [.pushBlob "repo" { mediaType := "b", digest := Lib.reference.fromBytes [1], size := 1 } (.ok [1])]) :=
  run_loses_nothing Lib.reference Lib.reference_collisionFree ((Reachable.new _).run _ _) _

/-! ## Committed uploads -/

/-- Session `w`, opened in `n`, is committed holding `data` under the descriptor of `data`, and
`n` holds `data` under its digest. -/
def Registry.UploadStored (r : Registry) (w : Nat) (n : String) (data : Bytes) : Prop :=
  ∃ b, r.buffers[w]? = some b ∧ b.repoName = n ∧ b.buf = data ∧
    b.state = .committed { mediaType := uploadMediaType, digest := lib.fromBytes data, size := data.length } ∧
    ∃ x, (r.getRepo n).blobs (lib.fromBytes data) = some x ∧ x.data = data

lemma Registry.Grows.uploadStored {r r' : Registry} (hg : r.Grows r') {w : Nat} {n : String}
    {data : Bytes} (h : r.UploadStored lib w n data) : r'.UploadStored lib w n data := by
  obtain ⟨b, hb, hrepo, hbuf, hs, x, hx, hxd⟩ := h
  obtain ⟨b', hb', hrepo', -, -, hterm⟩ := hg.buffers w b hb
  obtain ⟨hs', hbuf'⟩ := hterm (by rw [Buffer.Terminal, hs]; exact nofun)
  obtain ⟨x', hx', hxd'⟩ := (hg.content n).blobs _ x hx
  exact ⟨b', hb', hrepo'.trans hrepo, hbuf'.trans hbuf, hs'.trans hs, x', hx', hxd'.trans hxd⟩

/-- A commit of the digest of an open session's bytes returns their descriptor, and leaves the
session committed and its bytes stored in its repository. -/
lemma Registry.commit_open {r : Registry} {w : Nat} {b : Buffer} (hb : r.buffers[w]? = some b)
    (hopen : b.state = .open) :
    (r.commit lib w (lib.fromBytes b.buf)).1 = .ok (uploadDesc (lib.fromBytes b.buf) b) ∧
      (r.commit lib w (lib.fromBytes b.buf)).2.UploadStored lib w b.repoName b.buf := by
  simp only [commit, hb, hopen, if_true]
  exact ⟨rfl, { b with state := .committed (uploadDesc (lib.fromBytes b.buf) b) },
    by simp [Registry.commitUpload_committed, Registry.modifyBuffer_buffers, hb, uploadDesc], rfl, rfl, rfl,
    { mediaType := uploadMediaType, data := b.buf },
    by simp [Registry.commitUpload_committed, Registry.getRepo_setRepo, uploadDesc], rfl⟩

/-- Once `Commit` through session `w` of a reachable registry has returned a descriptor, with
digests that do not collide, over every later run the session stays committed with that
descriptor, whose digest and size are those of its bytes, and its repository holds a blob of
exactly those bytes under that digest. -/
theorem committed_upload_kept (hcf : lib.CollisionFree) {r : Registry} (hr : Reachable lib r)
    {w : Nat} {dig : Digest} {desc : Descriptor} (h : (r.commit lib w dig).1 = .ok desc)
    (ops : List Op) :
    ∃ b, ((r.commit lib w dig).2.run lib ops).buffers[w]? = some b ∧ b.state = .committed desc ∧
      desc.digest = lib.fromBytes b.buf ∧ desc.size = b.buf.length ∧
      ∃ x, (((r.commit lib w dig).2.run lib ops).getRepo b.repoName).blobs desc.digest = some x ∧
        x.data = b.buf := by
  obtain ⟨b₀, hb₀, hopen, rfl, rfl⟩ : ∃ b₀, r.buffers[w]? = some b₀ ∧ b₀.state = .open ∧
      lib.fromBytes b₀.buf = dig ∧ uploadDesc dig b₀ = desc := by
    rcases hp : r.commit lib w dig with ⟨res, r'⟩
    rw [hp] at h
    rcases Registry.commit_spec lib hp with ⟨e, rfl, -⟩ | ⟨b₀, hb₀, hopen, hd, rfl, -⟩
    · cases h
    · cases h
      exact ⟨b₀, hb₀, hopen, hd, rfl⟩
  have hr' : Reachable lib (r.commit lib w (lib.fromBytes b₀.buf)).2 := hr.step (.commit w _)
  have h₀ := (r.commit_open lib hb₀ hopen).2
  generalize (r.commit lib w (lib.fromBytes b₀.buf)).2 = r' at hr' h₀ ⊢
  have hrun : (r'.run lib ops).UploadStored lib w b₀.repoName b₀.buf := by
    induction ops generalizing r' with
    | nil => exact h₀
    | cons op ops ih => exact ih _ (hr'.step op) ((r'.step_grows lib hcf hr' op).uploadStored lib h₀)
  obtain ⟨b, hb, hrepo, hbuf, hs, x, hx, hxd⟩ := hrun
  exact ⟨b, hb, hs, by rw [hbuf]; rfl, by rw [hbuf]; rfl, x, by rw [hrepo]; exact hx, hxd.trans hbuf.symm⟩

/-- An upload `u` opened in `repo` and written `[1]`, not yet committed. -/
def writtenUpload : Registry :=
  (Registry.new {}).run Lib.reference [.pushBlobChunkedResume "repo" "u" 0, .write 0 [1]]

theorem writtenUpload_commit_kept :
    ∃ b, ((writtenUpload.commit Lib.reference 0 (Lib.reference.fromBytes [1])).2.run Lib.reference
        [.pushBlob "repo" { mediaType := "b", digest := Lib.reference.fromBytes [1], size := 1 } (.ok [1])]).buffers[0]? =
          some b ∧
      b.state = .committed { mediaType := uploadMediaType, digest := Lib.reference.fromBytes [1], size := 1 } ∧
      (Lib.reference.fromBytes [1] = Lib.reference.fromBytes b.buf) ∧ (1 : Int) = b.buf.length ∧
      ∃ x, (((writtenUpload.commit Lib.reference 0 (Lib.reference.fromBytes [1])).2.run Lib.reference
        [.pushBlob "repo" { mediaType := "b", digest := Lib.reference.fromBytes [1], size := 1 } (.ok [1])]).getRepo
          b.repoName).blobs (Lib.reference.fromBytes [1]) = some x ∧ x.data = b.buf :=
  committed_upload_kept Lib.reference Lib.reference_collisionFree ((Reachable.new _).run _ _) (by rfl) _

/-- Two clients writing through sessions `0` and `1` of one repository, interleaved, then a write
that is refused at a stale offset. -/
def twoSessions : List Op :=
  [.pushBlobChunkedResume "repo" "v" 0, .write 1 [2], .write 0 [3], .write 1 [4],
    .pushBlobChunkedResume "repo" "u" 0, .write 0 [5]]

theorem writtenUpload_holds_accepted_writes :
    ∃ b', (writtenUpload.run Lib.reference twoSessions).buffers[0]? = some b' ∧
      b'.buf = [1] ++ (writtenUpload.acceptedWrites Lib.reference 0 twoSessions).flatten :=
  session_holds_accepted_writes Lib.reference
    (show writtenUpload.buffers[0]? = some { repoName := "repo", id := "u", buf := [1], checkStartOffset := 1 }
      from rfl) _

end OciRegistry.Ocimem
