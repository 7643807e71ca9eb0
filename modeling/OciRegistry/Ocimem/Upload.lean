import OciRegistry.Ocimem.Writer

/-!
# The in-memory registry: chunked uploads

Model of the chunked-upload half of `writer.go`, `PushBlobChunked` and
`PushBlobChunkedResume` with the commit function they give `NewBuffer`, and of the `Buffer`
methods they lean on. `buffer.go` is not under `src/`: `NewBuffer`, `Write`, `GetBlob`, `Commit`
and `Cancel` are modelled from the spec's upload state machine (§4.3): a session is open,
then committed or cancelled, both terminal; a write is accepted at the expected offset only; a
commit checks the canonical digest of the bytes, then runs the commit function.

A writer is the index of its buffer in the heap `Registry.buffers`. `PushBlobChunkedResume`
never removes a buffer from a repository's `uploads`, and neither does the commit function:
an upload id, once registered, stays (`Registry.pushBlobChunkedResume_spec`).
-/

namespace OciRegistry.Ocimem

variable (lib : Lib)

/-- Modelled from the spec: `NewBuffer`, an open, empty buffer with the id asked for or, for the
empty id, the engine's next fresh one ("fresh UploadID, opaque, monotonically unique per engine"). -/
def newBuffer (repoName id : String) (n : Nat) : Buffer :=
  { repoName, id := if id = "" then lib.uploadID n else id }

/-- A repository with an upload id registered to a buffer (Go `repo.uploads[id] = b`). -/
def Repository.setUpload (repo : Repository) (id : String) (w : Nat) : Repository :=
  { repo with uploads := Function.update repo.uploads id w }

/-- `b = NewBuffer(commit, id); repo.uploads[b.ID()] = b`: a new buffer at the end of the heap,
registered under its id in the repository. -/
def Registry.newUpload (r : Registry) (repoName : String) (repo : Repository) (id : String) :
    Nat × Registry :=
  let w := r.buffers.length
  let b := newBuffer lib repoName id w
  (w, Registry.setRepo { r with buffers := r.buffers ++ [b] } repoName (repo.setUpload b.id w))

/-- The offset a resume records in the buffer it returns (Go `b.checkStartOffset = offset`). -/
def setOffset (offset : Int) (b : Buffer) : Buffer := { b with checkStartOffset := offset }

/-- `Registry.PushBlobChunkedResume`: the buffer of an upload id, or a new one when there is none,
told the offset the next write must start at. -/
def Registry.pushBlobChunkedResume (r : Registry) (repoName id : String) (offset : Int) :
    Except Error Nat × Registry :=
  match r.makeRepo repoName with
  | .error e => (.error e, r)
  | .ok (repo, r) =>
    let (w, r) := match repo.uploads id with
      | some w => (w, r)
      | none => r.newUpload lib repoName repo id
    (.ok w, r.modifyBuffer w (setOffset offset))

/-- `Registry.PushBlobChunked`: a resume with the empty id at offset zero. -/
def Registry.pushBlobChunked (r : Registry) (repoName : String) : Except Error Nat × Registry :=
  r.pushBlobChunkedResume lib repoName "" 0

/-- Modelled from the spec: `Buffer.Write`. An open buffer takes a write at the offset it
expects ("if offset ≠ current session size, fail with a range-not-satisfiable error") and
appends it; a committed or cancelled one takes none. -/
def Buffer.write (b : Buffer) (data : Bytes) : Except Error Buffer :=
  match b.state with
  | .open =>
    if b.checkStartOffset = b.buf.length then
      .ok { b with buf := b.buf ++ data, checkStartOffset := b.buf.length + data.length }
    else .error (.code .rangeInvalid)
  | _ => .error (.code .blobUploadInvalid)

/-- A write through the writer `w` (Go `BlobWriter.Write`); there is no writer past the heap. -/
def Registry.write (r : Registry) (w : Nat) (data : Bytes) : Except Error Nat × Registry :=
  match r.buffers[w]? with
  | none => (.error (.code .blobUploadInvalid), r)
  | some b =>
    match b.write data with
    | .error e => (.error e, r)
    | .ok b' => (.ok data.length, r.modifyBuffer w fun _ => b')

/-- Modelled from the spec: `Buffer.GetBlob`, the completed descriptor and the bytes of a
committed buffer, and an error for any other. -/
def Buffer.getBlob (b : Buffer) : Descriptor × Bytes × Option Error :=
  match b.state with
  | .committed desc => (desc, b.buf, none)
  | _ => ({}, [], some (.text "blob not committed"))

/-- The commit function `PushBlobChunkedResume` gives `NewBuffer`: it stores what `GetBlob`
returns, its error discarded, as a blob of the repository the upload was opened in. -/
def Registry.commitUpload (r : Registry) (b : Buffer) : Registry :=
  let (desc, data, _) := b.getBlob
  r.setRepo b.repoName ((r.getRepo b.repoName).setBlob desc.digest { mediaType := desc.mediaType, data })

/-- Modelled from the spec: the media type of a committed upload's descriptor, which the spec
leaves open; an upload is an opaque byte stream. -/
def uploadMediaType : String := "application/octet-stream"

/-- Modelled from the spec: `Buffer.Commit`. An open buffer whose bytes have the expected canonical
digest becomes committed with its descriptor and the commit function runs; a mismatch fails with
`DIGEST_INVALID`, and a committed or cancelled buffer takes no commit. -/
def Registry.commit (r : Registry) (w : Nat) (dig : Digest) : Except Error Descriptor × Registry :=
  match r.buffers[w]? with
  | none => (.error (.code .blobUploadInvalid), r)
  | some b =>
    match b.state with
    | .open =>
      if lib.fromBytes b.buf = dig then
        let desc : Descriptor := { mediaType := uploadMediaType, digest := dig, size := b.buf.length }
        let b := { b with state := .committed desc }
        (.ok desc, (r.modifyBuffer w fun _ => b).commitUpload b)
      else (.error (.code .digestInvalid), r)
    | _ => (.error (.code .blobUploadInvalid), r)

/-- Modelled from the spec: `Buffer.Cancel`, which ends an open session. It follows the
`cancelled (terminal)` state of the spec's upload state machine: the buffer stays in the heap
and its id stays registered, where the spec's `cancel: drop session` would remove it. -/
def Registry.cancel (r : Registry) (w : Nat) : Registry :=
  r.modifyBuffer w fun b =>
    match b.state with
    | .open => { b with state := .cancelled }
    | _ => b

@[simp] lemma setOffset_state (offset : Int) (b : Buffer) : (setOffset offset b).state = b.state :=
  rfl

@[simp] lemma setOffset_buf (offset : Int) (b : Buffer) : (setOffset offset b).buf = b.buf := rfl

@[simp] lemma setOffset_repoName (offset : Int) (b : Buffer) :
    (setOffset offset b).repoName = b.repoName := rfl

/-- Everything `PushBlobChunkedResume` can do: fail and change nothing, return the buffer an id
is registered to with the offset recorded, or register a new buffer at the end of the heap. -/
lemma Registry.pushBlobChunkedResume_spec {r r' : Registry} {n id : String} {offset : Int}
    {res : Except Error Nat} (h : r.pushBlobChunkedResume lib n id offset = (res, r')) :
    (∃ e, res = .error e ∧ r' = r) ∨
    (Ociref.isValidRepository n ∧ ∃ w, res = .ok w ∧
      (((r.getRepo n).uploads id = some w ∧ r' = (r.withRepo n).modifyBuffer w (setOffset offset)) ∨
       ((r.getRepo n).uploads id = none ∧ w = r.buffers.length ∧
        r' = (Registry.setRepo { r with buffers := r.buffers ++ [newBuffer lib n id w] } n
          ((r.getRepo n).setUpload (newBuffer lib n id w).id w)).modifyBuffer w (setOffset offset)))) := by
  unfold pushBlobChunkedResume at h
  rw [Registry.makeRepo_eq] at h
  by_cases hv : Ociref.isValidRepository n
  · rw [if_pos hv] at h
    dsimp only at h
    refine .inr ⟨hv, ?_⟩
    cases hu : (r.getRepo n).uploads id with
    | some w =>
      simp only [hu] at h
      obtain ⟨rfl, rfl⟩ := Prod.mk.inj h
      exact ⟨w, rfl, .inl ⟨rfl, rfl⟩⟩
    | none =>
      simp only [hu, newUpload, withRepo_buffers] at h
      obtain ⟨rfl, rfl⟩ := Prod.mk.inj h
      exact ⟨_, rfl, .inr ⟨rfl, rfl, by simp [withRepo, setRepo]⟩⟩
  · rw [if_neg hv] at h
    exact .inl ⟨_, (Prod.mk.inj h).1.symm, (Prod.mk.inj h).2.symm⟩

/-- A resume of an id registered in a valid repository returns its buffer, with the offset
recorded. -/
lemma Registry.pushBlobChunkedResume_registered {r : Registry} {n id : String} {w : Nat}
    (offset : Int) (hv : Ociref.isValidRepository n) (hu : (r.getRepo n).uploads id = some w) :
    r.pushBlobChunkedResume lib n id offset = (.ok w, (r.withRepo n).modifyBuffer w (setOffset offset)) := by
  simp only [pushBlobChunkedResume, makeRepo_eq, if_pos hv, hu]

/-- A write accepted by a buffer was at its expected offset, on an open session. -/
lemma Buffer.write_ok {b b' : Buffer} {data : Bytes} (h : b.write data = .ok b') :
    b.state = .open ∧ b.checkStartOffset = b.buf.length ∧
      b' = { b with buf := b.buf ++ data, checkStartOffset := b.buf.length + data.length } := by
  unfold write at h
  split at h
  · split_ifs at h with ho
    cases h
    exact ⟨‹_›, ho, rfl⟩
  · cases h

/-- Everything a write through a writer can do: fail and change nothing, or replace its buffer
with the one `Buffer.write` accepts. -/
lemma Registry.write_spec {r r' : Registry} {w : Nat} {data : Bytes} {res : Except Error Nat}
    (h : r.write w data = (res, r')) :
    (∃ e, res = .error e ∧ r' = r) ∨
    (∃ b b', r.buffers[w]? = some b ∧ b.write data = .ok b' ∧ res = .ok data.length ∧
      r' = r.modifyBuffer w fun _ => b') := by
  unfold write at h
  split at h
  · exact .inl ⟨_, (Prod.mk.inj h).1.symm, (Prod.mk.inj h).2.symm⟩
  rename_i b hb
  split at h
  · exact .inl ⟨_, (Prod.mk.inj h).1.symm, (Prod.mk.inj h).2.symm⟩
  rename_i b' hw
  obtain ⟨rfl, rfl⟩ := Prod.mk.inj h
  exact .inr ⟨b, b', hb, hw, rfl, rfl⟩

/-- The descriptor of a committed upload. -/
def uploadDesc (dig : Digest) (b : Buffer) : Descriptor :=
  { mediaType := uploadMediaType, digest := dig, size := b.buf.length }

/-- The commit function on a committed buffer stores its bytes under the committed digest. -/
lemma Registry.commitUpload_committed (r : Registry) (b : Buffer) (desc : Descriptor) :
    r.commitUpload { b with state := .committed desc } =
      r.setRepo b.repoName ((r.getRepo b.repoName).setBlob desc.digest
        { mediaType := desc.mediaType, data := b.buf }) := rfl

/-- Everything a commit can do: fail and change nothing, or, on an open buffer whose bytes have
the digest, mark it committed and store its bytes in its repository under that digest. -/
lemma Registry.commit_spec {r r' : Registry} {w : Nat} {dig : Digest}
    {res : Except Error Descriptor} (h : r.commit lib w dig = (res, r')) :
    (∃ e, res = .error e ∧ r' = r) ∨
    (∃ b, r.buffers[w]? = some b ∧ b.state = .open ∧ lib.fromBytes b.buf = dig ∧
      res = .ok (uploadDesc dig b) ∧
      r' = (r.modifyBuffer w fun _ => { b with state := .committed (uploadDesc dig b) }).setRepo
        b.repoName ((r.getRepo b.repoName).setBlob dig { mediaType := uploadMediaType, data := b.buf })) := by
  unfold commit at h
  split at h
  · exact .inl ⟨_, (Prod.mk.inj h).1.symm, (Prod.mk.inj h).2.symm⟩
  rename_i b hb
  split at h
  · split_ifs at h with hd
    · obtain ⟨rfl, rfl⟩ := Prod.mk.inj h
      exact .inr ⟨b, hb, ‹_›, hd, rfl, by rw [commitUpload_committed]; rfl⟩
    · exact .inl ⟨_, (Prod.mk.inj h).1.symm, (Prod.mk.inj h).2.symm⟩
  · exact .inl ⟨_, (Prod.mk.inj h).1.symm, (Prod.mk.inj h).2.symm⟩

end OciRegistry.Ocimem
