import OciRegistry.Ocimem.State

/-!
# The in-memory registry: lookups and checks

The helpers of `registry.go` that `writer.go` calls: `repo`, `makeRepo`, `blobForDigest`,
`blob.descriptor` and `CheckDescriptor`, and the read `ResolveTag` the immutable filter calls.
`registry.go` and `reader.go` are not under `src/`, so each is modelled from the spec (§3, §4.3)
and from the way `writer.go` uses it.

The one fact the writers need about `makeRepo` is `Registry.makeRepo_eq`: on a valid name it
returns the repository as `getRepo` reads it, in a registry where that repository is stored; an
absent repository is created empty. A writer's final `setRepo` then overwrites that store
(`Registry.setRepo_setRepo`), so no writer proof looks inside `makeRepo`.
-/

namespace OciRegistry.Ocimem

variable (lib : Lib)

/-- Modelled from the spec: `Registry.repo`, the repository of a name, `NAME_UNKNOWN` if there is none. -/
def Registry.repo (r : Registry) (repoName : String) : Except Error Repository :=
  match r.repos repoName with
  | some repo => .ok repo
  | none => .error (.code .nameUnknown)

/-- Modelled from the spec: `Registry.makeRepo`, the repository of a valid name (`NAME_INVALID`
otherwise), created empty when there is none. -/
def Registry.makeRepo (r : Registry) (repoName : String) : Except Error (Repository × Registry) :=
  if Ociref.isValidRepository repoName then
    match r.repos repoName with
    | some repo => .ok (repo, r)
    | none => .ok ({}, r.setRepo repoName {})
  else .error (.code .nameInvalid)

/-- Modelled from the spec: `Registry.blobForDigest`, the blob of a digest in a repository
(`BLOB_UNKNOWN` if there is none). -/
def Registry.blobForDigest (r : Registry) (repoName : String) (dig : Digest) : Except Error Blob :=
  match r.repo repoName with
  | .error e => .error e
  | .ok repo =>
    match repo.blobs dig with
    | some b => .ok b
    | none => .error (.code .blobUnknown)

/-- Modelled from the spec: `blob.descriptor`, the descriptor of stored content (its media type,
its canonical digest and its length). -/
def Blob.descriptor (b : Blob) : Descriptor :=
  { mediaType := b.mediaType, digest := lib.fromBytes b.data, size := b.data.length }

/-- The media-type check that ends `CheckDescriptor` (its text is the one `writer.go` repeats). -/
def checkMediaType (desc : Descriptor) : Except Error Unit :=
  if desc.mediaType = "" then .error (.text "no media type in descriptor") else .ok ()

/-- Modelled from the spec: `CheckDescriptor`. It checks the digest is valid and, given data,
that the data's canonical digest is the descriptor's and its length the descriptor's size
(spec: "verifies against the provided descriptor (canonical digest only)"); given no data, that
the size is not negative; then that there is a media type. -/
def checkDescriptor (desc : Descriptor) (data : Option Bytes) : Except Error Unit :=
  match lib.validate desc.digest with
  | .error e => .error (.text ("invalid digest: " ++ e))
  | .ok () =>
    match data with
    | some data =>
      if lib.fromBytes data ≠ desc.digest then .error (.text "digest mismatch")
      else if desc.size ≠ data.length then .error (.text "size mismatch")
      else checkMediaType desc
    | none => if desc.size < 0 then .error (.text "invalid size") else checkMediaType desc

/-- Modelled from the spec: `Registry.ResolveTag`, the descriptor a tag holds. -/
def Registry.resolveTag (r : Registry) (repoName tagName : String) : Except Error Descriptor :=
  match r.repo repoName with
  | .error e => .error e
  | .ok repo =>
    match repo.tags tagName with
    | some desc => .ok desc
    | none => .error (.code .manifestUnknown)

/-- Data passes `CheckDescriptor` only under its canonical digest and length, with a media type. -/
lemma checkDescriptor_some_ok {desc : Descriptor} {data : Bytes}
    (h : checkDescriptor lib desc (some data) = .ok ()) :
    lib.fromBytes data = desc.digest ∧ desc.size = data.length ∧ desc.mediaType ≠ "" := by
  unfold checkDescriptor checkMediaType at h
  split at h
  · cases h
  · dsimp only at h
    split_ifs at h
    simp_all

/-- Storing a repository twice keeps the second. -/
@[simp] lemma Registry.setRepo_setRepo (r : Registry) (n : String) (a b : Repository) :
    (r.setRepo n a).setRepo n b = r.setRepo n b := by
  simp only [setRepo, Function.update_idem]

/-- Storing a repository where it already is changes nothing. -/
lemma Registry.setRepo_of_repos {r : Registry} {n : String} {repo : Repository}
    (h : r.repos n = some repo) : r.setRepo n repo = r := by
  cases r
  simp only [setRepo, Registry.mk.injEq, and_true]
  exact Function.update_eq_self_iff.mpr h.symm

/-- The registry after `makeRepo` on a valid name: the repository stored, created empty if absent. -/
def Registry.withRepo (r : Registry) (n : String) : Registry := r.setRepo n (r.getRepo n)

@[simp] lemma Registry.getRepo_withRepo (r : Registry) (n m : String) :
    (r.withRepo n).getRepo m = r.getRepo m := by
  by_cases h : m = n <;> simp [withRepo, getRepo_setRepo, h]

@[simp] lemma Registry.withRepo_buffers (r : Registry) (n : String) :
    (r.withRepo n).buffers = r.buffers := rfl

@[simp] lemma Registry.withRepo_cfg (r : Registry) (n : String) : (r.withRepo n).cfg = r.cfg := rfl

@[simp] lemma Registry.setRepo_withRepo (r : Registry) (n : String) (b : Repository) :
    (r.withRepo n).setRepo n b = r.setRepo n b := setRepo_setRepo r n _ b

/-- A repository that is there already is not created again. -/
lemma Registry.withRepo_of_repos {r : Registry} {n : String} {repo : Repository}
    (h : r.repos n = some repo) : r.withRepo n = r := by
  simp only [withRepo, getRepo, h, Option.getD_some, setRepo_of_repos h]

@[simp] lemma Registry.withRepo_setRepo (r : Registry) (n : String) (repo : Repository) :
    (r.setRepo n repo).withRepo n = r.setRepo n repo :=
  withRepo_of_repos (show _ = some repo by simp)

@[simp] lemma Registry.withRepo_withRepo (r : Registry) (n : String) :
    (r.withRepo n).withRepo n = r.withRepo n :=
  withRepo_setRepo r n _

/-- `makeRepo` on a valid name returns the repository as `getRepo` reads it, stored (Go `makeRepo`). -/
lemma Registry.makeRepo_eq (r : Registry) (n : String) :
    r.makeRepo n = if Ociref.isValidRepository n
      then .ok (r.getRepo n, r.withRepo n) else .error (.code .nameInvalid) := by
  unfold makeRepo
  split
  · cases h : r.repos n <;> simp [withRepo, getRepo, h, setRepo_of_repos]
  · rfl

/-- `blobForDigest` finds exactly the blobs a repository holds. -/
lemma Registry.blobForDigest_eq_ok {r : Registry} {n : String} {dig : Digest} {b : Blob} :
    r.blobForDigest n dig = .ok b ↔ (r.getRepo n).blobs dig = some b := by
  unfold blobForDigest repo getRepo
  cases r.repos n <;> simp only [Option.getD_none, Option.getD_some]
  · simp
  · split <;> simp_all

/-- `ResolveTag` succeeds exactly on the tags a repository holds. -/
lemma Registry.resolveTag_eq_ok {r : Registry} {n t : String} {d : Descriptor} :
    r.resolveTag n t = .ok d ↔ (r.getRepo n).tags t = some d := by
  unfold resolveTag repo getRepo
  cases r.repos n <;> simp only [Option.getD_none, Option.getD_some]
  · simp
  · split <;> simp_all

end OciRegistry.Ocimem
