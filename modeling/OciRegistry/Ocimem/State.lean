import OciRegistry.Ociref
import Mathlib.Data.List.Basic

/-!
# The in-memory registry: state

Model of the state of package `ocimem`: the `Registry` record, its repositories, the blobs and
manifests they hold and the chunked-upload buffers. `registry.go`, `buffer.go` and
`desciter.go` are not under `src/`; the records below keep exactly the fields the code under
`src/` (`writer.go`) reads and writes, and the spec's data model (§3) for the rest.

Go pointers become explicit state. A repository is a value in the `repos` map, written back
after each operation. An upload `Buffer` is shared between the repository's `uploads` map and
the client holding the `BlobWriter`, so buffers live in a heap, `Registry.buffers`, and a writer
is an index into it; the closure `NewBuffer` is given captures the repository the upload was
opened in, which is the buffer's `repoName`.

What the code takes from outside the repository is the parameter `Lib`: the `go-digest`
functions, the manifest parser `getManifestInfo` and the upload ids `NewBuffer` draws, with the
two laws of `digest.FromBytes` the proofs use.
-/

namespace OciRegistry.Ocimem

/-- The kind of a descriptor a manifest refers to (Go `descriptorKind`). -/
inductive Kind where
  | blob
  | manifest
  | subjectManifest
  deriving DecidableEq, Repr

/-- A descriptor found in a manifest, with the JSON path it was found at (Go `descInfo`). -/
structure DescInfo where
  name : String
  kind : Kind
  desc : Descriptor
  deriving DecidableEq, Repr

/-- What `getManifestInfo` extracts from a manifest (Go `manifestInfo`); its iterator
`descriptors` is the list it yields. -/
structure ManifestInfo where
  descriptors : List DescInfo := []
  deriving DecidableEq, Repr

/-- The external functions the modelled code calls, and the laws of `digest.FromBytes`. -/
structure Lib where
  /-- `digest.FromBytes`: the canonical (sha256) digest of some bytes. -/
  fromBytes : Bytes → Digest
  /-- `Digest.Validate`: a well-formed digest of an available algorithm, or the reason not. -/
  validate : Digest → Except String Unit
  /-- `d.Verifier()` fed with the bytes, then `Verified()`: the bytes hash to `d` under the
  algorithm `d` names. -/
  verified : Digest → Bytes → Bool
  /-- `getManifestInfo` of `desciter.go`: the descriptors a manifest of a media type refers to. -/
  getManifestInfo : String → Bytes → Except Error ManifestInfo
  /-- The fresh id `NewBuffer` gives the `n`-th upload buffer of the engine. -/
  uploadID : Nat → String
  validate_fromBytes : ∀ b, validate (fromBytes b) = .ok ()
  verified_fromBytes : ∀ b, verified (fromBytes b) b = true

/-- Distinct byte strings have distinct digests: at most one byte string verifies against a
digest. -/
def Lib.CollisionFree (lib : Lib) : Prop :=
  ∀ d a b, lib.verified d a = true → lib.verified d b = true → a = b

/-- One character per byte, for the digests of `Lib.reference`. -/
def byteChar (x : UInt8) : Char := Char.ofNat x.toNat

lemma byteChar_toNat (x : UInt8) : (byteChar x).toNat = x.toNat := by
  have h : x.toNat < 256 := x.val.isLt
  simp only [byteChar, Char.ofNat]
  rw [dif_pos (Or.inl (by omega))]
  rfl

lemma byteChar_injective : Function.Injective byteChar := fun x y h => by
  have := congrArg Char.toNat h
  rw [byteChar_toNat, byteChar_toNat] at this
  exact UInt8.toNat.inj this

/-- The algorithm name the digests of `Lib.reference` carry. -/
def sha256Prefix : List Char := "sha256:".data

/-- A reference instance of the external functions, to run the model on concrete calls: the
canonical digest of some bytes spells the bytes out, one character each, under the `sha256:`
algorithm name; a digest is valid when it names that algorithm; manifests refer to nothing; the
`n`-th upload id is numbered `n`. -/
def Lib.reference : Lib where
  fromBytes b := ⟨sha256Prefix ++ b.map byteChar⟩
  validate d := if sha256Prefix.isPrefixOf d.data then .ok () else .error "unsupported digest algorithm"
  verified d b := d = ⟨sha256Prefix ++ b.map byteChar⟩
  getManifestInfo _ _ := .ok {}
  uploadID n := "upload-" ++ toString n
  validate_fromBytes b := by simp [List.isPrefixOf_iff_prefix]
  verified_fromBytes b := by simp

/-- The reference digests spell the bytes out, so they collide nowhere. -/
lemma Lib.reference_collisionFree : Lib.reference.CollisionFree := fun d a b ha hb => by
  simp only [Lib.reference, decide_eq_true_eq] at ha hb
  have h := congrArg String.data (ha.symm.trans hb)
  exact List.map_injective_iff.2 byteChar_injective (List.append_cancel_left h)

/-- The registry configuration (Go `ocimem.Config`). -/
structure Config where
  immutableTags : Bool := false
  laxChildReferences : Bool := false
  deriving DecidableEq, Repr

/-- A stored blob or manifest (Go `blob`); `info` is set for manifests only. -/
structure Blob where
  mediaType : String
  data : Bytes
  info : ManifestInfo := {}
  deriving DecidableEq, Repr

/-- The lifecycle of an upload session (spec §4.3): open, then committed with its descriptor
(the spec's `completed_descriptor`), or cancelled. -/
inductive UploadState where
  | open
  | committed (desc : Descriptor)
  | cancelled
  deriving DecidableEq, Repr

/-- An upload buffer (Go `Buffer`, modelled from the spec's `UploadSession`). -/
structure Buffer where
  /-- The repository the commit closure writes into. -/
  repoName : String
  id : String
  buf : Bytes := []
  /-- The offset the next write must start at (the spec's `expected_next_offset`). -/
  checkStartOffset : Int := 0
  state : UploadState := .open
  deriving DecidableEq, Repr

/-- A repository (Go `repository`); `uploads` maps an upload id to its buffer in the heap. -/
structure Repository where
  tags : String → Option Descriptor := fun _ => none
  manifests : Digest → Option Blob := fun _ => none
  blobs : Digest → Option Blob := fun _ => none
  uploads : String → Option Nat := fun _ => none

/-- The in-memory registry (Go `Registry`), with the heap of its upload buffers. -/
structure Registry where
  repos : String → Option Repository := fun _ => none
  buffers : List Buffer := []
  cfg : Config := {}

/-- A registry with nothing in it (Go `NewWithConfig`). -/
def Registry.new (cfg : Config) : Registry := { cfg }

/-- The repository an operation sees under a name; an absent one reads as empty. -/
def Registry.getRepo (r : Registry) (repoName : String) : Repository := (r.repos repoName).getD {}

/-- Store a repository under its name (Go: a write through the `*repository` pointer). -/
def Registry.setRepo (r : Registry) (repoName : String) (repo : Repository) : Registry :=
  { r with repos := Function.update r.repos repoName (some repo) }

/-- Apply a change to one buffer of the heap (Go: a write through a `*Buffer`). -/
def Registry.modifyBuffer (r : Registry) (w : Nat) (f : Buffer → Buffer) : Registry :=
  { r with buffers := r.buffers.modify f w }

@[simp] lemma Registry.new_cfg (cfg : Config) : (Registry.new cfg).cfg = cfg := rfl

@[simp] lemma Registry.getRepo_new (cfg : Config) (n : String) : (Registry.new cfg).getRepo n = {} :=
  rfl

@[simp] lemma Registry.setRepo_cfg (r : Registry) (n : String) (repo : Repository) :
    (r.setRepo n repo).cfg = r.cfg := rfl

@[simp] lemma Registry.setRepo_buffers (r : Registry) (n : String) (repo : Repository) :
    (r.setRepo n repo).buffers = r.buffers := rfl

@[simp] lemma Registry.setRepo_repos (r : Registry) (n m : String) (repo : Repository) :
    (r.setRepo n repo).repos m = if m = n then some repo else r.repos m :=
  Function.update_apply _ _ _ _

lemma Registry.getRepo_setRepo (r : Registry) (n m : String) (repo : Repository) :
    (r.setRepo n repo).getRepo m = if m = n then repo else r.getRepo m := by
  by_cases h : m = n <;> simp [getRepo, h]

@[simp] lemma Registry.modifyBuffer_cfg (r : Registry) (w : Nat) (f : Buffer → Buffer) :
    (r.modifyBuffer w f).cfg = r.cfg := rfl

@[simp] lemma Registry.modifyBuffer_repos (r : Registry) (w : Nat) (f : Buffer → Buffer) :
    (r.modifyBuffer w f).repos = r.repos := rfl

@[simp] lemma Registry.modifyBuffer_getRepo (r : Registry) (w : Nat) (f : Buffer → Buffer)
    (n : String) : (r.modifyBuffer w f).getRepo n = r.getRepo n := rfl

lemma Registry.modifyBuffer_buffers (r : Registry) (w v : Nat) (f : Buffer → Buffer) :
    (r.modifyBuffer w f).buffers[v]? = if w = v then r.buffers[v]?.map f else r.buffers[v]? := by
  rw [modifyBuffer, List.getElem?_modify]
  split <;> simp

end OciRegistry.Ocimem
