import OciRegistry.Ocibuilder.Calls
import OciRegistry.Ocimem.Isolation

/-!
# The image builder over the in-memory registry

`PushLayer` asks its client for a chunked upload, writes the layer through the writer it gets and
commits. With the in-memory registry of `ocimem` as that client (its `PushBlobChunked` has the
signature the builder calls), the writer is an upload session of the registry.

The builder's model takes a writer by its answers, call by call (`BlobWriter`). A session of the
registry answers a client that writes some bytes through it, in any chunks, and then commits, as
`sessionWriter` does: a session open at its size accepts every write at the offset it expects,
and writes in chunks leave it as one write of their concatenation (`Registry.run_writes`), so its
commit answers as the session holding all the bytes does (`sessionWriter_answers_as_session`).

Composed: a `PushLayer` of the bytes of a reader into a new session of the registry returns nil,
the layer it appends has the digest and the size of those bytes, and the calls it made through
the session leave the registry storing exactly those bytes under that digest
(`pushLayer_into_memory_stores_layer`).

Over whole runs (`MemBuilt`): a builder whose client is the registry, making calls that do not
add a layer by hand, among any calls of other clients, lists only layers its repository stores,
each under its digest with bytes of that digest and of its size
(`built_layers_stored_in_memory`). A `PushLayer` always finds a new session there, as no upload
is ever registered under the empty id (`Reachable.uploads_empty`).
-/

namespace OciRegistry.Ocibuilder

open Ocimem

variable (lib : Lib)

/-- The answers of session `w` of the in-memory registry `r` to a client that writes the bytes
`data` through it, in chunks, and then commits: every `Write` succeeds, and `Commit` answers as
the session does once it holds `data`. The descriptor of a committed upload carries no
annotation map. -/
def sessionWriter (r : Registry) (w : Nat) (data : Bytes) : BlobWriter where
  write _ _ := none
  commit dig := ((r.write w data).2.commit lib w dig).1

/-- The calls a `PushLayer` made through session `w` that can change the registry: its successful
`Write` calls, in order (a refused write changes nothing), then `Commit` of the digest it
computed, if it got that far. -/
def LayerPush.calls (w : Nat) (res : LayerPush) : List Op :=
  res.written.map (.write w) ++ (res.committed.map (.commit w)).toList

section Session

variable {r : Registry} {w : Nat} {b : Buffer}

/-- A session of the registry, open at its size, answers every chunking of some bytes, written and
then committed, as `sessionWriter` of those bytes does: it accepts each chunk where the writer
reports success, and its commit of any digest returns what the writer's `Commit` does. -/
theorem sessionWriter_answers_as_session (hb : r.buffers[w]? = some b) (hopen : b.state = .open)
    (hoff : b.checkStartOffset = b.buf.length) (chunks : List Bytes) :
    (∀ k (hk : k < chunks.length), (sessionWriter lib r w chunks.flatten).write k chunks[k] = none ∧
      ((r.run lib ((chunks.take k).map (.write w))).write w chunks[k]).1 = .ok chunks[k].length) ∧
    ∀ dig, (sessionWriter lib r w chunks.flatten).commit dig =
      ((r.run lib (chunks.map (.write w))).commit lib w dig).1 := by
  refine ⟨fun k hk => ⟨rfl, ?_⟩, fun dig => ?_⟩
  · rw [Registry.write_open (r.run_writes lib hb hopen hoff (chunks.take k)) hopen (by simp [hoff])]
  · have hone : (r.write w chunks.flatten).2.buffers[w]? = (r.run lib (chunks.map (.write w))).buffers[w]? := by
      rw [r.run_writes lib hb hopen hoff, Registry.write_open hb hopen hoff]
      simp [Registry.modifyBuffer_buffers, hb]
    exact Registry.commit_fst_congr lib hone dig

/-- The chunks `[1]` and `[2]`. -/
def twoChunks : List Bytes := [[1], [2]]

/-- Session `u` of `twoOpenSessions` written `[1]` then `[2]`. -/
theorem twoOpenSessions_answers_as_writer :
    (∀ k (hk : k < twoChunks.length),
      (sessionWriter Lib.reference twoOpenSessions 0 [1, 2]).write k twoChunks[k] = none ∧
      ((twoOpenSessions.run Lib.reference ((twoChunks.take k).map (.write 0))).write 0 twoChunks[k]).1 =
        .ok twoChunks[k].length) ∧
    ∀ dig, (sessionWriter Lib.reference twoOpenSessions 0 [1, 2]).commit dig =
      ((twoOpenSessions.run Lib.reference (twoChunks.map (.write 0))).commit Lib.reference 0 dig).1 :=
  sessionWriter_answers_as_session Lib.reference
    (show twoOpenSessions.buffers[0]? = some { repoName := "repo", id := "u" } from rfl) rfl rfl twoChunks

end Session

section Fresh

variable {r₁ : Registry} {w : Nat} {n i : String}

/-- A new session, written `data`, accepts the commit of the digest of `data`. -/
lemma sessionWriter_commit_fresh (hb : r₁.buffers[w]? = some { repoName := n, id := i }) (data : Bytes) :
    (sessionWriter lib r₁ w data).commit (lib.fromBytes data) =
      .ok { mediaType := uploadMediaType, digest := lib.fromBytes data, size := data.length } := by
  have hheld := congrArg (fun p => p.2.buffers[w]?) (Registry.write_open hb rfl rfl data)
  simp only [Registry.modifyBuffer_buffers, hb, if_true, Option.map_some', List.nil_append] at hheld
  simp only [sessionWriter, (Registry.commit_open lib hheld rfl).1]
  rfl

/-- What a `PushLayer` into a new session that returns nil did, whatever its fuel: its calls
through the session are the writes of its chunks, which make up `data`, then the commit of the
digest of `data`; and it appended the layer of that digest and size. -/
lemma pushLayer_into_session {ib : ImageBuilder} {rd : Reader} {data : Bytes} {mediaType : String}
    {fuel : Nat} {res : LayerPush} (hb : r₁.buffers[w]? = some { repoName := n, id := i })
    (hrd : rd.Yields data)
    (h : ib.pushLayer lib (some (sessionWriter lib r₁ w data), none) mediaType rd [] fuel = some res)
    (hout : res.outcome = .returned none) :
    res.calls w = res.written.map (.write w) ++ [.commit w (lib.fromBytes data)] ∧
      res.written.flatten = data ∧
      res.builder = { ib with manifest := { ib.manifest with layers := ib.manifest.layers ++
        [{ mediaType, digest := lib.fromBytes data, size := data.length }] } } := by
  obtain ⟨s, err, hloop, hwritten, hnil, -⟩ := pushLayer_some h
  obtain rfl : err = none := chunkLoop_ok (fun _ _ => rfl) hloop
  obtain ⟨hhashed, hflat⟩ := chunkLoop_done hrd hloop
  simp only [List.nil_append, List.flatten_nil] at hhashed hflat
  obtain ⟨-, hcommitted, desc, merged, hc, hwa, hl⟩ := hnil hout
  rw [hhashed, sessionWriter_commit_fresh lib hb] at hc
  cases hc
  cases hwa
  exact ⟨by simp [LayerPush.calls, hcommitted, hhashed], hwritten ▸ hflat, (ImageBuilder.addLayer_spec hl).2⟩

end Fresh

/-- `PushLayer` into a new session of a valid repository of a reachable in-memory registry, with
digests that do not collide and no upload under the empty id, of a reader that yields `data` and
then `io.EOF`, with no annotations, on a builder that is not an index: `PushBlobChunked` opens
session `w` at the end of the heap; with enough fuel the call returns nil and appends one layer,
of the given media type and of the digest and size of `data`; and its calls through the session,
interleaved in any way with calls of other clients that do not name the session, leave it
committed holding `data`, and the repository storing `data` under its digest. -/
theorem pushLayer_into_memory_stores_layer (hcf : lib.CollisionFree) {r : Registry}
    (hr : Reachable lib r) {ib : ImageBuilder} {rd : Reader} {data : Bytes} (mediaType : String)
    (hn : Ociref.isValidRepository ib.repository) (hfresh : (r.getRepo ib.repository).uploads "" = none)
    (hrd : rd.Yields data) (hix : ib.manifest.manifests = []) :
    (r.pushBlobChunked lib ib.repository).1 = .ok r.buffers.length ∧
    ∃ fuel res, ib.pushLayer lib
        (some (sessionWriter lib (r.pushBlobChunked lib ib.repository).2 r.buffers.length data), none)
        mediaType rd [] fuel = some res ∧
      res.outcome = .returned none ∧
      res.builder = { ib with manifest := { ib.manifest with layers := ib.manifest.layers ++
        [{ mediaType, digest := lib.fromBytes data, size := data.length }] } } ∧
      ∀ others ops, (∀ op ∈ others, ¬op.Names r.buffers.length ib.repository (lib.uploadID r.buffers.length)) →
        Interleaving (res.calls r.buffers.length) others ops →
        ((r.pushBlobChunked lib ib.repository).2.run lib ops).UploadStored lib r.buffers.length
          ib.repository data := by
  obtain ⟨hopened, hb⟩ := r.pushBlobChunked_fresh lib hn hfresh
  have hr₁ : Reachable lib (r.pushBlobChunked lib ib.repository).2 := hr.step (.pushBlobChunked _)
  refine ⟨hopened, ?_⟩
  generalize (r.pushBlobChunked lib ib.repository).2 = r₁ at hb hr₁ ⊢
  generalize r.buffers.length = w at hb ⊢
  -- the chunk loop ends, without an error, having written and hashed `data`
  obtain ⟨⟨s, err⟩, hloop⟩ : ∃ res, chunkLoop (sessionWriter lib r₁ w data) (data.length + 1)
      { reader := rd } = some res := chunkLoop_finishes hrd (Nat.lt_succ_self _)
  obtain rfl : err = none := chunkLoop_ok (fun _ _ => rfl) hloop
  obtain ⟨hhashed, hwritten⟩ := chunkLoop_done hrd hloop
  simp only [List.nil_append, List.flatten_nil] at hhashed hwritten
  refine ⟨data.length + 1,
    { outcome := .returned none, builder := _, written := s.written, committed := some (lib.fromBytes data) },
    ?_, rfl, rfl, fun others ops hothers hops => ?_⟩
  · simp only [ImageBuilder.pushLayer, hloop, hhashed, sessionWriter_commit_fresh lib hb]
    simp [writeAnnotations, ImageBuilder.addLayer, hix]
  · exact Registry.run_uploadPending lib hcf hops hothers hr₁
      (.inl ⟨_, s.written, hb, rfl, rfl, rfl, rfl, by simpa using hwritten, rfl⟩)

/-- A new builder pushes the bytes `[1, 2]`, read in one call, into a new registry. -/
theorem newBuilder_pushes_layer_into_memory :
    ((Registry.new {}).pushBlobChunked Lib.reference "repo").1 = .ok 0 ∧
    ∃ fuel res, (new "repo").pushLayer Lib.reference
        (some (sessionWriter Lib.reference ((Registry.new {}).pushBlobChunked Lib.reference "repo").2 0
          [1, 2]), none) "m" ⟨[([1, 2], none)], .eof⟩ [] fuel = some res ∧
      res.outcome = .returned none ∧
      res.builder = { new "repo" with manifest := { (new "repo").manifest with layers :=
        [{ mediaType := "m", digest := Lib.reference.fromBytes [1, 2], size := 2 }] } } ∧
      ∀ others ops, (∀ op ∈ others, ¬op.Names 0 "repo" (Lib.reference.uploadID 0)) →
        Interleaving (res.calls 0) others ops →
        (((Registry.new {}).pushBlobChunked Lib.reference "repo").2.run Lib.reference ops).UploadStored
          Lib.reference 0 "repo" [1, 2] :=
  @pushLayer_into_memory_stores_layer Lib.reference Lib.reference_collisionFree (Registry.new {})
    (.new {}) (new "repo") ⟨[([1, 2], none)], .eof⟩ [1, 2] "m" (by decide) rfl ⟨rfl, .cons [1, 2] .nil⟩ rfl

/-! ## A builder over a run of the registry -/

/-- The builder calls that neither add a layer nor write through the client. -/
def Call.Local : Call → Prop
  | .addLayer _ | .pushLayer .. => False
  | _ => True

/-- A builder call that neither adds a layer nor writes through the client keeps the builder's
repository and its layers. -/
lemma call_local {ib ib' : ImageBuilder} {o : Outcome} {c : Call} (hc : c.Local)
    (h : ib.call lib c = some (o, ib')) :
    ib'.repository = ib.repository ∧ ib'.manifest.layers = ib.manifest.layers := by
  by_cases ho : o = .returned none
  swap
  · rw [call_refused h ho]
    exact ⟨rfl, rfl⟩
  subst ho
  cases c with
  | addLayer | pushLayer => exact hc.elim
  | setArtifactType | setSubject => cases h; exact ⟨rfl, rfl⟩
  | setConfig config =>
    rw [(ImageBuilder.setConfig_spec (Outcome.ofExcept_nil (Option.some.inj h))).2]
    exact ⟨rfl, rfl⟩
  | addManifest manifest =>
    rw [(ImageBuilder.addManifest_spec (Outcome.ofExcept_nil (Option.some.inj h))).2]
    exact ⟨rfl, rfl⟩
  | addAnnotation key value =>
    simp only [ImageBuilder.call] at h
    split at h <;> cases h
    rename_i ha
    unfold ImageBuilder.addAnnotation at ha
    split at ha <;> cases ha
    exact ⟨rfl, rfl⟩

/-- Every layer the builder lists is stored in its repository of `r` under its digest, with bytes
of that digest and of its size. -/
def ImageBuilder.LayersStored (ib : ImageBuilder) (r : Registry) : Prop :=
  ∀ l ∈ ib.manifest.layers, ∃ x, (r.getRepo ib.repository).blobs l.digest = some x ∧
    l.digest = lib.fromBytes x.data ∧ l.size = x.data.length

lemma ImageBuilder.LayersStored.grows {ib : ImageBuilder} {r r' : Registry} (hg : r.Grows r')
    (h : ib.LayersStored lib r) : ib.LayersStored lib r' := fun l hl => by
  obtain ⟨x, hx, hd, hs⟩ := h l hl
  obtain ⟨x', hx', hxd⟩ := (hg.content ib.repository).blobs _ x hx
  exact ⟨x', hx', by rw [hxd]; exact hd, by rw [hxd]; exact hs⟩

lemma ImageBuilder.LayersStored.run (hcf : lib.CollisionFree) {ib : ImageBuilder} (ops : List Op) :
    ∀ {r : Registry}, Reachable lib r → ib.LayersStored lib r → ib.LayersStored lib (r.run lib ops) := by
  induction ops with
  | nil => exact fun _ h => h
  | cons op ops ih => exact fun hr h => ih (hr.step op) (h.grows lib (Registry.step_grows lib hcf hr op))

/-- The builders a program reaches from `New`, with the registry: the builder's client is the
in-memory registry and its repository name is valid. Other clients call the registry; builder
calls that neither add a layer nor write through the client return; and `PushLayer` of a reader
that yields some bytes and then `io.EOF`, with no annotations, writes through the session
`PushBlobChunked` opens, its calls through it interleaved with calls of others that do not name
the session. -/
inductive MemBuilt (lib : Lib) : ImageBuilder → Registry → Prop
  | new {repository : String} {r : Registry} :
    Ociref.isValidRepository repository → Reachable lib r → MemBuilt lib (new repository) r
  | other {ib : ImageBuilder} {r : Registry} (op : Op) :
    MemBuilt lib ib r → MemBuilt lib ib (r.step lib op)
  | call {ib ib' : ImageBuilder} {r : Registry} (c : Call) (err : Option Error) : c.Local →
    MemBuilt lib ib r → ib.call lib c = some (.returned err, ib') → MemBuilt lib ib' r
  | pushLayer {ib : ImageBuilder} {r : Registry} {rd : Reader} {data : Bytes} {res : LayerPush}
    {mediaType : String} {fuel : Nat} {others ops : List Op} : MemBuilt lib ib r → rd.Yields data →
    ib.pushLayer lib
      (some (sessionWriter lib (r.pushBlobChunked lib ib.repository).2 r.buffers.length data), none)
      mediaType rd [] fuel = some res →
    (∀ op ∈ others, ¬op.Names r.buffers.length ib.repository (lib.uploadID r.buffers.length)) →
    Interleaving (res.calls r.buffers.length) others ops →
    MemBuilt lib res.builder ((r.pushBlobChunked lib ib.repository).2.run lib ops)

section Run

variable (hcf : lib.CollisionFree) (hid : ∀ k, lib.uploadID k ≠ "")
include hcf hid

/-- What every state of a builder over the registry keeps: the registry is reachable, the
builder's repository name is valid, and its layers are stored. -/
lemma MemBuilt.inv {ib : ImageBuilder} {r : Registry} (h : MemBuilt lib ib r) :
    Reachable lib r ∧ Ociref.isValidRepository ib.repository ∧ ib.LayersStored lib r := by
  induction h with
  | new hn hr => exact ⟨hr, hn, nofun⟩
  | other op _ ih =>
    exact ⟨ih.1.step op, ih.2.1, ih.2.2.grows lib (Registry.step_grows lib hcf ih.1 op)⟩
  | call c err hc _ hcall ih =>
    obtain ⟨hrepo, hlayers⟩ := call_local lib hc hcall
    refine ⟨ih.1, hrepo ▸ ih.2.1, fun l hl => ?_⟩
    rw [hrepo]
    exact ih.2.2 l (hlayers ▸ hl)
  | @pushLayer ib r rd data res mediaType fuel others ops _ hrd hpush hothers hops ih =>
    obtain ⟨hr, hn, hstored⟩ := ih
    obtain ⟨-, hb⟩ := r.pushBlobChunked_fresh lib hn (Reachable.uploads_empty lib hid hr ib.repository)
    have hr₁ : Reachable lib (r.pushBlobChunked lib ib.repository).2 := hr.step (.pushBlobChunked _)
    have hkept : ib.LayersStored lib ((r.pushBlobChunked lib ib.repository).2.run lib ops) :=
      (hstored.grows lib (r.step_grows lib hcf hr (.pushBlobChunked _))).run lib hcf ops hr₁
    by_cases hout : res.outcome = .returned none
    · -- the layer appended is the one whose bytes the session stored
      obtain ⟨hcalls, hflat, hbuilder⟩ := pushLayer_into_session lib hb hrd hpush hout
      obtain ⟨-, -, -, -, -, x, hx, hxd⟩ := Registry.run_uploadPending lib hcf hops hothers hr₁
        (.inl ⟨_, res.written, hb, rfl, rfl, rfl, rfl, by simpa using hflat, hcalls⟩)
      rw [hbuilder]
      refine ⟨hr₁.run lib ops, hn, fun l hl => ?_⟩
      rcases List.mem_append.1 hl with hl | hl
      · exact hkept l hl
      · obtain rfl := List.mem_singleton.1 hl
        exact ⟨x, hx, by rw [hxd], by rw [hxd]⟩
    · rw [(pushLayer_builder hpush).1 hout]
      exact ⟨hr₁.run lib ops, hn, hkept⟩

/-- With digests that do not collide and upload ids that are never empty: in every state that a
program reaches with a builder whose client is the in-memory registry, whatever other clients do
meanwhile, every layer the builder lists is stored in its repository, under the layer's digest,
with bytes of that digest and of the layer's size. -/
theorem built_layers_stored_in_memory {ib : ImageBuilder} {r : Registry} (h : MemBuilt lib ib r) :
    ib.LayersStored lib r :=
  (MemBuilt.inv lib hcf hid h).2.2

end Run

/-- The builder of `repo` once `PushLayer` has pushed the bytes `[1, 2]` under media type `m`. -/
def pushedBuilder : ImageBuilder :=
  { new "repo" with manifest := { (new "repo").manifest with
      layers := [{ mediaType := "m", digest := Lib.reference.fromBytes [1, 2], size := 2 }] } }

/-- A new registry once that `PushLayer` has made its calls. -/
def pushedRegistry : Registry :=
  ((Registry.new {}).pushBlobChunked Lib.reference "repo").2.run Lib.reference
    [.write 0 [1, 2], .commit 0 (Lib.reference.fromBytes [1, 2])]

lemma pushedOnce_built : MemBuilt Lib.reference pushedBuilder pushedRegistry :=
  @MemBuilt.pushLayer Lib.reference (new "repo") (Registry.new {}) ⟨[([1, 2], none)], .eof⟩ [1, 2]
    { outcome := .returned none, builder := pushedBuilder, written := [[1, 2]],
      committed := some (Lib.reference.fromBytes [1, 2]) } "m" 3 [] _
    (.new (by decide) (.new {})) ⟨rfl, .cons [1, 2] .nil⟩ (by rfl) (by simp) (.mine _ (.mine _ .nil))

theorem pushedBuilder_layers_stored : pushedBuilder.LayersStored Lib.reference pushedRegistry :=
  built_layers_stored_in_memory Lib.reference Lib.reference_collisionFree
    Lib.reference_uploadID_ne_empty pushedOnce_built

end OciRegistry.Ocibuilder
