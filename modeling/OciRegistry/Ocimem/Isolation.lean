import OciRegistry.Ocimem.History

/-!
# The in-memory registry: isolated upload sessions

Clients share one registry, and its mutex makes each of their calls one step: a run is some
interleaving of the clients' calls (`Interleaving`). A client holding an upload session is not
disturbed by the others as long as none of them names the session.

Every upload id of a repository is registered to the buffer opened under that id in that
repository, and every call keeps it so (`Registry.UploadsOwned.step`): a resume only registers
the id of the buffer it adds, and no call changes the repository or the id of a buffer. So a
call reaches the buffer of a session only when it names the session (`Op.Names`): a write, a
commit or a cancel through its writer, or a resume of its id in its repository
(`Registry.step_of_not_names`). The owner's own calls are the other half: a session open at its
size accepts each write and appends it, so chunks written one after another leave it as one write
of their concatenation (`Registry.run_writes`), and a commit of the digest of its bytes stores
them (`Registry.commit_open`).

A client that writes some chunks through a session open at its size and then commits their
digest, its calls interleaved in any way with calls that do not name the session, has every
write accepted in order and, when the run ends, its bytes stored under their digest
(`interleaved_upload_stored`): no write is lost or taken twice, whatever the others do. A client
that lost track of its offset resumes the session by its id at its size, and the same holds of
the calls it makes after the resume (`resumed_upload_stored`).
-/

namespace OciRegistry.Ocimem

variable (lib : Lib)

/-! ## Upload ids -/

/-- Every upload id of a repository is registered to a buffer of the heap opened in that
repository under that id. -/
def Registry.UploadsOwned (r : Registry) : Prop :=
  ∀ n id w, (r.getRepo n).uploads id = some w →
    ∃ b, r.buffers[w]? = some b ∧ b.repoName = n ∧ b.id = id

lemma Registry.UploadsOwned.new (cfg : Config) : (Registry.new cfg).UploadsOwned :=
  fun _ _ _ h => Option.noConfusion h

/-- An upload entry a call changes is in the call's footprint. -/
lemma Registry.step_uploads_frame {r : Registry} {op : Op} {n u : String}
    (h : ((r.step lib op).getRepo n).uploads u ≠ (r.getRepo n).uploads u) :
    n = (op.footprint lib r).repo ∧ (op.footprint lib r).uploads u := by
  have frame := r.step_frame lib op
  have hn : n = (op.footprint lib r).repo := by_contra fun hn => h (by rw [frame.other n hn])
  exact ⟨hn, by_contra fun hu => h (by rw [hn, frame.uploads u hu])⟩

/-- Every call keeps each upload id registered to its own buffer. -/
lemma Registry.UploadsOwned.step {r : Registry} (hu : r.UploadsOwned) (op : Op) :
    (r.step lib op).UploadsOwned := by
  intro n id w h
  by_cases hold : (r.getRepo n).uploads id = some w
  · obtain ⟨b, hb, rfl, rfl⟩ := hu n id w hold
    obtain ⟨b', hb', hrepo, hid, -⟩ := r.step_extends lib hb op
    exact ⟨b', hb', hrepo, hid⟩
  obtain ⟨hn, hid⟩ := Registry.step_uploads_frame lib fun he => hold (he ▸ h)
  -- only a resume registers an id: the one of the buffer it adds
  have resume : ∀ id' offset,
      ((r.pushBlobChunkedResume lib n id' offset).2.getRepo n).uploads id = some w →
      ∃ b, (r.pushBlobChunkedResume lib n id' offset).2.buffers[w]? = some b ∧ b.repoName = n ∧
        b.id = id := by
    intro id' offset
    rcases hp : r.pushBlobChunkedResume lib n id' offset with ⟨res, r'⟩
    rcases pushBlobChunkedResume_spec lib hp with ⟨e, -, rfl⟩ | ⟨-, v, -, ⟨-, rfl⟩ | ⟨-, rfl, rfl⟩⟩
    · exact fun h => absurd h hold
    · exact fun h => absurd (by simpa using h) hold
    · intro h
      by_cases he : id = (newBuffer lib n id' r.buffers.length).id
      · simp only [modifyBuffer_getRepo, getRepo_setRepo, if_true, Repository.setUpload, he,
          Function.update_same, Option.some.injEq] at h
        subst h
        exact ⟨setOffset offset (newBuffer lib n id' r.buffers.length),
          by simp [modifyBuffer_buffers], rfl, he.symm⟩
      · simp [getRepo_setRepo, Repository.setUpload, he] at h
        exact absurd h hold
  cases op with
  | pushBlobChunked m =>
    obtain rfl : n = m := hn
    exact resume "" 0 h
  | pushBlobChunkedResume m id' offset =>
    obtain rfl : n = m := hn
    exact resume id' offset h
  | _ => exact hid.elim

lemma Reachable.uploadsOwned {r : Registry} (h : Reachable lib r) : r.UploadsOwned := by
  induction h with
  | new cfg => exact .new cfg
  | step op _ ih => exact ih.step lib op

/-- With upload ids that are never empty, no call registers an upload under the empty id: a
resume registers only the id of the buffer it adds, the one asked for or a fresh one. -/
lemma Registry.step_uploads_empty (hid : ∀ k, lib.uploadID k ≠ "") {r : Registry}
    (h : ∀ n, (r.getRepo n).uploads "" = none) (op : Op) (n : String) :
    ((r.step lib op).getRepo n).uploads "" = none := by
  by_contra hchanged
  obtain ⟨-, hu⟩ := Registry.step_uploads_frame lib (by rwa [h n])
  have hne : ∀ m id, (newBuffer lib m id r.buffers.length).id ≠ "" := fun m id => by
    unfold newBuffer
    split_ifs with he
    exacts [hid _, he]
  cases op with
  | pushBlobChunked m => exact absurd hu.symm (hne m "")
  | pushBlobChunkedResume m id _ => exact absurd hu.symm (hne m id)
  | _ => exact hu.elim

lemma Reachable.uploads_empty (hid : ∀ k, lib.uploadID k ≠ "") {r : Registry} (h : Reachable lib r)
    (n : String) : (r.getRepo n).uploads "" = none := by
  induction h generalizing n with
  | new cfg => rfl
  | step op _ ih => exact Registry.step_uploads_empty lib hid ih op n

/-- The upload ids of `Lib.reference` are never empty. -/
lemma Lib.reference_uploadID_ne_empty (k : Nat) : Lib.reference.uploadID k ≠ "" := fun h =>
  absurd (Lib.reference_uploadID_length k) (by rw [h]; decide)

/-! ## Calls that name a session -/

/-- The calls that name the session of the buffer at `w`, opened in `repoName` under `id`: a
write, a commit or a cancel through its writer, or a resume of its id in its repository
(`PushBlobChunked` resumes the empty id). -/
def Op.Names (w : Nat) (repoName id : String) : Op → Prop
  | .pushBlobChunked n => n = repoName ∧ id = ""
  | .pushBlobChunkedResume n id' _ => n = repoName ∧ id' = id
  | .write v _ | .commit v _ | .cancel v => v = w
  | .pushBlob .. | .mountBlob .. | .pushManifest .. => False

instance (w : Nat) (repoName id : String) : DecidablePred (Op.Names w repoName id)
  | .pushBlobChunked _ | .pushBlobChunkedResume .. => inferInstanceAs (Decidable (_ ∧ _))
  | .write .. | .commit .. | .cancel .. => inferInstanceAs (Decidable (_ = _))
  | .pushBlob .. | .mountBlob .. | .pushManifest .. => inferInstanceAs (Decidable False)

/-- A call that does not name a session leaves its buffer as it was. -/
lemma Registry.step_of_not_names {r : Registry} (hu : r.UploadsOwned) {w : Nat} {b : Buffer}
    (hb : r.buffers[w]? = some b) {op : Op} (hn : ¬op.Names w b.repoName b.id) :
    (r.step lib op).buffers[w]? = some b := by
  have hw : w < r.buffers.length := (List.getElem?_eq_some_iff.1 hb).1
  refine ((r.step_frame lib op).buffers w hw fun hfp => hn ?_).trans hb
  cases op with
  | pushBlobChunked n =>
    obtain ⟨b', hb', rfl, hid⟩ := hu n "" w hfp
    obtain rfl := Option.some.inj (hb.symm.trans hb')
    exact ⟨rfl, hid⟩
  | pushBlobChunkedResume n id _ =>
    obtain ⟨b', hb', rfl, rfl⟩ := hu n id w hfp
    obtain rfl := Option.some.inj (hb.symm.trans hb')
    exact ⟨rfl, rfl⟩
  | write v _ | commit v _ | cancel v => exact hfp.symm
  | pushBlob | mountBlob | pushManifest => exact hfp.elim

/-- A write at the offset an open session expects is accepted and appended. -/
lemma Registry.write_open {r : Registry} {w : Nat} {b : Buffer} (hb : r.buffers[w]? = some b)
    (hopen : b.state = .open) (hoff : b.checkStartOffset = b.buf.length) (data : Bytes) :
    r.write w data = (.ok data.length, r.modifyBuffer w fun _ =>
      { b with buf := b.buf ++ data, checkStartOffset := b.buf.length + data.length }) := by
  simp [write, hb, Buffer.write, hopen, hoff]

/-- `PushBlobChunked` in a valid repository with no upload under the empty id opens a new, empty
session at the end of the heap. -/
lemma Registry.pushBlobChunked_fresh {r : Registry} {n : String} (hn : Ociref.isValidRepository n)
    (hfresh : (r.getRepo n).uploads "" = none) :
    (r.pushBlobChunked lib n).1 = .ok r.buffers.length ∧
      (r.pushBlobChunked lib n).2.buffers[r.buffers.length]? =
        some { repoName := n, id := lib.uploadID r.buffers.length } := by
  simp [pushBlobChunked, pushBlobChunkedResume, makeRepo_eq, hn, hfresh, newUpload,
    modifyBuffer_buffers, newBuffer, setOffset]

/-- Chunks written one after another through a session open at its size are all accepted, and
leave its buffer as one write of their concatenation does. -/
lemma Registry.run_writes {r : Registry} {w : Nat} {b : Buffer} (hb : r.buffers[w]? = some b)
    (hopen : b.state = .open) (hoff : b.checkStartOffset = b.buf.length) :
    ∀ chunks : List Bytes, (r.run lib (chunks.map (.write w))).buffers[w]? = some
      { b with buf := b.buf ++ chunks.flatten, checkStartOffset := b.buf.length + chunks.flatten.length }
  | [] => by
    obtain ⟨_, _, _, _, _⟩ := b
    simp_all
  | c :: cs => by
    have h₁ : (r.step lib (.write w c)).buffers[w]? =
        some { b with buf := b.buf ++ c, checkStartOffset := b.buf.length + c.length } := by
      simp [Registry.step, r.write_open hb hopen hoff, modifyBuffer_buffers, hb]
    rw [List.map_cons, Registry.run_cons, Registry.run_writes h₁ hopen (by simp) cs]
    simp only [List.flatten_cons, List.append_assoc, List.length_append]
    congr 2
    omega

/-- A commit answers alike in two registries where its session's buffer is the same. -/
lemma Registry.commit_fst_congr {r r' : Registry} {w : Nat} (h : r.buffers[w]? = r'.buffers[w]?)
    (dig : Digest) : (r.commit lib w dig).1 = (r'.commit lib w dig).1 := by
  unfold commit
  rw [h]
  split <;> (try split) <;> (try split) <;> rfl

/-! ## Interleaved runs -/

/-- `zs` interleaves the calls `xs` of one client with the calls `ys` of the others, each in its
own order. -/
inductive Interleaving {α : Type} : List α → List α → List α → Prop
  | nil : Interleaving [] [] []
  | mine (x : α) {xs ys zs : List α} : Interleaving xs ys zs → Interleaving (x :: xs) ys (x :: zs)
  | others (y : α) {xs ys zs : List α} : Interleaving xs ys zs → Interleaving xs (y :: ys) (y :: zs)

section Upload

variable {w : Nat} {n id : String} {data : Bytes}

/-- Where a client that uploads `data` through session `w`, opened in `n` under `id`, stands,
`xs` being its calls still to come: its session is open at its size, holding what it wrote, and
the rest of `data` is still to write, chunk by chunk, then to commit; or it has committed, and
`data` is stored. -/
def Registry.UploadPending (r : Registry) (w : Nat) (n id : String) (data : Bytes) (xs : List Op) :
    Prop :=
  (∃ (b : Buffer) (chunks : List Bytes), r.buffers[w]? = some b ∧ b.state = .open ∧
    b.checkStartOffset = b.buf.length ∧ b.repoName = n ∧ b.id = id ∧ b.buf ++ chunks.flatten = data ∧
    xs = chunks.map (.write w) ++ [.commit w (lib.fromBytes data)]) ∨
  (xs = [] ∧ r.UploadStored lib w n data)

/-- The client's next call keeps it on its way. -/
lemma Registry.UploadPending.mine {r : Registry} {x : Op} {xs : List Op}
    (h : r.UploadPending lib w n id data (x :: xs)) : (r.step lib x).UploadPending lib w n id data xs := by
  rcases h with ⟨b, chunks, hb, hopen, hoff, rfl, rfl, hdata, hxs⟩ | ⟨hxs, -⟩
  · cases chunks with
    | nil =>
      obtain ⟨rfl, rfl⟩ := List.cons_eq_cons.1 hxs
      rw [List.flatten_nil, List.append_nil] at hdata
      subst hdata
      exact .inr ⟨rfl, (r.commit_open lib hb hopen).2⟩
    | cons c cs =>
      obtain ⟨rfl, rfl⟩ := List.cons_eq_cons.1 hxs
      refine .inl ⟨{ b with buf := b.buf ++ c, checkStartOffset := b.buf.length + c.length }, cs,
        ?_, hopen, by simp, rfl, rfl, by simpa using hdata, rfl⟩
      simp [Registry.step, r.write_open hb hopen hoff, modifyBuffer_buffers, hb]
  · cases hxs

/-- A call of another client that does not name the session keeps the client on its way. -/
lemma Registry.UploadPending.others (hcf : lib.CollisionFree) {r : Registry} (hr : Reachable lib r)
    {y : Op} (hy : ¬y.Names w n id) {xs : List Op} (h : r.UploadPending lib w n id data xs) :
    (r.step lib y).UploadPending lib w n id data xs := by
  rcases h with ⟨b, chunks, hb, hopen, hoff, rfl, rfl, hdata, hxs⟩ | ⟨hxs, hs⟩
  · exact .inl ⟨b, chunks, r.step_of_not_names lib hr.uploadsOwned hb hy, hopen, hoff, rfl, rfl,
      hdata, hxs⟩
  · exact .inr ⟨hxs, (r.step_grows lib hcf hr y).uploadStored lib hs⟩

/-- The run lemma: over an interleaving of the client's calls with calls that do not name its
session, the client ends having stored `data`. -/
lemma Registry.run_uploadPending (hcf : lib.CollisionFree) {xs ys zs : List Op}
    (h : Interleaving xs ys zs) (hys : ∀ y ∈ ys, ¬y.Names w n id) :
    ∀ {r : Registry}, Reachable lib r → r.UploadPending lib w n id data xs →
      (r.run lib zs).UploadStored lib w n data := by
  induction h with
  | nil =>
    rintro r - (⟨_, chunks, -, -, -, -, -, -, hxs⟩ | ⟨-, hs⟩)
    · simp at hxs
    · exact hs
  | mine x _ ih => exact fun hr hp => ih hys (hr.step x) (hp.mine lib)
  | others y _ ih =>
    exact fun hr hp =>
      ih (fun y' hy' => hys y' (.tail _ hy')) (hr.step y) (hp.others lib hcf hr (hys y (.head _)))

end Upload

/-- With digests that do not collide, a client holding a session of a reachable registry, open at
its size, that writes some chunks through it and then commits their digest, its calls
interleaved in any order with calls of other clients that do not name the session: once the run
is over, the session is committed holding its earlier bytes followed by every chunk in order, and
its repository stores those bytes under their digest. -/
theorem interleaved_upload_stored (hcf : lib.CollisionFree) {r : Registry} (hr : Reachable lib r)
    {w : Nat} {b : Buffer} (hb : r.buffers[w]? = some b) (hopen : b.state = .open)
    (hoff : b.checkStartOffset = b.buf.length) (chunks : List Bytes) {others ops : List Op}
    (hothers : ∀ op ∈ others, ¬op.Names w b.repoName b.id)
    (hops : Interleaving (chunks.map (.write w) ++ [.commit w (lib.fromBytes (b.buf ++ chunks.flatten))])
      others ops) :
    (r.run lib ops).UploadStored lib w b.repoName (b.buf ++ chunks.flatten) :=
  Registry.run_uploadPending lib hcf hops hothers hr (.inl ⟨b, chunks, hb, hopen, hoff, rfl, rfl, rfl, rfl⟩)

/-- With digests that do not collide, an open session of a reachable registry, registered under
`id` in the valid repository `n`, whatever offset it expects, resumed by its id at its size,
then written some chunks and committed with their digest, those calls interleaved after the
resume with calls of other clients that do not name the session: once the run is over, the
session is committed holding its earlier bytes followed by every chunk in order, and `n` stores
those bytes under their digest. -/
theorem resumed_upload_stored (hcf : lib.CollisionFree) {r : Registry} (hr : Reachable lib r)
    {n id : String} {w : Nat} {b : Buffer} (hn : Ociref.isValidRepository n)
    (hu : (r.getRepo n).uploads id = some w) (hb : r.buffers[w]? = some b) (hopen : b.state = .open)
    (chunks : List Bytes) {others ops : List Op} (hothers : ∀ op ∈ others, ¬op.Names w n id)
    (hops : Interleaving (chunks.map (.write w) ++ [.commit w (lib.fromBytes (b.buf ++ chunks.flatten))])
      others ops) :
    (r.run lib (.pushBlobChunkedResume n id b.buf.length :: ops)).UploadStored lib w n
      (b.buf ++ chunks.flatten) := by
  obtain ⟨b', hb', hrepo, hid⟩ := Reachable.uploadsOwned lib hr n id w hu
  obtain rfl := Option.some.inj (hb.symm.trans hb')
  have hresumed : (r.step lib (.pushBlobChunkedResume n id b.buf.length)).buffers[w]? =
      some (setOffset b.buf.length b) := by
    simp [Registry.step, Registry.pushBlobChunkedResume, Registry.makeRepo_eq, hn, hu,
      Registry.modifyBuffer_buffers, hb]
  exact Registry.run_uploadPending lib hcf hops hothers (hr.step _)
    (.inl ⟨_, chunks, hresumed, hopen, rfl, hrepo, hid, rfl, rfl⟩)

/-- The session `u` holding `[1]`, resumed at 1, written `[2]` and committed, while another client
opens a session of its own. -/
theorem writtenUpload_resumed_stored :
    (writtenUpload.run Lib.reference
      [.pushBlobChunkedResume "repo" "u" 1, .pushBlobChunked "repo", .write 0 [2],
        .commit 0 (Lib.reference.fromBytes [1, 2])]).UploadStored Lib.reference 0 "repo" [1, 2] :=
  resumed_upload_stored Lib.reference Lib.reference_collisionFree
    (show Reachable Lib.reference writtenUpload from (Reachable.new _).run _ _) (by decide)
    (show (writtenUpload.getRepo "repo").uploads "u" = some 0 from rfl)
    (show writtenUpload.buffers[0]? = some { repoName := "repo", id := "u", buf := [1], checkStartOffset := 1 }
      from rfl) rfl [[2]] (by decide) (.others _ (.mine _ (.mine _ .nil)))

/-- Two sessions of `repo`, `u` and `v`, just opened. -/
def twoOpenSessions : Registry :=
  (Registry.new {}).run Lib.reference
    [.pushBlobChunkedResume "repo" "u" 0, .pushBlobChunkedResume "repo" "v" 0]

/-- The client of `u` writes `[1]` and `[2]` and commits them, while another writes `[7]` through
`v`, resumes `v` at offset 1 and commits it. -/
theorem twoOpenSessions_u_stored :
    (twoOpenSessions.run Lib.reference
      [.write 0 [1], .write 1 [7], .pushBlobChunkedResume "repo" "v" 1, .write 0 [2],
        .commit 1 (Lib.reference.fromBytes [7]), .commit 0 (Lib.reference.fromBytes [1, 2])]).UploadStored
      Lib.reference 0 "repo" [1, 2] :=
  interleaved_upload_stored Lib.reference Lib.reference_collisionFree ((Reachable.new _).run _ _)
    (show twoOpenSessions.buffers[0]? = some { repoName := "repo", id := "u" } from rfl) rfl rfl
    [[1], [2]] (by decide) (.mine _ (.others _ (.others _ (.mine _ (.others _ (.mine _ .nil))))))

end OciRegistry.Ocimem
