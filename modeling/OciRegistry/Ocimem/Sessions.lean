import OciRegistry.Ocimem.Run

/-!
# The in-memory registry: upload sessions over a run

What becomes of an upload session once it is committed or cancelled. Such a session is closed
for good: over every later run its buffer keeps its state and its bytes, and a write or a commit
through it fails and changes nothing (`Registry.run_terminal`). Its id is not dropped from the
repository, though: no call removes an upload id (`Registry.run_uploads`), and one is
re-pointed only when `NewBuffer` draws a fresh id equal to it (`Registry.step_uploads_cases`).
So while the fresh ids drawn later differ from it, the id keeps its buffer, and a resume of it
returns the closed session with the bytes it holds (`terminal_session_stays_closed`).

The step lemma for a closed buffer starts from the frame condition: a call leaves every buffer
outside its footprint as it was, and the four calls whose footprint holds a buffer are looked at
one by one.
-/

namespace OciRegistry.Ocimem

variable (lib : Lib)

/-- A session that is committed or cancelled. -/
def Buffer.Terminal (b : Buffer) : Prop := b.state ≠ .open

instance : DecidablePred Buffer.Terminal := fun b => inferInstanceAs (Decidable (b.state ≠ .open))

lemma Buffer.write_terminal {b : Buffer} (hb : b.Terminal) (data : Bytes) :
    b.write data = .error (.code .blobUploadInvalid) := by
  unfold Buffer.write
  split
  · exact absurd ‹_› hb
  · rfl

/-- A write or a commit through a closed session fails and changes nothing. -/
lemma Registry.write_commit_terminal {r : Registry} {w : Nat} {b : Buffer}
    (h : r.buffers[w]? = some b) (hb : b.Terminal) (data : Bytes) (dig : Digest) :
    r.write w data = (.error (.code .blobUploadInvalid), r) ∧
      r.commit lib w dig = (.error (.code .blobUploadInvalid), r) := by
  refine ⟨by simp [write, h, Buffer.write_terminal hb], ?_⟩
  simp only [commit, h]
  split
  · exact absurd ‹_› hb
  · rfl

lemma Registry.cancel_terminal {r : Registry} {w : Nat} {b : Buffer} (h : r.buffers[w]? = some b)
    (hb : b.Terminal) : (r.cancel w).buffers[w]? = some b := by
  simp only [cancel, modifyBuffer_buffers, if_true, h, Option.map_some']
  split
  · exact absurd ‹_› hb
  · rfl

/-- A call keeps the state and the bytes of a closed session; a resume may only move its
expected offset. -/
lemma Registry.step_terminal {r : Registry} {w : Nat} {b : Buffer} (h : r.buffers[w]? = some b)
    (hb : b.Terminal) (op : Op) :
    ∃ b', (r.step lib op).buffers[w]? = some b' ∧ b'.state = b.state ∧ b'.buf = b.buf := by
  by_cases hfp : (op.footprint lib r).buffers w
  swap
  · have hw : w < r.buffers.length := (List.getElem?_eq_some_iff.1 h).1
    exact ⟨b, ((r.step_frame lib op).buffers w hw hfp).trans h, rfl, rfl⟩
  have resume : ∀ n id offset, (r.getRepo n).uploads id = some w →
      ∃ b', (r.pushBlobChunkedResume lib n id offset).2.buffers[w]? = some b' ∧
        b'.state = b.state ∧ b'.buf = b.buf := fun n id offset hu => by
    rcases hp : r.pushBlobChunkedResume lib n id offset with ⟨res, r'⟩
    rcases pushBlobChunkedResume_spec lib hp with ⟨e, -, rfl⟩ | ⟨-, w', -, ⟨hu', rfl⟩ | ⟨hu', -⟩⟩
    · exact ⟨b, h, rfl, rfl⟩
    · obtain rfl : w' = w := Option.some.inj (hu'.symm.trans hu)
      exact ⟨setOffset offset b, by simp [modifyBuffer_buffers, h], rfl, rfl⟩
    · simp [hu] at hu'
  cases op with
  | pushBlob | mountBlob | pushManifest => exact absurd hfp id
  | pushBlobChunked n => exact resume n "" 0 hfp
  | pushBlobChunkedResume n id offset => exact resume n id offset hfp
  | write v data =>
    obtain rfl : w = v := hfp
    exact ⟨b, by simp [step, (r.write_commit_terminal lib h hb data "").1, h], rfl, rfl⟩
  | commit v dig =>
    obtain rfl : w = v := hfp
    exact ⟨b, by simp [step, (r.write_commit_terminal lib h hb [] dig).2, h], rfl, rfl⟩
  | cancel v =>
    obtain rfl : w = v := hfp
    exact ⟨b, r.cancel_terminal h hb, rfl, rfl⟩

/-- A committed or cancelled session stays closed over every later run: its buffer keeps its
state and its bytes, and a write or a commit through it fails and changes nothing. -/
lemma Registry.run_terminal {r : Registry} {w : Nat} {b : Buffer} (h : r.buffers[w]? = some b)
    (hb : b.Terminal) (ops : List Op) :
    ∃ b', (r.run lib ops).buffers[w]? = some b' ∧ b'.state = b.state ∧ b'.buf = b.buf ∧
      ∀ data dig, (r.run lib ops).write w data = (.error (.code .blobUploadInvalid), r.run lib ops) ∧
        (r.run lib ops).commit lib w dig = (.error (.code .blobUploadInvalid), r.run lib ops) := by
  induction ops generalizing r b with
  | nil => exact ⟨b, h, rfl, rfl, r.write_commit_terminal lib h hb⟩
  | cons op ops ih =>
    obtain ⟨b₁, h₁, hs, hbuf⟩ := r.step_terminal lib h hb op
    obtain ⟨b', h', hs', hbuf', hclosed⟩ := ih h₁ (by rwa [Buffer.Terminal, hs])
    exact ⟨b', h', hs'.trans hs, hbuf'.trans hbuf, hclosed⟩

/-- A call keeps an upload id on its buffer, or registers it to a new buffer when the fresh id
`NewBuffer` draws is the same. -/
lemma Registry.step_uploads_cases {r : Registry} {n u : String} {w : Nat}
    (h : (r.getRepo n).uploads u = some w) (op : Op) :
    ((r.step lib op).getRepo n).uploads u = some w ∨
      (lib.uploadID r.buffers.length = u ∧
        ((r.step lib op).getRepo n).uploads u = some r.buffers.length) := by
  have frame := r.step_frame lib op
  by_cases hn : n = (op.footprint lib r).repo
  swap
  · rw [frame.other n hn]
    exact .inl h
  by_cases hu : (op.footprint lib r).uploads u
  swap
  · rw [hn, frame.uploads u hu, ← hn]
    exact .inl h
  have resume : ∀ id offset, u = (newBuffer lib n id r.buffers.length).id →
      ((r.pushBlobChunkedResume lib n id offset).2.getRepo n).uploads u = some w ∨
        (lib.uploadID r.buffers.length = u ∧
          ((r.pushBlobChunkedResume lib n id offset).2.getRepo n).uploads u = some r.buffers.length) :=
    fun id offset hid => by
      rcases hp : r.pushBlobChunkedResume lib n id offset with ⟨res, r'⟩
      rcases pushBlobChunkedResume_spec lib hp with
        ⟨e, -, rfl⟩ | ⟨-, w', -, ⟨-, rfl⟩ | ⟨hnone, rfl, rfl⟩⟩
      · exact .inl h
      · exact .inl (by simpa using h)
      · refine .inr ⟨?_, by simp [getRepo_setRepo, Repository.setUpload, hid]⟩
        -- a registered id is found, not drawn again: the new buffer's id is the fresh one
        by_cases he : id = ""
        · simpa [newBuffer, he] using hid.symm
        · simp only [newBuffer, if_neg he] at hid
          simp [← hid, h] at hnone
  cases op with
  | pushBlobChunked m =>
    obtain rfl : n = m := hn
    exact resume "" 0 hu
  | pushBlobChunkedResume m id offset =>
    obtain rfl : n = m := hn
    exact resume id offset hu
  | _ => exact absurd hu id

/-- No call removes an upload id from a repository. -/
lemma Registry.step_uploads {r : Registry} {n u : String} (h : ((r.getRepo n).uploads u).isSome)
    (op : Op) : (((r.step lib op).getRepo n).uploads u).isSome := by
  obtain ⟨w, hw⟩ := Option.isSome_iff_exists.1 h
  rcases r.step_uploads_cases lib hw op with h' | ⟨-, h'⟩ <;> simp [h']

lemma Registry.run_uploads {r : Registry} {n u : String} (h : ((r.getRepo n).uploads u).isSome)
    (ops : List Op) : (((r.run lib ops).getRepo n).uploads u).isSome := by
  induction ops generalizing r with
  | nil => exact h
  | cons op ops ih => exact ih (r.step_uploads lib h op)

/-- Over a run whose fresh upload ids all differ from `u`, the id `u` keeps its buffer. -/
lemma Registry.run_uploads_eq {r : Registry} {n u : String} {w : Nat}
    (h : (r.getRepo n).uploads u = some w) (hfresh : ∀ k, r.buffers.length ≤ k → lib.uploadID k ≠ u)
    (ops : List Op) : ((r.run lib ops).getRepo n).uploads u = some w := by
  induction ops generalizing r with
  | nil => exact h
  | cons op ops ih =>
    have hlen := (r.step_frame lib op).length
    exact ih ((r.step_uploads_cases lib h op).resolve_right fun hc => hfresh _ le_rfl hc.1)
      fun k hk => hfresh k (hlen.trans hk)

/-- A committed or cancelled session stays closed over every later run: its buffer keeps its
state and its bytes, and a write or a commit through it fails and changes nothing. Its id, in a
valid repository, keeps the buffer while the fresh ids drawn later differ from it, and a resume
of the id then returns the closed session. -/
theorem terminal_session_stays_closed {r : Registry} {w : Nat} {b : Buffer}
    (h : r.buffers[w]? = some b) (hb : b.Terminal) (ops : List Op) :
    (∃ b', (r.run lib ops).buffers[w]? = some b' ∧ b'.state = b.state ∧ b'.buf = b.buf ∧
      ∀ data dig, (r.run lib ops).write w data = (.error (.code .blobUploadInvalid), r.run lib ops) ∧
        (r.run lib ops).commit lib w dig = (.error (.code .blobUploadInvalid), r.run lib ops)) ∧
    ∀ n u offset, Ociref.isValidRepository n → (r.getRepo n).uploads u = some w →
      (∀ k, r.buffers.length ≤ k → lib.uploadID k ≠ u) →
      ((r.run lib ops).getRepo n).uploads u = some w ∧
        ((r.run lib ops).pushBlobChunkedResume lib n u offset).1 = .ok w ∧
        ∃ b', ((r.run lib ops).pushBlobChunkedResume lib n u offset).2.buffers[w]? = some b' ∧
          b'.state = b.state ∧ b'.buf = b.buf := by
  have closed := r.run_terminal lib h hb ops
  refine ⟨closed, fun n u offset hv hu hfresh => ?_⟩
  have hu' := r.run_uploads_eq lib hu hfresh ops
  obtain ⟨b', hb', hs, hbuf, -⟩ := closed
  rw [Registry.pushBlobChunkedResume_registered lib offset hv hu']
  exact ⟨hu', rfl, setOffset offset b', by simp [Registry.modifyBuffer_buffers, hb'], hs, hbuf⟩

/-- The upload ids of `Lib.reference` are at least seven characters long. -/
lemma Lib.reference_uploadID_length (k : Nat) : 7 ≤ (Lib.reference.uploadID k).length := by
  rw [show Lib.reference.uploadID k = "upload-" ++ toString k from rfl, String.length_append]
  have h7 : "upload-".length = 7 := by decide
  omega

/-- An upload `u` opened in `repo`, written `[1]` and committed. -/
def committedUpload : Registry :=
  (Registry.new {}).run Lib.reference
    [.pushBlobChunkedResume "repo" "u" 0, .write 0 [1], .commit 0 (Lib.reference.fromBytes [1])]

/-- After the commit the repository still maps `u` to its session, and a resume of `u` returns
that session, committed, with the bytes it holds. -/
theorem committed_session_still_resumable :
    (committedUpload.getRepo "repo").uploads "u" = some 0 ∧
    (committedUpload.pushBlobChunkedResume Lib.reference "repo" "u" 1).1 = .ok 0 ∧
    ((committedUpload.pushBlobChunkedResume Lib.reference "repo" "u" 1).2.buffers[0]?.map
      fun b => (b.buf, b.state)) = some ([1], .committed
        { mediaType := uploadMediaType, digest := Lib.reference.fromBytes [1], size := 1 }) :=
  ⟨by decide, rfl, by decide⟩

/-- The committed session of `committedUpload` stays closed through a resume, a write and a new
upload, which draws a fresh id other than `u`; a resume of `u` after them returns it. -/
theorem committed_upload_stays_closed :
    let r := committedUpload.run Lib.reference
      [.pushBlobChunkedResume "repo" "u" 1, .write 0 [2], .pushBlobChunked "repo"]
    (∃ b', r.buffers[0]? = some b' ∧ b'.buf = [1] ∧ b'.state = .committed
        { mediaType := uploadMediaType, digest := Lib.reference.fromBytes [1], size := 1 } ∧
      ∀ data dig, r.write 0 data = (.error (.code .blobUploadInvalid), r) ∧
        r.commit Lib.reference 0 dig = (.error (.code .blobUploadInvalid), r)) ∧
    (r.getRepo "repo").uploads "u" = some 0 ∧
      (r.pushBlobChunkedResume Lib.reference "repo" "u" 1).1 = .ok 0 ∧
      ∃ b', (r.pushBlobChunkedResume Lib.reference "repo" "u" 1).2.buffers[0]? = some b' ∧
        b'.buf = [1] ∧ b'.state = .committed
          { mediaType := uploadMediaType, digest := Lib.reference.fromBytes [1], size := 1 } :=
  have ⟨⟨b', h, hs, hbuf, hclosed⟩, resume⟩ := terminal_session_stays_closed Lib.reference
    (b := { repoName := "repo", id := "u", buf := [1], checkStartOffset := 1
            state := .committed
              { mediaType := uploadMediaType, digest := Lib.reference.fromBytes [1], size := 1 } })
    (by decide) (by decide)
    [.pushBlobChunkedResume "repo" "u" 1, .write 0 [2], .pushBlobChunked "repo"]
  have ⟨hu, hres, b'', h'', hs'', hbuf''⟩ := resume "repo" "u" 1 (by decide) (by decide)
    fun k _ hk => absurd (Lib.reference_uploadID_length k) (by rw [hk]; decide)
  ⟨⟨b', h, hbuf, hs, hclosed⟩, hu, hres, b'', h'', hbuf'', hs''⟩

end OciRegistry.Ocimem
