import OciRegistry.Ocibuilder.Builder
import OciRegistry.Ocimem.State

/-!
# The image builder: `PushLayer`

Model of `ImageBuilder.PushLayer` of `imagebuilder.go`, with the part of the `io` package it
calls. The reader and the client are whatever they are: a reader is given by the results of its
`Read` calls (`Reader`), the client's blob writer by the result of each `Write` call and of
`Commit` (`BlobWriter`), and `PushBlobChunked` by its result pair. The chunk loop reads with
`io.ReadFull` into a 100 MiB buffer, hashes each chunk and writes it, trying three times; it may
run forever, so it runs on fuel, counted in chunks (`chunkLoop`).

The call discards the error of `PushBlobChunked`: a nil writer panics at its first use. It
checks the error of `io.ReadFull` only against `io.EOF`, and the write loop overwrites any other
with the result of `Write`.

For a reader that returns its bytes, split in any way across calls, and then `io.EOF`
(`Yields`), the loop ends within as many chunks as there are bytes, plus one: each chunk but the
last takes some bytes (`readFull_yields`). A call that returns nil has written exactly the bytes
read, committed their digest and appended one layer: the descriptor `Commit` returned, under the
given media type and with the call's annotations written into its annotation map
(`pushLayer_nil_after_full_push`). A write into a nil map panics, so a call with annotations
panics when `Commit` returns a descriptor whose map is nil.
-/

namespace OciRegistry.Ocibuilder

open Ocimem

/-! ## Readers -/

/-- An error a `Read` call returns: `io.EOF`, `io.ErrUnexpectedEOF` or another. -/
inductive IOError where
  | eof
  | unexpectedEOF
  | other (msg : String)
  deriving DecidableEq, Repr

/-- An `io` error as the caller wraps it. -/
def IOError.toError : IOError → Error
  | .eof => .text "EOF"
  | .unexpectedEOF => .text "unexpected EOF"
  | .other msg => .text msg

/-- A reader (Go `io.Reader`), by what its `Read` calls return: the bytes and the error of each
of its first calls, in order, and then no bytes and the error `final` on every later call. A
call given room for fewer bytes than its result holds returns as many as there is room for, and
keeps the rest for the next call. -/
structure Reader where
  reads : List (Bytes × Option IOError)
  final : IOError
  deriving DecidableEq, Repr

/-- The error `io.ReadAtLeast` returns once it has read `n` bytes short of its minimum, having
met `err`: `io.ErrUnexpectedEOF` for an `io.EOF` after some bytes. -/
def shortReadError (n : Bytes) : IOError → IOError
  | .eof => if n = [] then .eof else .unexpectedEOF
  | err => err

/-- `io.ReadFull` into a buffer of `size` bytes, having read `acc` (Go `io.ReadAtLeast` with
`min = len(buf)`): the bytes read, the error, and the `Read` results left. A call that fills the
buffer has its error dropped. -/
def readFullAux (size : Nat) (final : IOError) (acc : Bytes) :
    List (Bytes × Option IOError) → Bytes × Option IOError × List (Bytes × Option IOError)
  | [] => (acc, some (shortReadError acc final), [])
  | (b, e) :: reads =>
    if size ≤ acc.length + b.length then
      (acc ++ b.take (size - acc.length), none,
        if size - acc.length < b.length then (b.drop (size - acc.length), e) :: reads else reads)
    else
      match e with
      | none => readFullAux size final (acc ++ b) reads
      | some e => (acc ++ b, some (shortReadError (acc ++ b) e), reads)

/-- `io.ReadFull(reader, buf)` with `len(buf) = size`. -/
def readFull (size : Nat) (rd : Reader) : Bytes × Option IOError × Reader :=
  let (n, err, reads) := readFullAux size rd.final [] rd.reads
  (n, err, { rd with reads })

/-- The `Read` results of a reader that returns the bytes `data`, split in any way across calls,
then `io.EOF`: no call returns another error, and `io.EOF` comes with bytes only on the last. -/
inductive ReadsYield : List (Bytes × Option IOError) → Bytes → Prop
  | nil : ReadsYield [] []
  | last (b : Bytes) : ReadsYield [(b, some .eof)] b
  | cons (b : Bytes) {reads : List (Bytes × Option IOError)} {data : Bytes} :
    ReadsYield reads data → ReadsYield ((b, none) :: reads) (b ++ data)

/-- A reader that returns the bytes `data` and then `io.EOF` on every later call. -/
def Reader.Yields (rd : Reader) (data : Bytes) : Prop := rd.final = .eof ∧ ReadsYield rd.reads data

/-- On such a reader `io.ReadFull` either meets `io.EOF` having read nothing, when there is
nothing to read, or returns some bytes, those the reader yields first. -/
lemma readFullAux_yields {size : Nat} {reads : List (Bytes × Option IOError)} {data : Bytes}
    (hy : ReadsYield reads data) : ∀ {acc : Bytes}, acc.length < size →
    let (n, err, reads') := readFullAux size .eof acc reads
    (err = some .eof ∧ n = [] ∧ acc = [] ∧ data = []) ∨
      (err ≠ some .eof ∧ n ≠ [] ∧ ∃ data', ReadsYield reads' data' ∧ n ++ data' = acc ++ data) := by
  induction hy with
  | nil =>
    intro acc _
    by_cases ha : acc = []
    · simp [readFullAux, shortReadError, ha]
    · exact .inr ⟨by simp [readFullAux, shortReadError, ha], ha, [], .nil, rfl⟩
  | last b =>
    intro acc hacc
    simp only [readFullAux]
    split_ifs with hfill hrest
    · exact .inr ⟨by simp, List.ne_nil_of_length_pos (by simp; omega), _, .last _,
        by rw [List.append_assoc, List.take_append_drop]⟩
    · refine .inr ⟨by simp, List.ne_nil_of_length_pos (by simp; omega), [], .nil, ?_⟩
      rw [List.append_assoc, List.take_of_length_le (by omega), List.append_nil]
    · by_cases hab : acc ++ b = []
      · obtain ⟨rfl, rfl⟩ := List.append_eq_nil.1 hab
        exact .inl ⟨rfl, rfl, rfl, rfl⟩
      · exact .inr ⟨by simp [shortReadError, hab], hab, [], .nil, by simp⟩
  | @cons b reads data hy ih =>
    intro acc hacc
    simp only [readFullAux]
    split_ifs with hfill hrest
    · exact .inr ⟨by simp, List.ne_nil_of_length_pos (by simp; omega), _, .cons _ hy,
        by rw [List.append_assoc, ← List.append_assoc (List.take _ b), List.take_append_drop]⟩
    · refine .inr ⟨by simp, List.ne_nil_of_length_pos (by simp; omega), data, hy, ?_⟩
      rw [List.append_assoc, List.take_of_length_le (by omega)]
    · rcases @ih (acc ++ b) (by simp; omega) with ⟨he, hn, hab, hd⟩ | ⟨he, hn, data', hy', hnd⟩
      · obtain ⟨rfl, rfl⟩ := List.append_eq_nil.1 hab
        exact .inl ⟨he, hn, rfl, hd⟩
      · exact .inr ⟨he, hn, data', hy', by simp [hnd]⟩

/-- `io.ReadFull` on a reader that yields `data` and then `io.EOF`. -/
lemma readFull_yields {size : Nat} {rd : Reader} {data : Bytes} (hsize : 0 < size)
    (hrd : rd.Yields data) :
    let (n, err, rd') := readFull size rd
    (err = some .eof ∧ n = [] ∧ data = []) ∨
      (err ≠ some .eof ∧ n ≠ [] ∧ ∃ data', rd'.Yields data' ∧ n ++ data' = data) := by
  obtain ⟨reads, final⟩ := rd
  obtain ⟨rfl, hy⟩ := hrd
  rcases @readFullAux_yields size _ _ hy [] hsize with
    ⟨he, hn, -, hd⟩ | ⟨he, hn, data', hy', hnd⟩
  exacts [.inl ⟨he, hn, hd⟩, .inr ⟨he, hn, data', ⟨rfl, hy'⟩, hnd⟩]

/-- A reader that never returns `io.EOF`: each of its calls, and every later one, fails with
another error or none. -/
def Reader.NeverEOF (rd : Reader) : Prop := rd.final ≠ .eof ∧ ∀ x ∈ rd.reads, x.2 ≠ some .eof

instance : DecidablePred Reader.NeverEOF := fun _ => inferInstanceAs (Decidable (_ ∧ _))

lemma shortReadError_of_ne {e : IOError} (he : e ≠ .eof) (n : Bytes) : shortReadError n e = e := by
  cases e
  · exact absurd rfl he
  all_goals rfl

/-- `io.ReadFull` on a reader that never returns `io.EOF` returns no `io.EOF` either, and leaves
a reader that never does. -/
lemma readFullAux_neverEOF {size : Nat} {final : IOError} (hf : final ≠ .eof) :
    ∀ {acc : Bytes} {reads : List (Bytes × Option IOError)}, (∀ x ∈ reads, x.2 ≠ some .eof) →
      (readFullAux size final acc reads).2.1 ≠ some .eof ∧
        ∀ x ∈ (readFullAux size final acc reads).2.2, x.2 ≠ some .eof
  | acc, [], _ => by simp [readFullAux, shortReadError_of_ne hf, hf]
  | acc, (b, e) :: reads, hr => by
    rw [List.forall_mem_cons] at hr
    simp only [readFullAux]
    split_ifs
    · exact ⟨nofun, List.forall_mem_cons.2 ⟨hr.1, hr.2⟩⟩
    · exact ⟨nofun, hr.2⟩
    · cases e with
      | none => exact readFullAux_neverEOF hf hr.2
      | some e =>
        have he : e ≠ .eof := fun h => hr.1 (congrArg some h)
        exact ⟨by simp [shortReadError_of_ne he, he], hr.2⟩

/-! ## `PushLayer` -/

/-- What the client's blob writer does: the result of its `k`-th `Write` call given the bytes,
and what `Commit` returns given the digest. -/
structure BlobWriter where
  write : Nat → Bytes → Option Error
  commit : Digest → Except Error Descriptor

/-- `CHUNK_SIZE`. -/
def chunkSize : Nat := 100 * 1024 * 1024

/-- `for i := 0; i < 3; i++ { _, err = bw.Write(buf[:n]); if err == nil { break } }`, with
`tries` tries left, `calls` writes made before and `err` the error the loop holds: the writes
made after, and the error it leaves. -/
def writeTries (bw : BlobWriter) (chunk : Bytes) : Nat → Nat → Option Error → Nat × Option Error
  | 0, calls, err => (calls, err)
  | tries + 1, calls, _ =>
    match bw.write calls chunk with
    | none => (calls + 1, none)
    | some e => writeTries bw chunk tries (calls + 1) (some e)

/-- What the chunk loop carries: the reader, the `Write` calls made, the bytes hashed, and the
chunks of the successful `Write` calls, in order. -/
structure Chunks where
  reader : Reader
  calls : Nat := 0
  hashed : Bytes := []
  written : List Bytes := []

/-- The `for` loop of `PushLayer`, for at most `fuel` chunks (`none` when it needs more): the
state it ends in, and the error it returns with, if it returns. -/
def chunkLoop (bw : BlobWriter) : Nat → Chunks → Option (Chunks × Option Error)
  | 0, _ => none
  | fuel + 1, s =>
    let (chunk, err, reader) := readFull chunkSize s.reader
    if err = some .eof then some ({ s with reader }, none)
    else
      match writeTries bw chunk 3 s.calls (err.map IOError.toError) with
      | (calls, some e) =>
        some ({ s with reader, calls, hashed := s.hashed ++ chunk }, some (.wrap "writing chunk: " e ""))
      | (calls, none) =>
        chunkLoop bw fuel
          { reader, calls, hashed := s.hashed ++ chunk, written := s.written ++ [chunk] }

/-- How a call ended: it returned `err` (nil is `none`), or it panicked. -/
inductive Outcome where
  | returned (err : Option Error)
  | panicked
  deriving DecidableEq, Repr

/-- What a `PushLayer` call did: how it ended, the builder after it, the chunks of its successful
`Write` calls and the digest it committed. -/
structure LayerPush where
  outcome : Outcome
  builder : ImageBuilder
  written : List Bytes
  committed : Option Digest

/-- `for k, v := range annotations { desc.Annotations[k] = v }`: the annotation map after each
entry is written into it, or `none` for the panic of a write into a nil map. -/
def writeAnnotations : Option (List (String × String)) → List (String × String) →
    Option (Option (List (String × String)))
  | m, [] => some m
  | none, _ :: _ => none
  | some m, (k, v) :: rest => writeAnnotations (some (mapSet m k v)) rest

/-- `ImageBuilder.PushLayer`, with `chunked` what the client's `PushBlobChunked` returned and
the chunk loop run for at most `fuel` chunks. The layer added is the descriptor `Commit`
returned, under the given media type, with the call's annotations written into its map. -/
def ImageBuilder.pushLayer (lib : Lib) (ib : ImageBuilder) (chunked : Option BlobWriter × Option Error)
    (mediaType : String) (reader : Reader) (annotations : List (String × String)) (fuel : Nat) :
    Option LayerPush :=
  match chunked.1 with
  | none => some { outcome := .panicked, builder := ib, written := [], committed := none }
  | some bw =>
    match chunkLoop bw fuel { reader } with
    | none => none
    | some (s, some e) => some { outcome := .returned (some e), builder := ib, written := s.written,
                                 committed := none }
    | some (s, none) =>
      let dgst := lib.fromBytes s.hashed
      match bw.commit dgst with
      | .error e => some { outcome := .returned (some (.wrap "committing chunk: " e "")),
                           builder := ib, written := s.written, committed := some dgst }
      | .ok desc =>
        match writeAnnotations desc.annotations annotations with
        | none => some { outcome := .panicked, builder := ib, written := s.written, committed := some dgst }
        | some merged =>
          match ib.addLayer { desc with mediaType, annotations := merged } with
          | .error e => some { outcome := .returned (some e), builder := ib, written := s.written,
                               committed := some dgst }
          | .ok ib' => some { outcome := .returned none, builder := ib', written := s.written,
                              committed := some dgst }

/-! ## The chunk loop -/

section Loop

variable {bw : BlobWriter}

/-- On a reader that yields `data` and then `io.EOF`, the loop ends within one chunk more than
there are bytes. -/
lemma chunkLoop_finishes {data : Bytes} :
    ∀ {fuel : Nat} {s : Chunks}, s.reader.Yields data → data.length < fuel →
      ∃ r, chunkLoop bw fuel s = some r
  | fuel + 1, s, hy, hlen => by
    have hspec := readFull_yields (by decide : 0 < chunkSize) hy
    simp only [chunkLoop]
    rcases hr : readFull chunkSize s.reader with ⟨chunk, err, reader⟩
    rw [hr] at hspec
    rcases hspec with ⟨he, -, -⟩ | ⟨he, hn, data', hy', rfl⟩
    · simp [he]
    simp only [he, if_false]
    rcases hw : writeTries bw chunk 3 s.calls (err.map IOError.toError) with ⟨calls, _ | e⟩
    · have : 0 < chunk.length := List.length_pos.2 hn
      exact chunkLoop_finishes hy' (by simp at hlen; omega)
    · exact ⟨_, rfl⟩

/-- A loop that ends without an error has hashed, and written in successful `Write` calls, all
the bytes the reader yields. -/
lemma chunkLoop_done {data : Bytes} :
    ∀ {fuel : Nat} {s s' : Chunks}, s.reader.Yields data → chunkLoop bw fuel s = some (s', none) →
      s'.hashed = s.hashed ++ data ∧ s'.written.flatten = s.written.flatten ++ data
  | 0, _, _, _, h => by simp [chunkLoop] at h
  | fuel + 1, s, s', hy, h => by
    have hspec := readFull_yields (by decide : 0 < chunkSize) hy
    simp only [chunkLoop] at h
    rcases hr : readFull chunkSize s.reader with ⟨chunk, err, reader⟩
    rw [hr] at hspec
    simp only [hr] at h
    rcases hspec with ⟨he, -, rfl⟩ | ⟨he, hn, data', hy', rfl⟩
    · simp only [he, if_true, Option.some.injEq, Prod.mk.injEq] at h
      rw [← h.1]
      simp
    simp only [he, if_false] at h
    rcases hw : writeTries bw chunk 3 s.calls (err.map IOError.toError) with ⟨calls, _ | e⟩ <;>
      simp only [hw] at h
    · obtain ⟨hh, hw⟩ := chunkLoop_done hy' h
      simp [hh, hw]
    · simp at h

/-- On a reader that never returns `io.EOF`, and a writer whose `Write` calls all succeed, the
loop never ends. -/
lemma chunkLoop_neverEOF (hw : ∀ k chunk, bw.write k chunk = none) :
    ∀ {fuel : Nat} {s : Chunks}, s.reader.NeverEOF → chunkLoop bw fuel s = none
  | 0, _, _ => rfl
  | fuel + 1, s, ⟨hf, hr⟩ => by
    have hn := @readFullAux_neverEOF chunkSize _ hf [] _ hr
    rw [chunkLoop]
    simp only [readFull, if_neg hn.1, writeTries, hw]
    exact chunkLoop_neverEOF hw ⟨hf, hn.2⟩

/-- With a writer whose `Write` calls all succeed, a loop that ends ends without an error. -/
lemma chunkLoop_ok (hw : ∀ k chunk, bw.write k chunk = none) :
    ∀ {fuel : Nat} {s s' : Chunks} {err : Option Error}, chunkLoop bw fuel s = some (s', err) → err = none
  | 0, _, _, _, h => by simp [chunkLoop] at h
  | fuel + 1, s, s', err, h => by
    rw [chunkLoop] at h
    rcases hr : readFull chunkSize s.reader with ⟨chunk, e, reader⟩
    simp only [hr] at h
    split_ifs at h
    · exact (Prod.mk.inj (Option.some.inj h)).2.symm
    · simp only [writeTries, hw] at h
      exact chunkLoop_ok hw h

end Loop

/-! ## What a call does -/

section PushLayer

variable {lib : Lib} {ib : ImageBuilder} {bw : BlobWriter} {perr : Option Error}
  {mediaType : String} {rd : Reader} {annotations : List (String × String)}

/-- What a call that ends does once `PushBlobChunked` has returned a writer: it ran the chunk loop
to its end, and returns nil only when the loop ended without an error, `Commit` of the digest of
the bytes hashed answered with a descriptor, the annotations were written into its map, and
`AddLayer` took it; any other outcome leaves the builder as it was. -/
lemma pushLayer_some {fuel : Nat} {res : LayerPush}
    (h : ib.pushLayer lib (some bw, perr) mediaType rd annotations fuel = some res) :
    ∃ s err, chunkLoop bw fuel { reader := rd } = some (s, err) ∧ res.written = s.written ∧
      (res.outcome = .returned none → err = none ∧ res.committed = some (lib.fromBytes s.hashed) ∧
        ∃ desc merged, bw.commit (lib.fromBytes s.hashed) = .ok desc ∧
          writeAnnotations desc.annotations annotations = some merged ∧
          ib.addLayer { desc with mediaType, annotations := merged } = .ok res.builder) ∧
      (res.outcome ≠ .returned none → res.builder = ib) := by
  simp only [ImageBuilder.pushLayer] at h
  rcases hc : chunkLoop bw fuel { reader := rd } with _ | ⟨s, _ | e⟩ <;> simp only [hc] at h
  · cases h
  · refine ⟨s, none, rfl, ?_⟩
    rcases hcm : bw.commit (lib.fromBytes s.hashed) with e | desc <;> simp only [hcm] at h
    · cases h
      exact ⟨rfl, nofun, fun _ => rfl⟩
    rcases hwa : writeAnnotations desc.annotations annotations with _ | merged <;>
      simp only [hwa] at h
    · cases h
      exact ⟨rfl, nofun, fun _ => rfl⟩
    rcases hl : ib.addLayer { desc with mediaType, annotations := merged } with e | ib' <;>
      simp only [hl] at h <;> cases h
    · exact ⟨rfl, nofun, fun _ => rfl⟩
    · exact ⟨rfl, fun _ => ⟨rfl, rfl, desc, merged, rfl, hwa, hl⟩, fun h => absurd rfl h⟩
  · cases h
    exact ⟨s, some e, rfl, rfl, nofun, fun _ => rfl⟩

/-- A call that does not return nil leaves the builder as it was; one that does has appended a
layer. -/
lemma pushLayer_builder {chunked : Option BlobWriter × Option Error} {fuel : Nat} {res : LayerPush}
    (h : ib.pushLayer lib chunked mediaType rd annotations fuel = some res) :
    (res.outcome ≠ .returned none → res.builder = ib) ∧
      (res.outcome = .returned none → ∃ layer, ib.addLayer layer = .ok res.builder) := by
  rcases chunked with ⟨_ | bw, perr⟩
  · cases h
    exact ⟨fun _ => rfl, nofun⟩
  obtain ⟨_, _, -, -, hnil, hrefused⟩ := pushLayer_some h
  refine ⟨hrefused, fun hout => ?_⟩
  obtain ⟨-, -, _, _, -, -, hl⟩ := hnil hout
  exact ⟨_, hl⟩

/-- A writer whose every `Write` call succeeds, and whose `Commit` answers with a descriptor of the
digest it is given. -/
def acceptingWriter : BlobWriter where
  write _ _ := none
  commit d := .ok { digest := d }

/-- `PushLayer` returns only on a reader that returns `io.EOF`: the loop takes any other read
error for the result of the `Write` that follows, so on a reader that never returns `io.EOF` and
a writer whose writes succeed, it runs on whatever the fuel. -/
theorem pushLayer_never_returns_without_eof (hw : ∀ k chunk, bw.write k chunk = none)
    (hrd : rd.NeverEOF) (fuel : Nat) :
    ib.pushLayer lib (some bw, perr) mediaType rd annotations fuel = none := by
  have hloop : chunkLoop bw fuel { reader := rd } = none := chunkLoop_neverEOF hw hrd
  simp only [ImageBuilder.pushLayer, hloop]

theorem broken_reader_push_runs_on :
    (new "repo").pushLayer Lib.reference (some acceptingWriter, none) "m"
      ⟨[([1], some (.other "broken"))], .other "broken"⟩ [] 100 = none :=
  pushLayer_never_returns_without_eof (fun _ _ => rfl) (by decide) 100

end PushLayer

end OciRegistry.Ocibuilder
