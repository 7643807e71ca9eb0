import OciRegistry.Ocimem.State
import Mathlib.Data.Finset.Card
import Mathlib.Data.Finset.Prod
import Mathlib.Logic.Relation

/-!
# The in-memory registry: `refersTo`

Model of `refersTo` of `writer.go`: the depth-first search, through the manifests of a
repository, for a descriptor of some digest among those an iterator yields and those they lead
to. The search keeps no set of visited manifests, so in Go it ends only when the manifests it
descends through never lead back to themselves. The model bounds the depth of its recursion:
`refersTo lib repo dig depth iter` is `none` when the search needs calls deeper than `depth`, and
a search that ends at one depth ends with the same result at every greater one (`refersTo_mono`),
so the Go function returns what the model returns at a depth large enough.

What the search decides is reachability in the manifest-reference graph (`Edge`, `Reaches`).
Every answer the model gives is right, at any depth and with no hypothesis (`refersTo_true`,
`refersTo_false`, `refersTo_error`). On an acyclic graph it gives one: a search that runs out of
depth has followed a chain of edges as long as the depth (`refersTo_none`). Each manifest the
chain leaves is stored and read under a media type for which `getManifestInfo` yields
descriptors, so a chain longer than the number of stored digests times those media types passes
twice through one digest read under one media type, which leads to the same descriptors both
times and so closes a cycle (`chain_cycle`).
-/

namespace OciRegistry.Ocimem

variable (lib : Lib)

/-- The `for` loop of `refersTo` over the descriptors an iterator yields, with `recur` the
recursive call. A manifest that is not stored ends only the `switch` (Go `break`): the loop goes
on with the next descriptor. -/
def refersToLoop (repo : Repository) (dig : Digest)
    (recur : List DescInfo → Option (Except Error Bool)) : List DescInfo → Option (Except Error Bool)
  | [] => some (.ok false)
  | info :: infos =>
    if info.desc.digest = dig then some (.ok true)
    else
      match info.kind with
      | .blob => refersToLoop repo dig recur infos
      | .manifest | .subjectManifest =>
        match repo.manifests info.desc.digest with
        | none => refersToLoop repo dig recur infos
        | some b =>
          match lib.getManifestInfo info.desc.mediaType b.data with
          | .error e => some (.error e)
          | .ok minfo =>
            match recur minfo.descriptors with
            | some (.ok false) => refersToLoop repo dig recur infos
            | found => found

/-- `refersTo`, with its recursion at most `depth` calls deep. The Go pair `(true, nil)` is
`.ok true`, `(false, nil)` is `.ok false` and `(false, err)` is `.error err`; `none` is a search
that needs deeper calls. -/
def refersTo (repo : Repository) (dig : Digest) : Nat → List DescInfo → Option (Except Error Bool)
  | 0 => refersToLoop lib repo dig fun _ => none
  | depth + 1 => refersToLoop lib repo dig (refersTo repo dig depth)

/-! ## The manifest-reference graph -/

/-- The search descends from a manifest descriptor into what `getManifestInfo` finds in the
manifest stored under its digest, read under its media type. -/
def Expands (repo : Repository) (i : DescInfo) (minfo : ManifestInfo) : Prop :=
  i.kind ≠ .blob ∧ ∃ b, repo.manifests i.desc.digest = some b ∧
    lib.getManifestInfo i.desc.mediaType b.data = .ok minfo

/-- An edge of the manifest-reference graph, from a manifest descriptor to each descriptor of
the manifest it names. -/
def Edge (repo : Repository) (i j : DescInfo) : Prop :=
  ∃ minfo, Expands lib repo i minfo ∧ j ∈ minfo.descriptors

/-- The descriptors reachable from those of an iterator, themselves included. -/
def Reaches (repo : Repository) (iter : List DescInfo) (j : DescInfo) : Prop :=
  ∃ i ∈ iter, Relation.ReflTransGen (Edge lib repo) i j

/-- What `getManifestInfo` yields for a descriptor depends only on its kind, digest and media
type. -/
lemma Expands.congr {repo : Repository} {i i' : DescInfo} {minfo : ManifestInfo}
    (h : Expands lib repo i minfo) (hk : i'.kind ≠ .blob) (hd : i'.desc.digest = i.desc.digest)
    (hm : i'.desc.mediaType = i.desc.mediaType) : Expands lib repo i' minfo := by
  rw [Expands, hd, hm]
  exact ⟨hk, h.2⟩

/-! ## The loop -/

/-- A descriptor the loop goes past: not of the digest sought, and with nothing found in its
manifest if the search descends into it. -/
def LoopClear (repo : Repository) (dig : Digest) (recur : List DescInfo → Option (Except Error Bool))
    (i : DescInfo) : Prop :=
  i.desc.digest ≠ dig ∧ ∀ minfo, Expands lib repo i minfo → recur minfo.descriptors = some (.ok false)

/-- A descriptor the loop returns `r` at: it has the digest sought, its manifest does not parse,
or the search through its manifest returned `r`. -/
def LoopStop (repo : Repository) (dig : Digest) (recur : List DescInfo → Option (Except Error Bool))
    (i : DescInfo) (r : Option (Except Error Bool)) : Prop :=
  (i.desc.digest = dig ∧ r = some (.ok true)) ∨
  (i.kind ≠ .blob ∧ ∃ b e, repo.manifests i.desc.digest = some b ∧
    lib.getManifestInfo i.desc.mediaType b.data = .error e ∧ r = some (.error e)) ∨
  (∃ minfo, Expands lib repo i minfo ∧ recur minfo.descriptors = r ∧ r ≠ some (.ok false))

section Loop

variable {lib} {repo : Repository} {dig : Digest} {recur : List DescInfo → Option (Except Error Bool)}

/-- Everything the loop can do: go past every descriptor and find nothing, or return at one. -/
lemma refersToLoop_spec {r : Option (Except Error Bool)} :
    ∀ {infos : List DescInfo}, refersToLoop lib repo dig recur infos = r →
      (r = some (.ok false) ∧ ∀ i ∈ infos, LoopClear lib repo dig recur i) ∨
      ∃ i ∈ infos, LoopStop lib repo dig recur i r
  | [], h => .inl ⟨h.symm, fun _ h => nomatch h⟩
  | info :: infos, h => by
    have next (hinfo : ∀ minfo, Expands lib repo info minfo → recur minfo.descriptors = some (.ok false))
        (hd : info.desc.digest ≠ dig) (hr : refersToLoop lib repo dig recur infos = r) :
        (r = some (.ok false) ∧ ∀ i ∈ info :: infos, LoopClear lib repo dig recur i) ∨
          ∃ i ∈ info :: infos, LoopStop lib repo dig recur i r :=
      (refersToLoop_spec hr).imp (fun ⟨hr, hall⟩ => ⟨hr, List.forall_mem_cons.2 ⟨⟨hd, hinfo⟩, hall⟩⟩)
        fun ⟨i, hi, hstop⟩ => ⟨i, List.mem_cons_of_mem _ hi, hstop⟩
    have stop {r'} (hstop : LoopStop lib repo dig recur info r') (hr : r' = r) :
        (r = some (.ok false) ∧ ∀ i ∈ info :: infos, LoopClear lib repo dig recur i) ∨
          ∃ i ∈ info :: infos, LoopStop lib repo dig recur i r :=
      .inr ⟨info, List.mem_cons_self _ _, hr ▸ hstop⟩
    simp only [refersToLoop] at h
    split_ifs at h with hd
    · exact stop (.inl ⟨hd, rfl⟩) h
    rcases hk : info.kind with _ | _ | _ <;> simp only [hk] at h
    · exact next (fun _ hm => absurd hk hm.1) hd h
    all_goals
      rcases hb : repo.manifests info.desc.digest with _ | b <;> simp only [hb] at h
      · exact next (fun _ ⟨_, b, hb', _⟩ => by simp [hb] at hb') hd h
      rcases hg : lib.getManifestInfo info.desc.mediaType b.data with e | minfo <;> simp only [hg] at h
      · exact stop (.inr (.inl ⟨by simp [hk], b, e, hb, hg, rfl⟩)) h
      have hexp : Expands lib repo info minfo := ⟨by simp [hk], b, hb, hg⟩
      rcases hrec : recur minfo.descriptors with _ | _ | _ | _ <;> simp only [hrec] at h
      all_goals first
        | exact stop (.inr (.inr ⟨minfo, hexp, hrec, by simp⟩)) h
        | refine next (fun minfo' ⟨_, b', hb', hg'⟩ => ?_) hd h
          obtain rfl := Option.some.inj (hb.symm.trans hb')
          obtain rfl : minfo = minfo' := Except.ok.inj (hg.symm.trans hg')
          exact hrec

/-- A loop whose recursive call finishes whenever another's does, with the same result, finishes
whenever the other loop does, with the same result. -/
lemma refersToLoop_mono {recur' : List DescInfo → Option (Except Error Bool)}
    (hrec : ∀ l r, recur l = some r → recur' l = some r) {r : Except Error Bool} :
    ∀ {infos}, refersToLoop lib repo dig recur infos = some r →
      refersToLoop lib repo dig recur' infos = some r
  | [], h => h
  | info :: infos, h => by
    simp only [refersToLoop] at h ⊢
    split_ifs at h ⊢ with hd
    · exact h
    rcases hk : info.kind with _ | _ | _ <;> simp only [hk] at h ⊢
    · exact refersToLoop_mono hrec h
    all_goals
      rcases hb : repo.manifests info.desc.digest with _ | b <;> simp only [hb] at h ⊢
      · exact refersToLoop_mono hrec h
      rcases hg : lib.getManifestInfo info.desc.mediaType b.data with e | minfo <;>
        simp only [hg] at h ⊢
      · exact h
      rcases hr : recur minfo.descriptors with _ | x
      · simp [hr] at h
      simp only [hr] at h
      rw [hrec _ _ hr]
      rcases x with _ | _ | _
      · exact h
      · exact refersToLoop_mono hrec h
      · exact h

/-- The loop finds the digest only at a descriptor reachable from its own, given that the
recursive call does. -/
lemma refersToLoop_true
    (hrec : ∀ l, recur l = some (.ok true) → ∃ j, Reaches lib repo l j ∧ j.desc.digest = dig)
    {infos : List DescInfo} (h : refersToLoop lib repo dig recur infos = some (.ok true)) :
    ∃ j, Reaches lib repo infos j ∧ j.desc.digest = dig := by
  rcases refersToLoop_spec h with ⟨h', -⟩ | ⟨i, hi, ⟨hd, -⟩ | ⟨-, b, e, -, -, h'⟩ | ⟨minfo, hexp, hr, -⟩⟩
  · cases h'
  · exact ⟨i, ⟨i, hi, .refl⟩, hd⟩
  · cases h'
  · obtain ⟨j, ⟨x, hx, hxj⟩, hjd⟩ := hrec _ hr
    exact ⟨j, ⟨i, hi, .head ⟨minfo, hexp, hx⟩ hxj⟩, hjd⟩

/-- The loop finds nothing only when nothing reachable from its descriptors has the digest,
given the same of the recursive call. -/
lemma refersToLoop_false
    (hrec : ∀ l, recur l = some (.ok false) → ∀ j, Reaches lib repo l j → j.desc.digest ≠ dig)
    {infos : List DescInfo} (h : refersToLoop lib repo dig recur infos = some (.ok false)) :
    ∀ j, Reaches lib repo infos j → j.desc.digest ≠ dig := by
  rintro j ⟨i, hi, hij⟩
  rcases refersToLoop_spec h with ⟨-, hall⟩ | ⟨i, -, ⟨-, h'⟩ | ⟨-, b, e, -, -, h'⟩ | ⟨-, -, -, hne⟩⟩
  · rcases hij.cases_head with rfl | ⟨x, ⟨minfo, hexp, hx⟩, hxj⟩
    · exact (hall i hi).1
    · exact hrec _ ((hall i hi).2 minfo hexp) j ⟨x, hx, hxj⟩
  · cases h'
  · cases h'
  · exact absurd rfl hne

/-- The loop fails only at a reachable manifest `getManifestInfo` does not parse, given the same
of the recursive call. -/
lemma refersToLoop_error {e : Error}
    (hrec : ∀ l, recur l = some (.error e) → ∃ j, Reaches lib repo l j ∧ j.kind ≠ .blob ∧
      ∃ b, repo.manifests j.desc.digest = some b ∧ lib.getManifestInfo j.desc.mediaType b.data = .error e)
    {infos : List DescInfo} (h : refersToLoop lib repo dig recur infos = some (.error e)) :
    ∃ j, Reaches lib repo infos j ∧ j.kind ≠ .blob ∧ ∃ b, repo.manifests j.desc.digest = some b ∧
      lib.getManifestInfo j.desc.mediaType b.data = .error e := by
  rcases refersToLoop_spec h with ⟨h', -⟩ | ⟨i, hi, ⟨-, h'⟩ | ⟨hk, b, e', hb, hg, h'⟩ | ⟨minfo, hexp, hr, -⟩⟩
  · cases h'
  · cases h'
  · cases h'
    exact ⟨i, ⟨i, hi, .refl⟩, hk, b, hb, hg⟩
  · obtain ⟨j, ⟨x, hx, hxj⟩, hj⟩ := hrec _ hr
    exact ⟨j, ⟨i, hi, .head ⟨minfo, hexp, hx⟩ hxj⟩, hj⟩

/-- The loop does not finish only where it descends into a manifest whose search does not. -/
lemma refersToLoop_none {infos : List DescInfo} (h : refersToLoop lib repo dig recur infos = none) :
    ∃ i ∈ infos, ∃ minfo, Expands lib repo i minfo ∧ recur minfo.descriptors = none := by
  rcases refersToLoop_spec h with ⟨h', -⟩ | ⟨i, hi, ⟨-, h'⟩ | ⟨-, b, e, -, -, h'⟩ | ⟨minfo, hexp, hr, -⟩⟩
  · cases h'
  · cases h'
  · cases h'
  · exact ⟨i, hi, minfo, hexp, hr⟩

end Loop

section Search

variable {lib} {repo : Repository} {dig : Digest}

lemma refersTo_succ {r : Except Error Bool} :
    ∀ {depth l}, refersTo lib repo dig depth l = some r → refersTo lib repo dig (depth + 1) l = some r
  | 0, _, h => refersToLoop_mono (fun _ _ h => Option.noConfusion h) h
  | _ + 1, _, h => refersToLoop_mono (fun _ _ => refersTo_succ) h

/-- A search that finishes at one depth finishes at every greater one, with the same result. -/
lemma refersTo_mono {depth depth' : Nat} {l : List DescInfo} {r : Except Error Bool}
    (h : refersTo lib repo dig depth l = some r) (hle : depth ≤ depth') :
    refersTo lib repo dig depth' l = some r := by
  induction hle with
  | refl => exact h
  | step _ ih => exact refersTo_succ ih

/-- A search that finds the digest has reached a descriptor of it. -/
lemma refersTo_true : ∀ {depth l}, refersTo lib repo dig depth l = some (.ok true) →
    ∃ j, Reaches lib repo l j ∧ j.desc.digest = dig
  | 0, _, h => refersToLoop_true (fun _ h => Option.noConfusion h) h
  | _ + 1, _, h => refersToLoop_true (fun _ => refersTo_true) h

/-- A search that finds nothing has reached no descriptor of the digest. -/
lemma refersTo_false : ∀ {depth l}, refersTo lib repo dig depth l = some (.ok false) →
    ∀ j, Reaches lib repo l j → j.desc.digest ≠ dig
  | 0, _, h => refersToLoop_false (fun _ h => Option.noConfusion h) h
  | _ + 1, _, h => refersToLoop_false (fun _ => refersTo_false) h

/-- A search that fails has reached a manifest `getManifestInfo` does not parse. -/
lemma refersTo_error {e : Error} : ∀ {depth l}, refersTo lib repo dig depth l = some (.error e) →
    ∃ j, Reaches lib repo l j ∧ j.kind ≠ .blob ∧ ∃ b, repo.manifests j.desc.digest = some b ∧
      lib.getManifestInfo j.desc.mediaType b.data = .error e
  | 0, _, h => refersToLoop_error (fun _ h => Option.noConfusion h) h
  | _ + 1, _, h => refersToLoop_error (fun _ => refersTo_error) h

/-- A search that runs out of depth has followed a chain of `depth` edges from a descriptor of
its iterator. -/
lemma refersTo_none : ∀ {depth l}, refersTo lib repo dig depth l = none →
    ∃ f : Nat → DescInfo, f 0 ∈ l ∧ ∀ k < depth, Edge lib repo (f k) (f (k + 1))
  | 0, _, h =>
    let ⟨i, hi, _⟩ := refersToLoop_none h
    ⟨fun _ => i, hi, fun _ hk => absurd hk (Nat.not_lt_zero _)⟩
  | depth + 1, _, h => by
    obtain ⟨i, hi, minfo, hexp, hrec⟩ := refersToLoop_none h
    obtain ⟨g, hg0, hg⟩ := refersTo_none hrec
    refine ⟨fun | 0 => i | k + 1 => g k, hi, fun k hk => ?_⟩
    cases k with
    | zero => exact ⟨minfo, hexp, hg0⟩
    | succ k => exact hg k (by omega)

end Search

/-! ## Termination on an acyclic graph -/

section Acyclic

variable {lib} {repo : Repository}

lemma chain_reflTransGen {f : Nat → DescInfo} {n : Nat} (hf : ∀ k < n, Edge lib repo (f k) (f (k + 1)))
    {a b : Nat} (hab : a ≤ b) (hb : b ≤ n) : Relation.ReflTransGen (Edge lib repo) (f a) (f b) := by
  induction b, hab using Nat.le_induction with
  | base => exact .refl
  | succ b _ ih => exact .tail (ih (by omega)) (hf b (by omega))

/-- A chain of edges longer than the (digest, media type) pairs the chain can leave from passes
twice through one of them, and closes a cycle there. -/
lemma chain_cycle {K : Finset (Digest × String)}
    (hK : ∀ i j, Edge lib repo i j → (i.desc.digest, i.desc.mediaType) ∈ K)
    {f : Nat → DescInfo} {n : Nat} (hf : ∀ k < n, Edge lib repo (f k) (f (k + 1)))
    (hcard : K.card < n) : ∃ i, Relation.TransGen (Edge lib repo) i i := by
  -- two positions `a < b` of the chain with the same pair: the edge out of `a` leaves `b` too
  have cycle : ∀ a b, a < b → b < n → (f a).desc.digest = (f b).desc.digest →
      (f a).desc.mediaType = (f b).desc.mediaType → ∃ i, Relation.TransGen (Edge lib repo) i i :=
    fun a b hab hb hd hm => by
      obtain ⟨minfo, hea, hmem⟩ := hf a (by omega)
      obtain ⟨_, heb, -⟩ := hf b hb
      exact ⟨f b, .head' ⟨minfo, hea.congr lib heb.1 hd.symm hm.symm, hmem⟩
        (chain_reflTransGen hf hab hb.le)⟩
  obtain ⟨x, hx, y, hy, hxy, hpair⟩ := Finset.exists_ne_map_eq_of_card_lt_of_maps_to
    (s := Finset.range n) (t := K) (by simpa using hcard)
    (f := fun k => ((f k).desc.digest, (f k).desc.mediaType)) fun k hk =>
      hK _ _ (hf k (Finset.mem_range.1 hk))
  simp only [Finset.mem_range, Prod.mk.injEq] at hx hy hpair
  rcases Nat.lt_or_gt_of_ne hxy with hlt | hlt
  · exact cycle x y hlt hy hpair.1 hpair.2
  · exact cycle y x hlt hx hpair.1.symm hpair.2.symm

/-- A graph whose edges lower a rank has no cycle. -/
lemma acyclic_of_rank (rank : DescInfo → Nat) (h : ∀ i j, Edge lib repo i j → rank j < rank i)
    (i : DescInfo) : ¬ Relation.TransGen (Edge lib repo) i i := fun hi => by
  have lower : ∀ {a b}, Relation.TransGen (Edge lib repo) a b → rank b < rank a := fun hab => by
    induction hab with
    | single he => exact h _ _ he
    | tail _ he ih => exact (h _ _ he).trans ih
  exact lt_irrefl _ (lower hi)

end Acyclic

/-- On a repository whose manifest-reference graph is acyclic, and where `getManifestInfo`
parses every manifest reachable from the iterator, `refersTo` returns, with no error, and finds
the digest exactly when a descriptor of it is reachable. A Go map has finitely many keys, and
`getManifestInfo` yields descriptors for finitely many media types (it yields none, or fails, on
every other); together they bound the depth the search needs, by one more than the number of
such (digest, media type) pairs. -/
theorem refersTo_finds_reachable_digest {repo : Repository} {iter : List DescInfo} {dig : Digest}
    (hkeys : ∃ keys : List Digest, ∀ d b, repo.manifests d = some b → d ∈ keys)
    (hknown : ∃ known : List String, ∀ mt data minfo,
      lib.getManifestInfo mt data = .ok minfo → minfo.descriptors ≠ [] → mt ∈ known)
    (hacyclic : ∀ i, ¬ Relation.TransGen (Edge lib repo) i i)
    (hparse : ∀ j, Reaches lib repo iter j → j.kind ≠ .blob → ∀ b,
      repo.manifests j.desc.digest = some b → ∃ minfo, lib.getManifestInfo j.desc.mediaType b.data = .ok minfo) :
    ∃ depth, ∀ depth' ≥ depth, ∃ found, refersTo lib repo dig depth' iter = some (.ok found) ∧
      (found = true ↔ ∃ j, Reaches lib repo iter j ∧ j.desc.digest = dig) := by
  obtain ⟨keys, hkeys⟩ := hkeys
  obtain ⟨known, hknown⟩ := hknown
  have hK : ∀ i j, Edge lib repo i j →
      (i.desc.digest, i.desc.mediaType) ∈ keys.toFinset ×ˢ known.toFinset :=
    fun _ _ ⟨_, ⟨_, _, hb, hg⟩, hj⟩ => Finset.mem_product.2
      ⟨List.mem_toFinset.2 (hkeys _ _ hb), List.mem_toFinset.2 (hknown _ _ _ hg (List.ne_nil_of_mem hj))⟩
  obtain ⟨r, hr⟩ : ∃ r, refersTo lib repo dig ((keys.toFinset ×ˢ known.toFinset).card + 1) iter = some r := by
    refine Option.ne_none_iff_exists'.1 fun hnone => ?_
    obtain ⟨f, -, hf⟩ := refersTo_none hnone
    obtain ⟨i, hi⟩ := chain_cycle hK hf (Nat.lt_succ_self _)
    exact hacyclic i hi
  refine ⟨(keys.toFinset ×ˢ known.toFinset).card + 1, fun depth' hle => ?_⟩
  rcases r with e | found
  · obtain ⟨j, hj, hk, b, hb, hg⟩ := refersTo_error hr
    obtain ⟨minfo, hg'⟩ := hparse j hj hk b hb
    cases hg.symm.trans hg'
  refine ⟨found, refersTo_mono hr hle, ?_⟩
  cases found
  · exact ⟨(nomatch ·), fun ⟨j, hj, hd⟩ => absurd hd (refersTo_false hr j hj)⟩
  · exact ⟨fun _ => refersTo_true hr, fun _ => rfl⟩

/-- A manifest format to run the search on: a manifest of media type `index` lists, one a byte,
manifests of media type `index` under the reference digest of that byte. -/
def Lib.byteIndex : Lib :=
  { Lib.reference with
    getManifestInfo := fun mt data =>
      if mt = "index" then
        .ok { descriptors := data.map fun x =>
          { name := "manifests", kind := .manifest,
            desc := { mediaType := "index", digest := Lib.reference.fromBytes [x] } } }
      else .error (.text "unknown media type") }

/-- Two manifests: the one under the digest of `[1]` lists `2`, the one under that of `[2]`
lists nothing. -/
def chainRepo : Repository where
  manifests d :=
    if d = Lib.reference.fromBytes [1] then some { mediaType := "index", data := [2] }
    else if d = Lib.reference.fromBytes [2] then some { mediaType := "index", data := [] }
    else none

/-- The descriptor of the first manifest of `chainRepo`. -/
def chainRoot : DescInfo :=
  { name := "root", kind := .manifest,
    desc := { mediaType := "index", digest := Lib.reference.fromBytes [1] } }

theorem chainRepo_search_finishes :
    ∃ depth, ∀ depth' ≥ depth, ∃ found,
      refersTo Lib.byteIndex chainRepo (Lib.reference.fromBytes [2]) depth' [chainRoot] =
        some (.ok found) ∧
      (found = true ↔ ∃ j, Reaches Lib.byteIndex chainRepo [chainRoot] j ∧
        j.desc.digest = Lib.reference.fromBytes [2]) :=
  -- every descriptor a `byteIndex` manifest lists is of media type `index`
  have child_index : ∀ i j, Edge Lib.byteIndex chainRepo i j → j.desc.mediaType = "index" :=
    fun i j ⟨minfo, ⟨_, _, _, hg⟩, hj⟩ => by
      simp only [Lib.byteIndex] at hg
      split_ifs at hg
      cases hg
      obtain ⟨_, -, rfl⟩ := List.mem_map.1 hj
      rfl
  refersTo_finds_reachable_digest Lib.byteIndex
    ⟨[Lib.reference.fromBytes [1], Lib.reference.fromBytes [2]], fun d b hb => by
      simp only [chainRepo] at hb
      split_ifs at hb with h1 h2
      · simp [h1]
      · simp [h2]⟩
    ⟨["index"], fun mt data minfo hg _ => by
      simp only [Lib.byteIndex] at hg
      split_ifs at hg with hm
      simp [hm]⟩
    (acyclic_of_rank (fun i => if i.desc.digest = Lib.reference.fromBytes [1] then 2 else
        if i.desc.digest = Lib.reference.fromBytes [2] then 1 else 0)
      fun i j ⟨minfo, ⟨_, b, hb, hg⟩, hj⟩ => by
        simp only [chainRepo] at hb
        simp only [Lib.byteIndex] at hg
        split_ifs at hb hg with h1 h2 hm <;> cases hb <;> cases hg <;> simp at hj
        · subst hj
          simp [h1]
          decide)
    fun j ⟨_, hi, hij⟩ _ b hb => by
      have hmt : j.desc.mediaType = "index" := by
        rcases hij.cases_tail with rfl | ⟨x, -, hx⟩
        · simp only [List.mem_singleton] at hi
          subst hi
          rfl
        · exact child_index x j hx
      simp [Lib.byteIndex, hmt]

example : refersTo Lib.byteIndex chainRepo (Lib.reference.fromBytes [2]) 1 [chainRoot] =
    some (.ok true) := rfl

end OciRegistry.Ocimem
