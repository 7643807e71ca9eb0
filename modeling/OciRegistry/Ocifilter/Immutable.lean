import OciRegistry.Ocimem.Run

/-!
# The immutable filter

Model of `ocifilter/immutable.go`. `Immutable(r)` wraps a registry "so that content can be added
but not changed once added: nothing can be deleted and tags can't be changed". It overrides four
methods of the interface and passes every other call to `r`. `PushManifest` resolves each tag it
is asked to write before the push and denies the push if a tag holds another digest; after the
push it resolves each tag again and reports an error if one does not hold the pushed digest.
`DeleteBlob`, `DeleteManifest` and `DeleteTag` are denied.

Here the wrapped registry is the in-memory one, whose calls are atomic; this module is the
filter used by one client at a time, each call running to its end before the next begins
(`Ocifilter.run`). The filter compares digests only. So a tag keeps its digest over every run
through it (`Ocifilter.run_tag_digest`), but on a registry without immutable tags a push of the
same bytes under another media type rewrites the descriptor a tag holds
(`immutable_filter_retags_media_type`).
-/

namespace OciRegistry.Ocifilter

open Ocimem PushManifestParameters

variable (lib : Lib)

/-- The error of a refused change (Go `fmt.Errorf("this store is immutable: %w", ErrDenied)`). -/
def errImmutable : Error := .wrap "this store is immutable: " (.code .denied) ""

/-- The digest the filter checks tags against: the supplied one, else the canonical digest of the
contents. -/
def pushDigest (params : Option PushManifestParameters) (contents : Bytes) : Digest :=
  (digestOf params).getD (lib.fromBytes contents)

/-- One turn of the loop before the push: a tag that resolves to another digest denies the push,
one that does not resolve is let through. -/
def preCheckTag (r : Registry) (repo : String) (dig : Digest) (tag : String) : Except Error Unit :=
  match r.resolveTag repo tag with
  | .ok desc => if desc.digest = dig then .ok () else .error errImmutable
  | .error _ => .ok ()

/-- One turn of the loop after the push: the tag must resolve, to the pushed digest. -/
def postCheckTag (r : Registry) (repo : String) (dig : Digest) (tag : String) : Except Error Unit :=
  match r.resolveTag repo tag with
  | .error e => .error (.format ("cannot resolve tag \"" ++ tag ++ "\" that\x27s just been pushed: ") e "")
  | .ok tagDesc => if tagDesc.digest ≠ dig then .error errImmutable else .ok ()

/-- The loop after the push, which returns the pushed descriptor once every tag resolves to the
pushed digest. -/
def postCheck (r : Registry) (repo : String) (dig : Digest) (desc : Descriptor)
    (tags : List String) : Except Error Descriptor × Registry :=
  match tags.forM (postCheckTag r repo dig) with
  | .error e => (.error e, r)
  | .ok () => (.ok desc, r)

/-- `immutable.PushManifest`, its three stages run one after another: a push without tags goes
straight to the registry; otherwise the tags are checked, the manifest pushed, and the tags
checked again. -/
def pushManifest (r : Registry) (repo : String) (contents : Bytes) (mediaType : String)
    (params : Option PushManifestParameters) : Except Error Descriptor × Registry :=
  let tags := tagsOf params
  if tags = [] then r.pushManifest lib repo contents mediaType params
  else
    let dig := pushDigest lib params contents
    match tags.forM (preCheckTag r repo dig) with
    | .error e => (.error e, r)
    | .ok () =>
      match r.pushManifest lib repo contents mediaType params with
      | (.error e, r) => (.error e, r)
      | (.ok desc, r) => postCheck r repo dig desc tags

/-- The body of `immutable.DeleteBlob`, `DeleteManifest` and `DeleteTag`: `ErrDenied`, with no
call to the registry. -/
def deleteDenied : Except Error Unit := .error (.code .denied)

/-- `immutable.DeleteBlob`. -/
def deleteBlob (_repo : String) (_dig : Digest) : Except Error Unit := deleteDenied

/-- `immutable.DeleteManifest`. -/
def deleteManifest (_repo : String) (_dig : Digest) : Except Error Unit := deleteDenied

/-- `immutable.DeleteTag`. -/
def deleteTag (_repo _name : String) : Except Error Unit := deleteDenied

/-- The calls a client makes through the filter: a call on the registry's writers (a manifest push
goes through the filter's own `PushManifest`, the others straight to the registry), or a delete. -/
inductive Op where
  | call (op : Ocimem.Op)
  | deleteBlob (repo : String) (dig : Digest)
  | deleteManifest (repo : String) (dig : Digest)
  | deleteTag (repo name : String)

/-- One call through the filter: the registry after it. A delete never reaches the registry. -/
def step (r : Registry) : Op → Registry
  | .call (.pushManifest n data mt params) => (pushManifest lib r n data mt params).2
  | .call op => r.step lib op
  | .deleteBlob .. | .deleteManifest .. | .deleteTag .. => r

/-- The registry after a sequence of calls through the filter. -/
def run (r : Registry) (ops : List Op) : Registry := ops.foldl (step lib) r

/-! ## Tags keep their digest -/

lemma forM_eq_ok {f : String → Except Error Unit} :
    ∀ {l : List String}, l.forM f = .ok () ↔ ∀ x ∈ l, f x = .ok ()
  | [] => by simp [List.forM_nil']; rfl
  | x :: l => by
    have ih := @forM_eq_ok f l
    cases hx : f x <;> simp [List.forM_cons', hx, bind, Except.bind, ih]

/-- The pre-check passes only if every tag of the push that holds a descriptor holds the
pushed digest. -/
lemma preCheck_ok {r : Registry} {repo : String} {dig : Digest} {tags : List String}
    (h : tags.forM (preCheckTag r repo dig) = .ok ()) {t : String} (ht : t ∈ tags) {D : Descriptor}
    (hD : (r.getRepo repo).tags t = some D) : D.digest = dig := by
  have := forM_eq_ok.1 h t ht
  rw [preCheckTag, Registry.resolveTag_eq_ok.2 hD] at this
  by_contra hne
  simp [hne] at this

/-- The registry after a push through the filter: the one it was given, or, once the pre-check
passed or there were no tags to check, the one the registry's push left. -/
lemma pushManifest_snd (r : Registry) (repo : String) (contents : Bytes) (mt : String)
    (params : Option PushManifestParameters) :
    (pushManifest lib r repo contents mt params).2 = r ∨
    ((tagsOf params = [] ∨
        (tagsOf params).forM (preCheckTag r repo (pushDigest lib params contents)) = .ok ()) ∧
      (pushManifest lib r repo contents mt params).2 = (r.pushManifest lib repo contents mt params).2) := by
  unfold pushManifest
  dsimp only
  split_ifs with hnil
  · exact .inr ⟨.inl hnil, rfl⟩
  split
  · exact .inl rfl
  rename_i hpre
  refine .inr ⟨.inr hpre, ?_⟩
  generalize r.pushManifest lib repo contents mt params = p
  obtain ⟨res, r'⟩ := p
  cases res
  · rfl
  · dsimp only [postCheck]
    split <;> rfl

/-- A push on the registry writes a tag only in its repository, only one of its list, and only
with the digest the push ends up with. -/
lemma registry_pushManifest_tag (r : Registry) (m n t : String) (data : Bytes) (mt : String)
    (params : Option PushManifestParameters) :
    ((r.pushManifest lib m data mt params).2.getRepo n).tags t = (r.getRepo n).tags t ∨
      (n = m ∧ t ∈ tagsOf params ∧ ∃ D, ((r.pushManifest lib m data mt params).2.getRepo n).tags t = some D ∧
        D.digest = pushDigest lib params data) := by
  rcases hp : r.pushManifest lib m data mt params with ⟨res, r'⟩
  rcases Registry.pushManifest_spec lib hp with ⟨e, -, rfl | rfl⟩ |
    ⟨-, dig, hdig, ⟨d, -, -, rfl⟩ | ⟨-, -, info, -, -, rfl⟩⟩
  · exact .inl rfl
  · exact .inl (by simp)
  · exact .inl (by simp)
  · by_cases hn : n = m
    · subst hn
      by_cases ht : t ∈ tagsOf params
      · exact .inr ⟨rfl, ht, pushedDesc dig mt data, by simp [Registry.getRepo_setRepo, ht],
          (manifestDigest_ok lib hdig).1⟩
      · exact .inl (by simp [Registry.getRepo_setRepo, ht])
    · exact .inl (by simp [Registry.getRepo_setRepo, hn])

/-- A call on the registry whose footprint has no tags writes no tag. -/
lemma registry_step_tags {r : Registry} {op : Ocimem.Op}
    (hop : (op.footprint lib r).tags = fun _ => False) (n t : String) :
    ((r.step lib op).getRepo n).tags t = (r.getRepo n).tags t := by
  have frame := r.step_frame lib op
  by_cases hn : n = (op.footprint lib r).repo
  · subst hn
    exact frame.tags t (by rw [hop]; exact id)
  · rw [frame.other n hn]

/-- A call through the filter keeps the digest of every tag that is set. -/
lemma step_tag_digest {r : Registry} (op : Op) {n t : String} {D : Descriptor}
    (h : (r.getRepo n).tags t = some D) :
    ∃ D', ((step lib r op).getRepo n).tags t = some D' ∧ D'.digest = D.digest := by
  cases op with
  | deleteBlob | deleteManifest | deleteTag => exact ⟨D, h, rfl⟩
  | call op =>
    cases op with
    | pushManifest m data mt params =>
      simp only [step]
      rcases pushManifest_snd lib r m data mt params with hr | ⟨hpre, hr⟩
      · exact ⟨D, by rw [hr]; exact h, rfl⟩
      rw [hr]
      rcases registry_pushManifest_tag lib r m n t data mt params with ht | ⟨rfl, ht, D', hD', hdig⟩
      · exact ⟨D, ht.trans h, rfl⟩
      refine ⟨D', hD', hdig.trans ?_⟩
      rcases hpre with hnil | hpre
      · simp [hnil] at ht
      · exact (preCheck_ok hpre ht h).symm
    | _ =>
      simp only [step]
      exact ⟨D, (registry_step_tags lib (by rfl) n t).trans h, rfl⟩

/-- Through the filter a tag, once set, holds the same digest over every run. -/
lemma run_tag_digest {r : Registry} (ops : List Op) {n t : String} {D : Descriptor}
    (h : (r.getRepo n).tags t = some D) :
    ∃ D', ((run lib r ops).getRepo n).tags t = some D' ∧ D'.digest = D.digest := by
  induction ops generalizing r D with
  | nil => exact ⟨D, h, rfl⟩
  | cons op ops ih =>
    obtain ⟨D₁, h₁, hd₁⟩ := step_tag_digest lib op h
    obtain ⟨D', h', hd'⟩ := ih h₁
    exact ⟨D', h', hd'.trans hd₁⟩

/-! ## What a successful push guarantees -/

/-- A tag that passes the check after the push holds the pushed digest. -/
lemma postCheckTag_ok {r : Registry} {repo t : String} {dig : Digest}
    (h : postCheckTag r repo dig t = .ok ()) :
    ∃ D, (r.getRepo repo).tags t = some D ∧ D.digest = dig := by
  unfold postCheckTag at h
  split at h
  · cases h
  · rename_i D hD
    split_ifs at h with hne
    exact ⟨D, Registry.resolveTag_eq_ok.1 hD, not_not.1 hne⟩

/-- A push with tags that succeeds through the filter leaves every tag it names holding the
pushed digest, on either configuration of the registry: the check after the push catches a
registry push that returns at one tag while another holds a different digest. -/
lemma filter_push_tags_hold_digest {r : Registry} {repo : String} {contents : Bytes} {mt : String}
    {params : Option PushManifestParameters} {desc : Descriptor} (htags : tagsOf params ≠ [])
    (h : (pushManifest lib r repo contents mt params).1 = .ok desc) :
    ∀ t ∈ tagsOf params, ∃ D, ((pushManifest lib r repo contents mt params).2.getRepo repo).tags t =
      some D ∧ D.digest = pushDigest lib params contents := by
  unfold pushManifest at h ⊢
  simp only [if_neg htags] at h ⊢
  split at h
  · cases h
  split at h
  · cases h
  unfold postCheck at h ⊢
  split at h
  · cases h
  rename_i hpost
  simp only [hpost]
  exact fun t ht => postCheckTag_ok ((forM_eq_ok.1 hpost) t ht)

/-- A registry without immutable tags, with `[1]` pushed through the filter under tag `t` and
media type `a`. -/
def filteredOnce : Registry :=
  run Lib.reference (Registry.new {}) [.call (.pushManifest "repo" [1] "a" (some { tags := ["t"] }))]

/-- Through the filter, a second push of `[1]` under tag `t`, with media type `b`, succeeds and
changes the descriptor `t` resolves to. -/
theorem immutable_filter_retags_media_type :
    filteredOnce.resolveTag "repo" "t" = .ok (pushedDesc (Lib.reference.fromBytes [1]) "a" [1]) ∧
    (pushManifest Lib.reference filteredOnce "repo" [1] "b" (some { tags := ["t"] })).1 =
      .ok (pushedDesc (Lib.reference.fromBytes [1]) "b" [1]) ∧
    (pushManifest Lib.reference filteredOnce "repo" [1] "b" (some { tags := ["t"] })).2.resolveTag
      "repo" "t" = .ok (pushedDesc (Lib.reference.fromBytes [1]) "b" [1]) :=
  ⟨rfl, rfl, rfl⟩

/-- Through the filter, a push of other bytes under `t` is denied and a delete of `t` never
reaches the registry: `t` keeps the digest of `[1]`. -/
theorem filteredOnce_t_keeps_digest :
    ∃ D', ((run Lib.reference filteredOnce
      [.call (.pushManifest "repo" [2] "a" (some { tags := ["t"] })), .deleteTag "repo" "t"]).getRepo
        "repo").tags "t" = some D' ∧
      D'.digest = (pushedDesc (Lib.reference.fromBytes [1]) "a" [1]).digest :=
  run_tag_digest Lib.reference _ (by rfl)

end OciRegistry.Ocifilter
