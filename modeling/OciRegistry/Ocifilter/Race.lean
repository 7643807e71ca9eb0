import OciRegistry.Ocifilter.Immutable
import OciRegistry.Ocimem.Invariants

/-!
# The immutable filter under concurrent clients

`immutable.PushManifest` makes several calls on the registry: one `ResolveTag` per tag before the
push, the push, and one `ResolveTag` per tag after it. Each call is atomic under the registry
mutex, but other clients run between two of them. A `Client` is one call of the filter's
`PushManifest` with its program counter `Pc`; `Client.step` makes its next registry call, and a
`Sys` of clients sharing one registry runs them in the order a schedule picks.

A client left to run alone computes the filter's `pushManifest` (`lone_client_runs_filter_push`):
each step keeps what the client returns when it runs alone from there (`Client.outcome`), and the
work left (`Client.work`) drops. So the interleaved model refines the sequential one.

On a registry without immutable tags the check after the push does not catch a lost race: a
client whose whole push and check fall between another client's first check and its push
returns success, and so does the other, with another digest, after which the tag holds the
second (`racing_filter_pushes_both_succeed`). On a registry with immutable tags no interleaving
lets two clients return different digests for one tag, and the tag keeps the digest returned
(`immutable_registry_race_free`).
-/

namespace OciRegistry.Ocifilter

open Ocimem PushManifestParameters

variable (lib : Lib)

/-- Where a client is in `immutable.PushManifest`. -/
inductive Pc where
  /-- In the loop before the push, with the tags still to resolve; with none left, the push is
  next (a push without tags goes there at once). -/
  | pre (tags : List String)
  /-- In the loop after the push returned `desc`, with the tags still to resolve. -/
  | post (desc : Descriptor) (tags : List String)
  /-- Returned. -/
  | done (res : Except Error Descriptor)

/-- A client in a call of `immutable.PushManifest`, with the call's arguments. -/
structure Client where
  repo : String
  contents : Bytes
  mediaType : String
  params : Option PushManifestParameters
  pc : Pc

/-- A client about to call `immutable.PushManifest`. -/
def Client.start (repo : String) (contents : Bytes) (mediaType : String)
    (params : Option PushManifestParameters) : Client :=
  { repo, contents, mediaType, params, pc := .pre (tagsOf params) }

/-- The digest the client's checks compare tags against. -/
def Client.dig (c : Client) : Digest := pushDigest lib c.params c.contents

/-- One step of a client: its next registry call, or its return. -/
def Client.step (c : Client) (r : Registry) : Client × Registry :=
  match c.pc with
  | .pre (tag :: tags) =>
    match preCheckTag r c.repo (c.dig lib) tag with
    | .error e => ({ c with pc := .done (.error e) }, r)
    | .ok () => ({ c with pc := .pre tags }, r)
  | .pre [] =>
    match r.pushManifest lib c.repo c.contents c.mediaType c.params with
    | (.error e, r') => ({ c with pc := .done (.error e) }, r')
    | (.ok desc, r') => ({ c with pc := .post desc (tagsOf c.params) }, r')
  | .post desc (tag :: tags) =>
    match postCheckTag r c.repo (c.dig lib) tag with
    | .error e => ({ c with pc := .done (.error e) }, r)
    | .ok () => ({ c with pc := .post desc tags }, r)
  | .post desc [] => ({ c with pc := .done (.ok desc) }, r)
  | .done _ => (c, r)

/-- Clients sharing one registry. -/
structure Sys where
  reg : Registry
  clients : List Client

/-- The scheduler lets client `i` make one step; there is nothing to do for no client. -/
def Sys.step (s : Sys) (i : Nat) : Sys :=
  match s.clients[i]? with
  | none => s
  | some c => { reg := (c.step lib s.reg).2, clients := s.clients.set i (c.step lib s.reg).1 }

/-- The system after the steps of a schedule. -/
def Sys.run (s : Sys) (sched : List Nat) : Sys := sched.foldl (Sys.step lib) s

/-! ## A lone client computes the filter's `PushManifest` -/

/-- What a client returns, and the registry it leaves, when it runs alone from here. -/
def Client.outcome (c : Client) (r : Registry) : Except Error Descriptor × Registry :=
  match c.pc with
  | .pre tags =>
    match tags.forM (preCheckTag r c.repo (c.dig lib)) with
    | .error e => (.error e, r)
    | .ok () =>
      match r.pushManifest lib c.repo c.contents c.mediaType c.params with
      | (.error e, r') => (.error e, r')
      | (.ok desc, r') => postCheck r' c.repo (c.dig lib) desc (tagsOf c.params)
  | .post desc tags => postCheck r c.repo (c.dig lib) desc tags
  | .done res => (res, r)

/-- The registry calls a client has left to make, and its return. -/
def Client.work (c : Client) : Nat :=
  match c.pc with
  | .pre tags => tags.length + (tagsOf c.params).length + 2
  | .post _ tags => tags.length + 1
  | .done _ => 0

/-- A client run alone for `k` steps. -/
def Client.steps (c : Client) (r : Registry) : Nat → Client × Registry
  | 0 => (c, r)
  | k + 1 => (c.step lib r).1.steps (c.step lib r).2 k

lemma forM_cons_eq {f : String → Except Error Unit} {x : String} {l : List String} :
    (x :: l).forM f = match f x with
      | .error e => .error e
      | .ok () => l.forM f := by
  cases hx : f x <;> simp [List.forM_cons', hx, bind, Except.bind]

/-- A step keeps what the client returns run alone. -/
lemma Client.outcome_step (c : Client) (r : Registry) :
    (c.step lib r).1.outcome lib (c.step lib r).2 = c.outcome lib r := by
  rcases c with ⟨repo, contents, mt, params, pc⟩
  rcases pc with ⟨_ | ⟨tag, tags⟩⟩ | ⟨desc, _ | ⟨tag, tags⟩⟩ | res
  · simp only [step, outcome, List.forM_nil']
    generalize r.pushManifest lib repo contents mt params = p
    obtain ⟨_ | desc, r'⟩ := p <;> rfl
  · simp only [step, outcome, forM_cons_eq]
    cases preCheckTag r repo (Client.dig lib ⟨repo, contents, mt, params, .pre (tag :: tags)⟩) tag <;> rfl
  · rfl
  · simp only [step, outcome, postCheck, forM_cons_eq]
    cases postCheckTag r repo (Client.dig lib ⟨repo, contents, mt, params, .post desc (tag :: tags)⟩) tag <;>
      rfl
  · rfl

lemma Client.steps_outcome (c : Client) (r : Registry) (k : Nat) :
    (c.steps lib r k).1.outcome lib (c.steps lib r k).2 = c.outcome lib r := by
  induction k generalizing c r with
  | zero => rfl
  | succ k ih => exact (ih _ _).trans (c.outcome_step lib r)

/-- A client that has work left does some of it in a step. -/
lemma Client.work_step {c : Client} (r : Registry) (h : 0 < c.work) :
    (c.step lib r).1.work < c.work := by
  rcases c with ⟨repo, contents, mt, params, pc⟩
  rcases pc with ⟨_ | ⟨tag, tags⟩⟩ | ⟨desc, _ | ⟨tag, tags⟩⟩ | res
  · simp only [step]
    generalize r.pushManifest lib repo contents mt params = p
    obtain ⟨_ | desc, r'⟩ := p <;> simp [work]
  · simp only [step]
    cases preCheckTag r repo (Client.dig lib ⟨repo, contents, mt, params, .pre (tag :: tags)⟩) tag <;>
      simp [work]
  · simp [step, work]
  · simp only [step]
    cases postCheckTag r repo (Client.dig lib ⟨repo, contents, mt, params, .post desc (tag :: tags)⟩) tag <;>
      simp [work]
  · simp [work] at h

/-- A client run alone for as many steps as it has work returns. -/
lemma Client.steps_done (c : Client) (r : Registry) :
    ∀ k, c.work ≤ k → ∃ res, (c.steps lib r k).1.pc = .done res
  | 0, h => by
    rcases c with ⟨repo, contents, mt, params, _ | _ | res⟩ <;> simp [work] at h
    exact ⟨res, rfl⟩
  | k + 1, h => by
    by_cases hw : c.work = 0
    · rcases c with ⟨repo, contents, mt, params, _ | _ | res⟩ <;> simp [work] at hw
      exact ⟨res, by induction k with
        | zero => rfl
        | succ k ih => exact ih (by simp [work])⟩
    · exact (c.step lib r).1.steps_done (c.step lib r).2 k
        (Nat.le_of_lt_succ (Nat.lt_of_lt_of_le (c.work_step lib r (Nat.pos_of_ne_zero hw)) h))

lemma Client.outcome_done {c : Client} {res : Except Error Descriptor} (h : c.pc = .done res)
    (r : Registry) : c.outcome lib r = (res, r) := by
  simp [outcome, h]

/-- From its start, a client returns what the filter's `PushManifest` returns. -/
lemma Client.outcome_start (r : Registry) (repo : String) (contents : Bytes) (mediaType : String)
    (params : Option PushManifestParameters) :
    (Client.start repo contents mediaType params).outcome lib r =
      pushManifest lib r repo contents mediaType params := by
  unfold pushManifest
  dsimp only
  split_ifs with hnil
  · simp only [Client.start, outcome, hnil, List.forM_nil', postCheck]
    generalize r.pushManifest lib repo contents mediaType params = p
    obtain ⟨_ | desc, r'⟩ := p <;> rfl
  · rfl

/-- A client left to run alone from its start returns what the filter's `PushManifest` returns
and leaves the registry that call leaves: the interleaved model refines the sequential one. -/
theorem lone_client_runs_filter_push (r : Registry) (repo : String) (contents : Bytes)
    (mediaType : String) (params : Option PushManifestParameters) :
    let c := Client.start repo contents mediaType params
    (c.steps lib r c.work).1.pc = .done (pushManifest lib r repo contents mediaType params).1 ∧
      (c.steps lib r c.work).2 = (pushManifest lib r repo contents mediaType params).2 := by
  intro c
  obtain ⟨res, hres⟩ := c.steps_done lib r c.work (Nat.le_refl _)
  have hout := c.steps_outcome lib r c.work
  rw [Client.outcome_done lib hres, Client.outcome_start] at hout
  rw [hres, ← hout]
  exact ⟨rfl, rfl⟩

/-! ## Racing clients -/

/-- Two clients pushing `[1]` and `[2]` under tag `t` of `repo`, on an empty registry without
immutable tags. -/
def racing : Sys :=
  { reg := Registry.new {},
    clients := [Client.start "repo" [1] "m" (some { tags := ["t"] }),
      Client.start "repo" [2] "m" (some { tags := ["t"] })] }

/-- The first client checks `t`, then the second does; the first pushes, checks and returns,
then the second pushes, checks and returns. Both return success, with different digests, and
`t` resolves to the second. -/
theorem racing_filter_pushes_both_succeed :
    ((racing.run Lib.reference [0, 1, 0, 0, 0, 1, 1, 1]).clients.map (·.pc)) =
      [.done (.ok (pushedDesc (Lib.reference.fromBytes [1]) "m" [1])),
        .done (.ok (pushedDesc (Lib.reference.fromBytes [2]) "m" [2]))] ∧
    Lib.reference.fromBytes [1] ≠ Lib.reference.fromBytes [2] ∧
    (racing.run Lib.reference [0, 1, 0, 0, 0, 1, 1, 1]).reg.resolveTag "repo" "t" =
      .ok (pushedDesc (Lib.reference.fromBytes [2]) "m" [2]) :=
  ⟨rfl, by decide, rfl⟩

/-! ## Immutable tags make the race harmless -/

/-- Every tag of a list holds, in the client's repository, a descriptor of the client's digest. -/
def Client.TagsHold (c : Client) (r : Registry) (tags : List String) : Prop :=
  ∀ t ∈ tags, ∃ D, (r.getRepo c.repo).tags t = some D ∧ D.digest = c.dig lib

/-- What a client has established: after the push, the descriptor it got has its digest and the
tags it has checked hold that digest; once it has returned success, all its tags do. -/
def Client.Inv (c : Client) (r : Registry) : Prop :=
  match c.pc with
  | .pre _ => True
  | .post desc rest =>
    desc.digest = c.dig lib ∧ ∃ checked, tagsOf c.params = checked ++ rest ∧ c.TagsHold lib r checked
  | .done (.ok desc) => desc.digest = c.dig lib ∧ c.TagsHold lib r (tagsOf c.params)
  | .done (.error _) => True

/-- `r'` holds every tag `r` holds, with the same descriptor. -/
def TagsKept (r r' : Registry) : Prop :=
  ∀ n t D, (r.getRepo n).tags t = some D → (r'.getRepo n).tags t = some D

lemma Client.Inv.mono {c : Client} {r r' : Registry} (h : c.Inv lib r) (hk : TagsKept r r') :
    c.Inv lib r' := by
  have hold : ∀ {tags}, c.TagsHold lib r tags → c.TagsHold lib r' tags := fun h t ht =>
    let ⟨D, hD, hd⟩ := h t ht
    ⟨D, hk _ _ _ hD, hd⟩
  rcases c with ⟨repo, contents, mt, params, _ | ⟨desc, rest⟩ | ⟨e | desc⟩⟩
  · trivial
  · obtain ⟨hd, checked, hc, hh⟩ := h
    exact ⟨hd, checked, hc, hold hh⟩
  · trivial
  · exact ⟨h.1, hold h.2⟩

/-- A step of a client makes no call but a check, or makes the client's push. -/
lemma Client.step_reg (c : Client) (r : Registry) :
    (c.step lib r).2 = r ∨
      (c.step lib r).2 = r.step lib (.pushManifest c.repo c.contents c.mediaType c.params) := by
  rcases c with ⟨repo, contents, mt, params, ⟨_ | ⟨tag, tags⟩⟩ | ⟨desc, _ | ⟨tag, tags⟩⟩ | res⟩
  · refine .inr ?_
    simp only [step, Registry.step]
    generalize r.pushManifest lib repo contents mt params = p
    obtain ⟨_ | _, r'⟩ := p <;> rfl
  · refine .inl ?_
    simp only [step]
    split <;> rfl
  · exact .inl rfl
  · refine .inl ?_
    simp only [step]
    split <;> rfl
  · exact .inl rfl

lemma Client.step_cfg (c : Client) (r : Registry) : (c.step lib r).2.cfg = r.cfg := by
  rcases c.step_reg lib r with h | h <;> rw [h]
  exact Registry.step_cfg lib r _

/-- With immutable tags a client's step keeps every tag. -/
lemma Client.step_kept (c : Client) {r : Registry} (himm : r.cfg.immutableTags = true) :
    TagsKept r (c.step lib r).2 := fun n t D hD => by
  rcases c.step_reg lib r with h | h <;> rw [h]
  exacts [hD, r.step_tags_of_immutable lib himm _ hD]

/-- A registry push that succeeds returns a descriptor of the digest the filter expects. -/
lemma registry_pushManifest_ok_digest {r : Registry} {n : String} {data : Bytes} {mt : String}
    {params : Option PushManifestParameters} {desc : Descriptor} {r' : Registry}
    (h : r.pushManifest lib n data mt params = (.ok desc, r')) :
    desc.digest = pushDigest lib params data := by
  rcases Registry.pushManifest_spec lib h with ⟨e, he, -⟩ |
    ⟨-, dig, hdig, ⟨d, hsome, hres, -⟩ | ⟨-, -, -, -, hres, -⟩⟩
  · cases he
  · cases hres
    obtain ⟨-, -, -, -, hd, -⟩ := tagLoop_some hsome
    exact hd.trans (manifestDigest_ok lib hdig).1
  · cases hres
    exact (manifestDigest_ok lib hdig).1

/-- A client's own step keeps what it has established, and adds what its check or its push
shows. -/
lemma Client.step_inv (c : Client) {r : Registry} (h : c.Inv lib r) :
    (c.step lib r).1.Inv lib (c.step lib r).2 := by
  rcases c with ⟨repo, contents, mt, params, ⟨_ | ⟨tag, tags⟩⟩ | ⟨desc, _ | ⟨tag, tags⟩⟩ | res⟩
  · simp only [step]
    rcases hp : r.pushManifest lib repo contents mt params with ⟨_ | desc, r'⟩
    · trivial
    · exact ⟨registry_pushManifest_ok_digest lib hp, [], rfl, fun _ h => nomatch h⟩
  · simp only [step]
    split <;> trivial
  · obtain ⟨hd, checked, hc, hh⟩ := h
    simp only [step, Client.Inv]
    rw [List.append_nil] at hc
    exact ⟨hd, hc ▸ hh⟩
  · obtain ⟨hd, checked, hc, hh⟩ := h
    simp only [step]
    split
    · trivial
    · rename_i hpost
      refine ⟨hd, checked ++ [tag], by simp [hc], fun t ht => ?_⟩
      rcases List.mem_append.1 ht with ht | ht
      · exact hh t ht
      · obtain rfl := List.mem_singleton.1 ht
        exact postCheckTag_ok hpost
  · exact h

/-- The registry has immutable tags, and what every client has established holds in it. -/
def Sys.Inv (s : Sys) : Prop := s.reg.cfg.immutableTags = true ∧ ∀ c ∈ s.clients, c.Inv lib s.reg

lemma Sys.Inv.step {s : Sys} (h : s.Inv lib) (i : Nat) :
    (s.step lib i).Inv lib ∧ TagsKept s.reg (s.step lib i).reg := by
  unfold Sys.step
  split
  · exact ⟨h, fun _ _ _ => id⟩
  · rename_i c hc
    have hk := c.step_kept lib h.1
    refine ⟨⟨by rw [c.step_cfg]; exact h.1, fun c' hc' => ?_⟩, hk⟩
    rcases List.mem_or_eq_of_mem_set hc' with hc' | rfl
    · exact (h.2 c' hc').mono lib hk
    · exact c.step_inv lib (h.2 c (List.getElem?_mem hc))

lemma Sys.Inv.run {s : Sys} (h : s.Inv lib) (sched : List Nat) :
    (s.run lib sched).Inv lib ∧ TagsKept s.reg (s.run lib sched).reg := by
  induction sched generalizing s with
  | nil => exact ⟨h, fun _ _ _ => id⟩
  | cons i sched ih =>
    obtain ⟨h₁, hk₁⟩ := h.step lib i
    obtain ⟨h', hk'⟩ := ih h₁
    exact ⟨h', fun n t D hD => hk' n t D (hk₁ n t D hD)⟩

/-- On a registry with immutable tags, whatever the interleaving of clients that all start a
call of the filter's `PushManifest`: two clients that returned success for a tag of one
repository returned the same digest, and the tag resolves to that digest in every later state. -/
theorem immutable_registry_race_free {s : Sys} (himm : s.reg.cfg.immutableTags = true)
    (hstart : ∀ c ∈ s.clients, c.pc = .pre (tagsOf c.params)) (sched : List Nat) :
    (∀ c₁ ∈ (s.run lib sched).clients, ∀ c₂ ∈ (s.run lib sched).clients, ∀ d₁ d₂,
      c₁.pc = .done (.ok d₁) → c₂.pc = .done (.ok d₂) → c₁.repo = c₂.repo →
      ∀ t ∈ tagsOf c₁.params, t ∈ tagsOf c₂.params → d₁.digest = d₂.digest) ∧
    (∀ c ∈ (s.run lib sched).clients, ∀ d, c.pc = .done (.ok d) → ∀ t ∈ tagsOf c.params,
      ∀ sched', ∃ D, ((s.run lib sched).run lib sched').reg.resolveTag c.repo t = .ok D ∧
        D.digest = d.digest) := by
  have h0 : s.Inv lib := ⟨himm, fun c hc => by simp [Client.Inv, hstart c hc]⟩
  obtain ⟨hrun, -⟩ := h0.run lib sched
  have done_ok : ∀ c ∈ (s.run lib sched).clients, ∀ d, c.pc = .done (.ok d) →
      d.digest = c.dig lib ∧ c.TagsHold lib (s.run lib sched).reg (tagsOf c.params) :=
    fun c hc d hd => by simpa [Client.Inv, hd] using hrun.2 c hc
  refine ⟨fun c₁ hc₁ c₂ hc₂ d₁ d₂ hd₁ hd₂ hrepo t ht₁ ht₂ => ?_, fun c hc d hd t ht sched' => ?_⟩
  · obtain ⟨he₁, hh₁⟩ := done_ok c₁ hc₁ d₁ hd₁
    obtain ⟨he₂, hh₂⟩ := done_ok c₂ hc₂ d₂ hd₂
    obtain ⟨D₁, hD₁, hdig₁⟩ := hh₁ t ht₁
    obtain ⟨D₂, hD₂, hdig₂⟩ := hh₂ t ht₂
    rw [hrepo, hD₂] at hD₁
    cases hD₁
    rw [he₁, he₂, ← hdig₁, hdig₂]
  · obtain ⟨he, hh⟩ := done_ok c hc d hd
    obtain ⟨D, hD, hdig⟩ := hh t ht
    exact ⟨D, Registry.resolveTag_eq_ok.2 ((hrun.run lib sched').2 _ _ _ hD), hdig.trans he.symm⟩

/-- The two racing clients of `racing`, on a registry with immutable tags. -/
def racingImmutable : Sys := { racing with reg := Registry.new { immutableTags := true } }

theorem racingImmutable_race_free :
    (∀ c₁ ∈ (racingImmutable.run Lib.reference [0, 1, 0, 0, 0, 1, 1, 1]).clients,
      ∀ c₂ ∈ (racingImmutable.run Lib.reference [0, 1, 0, 0, 0, 1, 1, 1]).clients, ∀ d₁ d₂,
      c₁.pc = .done (.ok d₁) → c₂.pc = .done (.ok d₂) → c₁.repo = c₂.repo →
      ∀ t ∈ tagsOf c₁.params, t ∈ tagsOf c₂.params → d₁.digest = d₂.digest) ∧
    (∀ c ∈ (racingImmutable.run Lib.reference [0, 1, 0, 0, 0, 1, 1, 1]).clients, ∀ d,
      c.pc = .done (.ok d) → ∀ t ∈ tagsOf c.params, ∀ sched', ∃ D,
        ((racingImmutable.run Lib.reference [0, 1, 0, 0, 0, 1, 1, 1]).run Lib.reference sched').reg.resolveTag
          c.repo t = .ok D ∧ D.digest = d.digest) :=
  immutable_registry_race_free Lib.reference rfl
    (fun c hc => by
      simp only [racingImmutable, racing, List.mem_cons, List.mem_singleton, List.not_mem_nil,
        or_false] at hc
      rcases hc with rfl | rfl <;> rfl) _

end OciRegistry.Ocifilter
