import OciRegistry.Ocibuilder.PushLayer

/-!
# The image builder: sequences of calls

The calls a program makes on an `ImageBuilder`, each with what it returns (`ImageBuilder.call`),
and the builders a program reaches from `New` through calls that return (`Built`); a call that
panics ends the program.

A call that returns an error or panics leaves the builder as it was (`call_refused`), and every
builder reached keeps its layers and its manifests apart, its media type saying which of the two
it holds (`Built.shape`). None has an annotation map, so `AddAnnotation` panics on every one
(`Built.addAnnotation_panics`). It need not keep an index free of a config: `AddManifest` does not look
at the config, so `SetConfig` then `AddManifest` return nil and leave an index with a config
(`setConfig_then_addManifest_breaks_shape`).
-/

namespace OciRegistry.Ocibuilder

open Ocimem

/-- A call on an image builder, with its arguments; a `PushLayer` call carries what the client's
`PushBlobChunked` returns, and the fuel its chunk loop runs on. -/
inductive Call where
  | setArtifactType (artifactType : String)
  | setSubject (subject : Option Descriptor)
  | setConfig (config : Descriptor)
  | addLayer (layer : Descriptor)
  | pushLayer (chunked : Option BlobWriter × Option Error) (mediaType : String) (reader : Reader)
      (annotations : List (String × String)) (fuel : Nat)
  | addManifest (manifest : Descriptor)
  | addAnnotation (key value : String)

/-- A method that returns an error or nil, and the builder after it. -/
def Outcome.ofExcept (ib : ImageBuilder) : Except Error ImageBuilder → Outcome × ImageBuilder
  | .error e => (.returned (some e), ib)
  | .ok ib' => (.returned none, ib')

/-- How a call ends, and the builder after it; `none` when it runs past its fuel. A method with
no result returns nil. -/
def ImageBuilder.call (lib : Lib) (ib : ImageBuilder) : Call → Option (Outcome × ImageBuilder)
  | .setArtifactType artifactType => some (.returned none, ib.setArtifactType artifactType)
  | .setSubject subject => some (.returned none, ib.setSubject subject)
  | .setConfig config => some (Outcome.ofExcept ib (ib.setConfig config))
  | .addLayer layer => some (Outcome.ofExcept ib (ib.addLayer layer))
  | .pushLayer chunked mediaType reader annotations fuel =>
    (ib.pushLayer lib chunked mediaType reader annotations fuel).map fun res => (res.outcome, res.builder)
  | .addManifest manifest => some (Outcome.ofExcept ib (ib.addManifest manifest))
  | Call.addAnnotation key value =>
    some (match ib.addAnnotation key value with
      | none => (.panicked, ib)
      | some ib' => (.returned none, ib'))

/-- The builders a program reaches from `New` through calls that return. -/
inductive Built (lib : Lib) : ImageBuilder → Prop
  | new (repository : String) : Built lib (new repository)
  | call {ib ib' : ImageBuilder} (c : Call) (err : Option Error) :
    Built lib ib → ib.call lib c = some (.returned err, ib') → Built lib ib'

section Calls

variable {lib : Lib} {ib ib' : ImageBuilder} {o : Outcome}

lemma Outcome.ofExcept_refused {r : Except Error ImageBuilder} (h : Outcome.ofExcept ib r = (o, ib'))
    (ho : o ≠ .returned none) : ib' = ib := by
  rcases r with e | ib'' <;> simp only [Outcome.ofExcept, Prod.mk.injEq] at h
  · exact h.2.symm
  · exact absurd h.1.symm ho

/-- A call that returns an error or panics leaves the builder as it was. -/
lemma call_refused {c : Call} (h : ib.call lib c = some (o, ib')) (ho : o ≠ .returned none) :
    ib' = ib := by
  cases c with
  | setArtifactType | setSubject => cases h; exact absurd rfl ho
  | setConfig | addLayer | addManifest => exact Outcome.ofExcept_refused (Option.some.inj h) ho
  | pushLayer chunked mediaType reader annotations fuel =>
    obtain ⟨res, hres, hr⟩ := Option.map_eq_some'.1 h
    cases hr
    exact (pushLayer_builder hres).1 ho
  | addAnnotation key value =>
    simp only [ImageBuilder.call] at h
    split at h <;> cases h
    exacts [rfl, absurd rfl ho]

lemma Outcome.ofExcept_nil {r : Except Error ImageBuilder}
    (h : Outcome.ofExcept ib r = (.returned none, ib')) : r = .ok ib' := by
  rcases r with e | ib'' <;> simp only [Outcome.ofExcept, Prod.mk.injEq] at h
  · cases h.1
  · rw [h.2]

/-- A call that returns nil is one of the methods returning the builder after it. -/
lemma call_nil {c : Call} (h : ib.call lib c = some (.returned none, ib')) :
    (∃ artifactType, ib' = ib.setArtifactType artifactType) ∨
    (∃ subject, ib' = ib.setSubject subject) ∨
    (∃ config, ib.setConfig config = .ok ib') ∨
    (∃ layer, ib.addLayer layer = .ok ib') ∨
    (∃ manifest, ib.addManifest manifest = .ok ib') ∨
    (∃ key value, ib.addAnnotation key value = some ib') := by
  cases c with
  | setArtifactType artifactType => cases h; exact .inl ⟨_, rfl⟩
  | setSubject subject => cases h; exact .inr (.inl ⟨_, rfl⟩)
  | setConfig config => exact .inr (.inr (.inl ⟨_, Outcome.ofExcept_nil (Option.some.inj h)⟩))
  | addLayer layer => exact .inr (.inr (.inr (.inl ⟨_, Outcome.ofExcept_nil (Option.some.inj h)⟩)))
  | pushLayer chunked mediaType reader annotations fuel =>
    obtain ⟨res, hres, hr⟩ := Option.map_eq_some'.1 h
    obtain ⟨hout, rfl⟩ := Prod.mk.inj hr
    exact .inr (.inr (.inr (.inl ((pushLayer_builder hres).2 hout))))
  | addManifest manifest =>
    exact .inr (.inr (.inr (.inr (.inl ⟨_, Outcome.ofExcept_nil (Option.some.inj h)⟩))))
  | addAnnotation key value =>
    simp only [ImageBuilder.call] at h
    split at h <;> cases h
    exact .inr (.inr (.inr (.inr (.inr ⟨key, value, ‹_›⟩))))

/-- A call keeps the builder's layers and manifests apart. -/
lemma call_shape {c : Call} (hs : ib.manifest.Shape) (h : ib.call lib c = some (o, ib')) :
    ib'.manifest.Shape := by
  by_cases ho : o = .returned none
  swap
  · exact call_refused h ho ▸ hs
  subst ho
  rcases call_nil h with ⟨_, rfl⟩ | ⟨_, rfl⟩ | ⟨_, hc⟩ | ⟨_, hc⟩ | ⟨_, hc⟩ | ⟨_, _, hc⟩
  · exact hs
  · exact hs
  · exact ImageBuilder.setConfig_shape hs hc
  · exact ImageBuilder.addLayer_shape hs hc
  · exact ImageBuilder.addManifest_shape hc
  · unfold ImageBuilder.addAnnotation at hc
    split at hc <;> cases hc
    exact hs

/-- Every builder a program reaches keeps its layers and its manifests apart, and its media type
says which of the two it holds. -/
theorem Built.shape (h : Built lib ib) : ib.manifest.Shape := by
  induction h with
  | new repository => exact .inl ⟨rfl, rfl⟩
  | call c err _ hc ih => exact call_shape ih hc

end Calls

/-- The index `SetConfig` then `AddManifest` make of a new builder, with a config. -/
def configuredIndex : ImageBuilder :=
  { repository := "repo"
    manifest :=
      { schemaVersion := 2, mediaType := imageIndexMediaType
        manifests := [{ digest := "sha256:m" }], config := some { digest := "sha256:c" } } }

lemma configuredIndex_built : Built Lib.reference configuredIndex :=
  .call (.addManifest { digest := "sha256:m" }) none
    (.call (.setConfig { digest := "sha256:c" }) none (.new "repo") rfl) rfl

theorem configuredIndex_shape : configuredIndex.manifest.Shape := Built.shape configuredIndex_built

section Calls

variable {lib : Lib} {ib ib' : ImageBuilder} {o : Outcome}

/-- No call makes the annotation map a builder lacks. -/
lemma call_annotations {c : Call} (hn : ib.manifest.annotations = none)
    (h : ib.call lib c = some (o, ib')) : ib'.manifest.annotations = none := by
  by_cases ho : o = .returned none
  swap
  · exact call_refused h ho ▸ hn
  subst ho
  rcases call_nil h with ⟨_, rfl⟩ | ⟨_, rfl⟩ | ⟨_, hc⟩ | ⟨_, hc⟩ | ⟨_, hc⟩ | ⟨_, _, hc⟩
  · exact hn
  · exact hn
  · rw [(ImageBuilder.setConfig_spec hc).2]; exact hn
  · rw [(ImageBuilder.addLayer_spec hc).2]; exact hn
  · rw [(ImageBuilder.addManifest_spec hc).2]; exact hn
  · cases (ImageBuilder.addAnnotation_none hn).symm.trans hc

/-- `AddAnnotation` panics on every builder a program reaches: `New` leaves the annotation map
nil, and no call makes it. -/
theorem Built.addAnnotation_panics (h : Built lib ib) (key value : String) :
    ib.addAnnotation key value = none := by
  refine ImageBuilder.addAnnotation_none ?_
  induction h with
  | new repository => rfl
  | call c err _ hc ih => exact call_annotations ih hc

end Calls

theorem configuredIndex_annotation_panics : configuredIndex.addAnnotation "k" "v" = none :=
  Built.addAnnotation_panics configuredIndex_built "k" "v"

/-- `New`, then `SetConfig` and `AddManifest`: both return nil, and the manifest is an index that
has a config. -/
theorem setConfig_then_addManifest_breaks_shape :
    ∃ ib₁ ib₂, (new "repo").call Lib.reference (.setConfig { digest := "sha256:c" }) =
        some (.returned none, ib₁) ∧
      ib₁.call Lib.reference (.addManifest { digest := "sha256:m" }) = some (.returned none, ib₂) ∧
      ib₂.manifest.mediaType = imageIndexMediaType ∧ ib₂.manifest.config = some { digest := "sha256:c" } ∧
      ¬ ib₂.manifest.WellShaped :=
  ⟨_, _, rfl, rfl, rfl, rfl, by decide⟩

end OciRegistry.Ocibuilder
