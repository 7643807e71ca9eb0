import OciRegistry.Types

/-!
# The image builder

Model of `imagebuilder.go` and `manifest.go` of package `ocibuilder`: the `ImageBuilder`, the
`ManifestOrIndex` it assembles, `New`, and the methods that touch only the manifest
(`SetArtifactType`, `SetSubject`, `SetConfig`, `AddLayer`, `AddManifest`, `AddAnnotation`).
`PushLayer` is in `OciRegistry.Ocibuilder.PushLayer`, and sequences of calls in
`OciRegistry.Ocibuilder.Calls`.

A Go map that may be nil is an `Option` of its entries, `none` for nil: `New` leaves the
manifest's annotation map nil and no method makes it, so `AddAnnotation`, a write into that map,
panics (`none`).

`SetConfig` and `AddLayer` refuse a builder that already lists manifests, and `AddManifest` one
that already lists layers; none of them looks at the config. So a builder keeps apart its layers
and its manifests, and its media type says which of the two it holds (`Shape`), but an index may
carry a config (`WellShaped` fails): `AddManifest` turns a builder with a config and no layers
into one.
-/

namespace OciRegistry.Ocibuilder

/-- `ManifestOrIndex`, the manifest or index a builder assembles. -/
structure ManifestOrIndex where
  schemaVersion : Int
  mediaType : String := ""
  artifactType : String := ""
  manifests : List Descriptor := []
  config : Option Descriptor := none
  layers : List Descriptor := []
  subject : Option Descriptor := none
  annotations : Option (List (String × String)) := none
  deriving DecidableEq, Repr

/-- `m[key] = value` on a Go map of strings that is not nil. -/
def mapSet (m : List (String × String)) (key value : String) : List (String × String) :=
  (key, value) :: m.filter fun kv => kv.1 ≠ key

/-- `ImageBuilder`; the client it holds is given to the calls that use it. -/
structure ImageBuilder where
  repository : String
  manifest : ManifestOrIndex
  deriving DecidableEq, Repr

/-- The media type `New` gives the manifest (`ocispec.MediaTypeImageManifest`). -/
def imageManifestMediaType : String := "application/vnd.oci.image.manifest.v1+json"

/-- The media type `AddManifest` gives the manifest (`ocispec.MediaTypeImageIndex`). -/
def imageIndexMediaType : String := "application/vnd.oci.image.index.v1+json"

/-- `New`: an empty image manifest for a repository. -/
def new (repository : String) : ImageBuilder :=
  { repository, manifest := { schemaVersion := 2, mediaType := imageManifestMediaType } }

namespace ImageBuilder

/-- `SetArtifactType`. -/
def setArtifactType (ib : ImageBuilder) (artifactType : String) : ImageBuilder :=
  { ib with manifest := { ib.manifest with artifactType } }

/-- `SetSubject`; a nil subject is `none`. -/
def setSubject (ib : ImageBuilder) (subject : Option Descriptor) : ImageBuilder :=
  { ib with manifest := { ib.manifest with subject } }

/-- `SetConfig`: refused on a builder that lists manifests. -/
def setConfig (ib : ImageBuilder) (config : Descriptor) : Except Error ImageBuilder :=
  if ib.manifest.manifests.length > 0 then .error (.text "cannot set config on index manifest")
  else .ok { ib with manifest := { ib.manifest with config := some config } }

/-- `AddLayer`: refused on a builder that lists manifests. -/
def addLayer (ib : ImageBuilder) (layer : Descriptor) : Except Error ImageBuilder :=
  if ib.manifest.manifests.length > 0 then .error (.text "cannot add layers to an index manifest")
  else .ok { ib with manifest := { ib.manifest with layers := ib.manifest.layers ++ [layer] } }

/-- `AddManifest`: refused on a builder that lists layers; it makes the manifest an index. -/
def addManifest (ib : ImageBuilder) (manifest : Descriptor) : Except Error ImageBuilder :=
  if ib.manifest.layers.length > 0 then .error (.text "cannot add manifest to an manifest")
  else .ok { ib with manifest := { ib.manifest with
    mediaType := imageIndexMediaType, manifests := ib.manifest.manifests ++ [manifest] } }

/-- `AddAnnotation`: a write into the manifest's annotation map, which panics (`none`) when the
map is nil. -/
def addAnnotation (ib : ImageBuilder) (key value : String) : Option ImageBuilder :=
  match ib.manifest.annotations with
  | none => none
  | some m => some { ib with manifest := { ib.manifest with annotations := some (mapSet m key value) } }

end ImageBuilder

/-! ## The shape of the manifest -/

/-- The two shapes the builder is meant to keep (`manifest.go`: "if index, make sure it has
manifests instead of layers"): an image manifest, with no manifests, or an index, with no
layers and no config. -/
def ManifestOrIndex.WellShaped (m : ManifestOrIndex) : Prop :=
  (m.manifests = [] ∧ m.mediaType = imageManifestMediaType) ∨
  (m.layers = [] ∧ m.config = none ∧ m.mediaType = imageIndexMediaType)

instance : DecidablePred ManifestOrIndex.WellShaped := fun _ =>
  inferInstanceAs (Decidable (_ ∨ _))

/-- The shape the builder does keep: an image manifest, with no manifests, or an index, with
manifests and no layers, whatever its config. -/
def ManifestOrIndex.Shape (m : ManifestOrIndex) : Prop :=
  (m.manifests = [] ∧ m.mediaType = imageManifestMediaType) ∨
  (m.manifests ≠ [] ∧ m.layers = [] ∧ m.mediaType = imageIndexMediaType)

instance : DecidablePred ManifestOrIndex.Shape := fun _ =>
  inferInstanceAs (Decidable (_ ∨ _))

namespace ImageBuilder

variable {ib ib' : ImageBuilder}

lemma setConfig_spec {config : Descriptor} (h : ib.setConfig config = .ok ib') :
    ib.manifest.manifests = [] ∧ ib' = { ib with manifest := { ib.manifest with config := some config } } := by
  unfold setConfig at h
  split_ifs at h with hm
  cases h
  exact ⟨List.length_eq_zero.1 (by omega), rfl⟩

lemma addLayer_spec {layer : Descriptor} (h : ib.addLayer layer = .ok ib') :
    ib.manifest.manifests = [] ∧
      ib' = { ib with manifest := { ib.manifest with layers := ib.manifest.layers ++ [layer] } } := by
  unfold addLayer at h
  split_ifs at h with hm
  cases h
  exact ⟨List.length_eq_zero.1 (by omega), rfl⟩

lemma addManifest_spec {manifest : Descriptor} (h : ib.addManifest manifest = .ok ib') :
    ib.manifest.layers = [] ∧
      ib' = { ib with manifest := { ib.manifest with
        mediaType := imageIndexMediaType, manifests := ib.manifest.manifests ++ [manifest] } } := by
  unfold addManifest at h
  split_ifs at h with hl
  cases h
  exact ⟨List.length_eq_zero.1 (by omega), rfl⟩

lemma addAnnotation_none {key value : String} (h : ib.manifest.annotations = none) :
    ib.addAnnotation key value = none := by
  unfold addAnnotation
  rw [h]

/-- Each call that touches the manifest keeps its shape. -/
lemma setConfig_shape {config : Descriptor} (hs : ib.manifest.Shape) (h : ib.setConfig config = .ok ib') :
    ib'.manifest.Shape := by
  obtain ⟨hm, rfl⟩ := setConfig_spec h
  rcases hs with hs | ⟨hne, -⟩
  exacts [.inl hs, absurd hm hne]

lemma addLayer_shape {layer : Descriptor} (hs : ib.manifest.Shape) (h : ib.addLayer layer = .ok ib') :
    ib'.manifest.Shape := by
  obtain ⟨hm, rfl⟩ := addLayer_spec h
  rcases hs with hs | ⟨hne, -⟩
  exacts [.inl hs, absurd hm hne]

lemma addManifest_shape {manifest : Descriptor} (h : ib.addManifest manifest = .ok ib') :
    ib'.manifest.Shape := by
  obtain ⟨hl, rfl⟩ := addManifest_spec h
  exact .inr ⟨by simp, hl, rfl⟩

end ImageBuilder

end OciRegistry.Ocibuilder
