import Mathlib.Logic.Function.Basic

/-!
# Descriptors, digests and errors

Model of the data the `ociregistry` package shares between its implementations: byte strings,
digests, the `Descriptor` record, the manifest push parameters and the error values. Only the
fields the modelled functions read are kept: `MediaType`, `Digest`, `Size` and `Annotations` of a
descriptor, `Tags` and `Digest` of the push parameters.

Errors follow the package's own design (spec §9): an `ociregistry` error value carries a code,
and `fmt.Errorf` either wraps an error with `%w`, so that `errors.Is` still finds its code
(`Error.is`), or prints it with `%v`, so that only its text survives. The texts of the error
values live in `error.go`, which is not under `src/`, so an error value is its code alone.
-/

namespace OciRegistry

/-- Byte strings (Go `[]byte`). -/
abbrev Bytes := List UInt8

/-- A content digest `<algorithm>:<encoded>` (go-digest `digest.Digest`, a Go `string`). -/
abbrev Digest := String

/-- A content descriptor, with the fields the modelled code reads (Go `ociregistry.Descriptor`);
its annotation map is `none` when nil. -/
structure Descriptor where
  mediaType : String := ""
  digest : Digest := ""
  size : Int := 0
  annotations : Option (List (String × String)) := none
  deriving DecidableEq, Repr

/-- The optional parameters of a manifest push (Go `ociregistry.PushManifestParameters`). -/
structure PushManifestParameters where
  tags : List String := []
  digest : Digest := ""
  deriving DecidableEq, Repr

/-- The tags a push names, none for a nil parameter pointer (Go `if params != nil { tags = params.Tags }`). -/
def PushManifestParameters.tagsOf : Option PushManifestParameters → List String
  | some p => p.tags
  | none => []

/-- The digest a push supplies, if any (Go `params != nil && params.Digest != ""`). -/
def PushManifestParameters.digestOf : Option PushManifestParameters → Option Digest
  | some p => if p.digest = "" then none else some p.digest
  | none => none

/-- The codes of the `ociregistry` error values the modelled code returns (Go `ErrDenied`, ...). -/
inductive Code where
  | blobUnknown
  | blobUploadInvalid
  | denied
  | digestInvalid
  | manifestUnknown
  | nameInvalid
  | nameUnknown
  | rangeInvalid
  deriving DecidableEq, Repr

/-- An error as the Go code builds it. -/
inductive Error where
  /-- An `ociregistry` error value such as `ErrDenied`. -/
  | code (c : Code)
  /-- `errors.New(s)`, or `fmt.Errorf(s)` with no error argument. -/
  | text (s : String)
  /-- `fmt.Errorf(pre + "%w" + post, e)`: `errors.Is` still sees through to `e`. -/
  | wrap (pre : String) (e : Error) (post : String)
  /-- `fmt.Errorf(pre + "%v" + post, e)`: only the text of `e` survives. -/
  | format (pre : String) (e : Error) (post : String)
  deriving DecidableEq, Repr

/-- Whether an error carries a code through its `%w` wrappings (Go `errors.Is`). -/
def Error.is : Error → Code → Bool
  | .code c, c' => c == c'
  | .text _, _ => false
  | .wrap _ e _, c => e.is c
  | .format _ _ _, _ => false

end OciRegistry
