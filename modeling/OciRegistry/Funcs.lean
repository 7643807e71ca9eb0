import OciRegistry.Types

/-!
# The `Funcs` adapter

Model of `func.go`: `Funcs` implements `Interface` by calling one function field per method.
"When a function is nil, the corresponding method will return an `ErrUnsupported` error", made
by `NewError` if that is set, else `"<Method>: " + ErrUnsupported`; a nil `*Funcs` behaves as
if every field were nil.

The adapter reads no argument of a call but the repository it names for the error, and returns
the field's results unchanged. So a function field is a function from the call's arguments `α`
to its results `β`, and a method is `forward` applied to its own field, name and repository:
seventeen of the eighteen methods are exactly that. `ErrUnsupported` is defined in `error.go`,
which is not under `src/`; it is a parameter here.

`PushBlobChunkedResume` is the exception: it checks `PushBlobChunked_` where it calls
`PushBlobChunkedResume_`, and names itself `PushBlobChunked` in its error. It agrees with the
shared body only when both fields are set, or both are nil and `NewError` does not tell the two
names apart (`pushBlobChunkedResume_eq_forward_iff`). With only `PushBlobChunkedResume_` set it
reports that the method is unsupported; with only `PushBlobChunked_` set it calls a nil function,
and it is the one method that can panic (`pushBlobChunkedResume_panicked_iff`,
`forward_ne_panicked`).
-/

namespace OciRegistry

/-- The function fields of `Funcs`, one per method of `Interface`. -/
inductive Field where
  | getBlob | getBlobRange | getManifest | getTag
  | resolveBlob | resolveManifest | resolveTag
  | pushBlob | pushBlobChunked | pushBlobChunkedResume | mountBlob | pushManifest
  | deleteBlob | deleteManifest | deleteTag
  | repositories | tags | referrers
  deriving DecidableEq, Repr

/-- `Funcs`: the field `NewError` (upper case here, beside the method `newError`), and each
function field, `none` for a nil one, taking the call's arguments `α` to its results `β`. -/
structure Funcs (α β : Type) where
  NewError : Option (String → String → Error) := none
  fields : Field → Option (α → β) := fun _ => none

/-- How a method of `Funcs` ends: with the results of the function it called, with an error
(returned beside the zero value, or, for an iterator, as the one item of `ErrorSeq`), or in a
panic on a nil function. -/
inductive Outcome (β : Type) where
  | result (b : β)
  | error (e : Error)
  | panicked

namespace Funcs

variable {α β : Type} (errUnsupported : Error)

/-- The field of a possibly nil `*Funcs` (Go `f != nil && f.X_ != nil`). -/
def field (f : Option (Funcs α β)) (x : Field) : Option (α → β) := f.bind (·.fields x)

/-- `Funcs.newError`. -/
def newError (f : Option (Funcs α β)) (methodName repo : String) : Error :=
  match f.bind (·.NewError) with
  | some g => g methodName repo
  | none => .wrap (methodName ++ ": ") errUnsupported ""

/-- The body of the methods of `Funcs`: call the field if it is set, else return the error
`newError` makes from the method's name and the repository. -/
def forward (f : Option (Funcs α β)) (x : Field) (methodName repo : String) (call : α) : Outcome β :=
  match field f x with
  | some g => .result (g call)
  | none => .error (newError errUnsupported f methodName repo)

/-- `Funcs.GetBlob`. -/
def getBlob (f : Option (Funcs α β)) (repo : String) : α → Outcome β :=
  forward errUnsupported f .getBlob "GetBlob" repo

/-- `Funcs.GetBlobRange`. -/
def getBlobRange (f : Option (Funcs α β)) (repo : String) : α → Outcome β :=
  forward errUnsupported f .getBlobRange "GetBlobRange" repo

/-- `Funcs.GetManifest`. -/
def getManifest (f : Option (Funcs α β)) (repo : String) : α → Outcome β :=
  forward errUnsupported f .getManifest "GetManifest" repo

/-- `Funcs.GetTag`. -/
def getTag (f : Option (Funcs α β)) (repo : String) : α → Outcome β :=
  forward errUnsupported f .getTag "GetTag" repo

/-- `Funcs.ResolveBlob`. -/
def resolveBlob (f : Option (Funcs α β)) (repo : String) : α → Outcome β :=
  forward errUnsupported f .resolveBlob "ResolveBlob" repo

/-- `Funcs.ResolveManifest`. -/
def resolveManifest (f : Option (Funcs α β)) (repo : String) : α → Outcome β :=
  forward errUnsupported f .resolveManifest "ResolveManifest" repo

/-- `Funcs.ResolveTag`. -/
def resolveTag (f : Option (Funcs α β)) (repo : String) : α → Outcome β :=
  forward errUnsupported f .resolveTag "ResolveTag" repo

/-- `Funcs.PushBlob`. -/
def pushBlob (f : Option (Funcs α β)) (repo : String) : α → Outcome β :=
  forward errUnsupported f .pushBlob "PushBlob" repo

/-- `Funcs.PushBlobChunked`. -/
def pushBlobChunked (f : Option (Funcs α β)) (repo : String) : α → Outcome β :=
  forward errUnsupported f .pushBlobChunked "PushBlobChunked" repo

/-- `Funcs.PushBlobChunkedResume`: it checks `PushBlobChunked_`, calls `PushBlobChunkedResume_`
(a nil function panics) and names itself `PushBlobChunked` in its error. -/
def pushBlobChunkedResume (f : Option (Funcs α β)) (repo : String) (call : α) : Outcome β :=
  match field f .pushBlobChunked with
  | some _ =>
    match field f .pushBlobChunkedResume with
    | some g => .result (g call)
    | none => .panicked
  | none => .error (newError errUnsupported f "PushBlobChunked" repo)

/-- `Funcs.MountBlob`, which names the target repository in its error. -/
def mountBlob (f : Option (Funcs α β)) (_fromRepo toRepo : String) : α → Outcome β :=
  forward errUnsupported f .mountBlob "MountBlob" toRepo

/-- `Funcs.PushManifest`. -/
def pushManifest (f : Option (Funcs α β)) (repo : String) : α → Outcome β :=
  forward errUnsupported f .pushManifest "PushManifest" repo

/-- `Funcs.DeleteBlob`. -/
def deleteBlob (f : Option (Funcs α β)) (repo : String) : α → Outcome β :=
  forward errUnsupported f .deleteBlob "DeleteBlob" repo

/-- `Funcs.DeleteManifest`. -/
def deleteManifest (f : Option (Funcs α β)) (repo : String) : α → Outcome β :=
  forward errUnsupported f .deleteManifest "DeleteManifest" repo

/-- `Funcs.DeleteTag`. -/
def deleteTag (f : Option (Funcs α β)) (repo : String) : α → Outcome β :=
  forward errUnsupported f .deleteTag "DeleteTag" repo

/-- `Funcs.Repositories`, which names no repository in its error. -/
def repositories (f : Option (Funcs α β)) : α → Outcome β :=
  forward errUnsupported f .repositories "Repositories" ""

/-- `Funcs.Tags`. -/
def tags (f : Option (Funcs α β)) (repo : String) : α → Outcome β :=
  forward errUnsupported f .tags "Tags" repo

/-- `Funcs.Referrers`. -/
def referrers (f : Option (Funcs α β)) (repo : String) : α → Outcome β :=
  forward errUnsupported f .referrers "Referrers" repo

/-! ## `PushBlobChunkedResume` -/

/-- `PushBlobChunkedResume` agrees on a call with the body every other method has exactly when its
two fields are both set, or both nil with the error of the one method name the error of the
other. -/
lemma pushBlobChunkedResume_eq_forward_iff (f : Option (Funcs α β)) (repo : String) (call : α) :
    pushBlobChunkedResume errUnsupported f repo call =
      forward errUnsupported f .pushBlobChunkedResume "PushBlobChunkedResume" repo call ↔
    ((field f .pushBlobChunked).isSome ∧ (field f .pushBlobChunkedResume).isSome) ∨
    (field f .pushBlobChunked = none ∧ field f .pushBlobChunkedResume = none ∧
      newError errUnsupported f "PushBlobChunked" repo =
        newError errUnsupported f "PushBlobChunkedResume" repo) := by
  simp only [pushBlobChunkedResume, forward]
  cases field f .pushBlobChunked <;> cases field f .pushBlobChunkedResume <;> simp

/-- `PushBlobChunkedResume` panics exactly when `PushBlobChunked_` is set and
`PushBlobChunkedResume_` is nil: it then calls the nil function. -/
lemma pushBlobChunkedResume_panicked_iff (f : Option (Funcs α β)) (repo : String) (call : α) :
    pushBlobChunkedResume errUnsupported f repo call = .panicked ↔
      (field f .pushBlobChunked).isSome ∧ field f .pushBlobChunkedResume = none := by
  simp only [pushBlobChunkedResume]
  cases field f .pushBlobChunked <;> cases field f .pushBlobChunkedResume <;> simp

/-- The shared body never panics: a nil field gives the unsupported error. -/
lemma forward_ne_panicked (f : Option (Funcs α β)) (x : Field) (methodName repo : String) (call : α) :
    forward errUnsupported f x methodName repo call ≠ .panicked := by
  unfold forward
  split <;> simp

end Funcs

end OciRegistry
