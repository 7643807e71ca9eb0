import OciRegistry.Types

/-!
# Tag and repository names

The name checks of package `ociref`, which is not under `src/`: both are modelled from the
regular expressions the spec gives (§3). A tag matches `[A-Za-z0-9_][A-Za-z0-9._-]{0,127}`; a
repository name matches `[a-z0-9]+(?:[._-][a-z0-9]+)*(?:/[a-z0-9]+(?:[._-][a-z0-9]+)*)*`, that is,
runs of lower-case letters and digits joined by single separators `.`, `_`, `-` or `/`, which
`matchName` reads as a two-state automaton over the characters.
-/

namespace OciRegistry.Ociref

/-- A character that may follow the first one of a tag (`[A-Za-z0-9._-]`). -/
def isTagChar (c : Char) : Bool := c.isAlphanum || c == '_' || c == '.' || c == '-'

/-- Modelled from the spec: `ociref.IsValidTag`, the tag pattern `[A-Za-z0-9_][A-Za-z0-9._-]{0,127}`. -/
def isValidTag (tag : String) : Bool :=
  match tag.data with
  | [] => false
  | c :: cs => (c.isAlphanum || c == '_') && cs.all isTagChar && decide (cs.length ≤ 127)

/-- A character of a repository path run (`[a-z0-9]`). -/
def isNameChar (c : Char) : Bool := c.isLower || c.isDigit

/-- A separator between two runs of a repository name (`[._-]`, or `/` between components). -/
def isNameSeparator (c : Char) : Bool := c == '.' || c == '_' || c == '-' || c == '/'

/-- The automaton of the repository pattern; `afterRun` is set once a run character was read
since the last separator, which is when a separator or the end may come. -/
def matchName : Bool → List Char → Bool
  | afterRun, [] => afterRun
  | afterRun, c :: cs =>
    if isNameChar c then matchName true cs
    else afterRun && isNameSeparator c && matchName false cs

/-- Modelled from the spec: `ociref.IsValidRepository`, the repository name pattern. -/
def isValidRepository (repoName : String) : Bool := matchName false repoName.data

example : isValidTag "latest" = true ∧ isValidTag ".hidden" = false := by decide

example : isValidRepository "foo/bar" = true ∧ isValidRepository "foo//bar" = false := by decide

end OciRegistry.Ociref
