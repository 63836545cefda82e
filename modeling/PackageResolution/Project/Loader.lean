import PackageResolution.Action.Files
import PackageResolution.Project.Descriptor

/-!
# Loading projects

A project is loaded from its directory or from its descriptor in that directory.  The
directory of a loaded project is absolute and without links, so a project has the same
directory from wherever it was reached.
-/

namespace PackageResolution.Project

/-- The directory that a path to a project means: a path to a descriptor means the
directory above it. -/
def directoryOf (path : Path) : Path :=
  if path.fileName? = some fileName then path.parent?.getD path else path

/-- The project at a path. -/
def load (path : Path) : Attempt Project := do
  let place := directoryOf path
  match ← (Action.request (.canonical place) : Action _) with
  | .error refusal => throw (.invalidProject (.cannotLoad place.text refusal))
  | .ok directory =>
      let text ← Attempt.readText (directory.join ⟨fileName⟩)
      Attempt.ofResult (parse text directory)

end PackageResolution.Project
