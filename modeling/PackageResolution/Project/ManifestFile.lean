import PackageResolution.Action.Files
import PackageResolution.Project.Manifest

/-!
# Manifests in files

The manifest of a project is a file in the project's directory.  For a module in the
project it is the nearest one, in the directory of the module or above it.
-/

namespace PackageResolution.Manifest

/-- The manifest in a file. -/
def load (path : Path) : Attempt Manifest := do
  Attempt.ofResult (parse (← Attempt.readText path))

/-- The first of some directories that has a manifest: the manifest and its file. -/
def loadFirst : List Path → Attempt (Option (Manifest × Path))
  | [] => return none
  | directory :: rest => do
      let file := directory.join ⟨fileName⟩
      if ← (Action.exists? file : Action _) then return some (← load file, file)
      else loadFirst rest

/-- The nearest manifest in a directory or above it, as the path to the directory is
written. -/
def findAndLoad (start : Path) : Attempt (Option (Manifest × Path)) :=
  loadFirst (start :: start.ancestors)

/-- The directory of a file.  A path of one name is in the working directory. -/
def directoryOf (path : Path) : Path :=
  match path.parent? with
  | some directory => if directory.text = "" then ⟨"."⟩ else directory
  | none => ⟨"."⟩

/-- Writes a manifest to a file, all at once. -/
def save (manifest : Manifest) (path : Path) : Attempt Unit :=
  let directory := directoryOf path
  Attempt.writeThrough directory path (manifest.text ++ "\n").toUTF8
    (.createTemporaryFileIn directory.text) (.write path.text) (.write path.text)

end PackageResolution.Manifest
