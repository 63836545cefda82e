import PackageResolution.Action.Files
import PackageResolution.Text.Percent

/-!
# The module path

A module on the module path is found below the first of some directories that has it.
Its name must not lead upward, so whatever is found is below that directory.
-/

namespace PackageResolution

/-- The directories in which modules are searched, in order. -/
structure ModulePath where
  /-- The directories. -/
  roots : List Path
  deriving DecidableEq, Repr

namespace ModulePath

/-- The name below a directory that the path of an identifier stands for. -/
def relativeName? (uriPath : String) : Option String :=
  match Percent.decode uriPath with
  | .error _ => none
  | .ok text =>
      let name := Text.trimStart '/' text
      if name = "" ∨ ".." ∈ Text.fields '/' name then none else some name

/-- The places that a name can have, in order. -/
def places (modulePath : ModulePath) (name : String) : List Path :=
  modulePath.roots.map (·.join ⟨name⟩)

/-- The first of some paths that leads to something. -/
def firstPresent : List Path → Action (Option Path)
  | [] => return none
  | path :: rest => do if ← Action.exists? path then return some path else firstPresent rest

/-- The file that the path of an identifier stands for. -/
def find? (modulePath : ModulePath) (uriPath : String) : Action (Option Path) :=
  match relativeName? uriPath with
  | none => return none
  | some name => firstPresent (modulePath.places name)

end ModulePath

end PackageResolution
