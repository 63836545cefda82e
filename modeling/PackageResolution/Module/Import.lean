import PackageResolution.Module.Key

/-!
# Following imports

An import is a reference from one module to another.  An ordinary reference is
followed from the importing module; inside a package it stays inside.  A reference
that begins with three dots is searched for: in the directory of the importing module
and then in every directory above it, as far as the origin of the module goes.  The
importing module itself is never the answer.
-/

namespace PackageResolution

/-- What a reference with three dots asks for. -/
inductive Ascension
  /-- A module with the name of the importing one. -/
  | sameName
  /-- The module at a path below the directory. -/
  | below (path : String)
  deriving DecidableEq, Repr

/-- What a reference asks for, if it begins with three dots. -/
def Ascension.parse (reference : String) : Result (Option Ascension) :=
  match Text.dropStart? "..." reference with
  | none => .ok none
  | some rest =>
      if rest = "" then .ok (some .sameName)
      else
        match Text.dropStart? "/" rest with
        | some path =>
            if path ≠ "" ∧ Text.endsWith '/' path = false then .ok (some (.below path))
            else .error (.malformedReference (.badAscension reference))
        | none => .error (.malformedReference (.badAscension reference))

namespace ModuleKey

/-! ## Ordinary references -/

/-- The path that a reference means in the package of an asset. -/
def pathInPackage (asset : PackageAsset) (path : String) : String :=
  if path = "" then asset.path
  else if Text.beginsWith '/' path then path
  else Uri.directoryOf asset.path ++ path

/-- A reference without scheme followed inside the package of an asset.  `written` is
the text of the reference. -/
def resolveInPackage (asset : PackageAsset) (written : String) (reference : Uri) :
    Result Uri :=
  if reference.authority.isSome then
    .error (.malformedReference (.leavesPackage written asset.package.text))
  else
    match asset.withPath (pathInPackage asset reference.path) with
    | .ok target => .ok { target.toUri with query := reference.query }
    | .error cause => .error (.malformedUri cause)

/-- A reference without scheme followed from an identifier. -/
def resolveFrom (base : Uri) (written : String) (reference : Uri) : Result Uri :=
  let resolved := Uri.resolve base reference
  if resolved.isAbsolute then .ok resolved
  else .error (.malformedReference (.noBase written base.text))

/-- An ordinary reference followed from a module. -/
def resolveRelative (key : ModuleKey) (written : String) : Result Uri := do
  let reference ← (Uri.parse written).mapError Error.malformedUri
  if reference.isAbsolute then return reference
  else
    match key with
    | .package asset _ => resolveInPackage asset written reference
    | key => resolveFrom key.uri written reference

/-! ## Searches -/

variable [ArchiveReader]

/-- The path of a module in its origin, if its origin has directories. -/
def ownPath : ModuleKey → Result String
  | .web uri => .error (.ascensionNotSupported uri.text)
  | .builtIn uri => .error (.ascensionNotSupported uri.text)
  | .file uri => hierarchicalPath uri
  | .onPath uri _ => hierarchicalPath uri
  | .package asset _ => .ok asset.path
where
  /-- The path of an identifier that is a hierarchy. -/
  hierarchicalPath (uri : Uri) : Result String :=
    if uri.isOpaque then .error (.ascensionNotSupported uri.text) else .ok uri.path

/-- A directory and those above it, each with its last slash. -/
def enclosing (directory : String) : List String :=
  go directory.length directory
where
  /-- At most `count + 1` directories from `directory` upward. -/
  go : Nat → String → List String
    | 0, directory => [directory]
    | count + 1, directory =>
        if directory = "/" ∨ directory = "" then [directory]
        else directory :: go count (Uri.directoryOf (Text.trimEnd '/' directory))

/-- The identifier of a path in the origin of a module, unless the path leaves the
package. -/
def candidate? (key : ModuleKey) (path : String) : Option Uri :=
  match key with
  | .package asset _ =>
      match asset.withPath path with
      | .ok candidate => some candidate.toUri
      | .error _ => none
  | key => some { key.uri with path := UriPath.removeDots path, fragment := none }

/-- The identifiers that a search for `target` tries, in order: all but that of the
module at `ownPath` itself. -/
def candidates (key : ModuleKey) (ownPath target : String) : List Uri :=
  (enclosing (Uri.directoryOf ownPath)).filterMap fun directory =>
    let path := directory ++ target
    if UriPath.removeDots path = ownPath then none else key.candidate? path

/-- Whether a candidate exists in the origin of a module. -/
def isPresent (key : ModuleKey) (candidate : Uri) : Resolving Bool :=
  match key with
  | .file _ => do
      match ← Resolving.ofResult candidate.toPath with
      | some path => return ← Resolving.ofAttempt (ExceptT.lift (Action.exists? path))
      | none => return false
  | .onPath _ modulePath => do
      let found ← Resolving.ofAttempt (ExceptT.lift (modulePath.find? candidate.path))
      return found.isSome
  | .package _ resolver => do
      let asset ← Resolving.ofResult (ModuleContext.assetOf candidate)
      resolver.hasElement .unwatched asset
  | .web _ => return false
  | .builtIn _ => return false

/-- The first of some candidates that exists.  Each must be allowed before it is
looked for. -/
def firstPresent (key : ModuleKey) (security : Security) : List Uri → Resolving (Option Uri)
  | [] => return none
  | candidate :: rest => do
      Resolving.ofResult (security.checkModule candidate)
      if ← key.isPresent candidate then return some candidate
      else key.firstPresent security rest

/-- The path that a search looks for, in each directory. -/
def target (key : ModuleKey) (written ownPath : String) : Ascension → Result String
  | .below path => .ok path
  | .sameName =>
      let name := Text.lastField '/' ownPath
      if name = "" then .error (.malformedReference (.noFileName written key.uri.text))
      else .ok name

/-- The module that a search finds. -/
def resolveAscension (key : ModuleKey) (security : Security) (written : String)
    (ascension : Ascension) : Resolving Uri := do
  let ownPath ← Resolving.ofResult key.ownPath
  let target ← Resolving.ofResult (key.target written ownPath ascension)
  match ← key.firstPresent security (key.candidates ownPath target) with
  | some found => return found
  | none => throw (.moduleNotFound written key.uri.text)

/-- The module that an import means. -/
def resolveImport (key : ModuleKey) (security : Security) (written : String) :
    Resolving Uri := do
  let resolved ←
    match ← Resolving.ofResult (Ascension.parse written) with
    | some ascension => key.resolveAscension security written ascension
    | none => Resolving.ofResult (key.resolveRelative written)
  Resolving.ofResult (security.checkModule resolved)
  Resolving.ofResult (security.checkImport key.uri resolved)
  return resolved

end ModuleKey

end PackageResolution
