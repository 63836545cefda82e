import PackageResolution.Action.Basic

/-!
# Directories and temporary files

Actions on files that consist of several requests: creating a directory with those
above it, and creating something under a name that nobody else has.
-/

namespace PackageResolution.Action

/-- Whether a path leads to something. -/
def exists? (path : Path) : Action Bool := do
  match ← request (.isDirectory path) with
  | .ok _ => return true
  | .error _ => return false

/-- Whether a path leads to a directory. -/
def leadsToDirectory (path : Path) : Action Bool := do
  match ← request (.isDirectory path) with
  | .ok answer => return answer
  | .error _ => return false

/-- Creates a directory, which may be there already. -/
def createOne (path : Path) : Action (Except OsError Unit) := do
  match ← request (.createDirectory path) with
  | .ok _ => return .ok ()
  | .error refusal => return if ← leadsToDirectory path then .ok () else .error refusal

/-- Creates the first directory of a list in which each follows those below it, and
as many of the others as that needs. -/
def createChain : List Path → Action (Except OsError Unit)
  | [] => return .ok ()
  | path :: above => do
      if path.text = "" then return .ok ()
      match ← createOne path with
      | .error .notFound =>
          match ← createChain above with
          | .error refusal => return .error refusal
          | .ok _ => createOne path
      | answer => return answer

/-- Creates a directory and the directories above it, which may be there already. -/
def createDirectories (path : Path) : Action (Except OsError Unit) :=
  createChain (path :: path.ancestors)

/-- How many names are tried for something temporary. -/
def nameAttempts : Nat := Nat.pow 2 16

/-- Creates something in `directory` under a name that begins with `stem`.  A name
that is taken is given up for another; `count` names are tried. -/
def createUnderFreshName (directory : Path) (stem : String)
    (create : Path → Action (Except OsError Unit)) : Nat → Action (Except IoCause Path)
  | 0 => return .error (.refusedAt (.other "too many temporary files exist") directory.text)
  | count + 1 => do
      let path := directory.join ⟨stem ++ (← request .randomLetters)⟩
      match ← create path with
      | .ok _ => return .ok path
      | .error .exists => createUnderFreshName directory stem create count
      | .error refusal => return .error (.refusedAt refusal path.text)

/-- Creates something temporary in `directory`, which may be relative. -/
def createTemporary (directory : Path) (stem : String)
    (create : Path → Action (Except OsError Unit)) : Action (Except IoCause Path) := do
  if directory.isAbsolute then createUnderFreshName directory stem create nameAttempts
  else
    match ← request .currentDirectory with
    | .ok current => createUnderFreshName (current.join directory) stem create nameAttempts
    | .error refusal => return .error (.refused refusal)

/-- Creates an empty temporary file. -/
def createTemporaryFile (directory : Path) : Action (Except IoCause Path) :=
  createTemporary directory ".tmp" fun path => request (.createFile path)

/-- Creates an empty temporary directory whose name begins with `stem`. -/
def createTemporaryDirectory (directory : Path) (stem : String) :
    Action (Except IoCause Path) :=
  createTemporary directory stem fun path => request (.createDirectory path)

end PackageResolution.Action

namespace PackageResolution.Attempt

/-- Creates a directory and those above it, as part of `task`. -/
def createDirectories (task : IoTask) (path : Path) : Attempt Unit :=
  files task (Action.createDirectories path)

/-- The text of a file. -/
def readText (path : Path) : Attempt String := do
  let bytes ← files (.read path.text) (Action.request (.read path))
  match Utf8.decode bytes.data.toList with
  | .ok text => return text
  | .error _ => throw (.io (.read path.text) .notTextFile)

/-- Writes a file through a temporary one beside it, so that nobody finds it half
written.  The temporary file goes into `directory`, and the three tasks are creating,
writing and moving it. -/
def writeThrough (directory path : Path) (contents : ByteArray)
    (create write move : IoTask) : Attempt Unit := do
  match ← (Action.createTemporaryFile directory : Action _) with
  | .error cause => throw (.io create cause)
  | .ok temporary =>
      match ← (Action.request (.write temporary contents) : Action _) with
      | .error refusal =>
          let _ ← (Action.request (.removeFile temporary) : Action _)
          throw (.io write (.refused refusal))
      | .ok _ =>
          match ← (Action.request (.rename temporary path) : Action _) with
          | .ok _ => return ()
          | .error refusal =>
              let _ ← (Action.request (.removeFile temporary) : Action _)
              throw (.io move (.notPersisted refusal))

end PackageResolution.Attempt
