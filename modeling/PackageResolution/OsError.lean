/-!
# Refusals of the operating system

The ways in which an operation on files can be refused.  Each has the number that
the system gives it, which is part of its wording.
-/

namespace PackageResolution

/-- Why an operation on files was refused. -/
inductive OsError
  /-- Nothing has the given path. -/
  | notFound
  /-- The path is taken. -/
  | exists
  /-- A step of the path leads through something that is no directory. -/
  | notADirectory
  /-- A directory stands where a file is needed. -/
  | isADirectory
  /-- The directory still has entries. -/
  | notEmpty
  /-- The path follows too many symbolic links. -/
  | linkLoop
  /-- A name in the path is longer than names may be. -/
  | nameTooLong
  /-- The path contains the character that ends paths. -/
  | nulInPath
  /-- The caller may not do this. -/
  | denied
  /-- Any other refusal, in the system's own words. -/
  | other (description : String)
  deriving DecidableEq, Repr

namespace OsError

/-- The wording of a refusal. -/
def message : OsError → String
  | .notFound => "No such file or directory (os error 2)"
  | .exists => "File exists (os error 17)"
  | .notADirectory => "Not a directory (os error 20)"
  | .isADirectory => "Is a directory (os error 21)"
  | .notEmpty => "Directory not empty (os error 39)"
  | .linkLoop => "Too many levels of symbolic links (os error 40)"
  | .nameTooLong => "File name too long (os error 36)"
  | .nulInPath => "file name contained an unexpected NUL byte"
  | .denied => "Permission denied (os error 13)"
  | .other description => description

end OsError

/-- Why a server gave no document. -/
inductive FetchError
  /-- The server knows nothing of the address. -/
  | notFound (url : String)
  /-- The server answered with a status other than success. -/
  | status (url : String) (code : Nat)
  /-- The address is none that may be asked for. -/
  | unsupportedScheme (url : String)
  /-- The exchange broke off. -/
  | io (url : String) (description : String)
  deriving DecidableEq, Repr

/-- The wording of a failed request. -/
def FetchError.message : FetchError → String
  | .notFound url => s!"HTTP request to `{url}` failed with status 404 Not Found"
  | .status url code => s!"HTTP request to `{url}` failed with status {code}"
  | .unsupportedScheme url =>
      s!"Refusing to fetch `{url}` because it is not an HTTPS URI"
  | .io url description => s!"HTTP request to `{url}` failed: {description}"

end PackageResolution
