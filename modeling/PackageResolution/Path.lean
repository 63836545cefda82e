import PackageResolution.Text.Cut

/-!
# File paths

A path is kept as it is written.  Its meaning is the list of its components, in
which empty pieces and inner `.` pieces do not count; two texts can have the same
components.  Joining, the parent and the file name work on the text, so that a
path built from others shows how it was written, while comparison works on the
components.
-/

namespace PackageResolution

/-- A file path as it is written. -/
structure Path where
  /-- The written form. -/
  text : String
  deriving DecidableEq, Repr

instance : ToString Path := ⟨Path.text⟩

namespace Path

/-- One step of a path. -/
inductive Component
  /-- The slash at the start of an absolute path. -/
  | root
  /-- A `.` at the start of a relative path. -/
  | current
  /-- A `..`. -/
  | parent
  /-- Any other name. -/
  | named (name : String)
  deriving DecidableEq, Repr

/-- Whether the path starts at the root. -/
def isAbsolute (path : Path) : Bool :=
  Text.beginsWith '/' path.text

/-- The component that a piece between slashes stands for; empty pieces and `.`
stand for none. -/
def component? (piece : String) : Option Component :=
  if piece = "" || piece = "." then none
  else if piece = ".." then some .parent
  else some (.named piece)

/-- The components of a path. -/
def components (path : Path) : List Component :=
  let pieces := Text.fields '/' path.text
  let start :=
    if path.isAbsolute then [.root]
    else if pieces.head? = some "." then [.current]
    else []
  start ++ pieces.filterMap component?

/-- Whether two paths have the same components. -/
def same (a b : Path) : Bool :=
  a.components == b.components

/-- `path` taken from the directory `base`.  An absolute path replaces `base`, and
every other path follows it after one slash. -/
def join (base path : Path) : Path :=
  if path.isAbsolute || base.text = "" then path
  else if Text.endsWith '/' base.text then ⟨base.text ++ path.text⟩
  else ⟨base.text ++ "/" ++ path.text⟩

/-- Whether a piece between slashes stands for no component. -/
def isIdle (piece : String) : Bool :=
  piece = "" || piece = "."

/-- The pieces of a path after its start, last piece first: the start is the root
slash of an absolute path, or the leading `.` of a relative one. -/
def bodyReversed (path : Path) : String × List String :=
  let pieces := Text.fields '/' path.text
  if path.isAbsolute then ("/", pieces.tail.reverse)
  else if pieces.head? = some "." then (".", ("" :: pieces.tail).reverse)
  else ("", pieces.reverse)

/-- The path without its last component, if it has one that is not the root. -/
def parent? (path : Path) : Option Path :=
  let (start, body) := path.bodyReversed
  match body.dropWhile isIdle with
  | [] => if start = "." then some ⟨""⟩ else none
  | _ :: before =>
      some ⟨start ++ "/".intercalate (before.dropWhile isIdle).reverse⟩

/-- The last component of a path, if it is a name. -/
def fileName? (path : Path) : Option String :=
  match path.components.getLast? with
  | some (.named name) => some name
  | _ => none

/-- The path with its last component replaced by `name`. -/
def withFileName (path : Path) (name : String) : Path :=
  match path.fileName? with
  | some _ => ((path.parent?).getD path).join ⟨name⟩
  | none => path.join ⟨name⟩

/-- The components of a path with `.` dropped and each `..` taking back the
component before it.  At the root and at the start of a relative path there is
nothing to take back. -/
def normalized (path : Path) : List Component :=
  (path.components.foldl step []).reverse
where
  /-- One component more, the last component so far being the first of the list. -/
  step : List Component → Component → List Component
    | stack, .current => stack
    | .root :: rest, .parent => .root :: rest
    | _ :: rest, .parent => rest
    | [], .parent => []
    | stack, component => component :: stack

/-- The directories above a path, from the nearest upward. -/
def ancestors (path : Path) : List Path :=
  go path.text.length path
where
  /-- At most `count` directories above `path`. -/
  go : Nat → Path → List Path
    | 0, _ => []
    | count + 1, path =>
        match path.parent? with
        | none => []
        | some above => above :: go count above

end Path

end PackageResolution
