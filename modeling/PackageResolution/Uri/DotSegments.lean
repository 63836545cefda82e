import PackageResolution.Text.Cut

/-!
# Dot segments of hierarchical paths

The path of an identifier is read segment by segment between its slashes.  A `.`
stands for the place reached so far and a `..` takes back the segment before it.
Empty segments are segments like any other.  Above the root of an absolute path
there is nothing to take back: the lenient reading stays at the root, the strict
one gives up.
-/

namespace PackageResolution.UriPath

/-- The segments of a path after its root slash, if it has one. -/
def segments (path : String) : List String :=
  Text.fields '/' ((Text.dropStart? "/" path).getD path)

/-- Whether a `..` has nothing to take back after the given segments, which are
listed from the last. -/
def isExhausted : List String → Bool
  | [] => true
  | previous :: _ => previous = ".."

/-- The segments after one segment more, listed from the last.  In a relative
path a `..` with nothing to take back is kept. -/
def step (absolute : Bool) (stack : List String) (segment : String) : List String :=
  if segment = "." then stack
  else if segment = ".." then
    if isExhausted stack then if absolute then stack else ".." :: stack
    else stack.tail
  else segment :: stack

/-- The segments after one segment more, unless it climbs above the root. -/
def strictStep (absolute : Bool) (stack : List String) (segment : String) :
    Option (List String) :=
  if segment = ".." ∧ absolute ∧ isExhausted stack then none
  else some (step absolute stack segment)

/-- The path with the given segments, which are listed from the last.  `isOpen`
says that a slash follows the last one. -/
def assemble (absolute isOpen : Bool) (stack : List String) : String :=
  let body := "/".intercalate stack.reverse
  let path := if absolute then "/" ++ body else body
  if isOpen && !stack.isEmpty && !Text.endsWith '/' path then path ++ "/" else path

/-- Whether the last of some segments names the directory itself. -/
def endsInDots (segments : List String) : Bool :=
  segments.getLast? = some "." || segments.getLast? = some ".."

/-- The path without `.` and `..` segments, as far as it has something to take
back. -/
def removeDots (path : String) : String :=
  let absolute := Text.beginsWith '/' path
  assemble absolute (endsInDots (segments path))
    ((segments path).foldl (step absolute) [])

/-- The path without `.` and `..` segments, unless it climbs above its root. -/
def normalize? (path : String) : Option String :=
  let absolute := Text.beginsWith '/' path
  ((segments path).foldlM (strictStep absolute) []).map
    (assemble absolute (endsInDots (segments path)))

theorem strictStep_eq_some {absolute : Bool} {stack next : List String} {segment : String}
    (taken : strictStep absolute stack segment = some next) :
    step absolute stack segment = next := by
  unfold strictStep at taken
  split at taken
  · exact absurd taken (by simp)
  · exact Option.some.inj taken

theorem foldl_step_of_foldlM {absolute : Bool} {stack final : List String}
    {rest : List String} (run : rest.foldlM (strictStep absolute) stack = some final) :
    rest.foldl (step absolute) stack = final := by
  induction rest generalizing stack with
  | nil => simpa using run
  | cons segment rest inductionHypothesis =>
      simp only [List.foldlM_cons, Option.bind_eq_bind, Option.bind_eq_some_iff] at run
      obtain ⟨next, taken, run⟩ := run
      rw [List.foldl_cons, strictStep_eq_some taken]
      exact inductionHypothesis run

/-- Where the strict reading gives a path, the lenient one gives the same. -/
theorem removeDots_of_normalize? {path result : String}
    (found : normalize? path = some result) : removeDots path = result := by
  simp only [normalize?, Option.map_eq_some_iff] at found
  obtain ⟨final, run, rfl⟩ := found
  simp only [removeDots, foldl_step_of_foldlM run]

end PackageResolution.UriPath
