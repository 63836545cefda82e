/-!
# Trees of files

A tree gives each place a file, a directory or a symbolic link, or nothing.  A place
is the list of names that lead to it from the root, which is always a directory.
The tree is the finite list of its places; everything else about it is said through
`FileTree.get?`.
-/

namespace PackageResolution

/-- The names that lead to a place from the root. -/
abbrev Location := List String

/-- What is at a place. -/
inductive FileNode
  /-- A file with its contents. -/
  | file (contents : ByteArray)
  | directory
  /-- A symbolic link to the path that it holds. -/
  | link (target : String)

/-- Whether a node is a directory. -/
def FileNode.isDirectory : FileNode → Bool
  | .directory => true
  | _ => false

/-- A tree of files. -/
structure FileTree where
  /-- The places other than the root, each with what is there. -/
  nodes : List (Location × FileNode)

namespace FileTree

/-- The tree that consists of the root. -/
def empty : FileTree := ⟨[]⟩

instance : Inhabited FileTree := ⟨empty⟩

/-- What is at a place. -/
def get? (tree : FileTree) (location : Location) : Option FileNode :=
  if location = [] then some .directory else tree.nodes.lookup location

/-- The tree with a node put at a place, instead of what was there. -/
def insert (tree : FileTree) (location : Location) (node : FileNode) : FileTree :=
  ⟨(location, node) :: tree.nodes.filter (·.1 ≠ location)⟩

/-- Whether `location` is `top` or a place below it. -/
def isBelow (top location : Location) : Bool :=
  top.isPrefixOf location

/-- The tree without a place and all places below it. -/
def erase (tree : FileTree) (top : Location) : FileTree :=
  ⟨tree.nodes.filter fun entry => !isBelow top entry.1⟩

/-- The places at and below `top`, counted from `top`. -/
def below (tree : FileTree) (top : Location) : List (Location × FileNode) :=
  (tree.nodes.filter fun entry => isBelow top entry.1).map fun entry =>
    (entry.1.drop top.length, entry.2)

/-- The tree with everything at and below `source` moved to `target`, instead of
what was there. -/
def move (tree : FileTree) (source target : Location) : FileTree :=
  ⟨((tree.below source).map fun entry => (target ++ entry.1, entry.2)) ++
    ((tree.erase source).erase target).nodes⟩

/-- The names in a directory, each with what it stands for. -/
def children (tree : FileTree) (directory : Location) : List (String × FileNode) :=
  tree.nodes.filterMap fun entry =>
    match entry.1.getLast? with
    | some name => if entry.1.dropLast = directory then some (name, entry.2) else none
    | none => none

/-! ## What the operations do to the places -/

@[simp]
theorem get?_nil (tree : FileTree) : tree.get? [] = some .directory := rfl

theorem lookup_filter_ne {locations : List (Location × FileNode)} {location other : Location}
    (different : other ≠ location) :
    (locations.filter (·.1 ≠ location)).lookup other = locations.lookup other := by
  induction locations with
  | nil => rfl
  | cons entry rest inductionHypothesis =>
      obtain ⟨place, node⟩ := entry
      by_cases here : place = location
      · subst here
        have unequal : (other == place) = false := by simpa using different
        rw [List.filter_cons_of_neg (by simp), List.lookup_cons, unequal]
        exact inductionHypothesis
      · rw [List.filter_cons_of_pos (by simpa using here), List.lookup_cons, List.lookup_cons,
          inductionHypothesis]

/-- After a node is put at a place other than the root, it is there and all other
places are as before. -/
theorem get?_insert {tree : FileTree} {location other : Location} {node : FileNode}
    (inside : location ≠ []) :
    (tree.insert location node).get? other =
      if other = location then some node else tree.get? other := by
  by_cases top : other = []
  · subst top
    simp [inside.symm]
  · by_cases here : other = location
    · subst here
      simp [get?, insert, top]
    · have unequal : (other == location) = false := by simpa using here
      simp only [get?, insert, top, here, if_false, List.lookup_cons, unequal]
      exact lookup_filter_ne here

end FileTree

end PackageResolution
