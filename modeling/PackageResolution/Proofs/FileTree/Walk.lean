import PackageResolution.FileTree.Change
import PackageResolution.Proofs.Path.Names
import PackageResolution.Proofs.Result

/-!
# Following paths in trees without links

Where a tree has no links, a path leads to the place that its names say, whatever else is
in the tree; the tree decides only whether there is something at that place, and whether
the way to it is open.
-/

namespace PackageResolution.FileTree

variable {tree : FileTree} {current place : Location}

/-! ## Trees without links -/

/-- That no place of a tree is a link. -/
def IsLinkFree (tree : FileTree) : Prop :=
  ∀ location target, (location, FileNode.link target) ∉ tree.nodes

theorem isLinkFree_empty : empty.IsLinkFree :=
  fun _ _ => List.not_mem_nil

theorem mem_of_lookup {entries : List (Location × FileNode)} {node : FileNode}
    (found : entries.lookup place = some node) : (place, node) ∈ entries := by
  induction entries with
  | nil => exact nomatch found
  | cons entry entries inductionHypothesis =>
      rcases entry with ⟨first, other⟩
      rw [List.lookup_cons] at found
      by_cases here : place = first
      · rw [here, beq_self_eq_true] at found
        obtain rfl := Option.some.inj found
        rw [here]
        exact List.mem_cons_self
      · rw [beq_eq_false_iff_ne.mpr here] at found
        exact List.mem_cons_of_mem _ (inductionHypothesis found)

theorem IsLinkFree.get?_ne (linkFree : tree.IsLinkFree) (target : String) :
    tree.get? place ≠ some (.link target) := by
  intro found
  rw [get?] at found
  split at found
  · cases found
  · exact linkFree place target (mem_of_lookup found)

/-! ## The way along names -/

namespace Destination

/-- The place where a path leads. -/
def location : Destination → Location
  | .occupied location _ => location
  | .vacant location => location

/-- What is there. -/
def node? : Destination → Option FileNode
  | .occupied _ node => some node
  | .vacant _ => none

end Destination

/-- Where one name leads. -/
def advance (current : Location) (name : String) : Location :=
  if name = "." then current
  else if name = ".." then current.dropLast
  else current ++ [name]

/-- That a place and everything above it are directories. -/
def IsOpen (tree : FileTree) (place : Location) : Prop :=
  ∀ above, above <+: place → tree.get? above = some .directory

theorem isOpen_nil (tree : FileTree) : tree.IsOpen [] := by
  intro above start
  rw [List.prefix_nil.mp start, get?_nil]

theorem IsOpen.dropLast (opened : tree.IsOpen place) : tree.IsOpen place.dropLast :=
  fun above start => opened above (start.trans (List.dropLast_prefix _))

theorem IsOpen.concat (opened : tree.IsOpen place) {name : String}
    (found : tree.get? (place ++ [name]) = some .directory) : tree.IsOpen (place ++ [name]) := by
  intro above start
  rcases List.prefix_concat_iff.mp start with rfl | start
  · exact found
  · exact opened above start

/-- A way leads to the place that its names say, and to what is at that place. -/
theorem walkTo_ok (linkFree : tree.IsLinkFree) {follow closed : Bool}
    {onLink : Bool → Location → List String → Except OsError Destination} {names : List String}
    {destination : Destination} (opened : tree.IsOpen current)
    (found : tree.walkTo follow onLink closed current names = .ok destination) :
    destination.location = names.foldl advance current ∧
      tree.get? destination.location = destination.node? := by
  induction names generalizing current with
  | nil =>
      obtain rfl := Except.ok.inj found
      exact ⟨rfl, opened current (List.prefix_refl _)⟩
  | cons name rest inductionHypothesis =>
      rw [walkTo] at found
      rw [List.foldl_cons, advance]
      split at found
      · rename_i single
        rw [if_pos single]
        exact inductionHypothesis opened found
      rename_i single
      rw [if_neg single]
      split at found
      · rename_i double
        rw [if_pos double]
        exact inductionHypothesis opened.dropLast found
      rename_i double
      rw [if_neg double]
      split at found
      · exact nomatch found
      cases there : tree.get? (current ++ [name]) with
      | none =>
          simp only [there] at found
          split at found
          · rename_i last
            obtain rfl := Except.ok.inj found
            rw [last]
            exact ⟨rfl, there⟩
          · exact nomatch found
      | some node =>
          simp only [there] at found
          cases node with
          | directory => exact inductionHypothesis (opened.concat there) found
          | link target => exact absurd there (linkFree.get?_ne target)
          | file contents =>
              simp only at found
              split at found
              · rename_i last
                obtain rfl := Except.ok.inj found
                rw [last.1]
                exact ⟨rfl, there⟩
              · exact nomatch found

theorem walk_ok (linkFree : tree.IsLinkFree) {follow closed : Bool} {budget : Nat}
    {names : List String} {destination : Destination} (opened : tree.IsOpen current)
    (found : tree.walk follow budget closed current names = .ok destination) :
    destination.location = names.foldl advance current ∧
      tree.get? destination.location = destination.node? := by
  cases budget with
  | zero => exact walkTo_ok linkFree opened found
  | succ budget => exact walkTo_ok linkFree opened found

/-! ## Paths of names -/

/-- The names between the slashes of a path lead along its components. -/
theorem foldl_advance_of_filterMap {pieces others : List String}
    (steps : pieces.filterMap Path.component? = others.map .named) (current : Location) :
    (pieces.filter (· ≠ "")).foldl advance current = current ++ others := by
  induction pieces generalizing others current with
  | nil =>
      obtain rfl : others = [] := List.map_eq_nil_iff.mp steps.symm
      exact (List.append_nil _).symm
  | cons piece pieces inductionHypothesis =>
      by_cases empty : piece = ""
      · subst empty
        exact inductionHypothesis steps current
      · rw [List.filter_cons_of_pos (by simpa using empty), List.foldl_cons, advance]
        by_cases single : piece = "."
        · subst single
          exact inductionHypothesis steps current
        · rw [if_neg single]
          by_cases double : piece = ".."
          · subst double
            cases others with
            | nil => exact nomatch steps
            | cons other others => exact nomatch steps
          · have isName : Path.IsName piece := ⟨empty, single, double⟩
            rw [if_neg double]
            rw [List.filterMap_cons, isName.component?] at steps
            cases others with
            | nil => exact nomatch steps
            | cons other others =>
                rw [List.map_cons, List.cons.injEq] at steps
                obtain rfl : piece = other := Path.Component.named.inj steps.1
                rw [inductionHypothesis steps.2, List.append_assoc, List.singleton_append]

/-- A path of names leads to the place of these names. -/
theorem find_ok (linkFree : tree.IsLinkFree) {path : Path} {others : List String}
    (written : path.IsAt others) {follow : Bool} {destination : Destination}
    (found : tree.find follow current path = .ok destination) :
    destination.location = others ∧ tree.get? destination.location = destination.node? := by
  rw [find] at found
  split at found
  · exact nomatch found
  split at found
  · exact nomatch found
  split at found
  · exact nomatch found
  rw [if_pos written.isAbsolute] at found
  have leads := walk_ok linkFree (isOpen_nil tree) found
  rwa [names, foldl_advance_of_filterMap written.steps_eq, List.nil_append] at leads

theorem findNode_ok (linkFree : tree.IsLinkFree) {path : Path} {others : List String}
    (written : path.IsAt others) {follow : Bool} {node : FileNode}
    (found : tree.findNode follow current path = .ok (place, node)) :
    place = others ∧ tree.get? place = some node := by
  unfold findNode at found
  split at found
  · rename_i occupied
    obtain ⟨rfl, rfl⟩ := Prod.mk.inj (Except.ok.inj found)
    exact find_ok linkFree written occupied
  · exact nomatch found
  · exact nomatch found

/-- Where there is no directory, a path leads to none. -/
theorem isDirectory_ne_ok_true (linkFree : tree.IsLinkFree) {path : Path} {others : List String}
    (written : path.IsAt others) (absent : tree.get? others ≠ some .directory) :
    tree.isDirectory current path ≠ .ok true := by
  intro found
  rcases Result.map_eq_ok_iff.mp found with ⟨⟨place, node⟩, reached, isDirectory⟩
  rcases findNode_ok linkFree written reached with ⟨rfl, there⟩
  cases node with
  | directory => exact absent there
  | file contents => exact nomatch isDirectory
  | link target => exact nomatch isDirectory

end PackageResolution.FileTree
