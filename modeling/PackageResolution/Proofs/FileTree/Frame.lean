import PackageResolution.Association
import PackageResolution.Proofs.FileTree.Walk

/-!
# What operations on files leave alone

In a tree without links an operation changes only what is at the paths that it is given, or
below them.  So it leaves alone a directory that none of these paths meets.
-/

namespace PackageResolution.FileTree

variable {tree after : FileTree} {top place source target : Location}

/-! ## Trees that differ elsewhere -/

/-- That neither of two places is at or below the other one. -/
def Apart (first second : Location) : Prop :=
  ¬ first <+: second ∧ ¬ second <+: first

instance (first second : Location) : Decidable (Apart first second) :=
  inferInstanceAs (Decidable (_ ∧ _))

theorem Apart.not_prefix (apart : Apart source top) (below : top <+: place) :
    ¬ source <+: place := by
  intro start
  rcases List.prefix_or_prefix_of_prefix start below with before | behind
  · exact apart.1 before
  · exact apart.2 behind

/-- That a tree without links differs from an earlier one at most outside of a directory. -/
structure Spares (top : Location) (earlier later : FileTree) : Prop where
  isLinkFree : later.IsLinkFree
  get?_eq : ∀ place, top <+: place → later.get? place = earlier.get? place

theorem Spares.refl (linkFree : tree.IsLinkFree) : Spares top tree tree :=
  ⟨linkFree, fun _ _ => rfl⟩

theorem Spares.trans {first second third : FileTree} (earlier : Spares top first second)
    (later : Spares top second third) : Spares top first third := by
  constructor
  · exact later.isLinkFree
  · intro place below
    rw [later.get?_eq place below, earlier.get?_eq place below]

/-! ## Changes of trees -/

theorem spares_insert (linkFree : tree.IsLinkFree) {node : FileNode}
    (plain : ∀ target, node ≠ .link target) (inside : place ≠ []) (outside : ¬ top <+: place) :
    Spares top tree (tree.insert place node) := by
  constructor
  · intro other target member
    rcases List.mem_cons.mp member with same | among
    · exact plain target (Prod.mk.inj same).2.symm
    · exact linkFree other target (List.mem_of_mem_filter among)
  · intro other below
    rw [get?_insert inside, if_neg]
    rintro rfl
    exact outside below

theorem get?_erase (outside : ¬ source <+: place) :
    (tree.erase source).get? place = tree.get? place := by
  rw [get?, get?, erase, Association.lookup_filter]
  intro node
  rw [isBelow, Bool.not_eq_true', ← Bool.not_eq_true, List.isPrefixOf_iff_prefix]
  exact outside

/-- A move leaves alone what is below neither of its two places. -/
theorem get?_move (fromOutside : ¬ source <+: place) (toOutside : ¬ target <+: place) :
    (tree.move source target).get? place = tree.get? place := by
  have elsewhere : ((tree.below source).map fun entry =>
      (target ++ entry.1, entry.2)).lookup place = none := by
    rw [List.lookup_eq_none_iff]
    rintro entry member
    rcases List.mem_map.mp member with ⟨original, -, rfl⟩
    rw [bne_iff_ne]
    rintro rfl
    exact toOutside (List.prefix_append _ _)
  have kept : ((tree.erase source).erase target).get? place = tree.get? place := by
    rw [get?_erase toOutside, get?_erase fromOutside]
  rw [← kept, get?, get?, move, List.lookup_append, elsewhere, Option.none_or]

theorem isLinkFree_erase (linkFree : tree.IsLinkFree) : (tree.erase source).IsLinkFree :=
  fun other target member => linkFree other target (List.mem_of_mem_filter member)

theorem spares_erase (linkFree : tree.IsLinkFree) (apart : Apart source top) :
    Spares top tree (tree.erase source) := by
  constructor
  · exact isLinkFree_erase linkFree
  · intro place below
    exact get?_erase (apart.not_prefix below)

theorem spares_move (linkFree : tree.IsLinkFree) (fromApart : Apart source top)
    (toApart : Apart target top) : Spares top tree (tree.move source target) := by
  constructor
  · intro other link member
    rcases List.mem_append.mp member with moved | kept
    · rcases List.mem_map.mp moved with ⟨entry, among, same⟩
      rcases List.mem_map.mp among with ⟨original, present, rfl⟩
      have node := (Prod.mk.inj same).2
      have held : original ∈ tree.nodes := List.mem_of_mem_filter present
      rcases original with ⟨first, content⟩
      obtain rfl : content = .link link := node
      exact linkFree first link held
    · exact isLinkFree_erase (isLinkFree_erase linkFree) other link kept
  · intro place below
    exact get?_move (fromApart.not_prefix below) (toApart.not_prefix below)

/-! ## Operations -/

variable {current : Location} {path : Path} {names : List String}

theorem ne_nil_of_get? {node : Option FileNode} (found : tree.get? place = node)
    (other : node ≠ some .directory) : place ≠ [] := by
  rintro rfl
  rw [get?_nil] at found
  exact other found.symm

/-- What is put where a path leads, if that is no directory. -/
theorem spares_insert_found (linkFree : tree.IsLinkFree) (written : path.IsAt names)
    (outside : ¬ top <+: names) {follow : Bool} {destination : Destination}
    (found : tree.find follow current path = .ok destination)
    (other : destination.node? ≠ some .directory) {node : FileNode}
    (plain : ∀ target, node ≠ .link target) :
    Spares top tree (tree.insert destination.location node) := by
  rcases find_ok linkFree written found with ⟨there, held⟩
  apply spares_insert linkFree plain (ne_nil_of_get? held other)
  rw [there]
  exact outside

theorem spares_createDirectory (linkFree : tree.IsLinkFree) (written : path.IsAt names)
    (outside : ¬ top <+: names) (done : tree.createDirectory current path = .ok after) :
    Spares top tree after := by
  unfold createDirectory at done
  split at done
  · rename_i vacant
    obtain rfl := Except.ok.inj done
    exact spares_insert_found linkFree written outside vacant nofun nofun
  · exact nomatch done
  · exact nomatch done

theorem spares_createFile (linkFree : tree.IsLinkFree) (written : path.IsAt names)
    (outside : ¬ top <+: names) (done : tree.createFile current path = .ok after) :
    Spares top tree after := by
  unfold createFile at done
  split at done
  · rename_i vacant
    split at done
    · exact nomatch done
    · obtain rfl := Except.ok.inj done
      exact spares_insert_found linkFree written outside vacant nofun nofun
  · exact nomatch done
  · exact nomatch done

theorem spares_write (linkFree : tree.IsLinkFree) (written : path.IsAt names)
    (outside : ¬ top <+: names) {contents : ByteArray}
    (done : tree.write current path contents = .ok after) : Spares top tree after := by
  unfold write at done
  split at done
  · rename_i vacant
    split at done
    · exact nomatch done
    · obtain rfl := Except.ok.inj done
      exact spares_insert_found linkFree written outside vacant nofun nofun
  · rename_i occupied
    obtain rfl := Except.ok.inj done
    exact spares_insert_found linkFree written outside occupied nofun nofun
  · exact nomatch done
  · exact nomatch done

theorem spares_removeTree (linkFree : tree.IsLinkFree) (written : path.IsAt names)
    (apart : Apart names top) (done : tree.removeTree current path = .ok after) :
    Spares top tree after := by
  rcases Result.bind_eq_ok_iff.mp done with ⟨⟨place, node⟩, found, erased⟩
  obtain rfl := Except.ok.inj erased
  obtain rfl := (findNode_ok linkFree written found).1
  exact spares_erase linkFree apart

theorem spares_removeFile (linkFree : tree.IsLinkFree) (written : path.IsAt names)
    (apart : Apart names top) (done : tree.removeFile current path = .ok after) :
    Spares top tree after := by
  rcases Result.bind_eq_ok_iff.mp done with ⟨⟨place, node⟩, found, erased⟩
  simp only at erased
  split at erased
  · exact nomatch erased
  · obtain rfl := Except.ok.inj erased
    obtain rfl := (findNode_ok linkFree written found).1
    exact spares_erase linkFree apart

theorem spares_rename (linkFree : tree.IsLinkFree) {goal : Path} {others : List String}
    (written : path.IsAt names) (goalWritten : goal.IsAt others) (fromApart : Apart names top)
    (toApart : Apart others top) (done : tree.rename current path goal = .ok after) :
    Spares top tree after := by
  rcases Result.bind_eq_ok_iff.mp done with ⟨⟨start, node⟩, found, rest⟩
  rcases Result.bind_eq_ok_iff.mp rest with ⟨destination, reached, moved⟩
  obtain rfl := (findNode_ok linkFree written found).1
  have there := (find_ok linkFree goalWritten reached).1
  split at moved
  · exact nomatch moved
  split at moved
  · exact nomatch moved
  cases destination with
  | vacant place =>
      obtain rfl : place = others := there
      simp only at moved
      split at moved
      · exact nomatch moved
      · obtain rfl := Except.ok.inj moved
        exact spares_move linkFree fromApart toApart
  | occupied place other =>
      obtain rfl : place = others := there
      simp only at moved
      split at moved
      · obtain rfl := Except.ok.inj moved
        exact .refl linkFree
      split at moved
      · exact nomatch moved
      split at moved
      · exact nomatch moved
      · obtain rfl := Except.ok.inj moved
        exact spares_move linkFree fromApart toApart

end PackageResolution.FileTree
