import Mathlib.Data.List.Nodup
import PackageResolution.Proofs.FileTree.Frame

/-!
# What operations on files leave behind

A tree is regular if it has no links and names each place once.  Putting something at a place
and moving a directory keep trees regular, and what is at every place afterwards is known.
-/

namespace PackageResolution.FileTree

variable {tree : FileTree} {place source target rest : Location} {node : FileNode}

/-- That a tree has no links and names each place once. -/
structure IsRegular (tree : FileTree) : Prop where
  isLinkFree : tree.IsLinkFree
  nodup : (tree.nodes.map Prod.fst).Nodup

theorem IsRegular.insert (regular : tree.IsRegular) (plain : ∀ target, node ≠ .link target)
    (place : Location) : (tree.insert place node).IsRegular where
  isLinkFree := by
    intro other target member
    rcases List.mem_cons.mp member with same | among
    · exact plain target (Prod.mk.inj same).2.symm
    · exact regular.isLinkFree other target (List.mem_of_mem_filter among)
  nodup := by
    rw [FileTree.insert, List.map_cons, List.nodup_cons]
    constructor
    · intro member
      obtain ⟨entry, among, same⟩ := List.mem_map.mp member
      simp [same] at among
    · exact (List.filter_sublist.map Prod.fst).nodup regular.nodup

theorem IsRegular.erase (regular : tree.IsRegular) (top : Location) :
    (tree.erase top).IsRegular where
  isLinkFree := isLinkFree_erase regular.isLinkFree
  nodup := (List.filter_sublist.map Prod.fst).nodup regular.nodup

/-- What is below a place is found below the place that it is moved to. -/
theorem lookup_moved (entries : List (Location × FileNode)) :
    (((entries.filter fun entry => isBelow source entry.1).map fun entry =>
      (target ++ entry.1.drop source.length, entry.2)).lookup (target ++ rest)) =
      entries.lookup (source ++ rest) := by
  induction entries with
  | nil => rfl
  | cons entry entries inductionHypothesis =>
      obtain ⟨first, other⟩ := entry
      by_cases below : source <+: first
      · obtain ⟨suffix, rfl⟩ := below
        have kept : isBelow source (source ++ suffix) = true :=
          List.isPrefixOf_iff_prefix.mpr (List.prefix_append _ _)
        rw [List.filter_cons, if_pos kept, List.map_cons, List.drop_left, List.lookup_cons,
          List.lookup_cons, inductionHypothesis]
        have same : (target ++ rest == target ++ suffix) =
            (source ++ rest == source ++ suffix) := by
          rw [Bool.eq_iff_iff, beq_iff_eq, beq_iff_eq, List.append_cancel_left_eq,
            List.append_cancel_left_eq]
        rw [same]
      · have dropped : ¬ isBelow source first = true := by
          rwa [isBelow, List.isPrefixOf_iff_prefix]
        have different : (source ++ rest == first) = false := by
          rw [beq_eq_false_iff_ne]
          rintro rfl
          exact below (List.prefix_append _ _)
        rw [List.filter_cons, if_neg dropped, List.lookup_cons, different]
        exact inductionHypothesis

/-- After a move the places below the target are those that were below the source. -/
theorem get?_move_append (inside : source ≠ []) (goal : target ≠ []) :
    (tree.move source target).get? (target ++ rest) = tree.get? (source ++ rest) := by
  have outside : ∀ node, (target ++ rest, node) ∉ ((tree.erase source).erase target).nodes := by
    intro node member
    have apart := (List.mem_filter.mp member).2
    rw [Bool.not_eq_true', isBelow, ← Bool.not_eq_true, List.isPrefixOf_iff_prefix] at apart
    exact apart (List.prefix_append _ _)
  have absent : ((tree.erase source).erase target).nodes.lookup (target ++ rest) = none := by
    cases found : ((tree.erase source).erase target).nodes.lookup (target ++ rest) with
    | none => rfl
    | some node => exact absurd (mem_of_lookup found) (outside node)
  rw [get?, get?, if_neg (by simp [goal]), if_neg (by simp [inside]), move, List.lookup_append,
    absent, Option.or_none, below, List.map_map]
  exact lookup_moved tree.nodes

/-- After a move nothing is below the source, unless the target is there. -/
theorem get?_move_source (inside : source ≠ []) (apart : Apart source target)
    (below : source <+: place) : (tree.move source target).get? place = none := by
  have filled : place ≠ [] := by
    rintro rfl
    exact inside (List.prefix_nil.mp below)
  rw [get?, if_neg filled]
  cases found : (tree.move source target).nodes.lookup place with
  | none => rfl
  | some node =>
      rcases List.mem_append.mp (mem_of_lookup found) with moved | kept
      · obtain ⟨entry, -, same⟩ := List.mem_map.mp moved
        obtain ⟨rfl, -⟩ := Prod.mk.inj same
        exact absurd below (apart.not_prefix (List.prefix_append _ _))
      · have erased := (List.mem_filter.mp (List.mem_of_mem_filter kept)).2
        rw [Bool.not_eq_true', isBelow, ← Bool.not_eq_true, List.isPrefixOf_iff_prefix] at erased
        exact absurd below erased

theorem IsRegular.move (regular : tree.IsRegular) (source target : Location) :
    (tree.move source target).IsRegular where
  isLinkFree := by
    intro other link member
    rcases List.mem_append.mp member with moved | kept
    · obtain ⟨entry, among, same⟩ := List.mem_map.mp moved
      obtain ⟨original, present, rfl⟩ := List.mem_map.mp among
      have held : original.2 = .link link := (Prod.mk.inj same).2
      exact regular.isLinkFree original.1 link (held ▸ List.mem_of_mem_filter present)
    · exact ((regular.erase source).erase target).isLinkFree other link kept
  nodup := by
    have distinct := ((List.filter_sublist (p := fun entry : Location × FileNode =>
      isBelow source entry.1)).map Prod.fst).nodup regular.nodup
    have moved : ((tree.below source).map fun entry => (target ++ entry.1, entry.2)).map Prod.fst =
        ((tree.nodes.filter fun entry => isBelow source entry.1).map Prod.fst).map
          fun location => target ++ location.drop source.length := by
      rw [below, List.map_map, List.map_map, List.map_map]
      rfl
    rw [FileTree.move, List.map_append, moved, List.nodup_append]
    refine ⟨List.Nodup.map_on ?_ distinct, ((regular.erase source).erase target).nodup, ?_⟩
    · intro first firstAmong second secondAmong same
      obtain ⟨entry, kept, rfl⟩ := List.mem_map.mp firstAmong
      obtain ⟨other, otherKept, rfl⟩ := List.mem_map.mp secondAmong
      obtain ⟨rest, whole⟩ := List.isPrefixOf_iff_prefix.mp (List.mem_filter.mp kept).2
      obtain ⟨others, otherWhole⟩ := List.isPrefixOf_iff_prefix.mp (List.mem_filter.mp otherKept).2
      rw [← whole, ← otherWhole, List.drop_left, List.drop_left] at same
      rw [← whole, ← otherWhole, List.append_cancel_left same]
    · intro first firstAmong second secondAmong same
      obtain ⟨location, -, rfl⟩ := List.mem_map.mp firstAmong
      obtain ⟨entry, among, rfl⟩ := List.mem_map.mp secondAmong
      have apart := (List.mem_filter.mp among).2
      rw [← same, Bool.not_eq_true', isBelow, ← Bool.not_eq_true, List.isPrefixOf_iff_prefix]
        at apart
      exact apart (List.prefix_append _ _)

theorem lookup_eq_some_iff {entries : List (Location × FileNode)}
    (nodup : (entries.map Prod.fst).Nodup) :
    entries.lookup place = some node ↔ (place, node) ∈ entries := by
  induction entries with
  | nil => simp
  | cons entry entries inductionHypothesis =>
      obtain ⟨first, other⟩ := entry
      rw [List.map_cons, List.nodup_cons] at nodup
      by_cases here : place = first
      · subst here
        have unique : (place, node) ∉ entries := fun among =>
          nodup.1 (List.mem_map.mpr ⟨_, among, rfl⟩)
        rw [List.lookup_cons_self, List.mem_cons]
        simp [unique, eq_comm]
      · rw [Association.lookup_cons_of_ne here, List.mem_cons]
        simp [here, inductionHypothesis nodup.2]

/-- What is among the names in a directory is one of the nodes. -/
theorem mem_nodes_of_mem_children {name : String} (member : (name, node) ∈ tree.children place) :
    (place ++ [name], node) ∈ tree.nodes := by
  obtain ⟨⟨location, held⟩, among, found⟩ := List.mem_filterMap.mp member
  cases last : location.getLast? with
  | none => simp [last] at found
  | some final =>
      simp only [last] at found
      split at found
      · rename_i start
        obtain ⟨rfl, rfl⟩ := Prod.mk.inj (Option.some.inj found)
        rw [← start, List.dropLast_append_getLast? _ last]
        exact among
      · cases found

/-- The names in a directory are the names under which something is there. -/
theorem mem_children (regular : tree.IsRegular) {name : String} :
    (name, node) ∈ tree.children place ↔ tree.get? (place ++ [name]) = some node := by
  rw [get?, if_neg (by simp), lookup_eq_some_iff regular.nodup]
  constructor
  · exact mem_nodes_of_mem_children
  · intro among
    exact List.mem_filterMap.mpr ⟨_, among, by simp⟩

end PackageResolution.FileTree
