import PackageResolution.Proofs.FileTree.Approach
import PackageResolution.Proofs.FileTree.Reach
import PackageResolution.Proofs.FileTree.Regular

/-!
# What is kept while files come and go

Operations on new files and directories leave alone what was there before, wherever it is and
however links lead to it.  `Grows` says so of two trees: the later one has everything that the
earlier one has, and no other links.  New things may change and go away again, so the earlier tree
is one from before they came.
-/

namespace PackageResolution.FileTree

variable {base tree after : FileTree} {current above place top source target rest : Location}
  {name : String} {node : FileNode} {path : Path}

/-! ## Closed trees -/

/-- That whatever is in a tree is in a directory. -/
def IsClosed (tree : FileTree) : Prop :=
  ∀ above name, tree.get? (above ++ [name]) ≠ none → tree.get? above = some .directory

/-- What something is below is a directory. -/
theorem IsClosed.get?_above (closed : tree.IsClosed) (filled : rest ≠ [])
    (present : tree.get? (place ++ rest) ≠ none) : tree.get? place = some .directory := by
  induction rest using List.reverseRecOn with
  | nil => exact absurd rfl filled
  | append_singleton rest name inductionHypothesis =>
      rw [← List.append_assoc] at present
      have found := closed _ _ present
      by_cases nothing : rest = []
      · rwa [nothing, List.append_nil] at found
      · exact inductionHypothesis nothing (found ▸ Option.some_ne_none _)

theorem IsClosed.get?_below (closed : tree.IsClosed) (other : tree.get? place ≠ some .directory)
    (filled : rest ≠ []) : tree.get? (place ++ rest) = none := by
  by_contra present
  exact other (closed.get?_above filled present)

theorem IsClosed.isOpen (closed : tree.IsClosed) (found : tree.get? place = some .directory) :
    tree.IsOpen place := by
  rintro above ⟨rest, rfl⟩
  by_cases nothing : rest = []
  · rwa [nothing, List.append_nil] at found
  · exact closed.get?_above nothing (found ▸ Option.some_ne_none _)

/-- Nothing is at or below a place where nothing is. -/
theorem IsClosed.not_prefix (closed : tree.IsClosed) (vacant : tree.get? top = none)
    (present : tree.get? place ≠ none) : ¬ top <+: place := by
  rintro ⟨rest, rfl⟩
  by_cases nothing : rest = []
  · rw [nothing, List.append_nil] at present
    exact present vacant
  · refine present (closed.get?_below ?_ nothing)
    rw [vacant]
    exact nofun

theorem mem_children_of_get? (found : tree.get? (place ++ [name]) = some node) :
    (name, node) ∈ tree.children place := by
  rw [get?, if_neg (by simp)] at found
  exact List.mem_filterMap.mpr ⟨_, mem_of_lookup found, by simp⟩

/-- What is among the names in a directory is there. -/
theorem get?_ne_none_of_mem_children (member : (name, node) ∈ tree.children place) :
    tree.get? (place ++ [name]) ≠ none := by
  rw [get?, if_neg (by simp)]
  intro missing
  have different := List.lookup_eq_none_iff.mp missing _ (mem_nodes_of_mem_children member)
  rw [bne_iff_ne] at different
  exact different rfl

/-- Nothing is below an empty directory. -/
theorem IsClosed.get?_of_children (closed : tree.IsClosed) (empty : tree.children place = [])
    (filled : rest ≠ []) : tree.get? (place ++ rest) = none := by
  obtain ⟨name, more, rfl⟩ := List.exists_cons_of_ne_nil filled
  have vacant : tree.get? (place ++ [name]) = none := by
    cases found : tree.get? (place ++ [name]) with
    | none => rfl
    | some node =>
        have member := mem_children_of_get? found
        rw [empty] at member
        exact nomatch member
  by_contra present
  exact closed.not_prefix vacant present ⟨more, by rw [List.append_assoc, List.singleton_append]⟩

theorem get?_erase_below (inside : top ≠ []) (below : top <+: place) :
    (tree.erase top).get? place = none := by
  have filled : place ≠ [] := by
    rintro rfl
    exact inside (List.prefix_nil.mp below)
  rw [get?, if_neg filled]
  cases found : (tree.erase top).nodes.lookup place with
  | none => rfl
  | some node =>
      have outside := (List.mem_filter.mp (mem_of_lookup found)).2
      rw [Bool.not_eq_true', isBelow, ← Bool.not_eq_true, List.isPrefixOf_iff_prefix] at outside
      exact absurd below outside

/-- A file that is moved to where nothing or another file was leaves directories and links alone. -/
theorem IsClosed.get?_move_file (closed : tree.IsClosed) {contents : ByteArray}
    (moved : tree.get? source = some (.file contents))
    (replaced : ∀ other, tree.get? target = some other → ∃ contents, other = .file contents)
    (found : tree.get? place = some node) (plain : ∀ contents, node ≠ .file contents) :
    (tree.move source target).get? place = some node := by
  have aside {top : Location}
      (isFile : ∀ other, tree.get? top = some other → ∃ contents, other = .file contents) :
      ¬ top <+: place := by
    rintro ⟨rest, rfl⟩
    by_cases nothing : rest = []
    · rw [nothing, List.append_nil] at found
      obtain ⟨contents, rfl⟩ := isFile node found
      exact plain contents rfl
    · have directory := closed.get?_above nothing (found ▸ Option.some_ne_none _)
      obtain ⟨contents, other⟩ := isFile _ directory
      exact nomatch other
  rw [get?_move _ (aside replaced), found]
  apply aside
  intro other there
  exact ⟨contents, Option.some.inj (there.symm.trans moved)⟩

/-! ## Growing trees -/

/-- That a closed tree has everything that an earlier one has, and no other links. -/
structure Grows (earlier later : FileTree) : Prop where
  isClosed : later.IsClosed
  kept : ∀ {place node}, earlier.get? place = some node → later.get? place = some node
  links : ∀ {place target}, later.get? place = some (.link target) →
    earlier.get? place = some (.link target)

namespace Grows

theorem refl (closed : tree.IsClosed) : Grows tree tree :=
  ⟨closed, id, id⟩

theorem trans {first second third : FileTree} (earlier : Grows first second)
    (later : Grows second third) : Grows first third where
  isClosed := later.isClosed
  kept found := later.kept (earlier.kept found)
  links found := earlier.links (later.links found)

variable (grows : Grows base tree)

include grows

theorem isOpen (opened : base.IsOpen place) : tree.IsOpen place :=
  fun above start => grows.kept (opened above start)

theorem isPlainBelow (plain : base.IsPlainBelow top) : tree.IsPlainBelow top :=
  fun rest target filled found => plain rest target filled (grows.links found)

theorem arrives {budget left : Nat} {goal : Location} {names : List String}
    (arrives : Arrives base budget place names left goal) :
    Arrives tree budget place names left goal :=
  arrives.mono (fun _ => grows.kept) fun _ _ => grows.kept

theorem approaches (approaches : Approaches base current path above name) :
    Approaches tree current path above name :=
  approaches.mono (fun _ => grows.kept) fun _ _ => grows.kept

/-- What comes to a place at which nothing was before. -/
theorem insert (plain : ∀ target, node ≠ .link target) (vacant : base.get? place = none)
    (opened : tree.IsOpen place.dropLast) (other : tree.get? place ≠ some .directory) :
    Grows base (tree.insert place node) := by
  have inside : place ≠ [] := by
    rintro rfl
    exact nomatch vacant
  constructor
  · intro above name present
    rw [get?_insert inside] at present ⊢
    by_cases here : above ++ [name] = place
    · rw [← here, List.dropLast_concat] at opened
      have different : above ≠ place := by
        rintro rfl
        exact absurd here (by simp)
      rw [if_neg different]
      exact opened above (List.prefix_refl _)
    · rw [if_neg here] at present
      have found := grows.isClosed above name present
      have different : above ≠ place := by
        rintro rfl
        exact other found
      rwa [if_neg different]
  · intro other node found
    have different : other ≠ place := by
      rintro rfl
      exact nomatch vacant.symm.trans found
    rw [get?_insert inside, if_neg different]
    exact grows.kept found
  · intro other target found
    rw [get?_insert inside] at found
    split at found
    · exact absurd (Option.some.inj found) (plain target)
    · exact grows.links found

/-- What came later goes away again. -/
theorem erase (closed : base.IsClosed) (vacant : base.get? top = none) :
    Grows base (tree.erase top) := by
  have inside : top ≠ [] := by
    rintro rfl
    exact nomatch vacant
  constructor
  · intro above name present
    have outside : ¬ top <+: above ++ [name] := fun below => present (get?_erase_below inside below)
    rw [get?_erase outside] at present
    rw [get?_erase fun below => outside (below.trans (List.prefix_append _ _))]
    exact grows.isClosed above name present
  · intro place node found
    rw [get?_erase (closed.not_prefix vacant (found ▸ Option.some_ne_none _))]
    exact grows.kept found
  · intro place target found
    by_cases below : top <+: place
    · exact nomatch (get?_erase_below inside below).symm.trans found
    · rw [get?_erase below] at found
      exact grows.links found

/-- What came later moves to a place that was free, or that held the same. -/
theorem move (closed : base.IsClosed) (vacant : base.get? source = none)
    (free : ∀ rest, rest ≠ [] → base.get? (target ++ rest) = none)
    (same : ∀ node, base.get? target = some node → tree.get? source = some node)
    (plain : ∀ rest link, tree.get? (source ++ rest) ≠ some (.link link))
    (apart : Apart source target) (opened : tree.IsOpen target.dropLast) :
    Grows base (tree.move source target) := by
  have inside : source ≠ [] := by
    rintro rfl
    exact nomatch vacant
  have goal : target ≠ [] := by
    rintro rfl
    exact apart.2 List.nil_prefix
  constructor
  · intro above name present
    by_cases toTarget : target <+: above ++ [name]
    · rcases List.prefix_concat_iff.mp toTarget with rfl | start
      · -- the directory that the moved things come to
        rw [List.dropLast_concat] at opened
        rw [get?_move]
        · exact opened above (List.prefix_refl _)
        · exact fun below => apart.1 (below.trans (List.prefix_append _ _))
        · exact not_append_prefix (List.cons_ne_nil _ _)
      · obtain ⟨rest, rfl⟩ := start
        rw [List.append_assoc, get?_move_append inside goal, ← List.append_assoc] at present
        rw [get?_move_append inside goal]
        exact grows.isClosed _ _ present
    by_cases fromSource : source <+: above ++ [name]
    · exact absurd (get?_move_source inside apart fromSource) present
    rw [get?_move fromSource toTarget] at present
    rw [get?_move]
    · exact grows.isClosed _ _ present
    · exact fun below => fromSource (below.trans (List.prefix_append _ _))
    · exact fun below => toTarget (below.trans (List.prefix_append _ _))
  · intro place node found
    have fromOutside : ¬ source <+: place :=
      closed.not_prefix vacant (found ▸ Option.some_ne_none _)
    by_cases toTarget : target <+: place
    · obtain ⟨rest, rfl⟩ := toTarget
      by_cases nothing : rest = []
      · subst nothing
        rw [get?_move_append inside goal, List.append_nil]
        exact same node (by rwa [List.append_nil] at found)
      · exact nomatch (free rest nothing).symm.trans found
    · rw [get?_move fromOutside toTarget]
      exact grows.kept found
  · intro place link found
    by_cases toTarget : target <+: place
    · obtain ⟨rest, rfl⟩ := toTarget
      rw [get?_move_append inside goal] at found
      exact absurd found (plain rest link)
    by_cases fromSource : source <+: place
    · exact nomatch (get?_move_source inside apart fromSource).symm.trans found
    · rw [get?_move fromSource toTarget] at found
      exact grows.links found

end Grows

/-! ## Operations -/

theorem find_of_findNode {follow : Bool}
    (found : tree.findNode follow current path = .ok (place, node)) :
    tree.find follow current path = .ok (.occupied place node) := by
  unfold findNode at found
  split at found
  · rename_i occupied
    obtain ⟨rfl, rfl⟩ := Prod.mk.inj (Except.ok.inj found)
    exact occupied
  · exact nomatch found
  · exact nomatch found

theorem get?_of_findNode {follow : Bool} (opened : tree.IsOpen current)
    (found : tree.findNode follow current path = .ok (place, node)) :
    tree.get? place = some node :=
  (found_of_find opened (find_of_findNode found)).1

theorem eq_of_clash?_eq_none {other : FileNode} (fits : tree.clash? node other place = none) :
    other.isDirectory = node.isDirectory ∧
      (node.isDirectory = true → tree.children place = []) := by
  unfold clash? at fits
  cases first : node.isDirectory <;> cases second : other.isDirectory <;>
    simp_all

/-- What is moved to a place at which it can be put is neither above nor below it. -/
theorem apart_of_free (present : tree.get? source = some node) (different : source ≠ target)
    (inDirectory : tree.IsOpen target.dropLast)
    (outside : node.isDirectory = true → ¬ source <+: target)
    (free : ∀ rest, rest ≠ [] → tree.get? (target ++ rest) = none) : Apart source target := by
  constructor
  · intro below
    -- what is no directory has nothing below it, so only a directory can be above the target
    refine outside ?_ below
    rcases List.eq_nil_or_concat target with nothing | ⟨above, name, split⟩
    · rw [nothing] at below different
      exact absurd (List.prefix_nil.mp below) different
    · rw [split, List.concat_eq_append] at below inDirectory different
      rw [List.dropLast_concat] at inDirectory
      rcases List.prefix_concat_iff.mp below with same | start
      · exact absurd same different
      · rw [inDirectory _ start, Option.some.injEq] at present
        rw [← present]
        rfl
  · rintro ⟨rest, rfl⟩
    have filled : rest ≠ [] := by
      rintro rfl
      exact different (List.append_nil _)
    exact nomatch (free rest filled).symm.trans present

/-- A directory is moved in place of an empty one that is not below it. -/
theorem children_ne_nil_of_rename {goal : Path} {refusal : OsError}
    (begun : tree.findNode false current path = .ok (source, .directory))
    (found : tree.find false current goal = .ok (.occupied target .directory))
    (named : endsWithName goal = true) (outside : ¬ source <+: target)
    (refused : tree.rename current path goal = .error refusal) : tree.children target ≠ [] := by
  intro empty
  have different : source ≠ target := by
    rintro rfl
    exact outside (List.prefix_refl _)
  have aside : isBelow source target = false := by
    rwa [isBelow, ← Bool.not_eq_true, List.isPrefixOf_iff_prefix]
  have done : tree.rename current path goal = .ok (tree.move source target) := by
    simp only [rename, begun, found, Result.ok_bind, named, FileNode.isDirectory, different, aside,
      clash?, empty, if_true, if_false, Bool.not_true, Bool.false_and, Bool.and_false,
      Bool.false_eq_true]
    rfl
  cases done.symm.trans refused

/-- What is written comes to where the path leads, to nothing or to a file. -/
theorem exists_of_write {contents : ByteArray}
    (done : tree.write current path contents = .ok after) :
    ∃ destination, tree.find true current path = .ok destination ∧
      (destination.node? = none ∨ ∃ former, destination.node? = some (.file former)) ∧
      after = tree.insert destination.location (.file contents) := by
  unfold write at done
  split at done
  · rename_i found
    split at done
    · exact nomatch done
    · exact ⟨_, found, .inl rfl, (Except.ok.inj done).symm⟩
  · rename_i found
    exact ⟨_, found, .inr ⟨_, rfl⟩, (Except.ok.inj done).symm⟩
  · exact nomatch done
  · exact nomatch done

section

variable (closed : tree.IsClosed) (opened : tree.IsOpen current)

include closed opened

/-- What comes to a place that a path finds vacant. -/
theorem grows_insert_found {follow : Bool}
    (found : tree.find follow current path = .ok (.vacant place))
    (plain : ∀ target, node ≠ .link target) : Grows tree (tree.insert place node) := by
  obtain ⟨vacant, inDirectory⟩ := found_of_find opened found
  have missing : tree.get? place = none := vacant
  refine (Grows.refl closed).insert plain vacant inDirectory ?_
  rw [missing]
  exact nofun

theorem exists_of_createDirectory (done : tree.createDirectory current path = .ok after) :
    ∃ place, tree.find false current path = .ok (.vacant place) ∧
      after = tree.insert place .directory ∧ Grows tree after := by
  unfold createDirectory at done
  split at done
  · rename_i place found
    obtain rfl := Except.ok.inj done
    exact ⟨place, found, rfl, grows_insert_found closed opened found nofun⟩
  · exact nomatch done
  · exact nomatch done

theorem exists_of_createFile (done : tree.createFile current path = .ok after) :
    ∃ place, tree.find false current path = .ok (.vacant place) ∧
      after = tree.insert place (.file .empty) ∧ Grows tree after := by
  unfold createFile at done
  split at done
  · rename_i place found
    split at done
    · exact nomatch done
    · obtain rfl := Except.ok.inj done
      exact ⟨place, found, rfl, grows_insert_found closed opened found nofun⟩
  · exact nomatch done
  · exact nomatch done

/-- Something is moved to a place that is not above or below it, and at which nothing is or what
can be replaced, unless it is there already. -/
theorem exists_of_rename {goal : Path} (done : tree.rename current path goal = .ok after) :
    ∃ start node destination, tree.findNode false current path = .ok (start, node) ∧
      tree.find false current goal = .ok destination ∧
      (start = destination.location ∧ after = tree ∨
        after = tree.move start destination.location ∧ Apart start destination.location ∧
          (∀ rest, rest ≠ [] → tree.get? (destination.location ++ rest) = none) ∧
          ∀ other, destination.node? = some other → other.isDirectory = node.isDirectory) := by
  rcases Result.bind_eq_ok_iff.mp done with ⟨⟨start, node⟩, found, onward⟩
  rcases Result.bind_eq_ok_iff.mp onward with ⟨destination, reached, moved⟩
  refine ⟨start, node, destination, found, reached, ?_⟩
  have present := get?_of_findNode opened found
  obtain ⟨held, inDirectory⟩ := found_of_find opened reached
  have outside {place : Location} (checked : ¬ (node.isDirectory && isBelow start place) = true)
      (directory : node.isDirectory = true) : ¬ start <+: place := by
    intro below
    apply checked
    rw [directory, Bool.true_and]
    exact List.isPrefixOf_iff_prefix.mpr below
  split at moved
  · exact nomatch moved
  split at moved
  · exact nomatch moved
  cases destination with
  | vacant place =>
      simp only at moved
      split at moved
      · exact nomatch moved
      · rename_i checked
        obtain rfl := Except.ok.inj moved
        have missing : tree.get? place = none := held
        have free (rest : Location) (filled : rest ≠ []) : tree.get? (place ++ rest) = none :=
          closed.get?_below (fun found => nomatch missing.symm.trans found) filled
        refine .inr ⟨rfl, apart_of_free present ?_ inDirectory (outside checked) free, free, nofun⟩
        rintro rfl
        exact nomatch missing.symm.trans present
  | occupied place other =>
      simp only at moved
      split at moved
      · rename_i same
        obtain rfl := Except.ok.inj moved
        exact .inl ⟨same, rfl⟩
      rename_i different
      split at moved
      · exact nomatch moved
      rename_i checked
      split at moved
      · exact nomatch moved
      rename_i fits
      obtain rfl := Except.ok.inj moved
      obtain ⟨same, empty⟩ := eq_of_clash?_eq_none fits
      have there : tree.get? place = some other := held
      have free (rest : Location) (filled : rest ≠ []) : tree.get? (place ++ rest) = none := by
        cases directory : node.isDirectory with
        | true => exact closed.get?_of_children (empty directory) filled
        | false =>
            refine closed.get?_below (fun found => ?_) filled
            obtain rfl := Option.some.inj (there.symm.trans found)
            exact nomatch same.trans directory
      refine .inr ⟨rfl, apart_of_free present different inDirectory (outside checked) free, free, ?_⟩
      rintro _ ⟨⟩
      exact same

end

end PackageResolution.FileTree
