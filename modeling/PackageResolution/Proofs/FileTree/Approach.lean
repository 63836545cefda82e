import PackageResolution.Proofs.FileTree.Arrival

/-!
# Paths that end with a name

A path that ends with a name leads to that name in the directory at which the rest of the path
arrives.  What an operation finds there is what the tree has there, unless that is a link to be
followed.
-/

namespace PackageResolution

/-! ## Paths as ways -/

namespace Path

/-- That a file system follows a path at all. -/
structure IsAccepted (path : Path) : Prop where
  nulFree : Text.has '\x00' path.text = false
  filled : path.text ≠ ""
  short : path.text.utf8ByteSize < FileTree.pathLimit

variable {base path : Path} {name : String}

theorem names_join (relative : path.isAbsolute = false) :
    FileTree.names (base.join path).text = FileTree.names base.text ++ FileTree.names path.text := by
  by_cases empty : base.text = ""
  · rw [join, if_pos (by simp [empty]), empty]
    rfl
  rw [join, relative, Bool.false_or, if_neg (by simpa using empty)]
  by_cases closed : Text.endsWith '/' base.text = true
  · obtain ⟨before, split⟩ : ∃ before, base.text = before ++ "/" := by
      obtain ⟨chars, split⟩ := List.getLast?_eq_some_iff.mp (beq_iff_eq.mp closed)
      exact ⟨String.ofList chars, String.toList_injective (by simpa using split)⟩
    rw [if_pos closed, FileTree.names, FileTree.names, FileTree.names, split, Text.fields_append,
      Text.fields_append_slash, List.filter_append, List.filter_append]
    simp
  · rw [if_neg closed, FileTree.names, FileTree.names, FileTree.names, Text.fields_append,
      List.filter_append]

theorem isAbsolute_join (relative : path.isAbsolute = false) (filled : base.text ≠ "") :
    (base.join path).isAbsolute = base.isAbsolute := by
  have chars : base.text.toList ≠ [] := by simpa using filled
  have first (more : String) : (Path.mk (base.text ++ more)).isAbsolute = base.isAbsolute := by
    rw [isAbsolute, isAbsolute, Text.beginsWith, Text.beginsWith, String.toList_append,
      List.head?_append_of_ne_nil _ chars]
  rw [join, relative, Bool.false_or, if_neg (by simpa using filled)]
  split
  · exact first _
  · rw [String.append_assoc]
    exact first _

theorem isAbsolute_join_name (plain : '/' ∉ name.toList) :
    (base.join ⟨name⟩).isAbsolute = base.isAbsolute := by
  have relative : isAbsolute ⟨name⟩ = false := isAbsolute_of_not_mem plain
  by_cases empty : base.text = ""
  · obtain rfl : base = ⟨""⟩ := congrArg Path.mk empty
    rw [join, if_pos (by simp), relative]
    rfl
  · exact isAbsolute_join relative empty

theorem names_of_isName (isName : IsName name) (plain : '/' ∉ name.toList) :
    FileTree.names name = [name] := by
  rw [FileTree.names, Text.fields_of_not_mem plain, List.filter_cons_of_pos (by simpa using isName.1)]
  rfl

theorem names_join_name (isName : IsName name) (plain : '/' ∉ name.toList) :
    FileTree.names (base.join ⟨name⟩).text = FileTree.names base.text ++ [name] := by
  rw [names_join (isAbsolute_of_not_mem plain), names_of_isName isName plain]

theorem endsWith_join (filled : path.text ≠ "") :
    Text.endsWith '/' (base.join path).text = Text.endsWith '/' path.text := by
  have chars : path.text.toList ≠ [] := by simpa using filled
  have last (before : String) : Text.endsWith '/' (before ++ path.text) =
      Text.endsWith '/' path.text := by
    rw [Text.endsWith, Text.endsWith, String.toList_append, List.getLast?_append_of_ne_nil _ chars]
  rw [join]
  split
  · rfl
  split
  · exact last _
  · exact last _

/-- A path that ends with a name does not end with a slash. -/
theorem endsWith_join_name (isName : IsName name) (plain : '/' ∉ name.toList) :
    Text.endsWith '/' (base.join ⟨name⟩).text = false := by
  rw [endsWith_join isName.1, Text.endsWith, beq_eq_false_iff_ne]
  exact fun last => plain (List.mem_of_getLast? last)

end Path

namespace FileTree

variable {tree later : FileTree} {current above place : Location} {base path : Path}
  {name : String} {follow : Bool} {destination : Destination}

/-- Where a path is followed from. -/
def origin (current : Location) (path : Path) : Location :=
  if path.isAbsolute then [] else current

theorem IsOpen.origin (opened : tree.IsOpen current) (path : Path) :
    tree.IsOpen (origin current path) := by
  rw [FileTree.origin]
  split
  · exact isOpen_nil tree
  · exact opened

theorem find_eq_walk (accepted : path.IsAccepted) :
    tree.find follow current path =
      tree.walk follow linkLimit (Text.endsWith '/' path.text) (origin current path)
        (names path.text) := by
  rw [find, accepted.nulFree, if_neg Bool.false_ne_true, if_neg accepted.filled,
    if_neg (Nat.not_le.mpr accepted.short), origin]

theorem isAccepted_of_find (found : tree.find follow current path = .ok destination) :
    path.IsAccepted := by
  unfold find at found
  split at found
  · exact nomatch found
  rename_i nulFree
  split at found
  · exact nomatch found
  rename_i filled
  split at found
  · exact nomatch found
  rename_i short
  exact ⟨Bool.not_eq_true _ ▸ nulFree, filled, Nat.not_le.mp short⟩

theorem leads_of_find (found : tree.find follow current path = .ok destination) :
    Leads tree follow linkLimit (Text.endsWith '/' path.text) (origin current path)
      (names path.text) destination := by
  rw [find_eq_walk (isAccepted_of_find found)] at found
  exact leads_of_walk found

/-- Where a path leads, the tree has what is found, in a directory. -/
theorem found_of_find (opened : tree.IsOpen current)
    (found : tree.find follow current path = .ok destination) :
    tree.get? destination.location = destination.node? ∧
      tree.IsOpen destination.location.dropLast :=
  (leads_of_find found).found (opened.origin path)

/-! ## Approaches -/

/-- What there is at a place. -/
def lookAt (tree : FileTree) (place : Location) : Destination :=
  match tree.get? place with
  | some node => .occupied place node
  | none => .vacant place

@[simp]
theorem location_lookAt : (tree.lookAt place).location = place := by
  rw [lookAt]
  split <;> rfl

@[simp]
theorem node?_lookAt : (tree.lookAt place).node? = tree.get? place := by
  rw [lookAt]
  split <;> rename_i found
  · exact found.symm
  · exact found.symm

/-- That a path leads to a name in a directory. -/
structure Approaches (tree : FileTree) (current : Location) (path : Path) (above : Location)
    (name : String) : Prop where
  isAccepted : path.IsAccepted
  isEntry : IsEntry name
  ajar : Text.endsWith '/' path.text = false
  exists_arrives : ∃ front left, names path.text = front ++ [name] ∧
    Arrives tree linkLimit (origin current path) front left above

namespace Approaches

variable (approaches : Approaches tree current path above name)

include approaches

theorem mono (directories : ∀ other, tree.get? other = some .directory →
      later.get? other = some .directory)
    (links : ∀ other target, tree.get? other = some (.link target) →
      later.get? other = some (.link target)) :
    Approaches later current path above name where
  isAccepted := approaches.isAccepted
  isEntry := approaches.isEntry
  ajar := approaches.ajar
  exists_arrives := by
    obtain ⟨front, left, split, arrives⟩ := approaches.exists_arrives
    exact ⟨front, left, split, arrives.mono directories links⟩

theorem isOpen (opened : tree.IsOpen current) : tree.IsOpen above := by
  obtain ⟨front, left, -, arrives⟩ := approaches.exists_arrives
  exact arrives.isOpen (opened.origin path)

/-- What is found is what is there. -/
theorem find_eq
    (plain : follow = true → ∀ target, tree.get? (above ++ [name]) ≠ some (.link target)) :
    tree.find follow current path = .ok (tree.lookAt (above ++ [name])) := by
  obtain ⟨front, left, split, arrives⟩ := approaches.exists_arrives
  rw [find_eq_walk approaches.isAccepted, split, arrives.walk_append (List.cons_ne_nil _ _),
    walk_entry approaches.isEntry, approaches.ajar, lookAt]
  cases found : tree.get? (above ++ [name]) with
  | none => rfl
  | some node =>
      cases node with
      | directory => exact walk_nil
      | file contents => rfl
      | link target =>
          have unfollowed : follow = false := by
            by_contra follows
            exact plain (Bool.not_eq_false _ ▸ follows) target found
          rw [unfollowed]
          rfl

theorem find_unfollowed : tree.find false current path = .ok (tree.lookAt (above ++ [name])) := by
  apply approaches.find_eq
  exact nofun

theorem unique {other : Location} {last : String}
    (others : Approaches tree current path other last) : above ++ [name] = other ++ [last] := by
  have found := approaches.find_unfollowed.symm.trans others.find_unfollowed
  simpa using congrArg Destination.location (Except.ok.inj found)

/-- Another path that takes the same way to another name in the directory. -/
theorem alike {other : Path} {last : String} {front : List String}
    (accepted : other.IsAccepted) (entry : IsEntry last)
    (ajar : Text.endsWith '/' other.text = false) (rooted : other.isAbsolute = path.isAbsolute)
    (split : names other.text = front ++ [last])
    (same : front.filter (· ≠ ".") = (names path.text).dropLast.filter (· ≠ ".")) :
    Approaches tree current other above last where
  isAccepted := accepted
  isEntry := entry
  ajar := ajar
  exists_arrives := by
    obtain ⟨others, left, whole, arrives⟩ := approaches.exists_arrives
    rw [whole, List.dropLast_concat] at same
    refine ⟨front, left, split, ?_⟩
    rw [origin, rooted]
    exact arrives.of_filter_eq same

/-- What comes to a place where no directory or link was is not on the way. -/
theorem insert (other : tree.get? place ≠ some .directory)
    (unlinked : ∀ target, tree.get? place ≠ some (.link target)) (node : FileNode) :
    Approaches (tree.insert place node) current path above name := by
  have inside : place ≠ [] := by
    rintro rfl
    exact other (get?_nil tree)
  apply approaches.mono
  · intro passed found
    rw [get?_insert inside, if_neg]
    · exact found
    · rintro rfl
      exact other found
  · intro passed target found
    rw [get?_insert inside, if_neg]
    · exact found
    · rintro rfl
      exact unlinked target found

/-- A longer path does not lead out of a directory without links. -/
theorem prefix_location {more : Path} (found : tree.get? (above ++ [name]) = some .directory)
    (plain : tree.IsPlainBelow (above ++ [name])) (relative : more.isAbsolute = false)
    (onward : ".." ∉ names more.text)
    (reached : tree.find follow current (path.join more) = .ok destination) :
    above ++ [name] <+: destination.location := by
  obtain ⟨front, left, split, arrives⟩ := approaches.exists_arrives
  rw [find_eq_walk (isAccepted_of_find reached), Path.names_join relative, split, origin,
    Path.isAbsolute_join relative approaches.isAccepted.filled, List.append_assoc,
    List.singleton_append] at reached
  have walked := (arrives.walk_append (List.cons_ne_nil name _)).symm.trans reached
  rw [walk_entry approaches.isEntry, found] at walked
  exact (leads_of_walk walked).prefix_location plain (List.prefix_refl _) onward

end Approaches

/-- A path that ends with a name and leads somewhere leads to the name in a directory. -/
theorem exists_approaches (isName : Path.IsName name) (plain : '/' ∉ name.toList)
    (found : tree.find follow current (base.join ⟨name⟩) = .ok destination) :
    ∃ above, Approaches tree current (base.join ⟨name⟩) above name := by
  have leads := leads_of_find found
  obtain ⟨left, above, flag, arrives, -, last⟩ :=
    leads.divides (Path.names_join_name isName plain) (.inl (List.cons_ne_nil _ _))
  refine ⟨above, isAccepted_of_find found, ?_, Path.endsWith_join_name isName plain, _, left,
    Path.names_join_name isName plain, arrives⟩
  cases last with
  | stay => exact absurd rfl isName.2.1
  | climb => exact absurd rfl isName.2.2
  | vacant entry => exact entry
  | enter entry => exact entry
  | file entry => exact entry
  | link entry => exact entry
  | pursue entry => exact entry

end FileTree

end PackageResolution
