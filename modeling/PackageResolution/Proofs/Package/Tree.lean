import PackageResolution.Association
import PackageResolution.FileTree.Basic
import PackageResolution.Package.Tree
import PackageResolution.Proofs.Text.Cut

/-!
# What is at the paths of a package

The tree of a package is two flat collections of paths.  Read along the names of the paths it is
a tree: adding a directory puts directories at the path and everywhere above it, adding a file
puts it at its path, and the names in a directory are those one step below it.  This holds as
long as no path is both a file and a directory; nothing that is added keeps a tree from becoming
so, and a tree that is so stays so.
-/

namespace PackageResolution.PackageTree

variable {tree : PackageTree} {path above other name : String} {contents : ByteArray}

/-! ## The names of paths -/

/-- The names that a path leads along from the root of a package. -/
def namesOf (path : String) : Location :=
  if path = "" then [] else Text.fields '/' path

/-- That all names of a path are filled. -/
def IsTidy (path : String) : Prop :=
  "" ∉ namesOf path

instance : Decidable (IsTidy path) :=
  inferInstanceAs (Decidable (¬ _))

@[simp]
theorem namesOf_empty : namesOf "" = [] := rfl

theorem namesOf_of_ne (filled : path ≠ "") : namesOf path = Text.fields '/' path :=
  if_neg filled

theorem namesOf_ne_nil (filled : path ≠ "") : namesOf path ≠ [] := by
  rw [namesOf_of_ne filled]
  exact Text.fields_ne_nil '/' path

theorem namesOf_injective : Function.Injective namesOf := by
  intro first second same
  by_cases empty : first = ""
  · subst empty
    by_contra different
    exact namesOf_ne_nil (Ne.symm different) same.symm
  · by_cases also : second = ""
    · subst also
      exact absurd same (namesOf_ne_nil empty)
    · rw [namesOf_of_ne empty, namesOf_of_ne also] at same
      exact Text.fields_injective same

theorem IsTidy.of_prefix (tidy : IsTidy path) (start : namesOf above <+: namesOf path) :
    IsTidy above :=
  fun member => tidy (start.subset member)

/-- The first names of a path are the names of a path. -/
theorem IsTidy.exists_names (tidy : IsTidy path) {rest : Location} (start : rest <+: namesOf path) :
    ∃ above, rest = namesOf above := by
  cases rest with
  | nil => exact ⟨"", rfl⟩
  | cons name rest =>
      have filled : path ≠ "" := by
        rintro rfl
        exact nomatch List.prefix_nil.mp start
      have tidyStart : "" ∉ name :: rest := fun member => tidy (start.subset member)
      rw [namesOf_of_ne filled] at start
      have pieces := Text.fields_intercalate (List.cons_ne_nil name rest)
        fun piece member => Text.not_mem_of_mem_fields (start.subset member)
      have filledStart : "/".intercalate (name :: rest) ≠ "" := by
        intro empty
        rw [empty] at pieces
        exact tidyStart (pieces ▸ List.mem_singleton_self _)
      exact ⟨"/".intercalate (name :: rest), by rw [namesOf_of_ne filledStart, pieces]⟩

/-- A path other than the root is a name in the directory above it. -/
theorem IsTidy.exists_split (tidy : IsTidy path) (filled : path ≠ "") :
    ∃ above name, namesOf path = namesOf above ++ [name] := by
  rcases List.eq_nil_or_concat (namesOf path) with none | ⟨rest, name, split⟩
  · exact absurd none (namesOf_ne_nil filled)
  · rw [List.concat_eq_append] at split
    obtain ⟨above, rfl⟩ := tidy.exists_names (split ▸ List.prefix_append rest [name])
    exact ⟨above, name, split⟩

/-- What the directory above a path leads to is not the path. -/
theorem ne_of_split (split : namesOf path = namesOf above ++ [name])
    (start : namesOf other <+: namesOf above) : other ≠ path := by
  rintro rfl
  have long := start.length_le
  rw [split, List.length_append, List.length_singleton] at long
  omega

/-! ## Paths above others -/

/-- That a path goes on after another one with a slash. -/
def IsAbove (above path : String) : Prop :=
  ∃ rest, path = above ++ "/" ++ rest

theorem IsAbove.ne_empty (before : IsAbove above path) : path ≠ "" := by
  rcases before with ⟨rest, rfl⟩
  intro empty
  have marked := congrArg String.toList empty
  simp at marked

theorem IsAbove.ne (before : IsAbove above path) : above ≠ path := by
  rcases before with ⟨rest, whole⟩
  rw [String.append_assoc] at whole
  rw [whole]
  apply Text.ne_append
  intro empty
  have marked := congrArg String.toList empty
  simp at marked

theorem IsAbove.trans (first : IsAbove other above) (second : IsAbove above path) :
    IsAbove other path := by
  rcases first with ⟨start, rfl⟩
  rcases second with ⟨rest, rfl⟩
  exact ⟨start ++ "/" ++ rest, by simp only [String.append_assoc]⟩

theorem fields_prefix_fields_iff :
    Text.fields '/' above <+: Text.fields '/' path ↔ above = path ∨ IsAbove above path := by
  rw [Text.fields_prefix_iff, eq_comm]
  rfl

theorem namesOf_prefix_iff :
    namesOf above <+: namesOf path ↔ above = "" ∨ above = path ∨ IsAbove above path := by
  by_cases empty : above = ""
  · exact iff_of_true (empty ▸ List.nil_prefix) (.inl empty)
  by_cases nowhere : path = ""
  · subst nowhere
    rw [namesOf_empty, List.prefix_nil]
    constructor
    · intro none
      exact absurd none (namesOf_ne_nil empty)
    · rintro (none | none | before)
      · exact absurd none empty
      · exact absurd none empty
      · exact absurd rfl before.ne_empty
  · rw [namesOf_of_ne empty, namesOf_of_ne nowhere, fields_prefix_fields_iff, or_iff_right empty]

/-- Above the last name of a path are the paths that it goes on after, and the root. -/
theorem namesOf_prefix_above_iff (split : namesOf path = namesOf above ++ [name]) :
    namesOf other <+: namesOf above ↔ other = "" ∨ IsAbove other path := by
  constructor
  · intro start
    have begun : namesOf other <+: namesOf path :=
      split ▸ start.trans (List.prefix_append _ _)
    rcases namesOf_prefix_iff.mp begun with root | same | before
    · exact .inl root
    · exact absurd same (ne_of_split split start)
    · exact .inr before
  · rintro (rfl | before)
    · exact List.nil_prefix
    · have begun : namesOf other <+: namesOf path := namesOf_prefix_iff.mpr (.inr (.inr before))
      rw [split, List.prefix_concat_iff, ← split] at begun
      rcases begun with same | start
      · exact absurd (namesOf_injective same) before.ne
      · exact start

/-! ## Directories -/

/-- That with each directory and each file the directories above it are there, and the root at
any rate. -/
structure IsClosed (tree : PackageTree) : Prop where
  root : "" ∈ tree.directories
  of_prefix : ∀ path ∈ tree.directories, ∀ above, namesOf above <+: namesOf path →
    above ∈ tree.directories
  above_file : ∀ path contents, tree.files.lookup path = some contents →
    ∀ above, namesOf above <+: namesOf path → above ≠ path → above ∈ tree.directories

theorem isClosed_empty : empty.IsClosed where
  root := List.mem_singleton_self _
  of_prefix path member above start := by
    obtain rfl := List.mem_singleton.mp member
    rw [namesOf_empty, List.prefix_nil] at start
    rw [namesOf_injective (start.trans namesOf_empty.symm)]
    exact member
  above_file path contents found := nomatch found

/-- The pieces of a text before its last mark and the last piece. -/
theorem fields_of_cutLast? {before last : String}
    (cut : Text.cutLast? '/' path = some (before, last)) :
    path = before ++ "/" ++ last ∧ Text.fields '/' path = Text.fields '/' before ++ [last] := by
  obtain ⟨chars, unmarked⟩ := Text.cutLast?_eq_some_iff.mp cut
  obtain rfl : path = before ++ "/" ++ last := String.toList_injective (by simpa using chars)
  rw [Text.fields_append, Text.fields_of_not_mem unmarked]
  exact ⟨rfl, rfl⟩

theorem not_isAbove_of_not_mem (unmarked : '/' ∉ path.toList) : ¬ IsAbove above path := by
  rintro ⟨rest, rfl⟩
  simp at unmarked

theorem isAbove_iff_of_cutLast? {before last : String}
    (cut : Text.cutLast? '/' path = some (before, last)) :
    IsAbove other path ↔ other = before ∨ IsAbove other before := by
  obtain ⟨whole, pieces⟩ := fields_of_cutLast? cut
  have next : IsAbove before path := ⟨last, whole⟩
  constructor
  · intro start
    have begun := fields_prefix_fields_iff.mpr (.inr start)
    rw [pieces, List.prefix_concat_iff, ← pieces] at begun
    rcases begun with same | begun
    · exact absurd (Text.fields_injective same) start.ne
    · exact fields_prefix_fields_iff.mp begun
  · rintro (rfl | start)
    · exact next
    · exact start.trans next

theorem mem_addLineage_singleton {directories : List String} (unmarked : '/' ∉ path.toList) :
    other ∈ addLineage directories [path] ↔
      other ∈ directories ∨ other = path ∨ IsAbove other path := by
  rw [or_iff_left (not_isAbove_of_not_mem unmarked)]
  simp only [addLineage]
  split
  · rename_i present
    constructor
    · exact .inl
    · rintro (member | rfl)
      · exact member
      · exact present
  · rw [List.mem_cons, or_comm]

/-- A lineage is added up to the first directory that is there already, which has brought
everything above it. -/
theorem mem_addLineage {directories : List String} {count : Nat} (enough : path.length ≤ count)
    (closed : ∀ first ∈ directories, first = path ∨ IsAbove first path →
      ∀ above, IsAbove above first → above ∈ directories) :
    other ∈ addLineage directories (lineage.go count path) ↔
      other ∈ directories ∨ other = path ∨ IsAbove other path := by
  induction count generalizing path directories with
  | zero =>
      obtain rfl : path = "" := String.length_eq_zero_iff.mp (Nat.le_zero.mp enough)
      exact mem_addLineage_singleton (by simp)
  | succ count inductionHypothesis =>
      rw [lineage.go]
      cases cut : Text.cutLast? '/' path with
      | none => exact mem_addLineage_singleton (Text.cutLast?_eq_none_iff.mp cut)
      | some parts =>
          rcases parts with ⟨before, last⟩
          simp only [addLineage]
          split
          · rename_i present
            constructor
            · exact .inl
            · rintro (member | rfl | start)
              · exact member
              · exact present
              · exact closed path present (.inl rfl) other start
          · have shorter : before.length ≤ count := by
              have long := congrArg String.length (fields_of_cutLast? cut).1
              have slash : "/".length = 1 := rfl
              rw [String.length_append, String.length_append, slash] at long
              omega
            rw [inductionHypothesis shorter, List.mem_cons, isAbove_iff_of_cutLast? cut, or_assoc,
              or_left_comm]
            intro first member start above begun
            have onWay := (isAbove_iff_of_cutLast? cut).mpr start
            rcases List.mem_cons.mp member with rfl | among
            · -- the path itself is not among the directories above it
              exact absurd rfl onWay.ne
            · exact List.mem_cons_of_mem _ (closed first among (.inr onWay) above begun)

/-- A directory is added with everything above it. -/
theorem mem_addDirectory (closed : tree.IsClosed) :
    other ∈ (tree.addDirectory path).directories ↔
      other ∈ tree.directories ∨ namesOf other <+: namesOf path := by
  rw [addDirectory, lineage, mem_addLineage (Nat.le_refl _)]
  · rw [namesOf_prefix_iff]
    constructor
    · rintro (member | start)
      · exact .inl member
      · exact .inr (.inr start)
    · rintro (member | rfl | start)
      · exact .inl member
      · exact .inl closed.root
      · exact .inr start
  · intro first member _ above start
    exact closed.of_prefix first member above (namesOf_prefix_iff.mpr (.inr (.inr start)))

theorem IsClosed.addDirectory (closed : tree.IsClosed) : (tree.addDirectory path).IsClosed where
  root := (mem_addDirectory closed).mpr (.inl closed.root)
  of_prefix first member above start := by
    rw [mem_addDirectory closed] at member ⊢
    rcases member with member | begun
    · exact .inl (closed.of_prefix first member above start)
    · exact .inr (start.trans begun)
  above_file first contents found above start different :=
    (mem_addDirectory closed).mpr
      (.inl (closed.above_file first contents found above start different))

/-! ## Files -/

theorem lookup_addFile :
    (tree.addFile path contents).files.lookup other =
      if other = path then some contents else tree.files.lookup other := by
  have kept : (tree.addFile path contents).files =
      (path, contents) :: tree.files.filter (·.1 ≠ path) := by
    rw [addFile]
    split <;> rfl
  rw [kept]
  by_cases here : other = path
  · rw [if_pos here, here, List.lookup_cons_self]
  · rw [if_neg here, Association.lookup_cons_of_ne here]
    exact Association.lookup_filter (fun _ => by simpa using here) _

/-- A file is added with everything above it. -/
theorem mem_addFile (closed : tree.IsClosed) :
    other ∈ (tree.addFile path contents).directories ↔
      other ∈ tree.directories ∨ IsAbove other path := by
  rw [addFile]
  cases cut : Text.cutLast? '/' path with
  | none =>
      have unmarked := Text.cutLast?_eq_none_iff.mp cut
      exact (or_iff_left (not_isAbove_of_not_mem unmarked)).symm
  | some parts =>
      rcases parts with ⟨before, last⟩
      simp only
      rw [mem_addDirectory closed, namesOf_prefix_iff, isAbove_iff_of_cutLast? cut]
      constructor
      · rintro (member | rfl | start)
        · exact .inl member
        · exact .inl closed.root
        · exact .inr start
      · rintro (member | start)
        · exact .inl member
        · exact .inr (.inr start)

theorem mem_addFile_of_split (closed : tree.IsClosed)
    (split : namesOf path = namesOf above ++ [name]) :
    other ∈ (tree.addFile path contents).directories ↔
      other ∈ tree.directories ∨ namesOf other <+: namesOf above := by
  rw [mem_addFile closed, namesOf_prefix_above_iff split]
  constructor
  · rintro (member | before)
    · exact .inl member
    · exact .inr (.inr before)
  · rintro (member | rfl | before)
    · exact .inl member
    · exact .inl closed.root
    · exact .inr before

theorem IsClosed.addFile (closed : tree.IsClosed) : (tree.addFile path contents).IsClosed where
  root := (mem_addFile closed).mpr (.inl closed.root)
  of_prefix first member other start := by
    rw [mem_addFile closed] at member ⊢
    rcases member with member | begun
    · exact .inl (closed.of_prefix first member other start)
    · rcases namesOf_prefix_iff.mp start with rfl | rfl | before
      · exact .inl closed.root
      · exact .inr begun
      · exact .inr (before.trans begun)
  above_file first found present other start different := by
    rw [mem_addFile closed]
    rw [lookup_addFile] at present
    by_cases here : first = path
    · subst here
      rcases namesOf_prefix_iff.mp start with rfl | same | before
      · exact .inl closed.root
      · exact absurd same different
      · exact .inr before
    · rw [if_neg here] at present
      exact .inl (closed.above_file first found present other start different)

/-! ## Consistent trees -/

/-- What is at a path. -/
def node? (tree : PackageTree) (path : String) : Option FileNode :=
  match tree.files.lookup path with
  | some contents => some (.file contents)
  | none => if path ∈ tree.directories then some .directory else none

/-- That no path is both a file and a directory. -/
def IsConsistent (tree : PackageTree) : Prop :=
  ∀ path ∈ tree.directories, tree.files.lookup path = none

theorem isConsistent_empty : empty.IsConsistent :=
  fun _ _ => rfl

theorem node?_eq_file_iff : tree.node? path = some (.file contents) ↔
    tree.files.lookup path = some contents := by
  unfold node?
  split
  · rename_i found
    rw [found, Option.some.injEq, Option.some.injEq, FileNode.file.injEq]
  · rename_i missing
    rw [missing]
    split <;> exact iff_of_false nofun nofun

theorem IsConsistent.node?_eq_directory_iff (consistent : tree.IsConsistent) :
    tree.node? path = some .directory ↔ path ∈ tree.directories := by
  unfold node?
  split
  · rename_i found
    refine iff_of_false nofun fun member => ?_
    rw [consistent path member] at found
    exact nomatch found
  · split
    · rename_i member
      exact iff_of_true rfl member
    · rename_i absent
      exact iff_of_false nofun absent

/-- Above whatever is there are directories. -/
theorem IsClosed.node?_of_prefix (closed : tree.IsClosed) (consistent : tree.IsConsistent)
    (present : tree.node? path ≠ none) (start : namesOf above <+: namesOf path)
    (different : above ≠ path) : tree.node? above = some .directory := by
  rw [consistent.node?_eq_directory_iff]
  cases found : tree.files.lookup path with
  | some contents => exact closed.above_file path contents found above start different
  | none =>
      by_cases member : path ∈ tree.directories
      · exact closed.of_prefix path member above start
      · simp [node?, found, member] at present

theorem IsClosed.ne_empty_of_file (closed : tree.IsClosed) (consistent : tree.IsConsistent)
    (found : tree.node? path = some (.file contents)) : path ≠ "" := by
  rintro rfl
  rw [consistent.node?_eq_directory_iff.mpr closed.root] at found
  exact nomatch found

theorem node?_ne_link (tree : PackageTree) (path target : String) :
    tree.node? path ≠ some (.link target) := by
  unfold node?
  split
  · exact nofun
  · split <;> exact nofun

theorem kind?_eq : tree.kind? path =
    (tree.node? path).map fun node => if node.isDirectory then .directory else .file := by
  unfold kind? node?
  cases tree.files.lookup path with
  | some contents => rfl
  | none =>
      simp only [Option.isSome_none, Bool.false_eq_true, if_false]
      split <;> rfl

theorem mem_addLineage_of_mem {directories chain : List String} (member : other ∈ directories) :
    other ∈ addLineage directories chain := by
  induction chain generalizing directories with
  | nil => exact member
  | cons path chain inductionHypothesis =>
      rw [addLineage]
      split
      · exact member
      · exact inductionHypothesis (List.mem_cons_of_mem path member)

theorem IsConsistent.of_addDirectory (consistent : (tree.addDirectory path).IsConsistent) :
    tree.IsConsistent :=
  fun other member => consistent other (mem_addLineage_of_mem member)

theorem IsConsistent.of_addFile (consistent : (tree.addFile path contents).IsConsistent) :
    tree.IsConsistent := by
  intro other member
  have kept : other ∈ (tree.addFile path contents).directories := by
    rw [addFile]
    split
    · exact mem_addLineage_of_mem member
    · exact member
  have missing := consistent other kept
  rw [lookup_addFile] at missing
  split at missing
  · exact nomatch missing
  · exact missing

/-- Adding a directory keeps a tree consistent if no file is on the way. -/
theorem isConsistent_addDirectory (closed : tree.IsClosed) :
    (tree.addDirectory path).IsConsistent ↔ tree.IsConsistent ∧
      ∀ above, namesOf above <+: namesOf path → tree.files.lookup above = none := by
  simp only [IsConsistent, mem_addDirectory closed, or_imp, forall_and]
  rfl

/-- Adding a file keeps a tree consistent if no file is above it and no directory at its path. -/
theorem isConsistent_addFile (closed : tree.IsClosed)
    (split : namesOf path = namesOf above ++ [name]) :
    (tree.addFile path contents).IsConsistent ↔ tree.IsConsistent ∧
      (∀ other, namesOf other <+: namesOf above → tree.files.lookup other = none) ∧
      path ∉ tree.directories := by
  simp only [IsConsistent, mem_addFile_of_split closed split, or_imp, forall_and, lookup_addFile]
  constructor
  · rintro ⟨kept, onWay⟩
    have absent : path ∉ tree.directories := by
      intro member
      have found := kept path member
      rw [if_pos rfl] at found
      exact nomatch found
    refine ⟨fun other member => ?_, fun other start => ?_, absent⟩
    · have different : other ≠ path := fun same => absent (same ▸ member)
      rw [← kept other member, if_neg different]
    · rw [← onWay other start, if_neg (ne_of_split split start)]
  · rintro ⟨consistent, onWay, absent⟩
    constructor
    · intro other member
      have different : other ≠ path := fun same => absent (same ▸ member)
      rw [if_neg different]
      exact consistent other member
    · intro other start
      rw [if_neg (ne_of_split split start)]
      exact onWay other start

theorem node?_addDirectory (closed : tree.IsClosed)
    (consistent : (tree.addDirectory path).IsConsistent) :
    (tree.addDirectory path).node? other =
      if namesOf other <+: namesOf path then some .directory else tree.node? other := by
  split
  · rename_i start
    exact consistent.node?_eq_directory_iff.mpr ((mem_addDirectory closed).mpr (.inr start))
  · rename_i outside
    have same : other ∈ (tree.addDirectory path).directories ↔ other ∈ tree.directories := by
      rw [mem_addDirectory closed]
      exact or_iff_left outside
    simp only [node?, same]
    rfl

theorem node?_addFile (closed : tree.IsClosed)
    (split : namesOf path = namesOf above ++ [name])
    (consistent : (tree.addFile path contents).IsConsistent) :
    (tree.addFile path contents).node? other =
      if other = path then some (.file contents)
      else if namesOf other <+: namesOf above then some .directory
      else tree.node? other := by
  by_cases here : other = path
  · rw [if_pos here, node?_eq_file_iff, lookup_addFile, if_pos here]
  rw [if_neg here]
  split
  · rename_i start
    exact consistent.node?_eq_directory_iff.mpr
      ((mem_addFile_of_split closed split).mpr (.inr start))
  · rename_i outside
    have same : other ∈ (tree.addFile path contents).directories ↔ other ∈ tree.directories := by
      rw [mem_addFile_of_split closed split]
      exact or_iff_left outside
    simp only [node?, same, lookup_addFile, if_neg here]

/-! ## The names in a directory -/

/-- That a text can be a name in a directory. -/
def IsChildName (name : String) : Prop :=
  name ≠ "" ∧ '/' ∉ name.toList

/-- The path of a name in a directory. -/
def child (parent name : String) : String :=
  if parent = "" then name else parent ++ "/" ++ name

theorem namesOf_child (isName : IsChildName name) :
    namesOf (child path name) = namesOf path ++ [name] := by
  by_cases empty : path = ""
  · rw [child, if_pos empty, namesOf_of_ne isName.1, Text.fields_of_not_mem isName.2, empty]
    rfl
  · have joined : path ++ "/" ++ name ≠ "" := by
      intro nothing
      have marked := congrArg String.toList nothing
      simp at marked
    rw [child, if_neg empty, namesOf_of_ne joined, Text.fields_append,
      Text.fields_of_not_mem isName.2, namesOf_of_ne empty]

theorem IsTidy.child (tidy : IsTidy path) (isName : IsChildName name) :
    IsTidy (child path name) := by
  rw [IsTidy, namesOf_child isName, List.mem_append, List.mem_singleton, not_or]
  exact ⟨tidy, isName.1.symm⟩

/-- A path one step below another one is the path of a name in it. -/
theorem IsTidy.eq_child (tidy : IsTidy other) (split : namesOf path ++ [name] = namesOf other) :
    IsChildName name ∧ other = PackageTree.child path name := by
  have among : name ∈ namesOf other := split ▸ List.mem_append_right _ (List.mem_singleton_self _)
  have filled : other ≠ "" := by
    rintro rfl
    exact nomatch among
  have isName : IsChildName name := by
    constructor
    · rintro rfl
      exact tidy among
    · rw [namesOf_of_ne filled] at among
      exact Text.not_mem_of_mem_fields among
  exact ⟨isName, namesOf_injective (by rw [← split, namesOf_child isName])⟩

theorem childName?_eq_some_iff :
    childName? path other = some name ↔ other = child path name ∧ IsChildName name := by
  have start : (if path = "" then "" else path ++ "/") ++ name = child path name := by
    rw [child]
    split
    · rw [String.empty_append]
    · rfl
  have isName : (name != "" && !Text.has '/' name) = true ↔ IsChildName name := by
    simp [IsChildName, Text.has]
  rw [childName?, Option.filter_eq_some_iff, Text.dropStart?_eq_some_iff, start, isName]

theorem mem_map_childName? {paths : List String} {flag isDirectory : Bool} :
    (⟨name, isDirectory⟩ : PathElement) ∈ (paths.filterMap (childName? path)).map (⟨·, flag⟩) ↔
      isDirectory = flag ∧ IsChildName name ∧ child path name ∈ paths := by
  simp only [List.mem_map, List.mem_filterMap, childName?_eq_some_iff, PathElement.mk.injEq]
  constructor
  · rintro ⟨_, ⟨_, member, rfl, isName⟩, rfl, rfl⟩
    exact ⟨rfl, isName, member⟩
  · rintro ⟨rfl, isName, member⟩
    exact ⟨name, ⟨_, member, rfl, isName⟩, rfl, rfl⟩

theorem mem_map_files_iff :
    path ∈ tree.files.map Prod.fst ↔ ∃ contents, tree.node? path = some (.file contents) := by
  simp only [node?_eq_file_iff]
  rw [← Option.isSome_iff_exists, List.lookup_isSome_iff, List.mem_map]
  constructor
  · rintro ⟨entry, member, rfl⟩
    exact ⟨entry, member, beq_self_eq_true _⟩
  · rintro ⟨entry, member, same⟩
    exact ⟨entry, member, (beq_iff_eq.mp same).symm⟩

/-- The names in a directory are the names under which something is one step below. -/
theorem mem_children (consistent : tree.IsConsistent) {isDirectory : Bool} :
    (⟨name, isDirectory⟩ : PathElement) ∈ tree.children path ↔ IsChildName name ∧
      ∃ node, tree.node? (child path name) = some node ∧ node.isDirectory = isDirectory := by
  rw [children, List.mem_append, mem_map_childName?, mem_map_childName?, mem_map_files_iff,
    ← consistent.node?_eq_directory_iff]
  constructor
  · rintro (⟨rfl, isName, found⟩ | ⟨rfl, isName, contents, found⟩)
    · exact ⟨isName, _, found, rfl⟩
    · exact ⟨isName, _, found, rfl⟩
  · rintro ⟨isName, node, found, rfl⟩
    cases node with
    | directory => exact .inl ⟨rfl, isName, found⟩
    | file contents => exact .inr ⟨rfl, isName, contents, found⟩
    | link target => exact absurd found (tree.node?_ne_link _ target)

end PackageResolution.PackageTree
