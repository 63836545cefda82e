import PackageResolution.Proofs.FileTree.Walk

/-!
# Where paths of names lead

A path that is written with names a file system can hold leads along them from the root.
Where everything above its place is a directory, it leads there, whether something is there
or not.  Otherwise the first place on the way that is no directory says how it fails.
-/

namespace PackageResolution

/-! ## Paths that a file system can follow -/

/-- That a path leads along the given names from the root, and that a file system can hold
them. -/
structure Path.Reaches (path : Path) (place : Location) : Prop where
  isAbsolute : path.isAbsolute = true
  names_eq : FileTree.names path.text = place
  isName : ∀ name ∈ place, IsName name
  fits : ∀ name ∈ place, name.utf8ByteSize ≤ FileTree.nameLimit
  nulFree : Text.has '\x00' path.text = false
  short : path.text.utf8ByteSize < FileTree.pathLimit

instance (path : Path) (place : Location) : Decidable (path.Reaches place) :=
  decidable_of_iff (path.isAbsolute = true ∧ FileTree.names path.text = place ∧
    (∀ name ∈ place, Path.IsName name) ∧
    (∀ name ∈ place, name.utf8ByteSize ≤ FileTree.nameLimit) ∧
    Text.has '\x00' path.text = false ∧ path.text.utf8ByteSize < FileTree.pathLimit)
    ⟨fun ⟨absolute, names, isName, fits, nulFree, short⟩ =>
      ⟨absolute, names, isName, fits, nulFree, short⟩,
    fun reaches => ⟨reaches.isAbsolute, reaches.names_eq, reaches.isName, reaches.fits,
      reaches.nulFree, reaches.short⟩⟩

namespace FileTree

theorem names_slash_append (rest : String) : names ("/" ++ rest) = names rest := by
  rw [names, Text.fields_slash_append]
  rfl

theorem names_intercalate {pieces : List String} (closed : ∀ piece ∈ pieces, '/' ∉ piece.toList) :
    names ("/".intercalate pieces) = pieces.filter (· ≠ "") := by
  cases pieces with
  | nil => rfl
  | cons piece pieces => rw [names, Text.fields_intercalate (List.cons_ne_nil _ _) closed]

end FileTree

namespace Path.Reaches

variable {path : Path} {place above : Location} {name : String}

theorem text_ne_empty (reaches : path.Reaches place) : path.text ≠ "" := by
  intro empty
  have absolute : Text.beginsWith '/' path.text = true := reaches.isAbsolute
  rw [empty] at absolute
  exact nomatch absolute

theorem length_le (reaches : path.Reaches place) : place.length ≤ path.text.length := by
  obtain ⟨rest, whole⟩ := Text.exists_of_beginsWith reaches.isAbsolute
  have slash : String.singleton '/' = "/" := rfl
  rw [← reaches.names_eq, whole, slash, FileTree.names_slash_append, String.length_append,
    Nat.add_comm]
  exact (List.length_filter_le _ _).trans (Text.length_fields_le '/' rest)

/-- Pieces that are empty or names stand for the names. -/
theorem filterMap_component? {pieces : List String}
    (isName : ∀ piece ∈ pieces.filter (· ≠ ""), IsName piece) :
    pieces.filterMap component? = (pieces.filter (· ≠ "")).map .named := by
  induction pieces with
  | nil => rfl
  | cons piece pieces inductionHypothesis =>
      by_cases empty : piece = ""
      · subst empty
        rw [List.filter_cons_of_neg (by simp)] at isName ⊢
        exact inductionHypothesis isName
      · rw [List.filter_cons_of_pos (by simpa using empty)] at isName ⊢
        rw [List.forall_mem_cons] at isName
        rw [List.filterMap_cons, isName.1.component?, inductionHypothesis isName.2,
          List.map_cons]

/-- The path above a path leads to the place above. -/
theorem exists_parent? (reaches : path.Reaches (above ++ [name])) :
    ∃ nearest, path.parent? = some nearest ∧ nearest.Reaches above := by
  obtain ⟨rest, whole⟩ := Text.exists_of_beginsWith reaches.isAbsolute
  have slash : String.singleton '/' = "/" := rfl
  rw [slash] at whole
  have names : (Text.fields '/' rest).filter (· ≠ "") = above ++ [name] := by
    rw [← reaches.names_eq, FileTree.names, whole, Text.fields_slash_append]
    rfl
  have isName : ∀ piece ∈ (Text.fields '/' rest).filter (· ≠ ""), IsName piece := by
    rw [names]
    exact reaches.isName
  have body : path.bodyReversed = ("/", (Text.fields '/' rest).reverse) := by
    rw [bodyReversed, if_pos reaches.isAbsolute, whole, Text.fields_slash_append]
    rfl
  rw [parent?, body]
  simp only
  cases cut : (Text.fields '/' rest).reverse.dropWhile isIdle with
  | nil =>
      have nothing := filterMap_dropWhile_isIdle (Text.fields '/' rest).reverse
      rw [cut, List.filterMap_nil, List.filterMap_reverse, filterMap_component? isName, names]
        at nothing
      simp at nothing
  | cons last before =>
      obtain ⟨start, component, split⟩ := exists_filterMap_append cut
      have keptName : ∀ piece ∈ (before.dropWhile isIdle).reverse.filter (· ≠ ""),
          IsName piece := by
        intro piece member
        rw [List.mem_filter] at member
        exact isName piece (List.mem_filter.mpr ⟨start.subset member.1, member.2⟩)
      rw [filterMap_component? isName, filterMap_component? keptName, names, List.map_append]
        at split
      have kept := named_injective.list_map (List.append_inj' split rfl).1
      obtain ⟨suffix, text⟩ := Text.exists_append_of_prefix start
      have closed : ∀ piece ∈ (before.dropWhile isIdle).reverse, '/' ∉ piece.toList :=
        fun piece member => Text.not_mem_of_mem_fields (start.subset member)
      have nulFree := reaches.nulFree
      have short := reaches.short
      rw [whole, text, ← String.append_assoc, Text.has, String.toList_append, List.contains_append,
        Bool.or_eq_false_iff] at nulFree
      rw [whole, text, ← String.append_assoc, String.utf8ByteSize_append] at short
      refine ⟨_, rfl, ?_⟩
      exact {
        isAbsolute := by simp [Path.isAbsolute, Text.beginsWith]
        names_eq := by
          rw [FileTree.names_slash_append, FileTree.names_intercalate closed, kept]
        isName := fun piece member => reaches.isName piece (List.mem_append_left _ member)
        fits := fun piece member => reaches.fits piece (List.mem_append_left _ member)
        nulFree := nulFree.1
        short := Nat.lt_of_le_of_lt (Nat.le_add_right _ _) short }

end Path.Reaches

namespace FileTree

variable {tree : FileTree} {current place above : Location} {path : Path} {name : String}
  {rest : List String} {follow closed : Bool}
  {onLink : Bool → Location → List String → Except OsError Destination}

theorem walkTo_cons (isName : Path.IsName name) (fits : name.utf8ByteSize ≤ nameLimit) :
    walkTo tree follow onLink closed current (name :: rest) =
      match tree.get? (current ++ [name]) with
      | none => if rest = [] then .ok (.vacant (current ++ [name])) else .error .notFound
      | some .directory => walkTo tree follow onLink closed (current ++ [name]) rest
      | some (.file contents) =>
          if rest = [] ∧ closed = false then
            .ok (.occupied (current ++ [name]) (.file contents))
          else .error .notADirectory
      | some (.link target) =>
          if rest = [] ∧ closed = false ∧ follow = false then
            .ok (.occupied (current ++ [name]) (.link target))
          else
            onLink (closed || (rest = [] && Text.endsWith '/' target))
              (if Text.beginsWith '/' target then [] else current) (names target ++ rest) := by
  obtain ⟨-, single, double⟩ := isName
  rw [walkTo, if_neg single, if_neg double]
  exact if_neg (Nat.not_lt.mpr fits)

/-- An open way is followed to its end. -/
theorem walkTo_of_isOpen (opened : tree.IsOpen (current ++ above))
    (isName : ∀ name ∈ above, Path.IsName name)
    (fits : ∀ name ∈ above, name.utf8ByteSize ≤ nameLimit) :
    walkTo tree follow onLink closed current (above ++ rest) =
      walkTo tree follow onLink closed (current ++ above) rest := by
  induction above generalizing current with
  | nil => rw [List.nil_append, List.append_nil]
  | cons name above inductionHypothesis =>
      rw [List.forall_mem_cons] at isName fits
      have split : current ++ name :: above = current ++ [name] ++ above :=
        List.append_cons current name above
      have there : tree.get? (current ++ [name]) = some .directory :=
        opened _ (split ▸ List.prefix_append _ _)
      rw [List.cons_append, walkTo_cons isName.1 fits.1, there]
      simp only
      rw [inductionHypothesis (split ▸ opened) isName.2 fits.2, split]

/-- A path is followed from the root along its names. -/
theorem find_eq (reaches : path.Reaches (above ++ rest)) (opened : tree.IsOpen above) :
    tree.find follow current path =
      walkTo tree follow (walk tree follow 39) (Text.endsWith '/' path.text) above rest := by
  have isName := List.forall_mem_append.mp reaches.isName
  have fits := List.forall_mem_append.mp reaches.fits
  have budget : linkLimit = 39 + 1 := rfl
  rw [find, reaches.nulFree, if_neg Bool.false_ne_true, if_neg reaches.text_ne_empty,
    if_neg (Nat.not_le.mpr reaches.short), if_pos reaches.isAbsolute, reaches.names_eq,
    budget, walk, walkTo_of_isOpen opened isName.1 fits.1, List.nil_append]

theorem find_of_isOpen (reaches : path.Reaches place) (opened : tree.IsOpen place) :
    tree.find follow current path = .ok (.occupied place .directory) := by
  rw [← List.append_nil place] at reaches
  rw [find_eq reaches opened, walkTo]

section

variable (reaches : path.Reaches (above ++ [name])) (opened : tree.IsOpen above)

include reaches opened

theorem find_of_vacant (vacant : tree.get? (above ++ [name]) = none) :
    tree.find follow current path = .ok (.vacant (above ++ [name])) := by
  rw [find_eq reaches opened, walkTo_cons (reaches.isName name (by simp))
    (reaches.fits name (by simp)), vacant]
  rfl

theorem find_of_file {contents : ByteArray}
    (found : tree.get? (above ++ [name]) = some (.file contents)) :
    tree.find follow current path =
      if Text.endsWith '/' path.text then .error .notADirectory
      else .ok (.occupied (above ++ [name]) (.file contents)) := by
  rw [find_eq reaches opened, walkTo_cons (reaches.isName name (by simp))
    (reaches.fits name (by simp)), found]
  cases Text.endsWith '/' path.text <;> rfl

end

section

variable (reaches : path.Reaches (above ++ name :: rest)) (opened : tree.IsOpen above)
  (onward : rest ≠ [])

include reaches opened onward

theorem find_of_missing (missing : tree.get? (above ++ [name]) = none) :
    tree.find follow current path = .error .notFound := by
  rw [find_eq reaches opened, walkTo_cons (reaches.isName name (by simp))
    (reaches.fits name (by simp)), missing]
  simp only
  rw [if_neg onward]

theorem find_of_blocked {contents : ByteArray}
    (blocked : tree.get? (above ++ [name]) = some (.file contents)) :
    tree.find follow current path = .error .notADirectory := by
  rw [find_eq reaches opened, walkTo_cons (reaches.isName name (by simp))
    (reaches.fits name (by simp)), blocked]
  simp only
  rw [if_neg fun last => onward last.1]

end

/-! ## The ways to a place -/

/-- No place below another one is above it. -/
theorem not_append_prefix (filled : rest ≠ []) : ¬ place ++ rest <+: place := by
  intro begun
  have long := begun.length_le
  rw [List.length_append] at long
  exact filled (List.length_eq_zero_iff.mp (by omega))

/-- A place above another one is above where that one begins, or goes on from there. -/
theorem prefix_append_cases {start : Location} (begun : above <+: start ++ rest) :
    above <+: start ∨ ∃ more, above = start ++ more ∧ more <+: rest := by
  rcases List.prefix_or_prefix_of_prefix begun (List.prefix_append start rest) with
    before | ⟨more, rfl⟩
  · exact .inl before
  · exact .inr ⟨more, rfl, (List.prefix_append_right_inj start).mp begun⟩

/-- That no file is at a place or above it. -/
def IsFree (tree : FileTree) (place : Location) : Prop :=
  ∀ above contents, above <+: place → tree.get? above ≠ some (.file contents)

theorem IsFree.of_prefix (free : tree.IsFree place) (start : above <+: place) :
    tree.IsFree above :=
  fun first contents begun => free first contents (begun.trans start)

theorem IsOpen.isFree (opened : tree.IsOpen place) : tree.IsFree place := by
  intro above contents start found
  rw [opened above start] at found
  exact nomatch found

theorem IsFree.concat (free : tree.IsFree place)
    (plain : ∀ contents, tree.get? (place ++ [name]) ≠ some (.file contents)) :
    tree.IsFree (place ++ [name]) := by
  intro above contents start
  rcases List.prefix_concat_iff.mp start with rfl | start
  · exact plain contents
  · exact free above contents start

/-- The first place on the way that is no directory. -/
theorem exists_of_not_isOpen (closed : ¬ tree.IsOpen place) :
    ∃ above name rest, place = above ++ name :: rest ∧ tree.IsOpen above ∧
      tree.get? (above ++ [name]) ≠ some .directory := by
  induction place using List.reverseRecOn with
  | nil => exact absurd (isOpen_nil tree) closed
  | append_singleton above name inductionHypothesis =>
      by_cases opened : tree.IsOpen above
      · refine ⟨above, name, [], rfl, opened, ?_⟩
        intro found
        exact closed (opened.concat found)
      · rcases inductionHypothesis opened with ⟨first, other, rest, rfl, begun, missing⟩
        refine ⟨first, other, rest ++ [name], ?_, begun, missing⟩
        rw [List.append_assoc, List.cons_append]

/-- Where something above a place is no directory, a path to the place leads nowhere. -/
theorem find_of_not_isOpen (current : Location) (linkFree : tree.IsLinkFree) (reaches : path.Reaches (above ++ [name]))
    (closed : ¬ tree.IsOpen above) :
    (∀ follow, tree.find follow current path = .error .notFound) ∨
      ¬ tree.IsFree above ∧
        ∀ follow, tree.find follow current path = .error .notADirectory := by
  obtain ⟨first, other, rest, rfl, opened, stopped⟩ := exists_of_not_isOpen closed
  rw [List.append_assoc, List.cons_append] at reaches
  have onward : rest ++ [name] ≠ [] := by simp
  cases found : tree.get? (first ++ [other]) with
  | none => exact .inl fun _ => find_of_missing reaches opened onward found
  | some node =>
      cases node with
      | directory => exact absurd found stopped
      | file contents =>
          have start : first ++ [other] <+: first ++ other :: rest :=
            ⟨rest, by rw [List.append_assoc, List.singleton_append]⟩
          refine .inr ⟨fun free => free _ contents start found, fun _ => ?_⟩
          exact find_of_blocked reaches opened onward found
      | link target => exact absurd found (linkFree.get?_ne target)

/-! ## What operations find -/

section

variable (opened : tree.IsOpen above)

include opened

theorem isDirectory_of_isOpen (reaches : path.Reaches above) :
    tree.isDirectory current path = .ok true := by
  simp only [isDirectory, findNode, find_of_isOpen reaches opened, Except.map,
    FileNode.isDirectory]

theorem list_of_isOpen (reaches : path.Reaches above) :
    tree.list current path =
      .ok ((tree.children above).map fun child => (child.1, child.2.isDirectory)) := by
  simp only [list, findNode, find_of_isOpen reaches opened]

variable (reaches : path.Reaches (above ++ [name]))

include reaches

theorem isDirectory_of_vacant (vacant : tree.get? (above ++ [name]) = none) :
    tree.isDirectory current path = .error .notFound := by
  simp only [isDirectory, findNode, find_of_vacant reaches opened vacant, Except.map]

variable (ajar : Text.endsWith '/' path.text = false)

include ajar

theorem find_of_ajar {contents : ByteArray}
    (found : tree.get? (above ++ [name]) = some (.file contents)) :
    tree.find follow current path = .ok (.occupied (above ++ [name]) (.file contents)) := by
  rw [find_of_file reaches opened found, ajar, if_neg Bool.false_ne_true]

theorem isDirectory_of_file {contents : ByteArray}
    (found : tree.get? (above ++ [name]) = some (.file contents)) :
    tree.isDirectory current path = .ok false := by
  simp only [isDirectory, findNode, find_of_ajar opened reaches ajar found, Except.map,
    FileNode.isDirectory]

theorem read_of_file {contents : ByteArray}
    (found : tree.get? (above ++ [name]) = some (.file contents)) :
    tree.read current path = .ok contents := by
  simp only [read, findNode, find_of_ajar opened reaches ajar found]

/-- A file is written where no directory is. -/
theorem write_of_ne (linkFree : tree.IsLinkFree) {contents : ByteArray}
    (other : tree.get? (above ++ [name]) ≠ some .directory) :
    tree.write current path contents =
      .ok (tree.insert (above ++ [name]) (.file contents)) := by
  cases found : tree.get? (above ++ [name]) with
  | none => simp only [write, find_of_vacant reaches opened found, ajar, Bool.false_eq_true, if_false]
  | some node =>
      cases node with
      | directory => exact absurd found other
      | file earlier => simp only [write, find_of_ajar opened reaches ajar found]
      | link target => exact absurd found (linkFree.get?_ne target)

end

theorem isDirectory_of_find_eq_error {refusal : OsError}
    (stopped : tree.find true current path = .error refusal) :
    tree.isDirectory current path = .error refusal := by
  simp only [isDirectory, findNode, stopped, Except.map]

theorem removeTree_of_vacant (reaches : path.Reaches (above ++ [name]))
    (opened : tree.IsOpen above) (vacant : tree.get? (above ++ [name]) = none) :
    tree.removeTree current path = .error .notFound := by
  simp only [removeTree, findNode, find_of_vacant reaches opened vacant]
  rfl

/-- A directory is moved to a place where nothing is and which is not below it. -/
theorem rename_of_vacant {source target : Path} (begins : source.Reaches place)
    (there : tree.IsOpen place) (ends : target.Reaches (above ++ [name]))
    (opened : tree.IsOpen above) (vacant : tree.get? (above ++ [name]) = none)
    (outside : ¬ place <+: above ++ [name]) :
    tree.rename current source target = .ok (tree.move place (above ++ [name])) := by
  have isName := ends.isName name (by simp)
  have named : endsWithName target = true := by
    rw [endsWithName, ends.names_eq, List.getLast?_concat]
    simp [isName.2.1, isName.2.2]
  have apart : isBelow place (above ++ [name]) = false := by
    rwa [isBelow, ← Bool.not_eq_true, List.isPrefixOf_iff_prefix]
  simp only [rename, findNode, find_of_isOpen begins there, find_of_vacant ends opened vacant,
    Result.ok_bind, named, apart, FileNode.isDirectory]
  rfl

theorem write_of_isOpen (reaches : path.Reaches place) (opened : tree.IsOpen place)
    (contents : ByteArray) : tree.write current path contents = .error .isADirectory := by
  simp only [write, find_of_isOpen reaches opened]

end FileTree

end PackageResolution
