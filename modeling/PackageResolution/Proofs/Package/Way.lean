import PackageResolution.Proofs.FileTree.Approach
import PackageResolution.Proofs.Package.Location

/-!
# The way to a package in a cache

The directory of a package and its metadata document lie side by side: from the cache the same way
leads to both, up to the last name.  The authority of a package can be `.` or `..`, so the way can
turn back once, but it does not lead out of the cache.
-/

namespace PackageResolution

namespace Path

/-! ## Components as names -/

/-- The piece between slashes that a component stands for. -/
def Component.piece : Component → String
  | .root => ""
  | .current => "."
  | .parent => ".."
  | .named name => name

theorem map_piece_filterMap (pieces : List String) :
    (pieces.filterMap component?).map Component.piece =
      (pieces.filter (· ≠ "")).filter (· ≠ ".") := by
  induction pieces with
  | nil => rfl
  | cons piece pieces inductionHypothesis =>
      by_cases empty : piece = ""
      · subst empty
        exact inductionHypothesis
      by_cases single : piece = "."
      · subst single
        exact inductionHypothesis
      rw [List.filter_cons_of_pos (by simpa using empty),
        List.filter_cons_of_pos (by simpa using single), ← inductionHypothesis]
      by_cases double : piece = ".."
      · subst double
        rfl
      · have isName : IsName piece := ⟨empty, single, double⟩
        rw [List.filterMap_cons, isName.component?]
        rfl

theorem map_piece_steps (path : Path) :
    path.steps.map Component.piece = (FileTree.names path.text).filter (· ≠ ".") :=
  map_piece_filterMap _

/-- Whether a component marks the start of a path. -/
def Component.isMark : Component → Bool
  | .root => true
  | .current => true
  | _ => false

theorem isMark_of_mem_steps {path : Path} {component : Component} (member : component ∈ path.steps) :
    component.isMark = false := by
  obtain ⟨piece, -, stands⟩ := List.mem_filterMap.mp member
  unfold component? at stands
  split at stands
  · exact nomatch stands
  split at stands
  · rw [← Option.some.inj stands]
    rfl
  · rw [← Option.some.inj stands]
    rfl

theorem isMark_of_mem_start {path : Path} {component : Component} (member : component ∈ path.start) :
    component.isMark = true := by
  rw [start] at member
  split at member
  · rw [List.mem_singleton.mp member]
    rfl
  split at member
  · rw [List.mem_singleton.mp member]
    rfl
  · exact absurd member List.not_mem_nil

theorem isAbsolute_iff_root_mem {path : Path} : path.isAbsolute = true ↔ .root ∈ path.start := by
  rw [start]
  split
  · rename_i absolute
    exact iff_of_true absolute List.mem_cons_self
  · rename_i relative
    refine iff_of_false relative ?_
    split
    · simp
    · exact List.not_mem_nil

/-- A path that has the components of another one first starts where that one does and takes its
steps first. -/
theorem of_components_eq_append {path base : Path} {more : List Component}
    (split : path.components = base.components ++ more)
    (onward : ∀ component ∈ more, component.isMark = false) :
    path.isAbsolute = base.isAbsolute ∧ path.steps = base.steps ++ more := by
  have marks (path : Path) : path.components.filter Component.isMark = path.start := by
    rw [components_eq, List.filter_append, List.filter_eq_self.mpr fun _ => isMark_of_mem_start,
      List.filter_eq_nil_iff.mpr fun _ member => by simp [isMark_of_mem_steps member],
      List.append_nil]
  have unmarked : more.filter Component.isMark = [] :=
    List.filter_eq_nil_iff.mpr fun component member => by simp [onward component member]
  have starts : path.start = base.start := by
    rw [← marks, split, List.filter_append, marks, unmarked, List.append_nil]
  constructor
  · rw [Bool.eq_iff_iff, isAbsolute_iff_root_mem, isAbsolute_iff_root_mem, starts]
  · rw [components_eq, components_eq, starts, List.append_assoc] at split
    exact List.append_cancel_left split

/-! ## Paths below a cache -/

/-- That a path leads from a cache along a way and then to a name. -/
structure Descends (path cache : Path) (way : List String) (name : String) : Prop where
  exists_join : ∃ base : Path, path = base.join ⟨name⟩
  isAbsolute_eq : path.isAbsolute = cache.isAbsolute
  names_eq : (FileTree.names path.text).filter (· ≠ ".") =
    (FileTree.names cache.text).filter (· ≠ ".") ++ way ++ [name]

theorem Descends.exists_base {path cache : Path} {way : List String} {name : String}
    (descends : path.Descends cache way name) (isName : IsName name) (plain : '/' ∉ name.toList) :
    ∃ base : Path, path = base.join ⟨name⟩ ∧ (FileTree.names base.text).filter (· ≠ ".") =
      (FileTree.names cache.text).filter (· ≠ ".") ++ way := by
  obtain ⟨base, rfl⟩ := descends.exists_join
  have whole := descends.names_eq
  rw [names_join_name isName plain, List.filter_append,
    List.filter_cons_of_pos (by simpa using isName.2.1)] at whole
  exact ⟨base, rfl, (List.append_inj' whole rfl).1⟩

end Path

/-- That a way turns back at most once, right after its first name. -/
def StaysInside (way : List String) : Prop :=
  ∃ rest, ".." ∉ rest ∧ (way = rest ∨ ∃ first, Path.IsName first ∧ way = first :: ".." :: rest)

namespace FileTree

/-- Where no links are, such a way does not lead out. -/
theorem Leads.prefix_of_staysInside {tree : FileTree} {follow closed : Bool} {budget : Nat}
    {top : Location} {way : List String} {destination : Destination}
    (leads : Leads tree follow budget closed top way destination) (plain : tree.IsPlainBelow top)
    (inside : StaysInside way) : top <+: destination.location := by
  obtain ⟨rest, onward, rfl | ⟨first, isName, rfl⟩⟩ := inside
  · exact leads.prefix_location plain (List.prefix_refl _) onward
  · cases leads with
    | stay => exact absurd rfl isName.2.1
    | climb => exact absurd rfl isName.2.2
    | enter _ _ further =>
        have back := further.of_double
        rw [List.dropLast_concat] at back
        exact back.prefix_location plain (List.prefix_refl _) onward
    | pursue _ found => exact absurd found (plain.get?_concat_ne (List.prefix_refl _) _)

end FileTree

namespace PackageUri

variable (package : PackageUri)

/-- The name under which a package is kept, before what is written after it. -/
def keptName (suffix : String) : String :=
  package.name ++ ("@" ++ package.version.text) ++ suffix

theorem isName_keptName (suffix : String) : Path.IsName (package.keptName suffix) :=
  package.isName_versioned package.name suffix

theorem slash_not_mem_keptName {suffix : String} (plain : '/' ∉ suffix.toList) :
    '/' ∉ (package.keptName suffix).toList := by
  rw [keptName, String.toList_append, String.toList_append, List.mem_append, List.mem_append,
    not_or, not_or]
  exact ⟨⟨package.slash_not_mem_name, package.slash_not_mem_version⟩, plain⟩

theorem at_mem_keptName (suffix : String) : '@' ∈ (package.keptName suffix).toList := by
  simp [keptName]

/-- The way from the area for packages to a package. -/
theorem exists_way : ∃ way, StaysInside ("package-1" :: way) ∧
    ∀ suffix : String, '/' ∉ suffix.toList →
      (Path.steps ⟨package.main ++ suffix⟩).map Path.Component.piece =
        way ++ [package.keptName suffix] := by
  obtain ⟨start, last, segments, named, pieces⟩ := package.exists_fields
  have onward : ".." ∉ (start.filter (· ≠ "")).filter (· ≠ ".") := by
    intro member
    have among := List.mem_of_mem_filter (List.mem_of_mem_filter member)
    have whole := package.path_segments
    rw [segments, List.all_append, Bool.and_eq_true] at whole
    exact nomatch List.all_eq_true.mp whole.1 ".." among
  refine ⟨((package.authority :: start).filter (· ≠ "")).filter (· ≠ "."), ?_, ?_⟩
  · have area : Path.IsName "package-1" := by decide
    by_cases climbs : package.authority = ".."
    · exact ⟨_, onward, .inr ⟨"package-1", area, by rw [climbs]; rfl⟩⟩
    · refine ⟨_, ?_, .inl rfl⟩
      rw [List.mem_cons, not_or]
      refine ⟨by decide, fun member => ?_⟩
      rw [← List.singleton_append, List.filter_append, List.filter_append, List.mem_append]
        at member
      rcases member with among | among
      · have same := List.mem_of_mem_filter (List.mem_of_mem_filter among)
        exact climbs (List.mem_singleton.mp same).symm
      · exact onward among
  · intro suffix plain
    have joined : '/' ∉ ("@" ++ package.version.text ++ suffix).toList := by
      rw [String.toList_append, List.mem_append, not_or]
      exact ⟨package.slash_not_mem_version, plain⟩
    have isName := package.isName_keptName suffix
    have last : ([package.keptName suffix].filter (· ≠ "")).filter (· ≠ ".") =
        [package.keptName suffix] := by
      rw [List.filter_cons_of_pos (by simpa using isName.1), List.filter_nil,
        List.filter_cons_of_pos (by simpa using isName.2.1), List.filter_nil]
    rw [Path.steps, main_eq, String.append_assoc, pieces _ joined, Path.map_piece_filterMap,
      List.filter_append, List.filter_append, ← named, ← String.append_assoc]
    exact congrArg (_ ++ ·) last

theorem exists_cachePath_join (cache : Path) :
    ∃ base : Path, package.cachePath cache = base.join ⟨package.keptName ""⟩ := by
  obtain ⟨start, last, segments, named, -⟩ := package.exists_fields
  refine ⟨start.foldl (fun path segment => path.join ⟨segment⟩)
    ((cache.join ⟨"package-1"⟩).join ⟨package.authority⟩), ?_⟩
  rw [cachePath, segments, List.getLastD_concat, List.dropLast_concat, List.foldl_append,
    keptName, named, String.append_empty, ← String.append_assoc]
  rfl

theorem exists_metadataCachePath_join (cache : Path) :
    ∃ base : Path, package.metadataCachePath cache = base.join ⟨package.keptName ".json"⟩ := by
  have written : s!"{package.name}@{package.version.text}.json" = package.keptName ".json" := by
    simp only [keptName, String.append_assoc]
    rfl
  rw [metadataCachePath, written, Path.withFileName]
  split
  · exact ⟨_, rfl⟩
  · exact ⟨_, rfl⟩

/-- The directory of a package and its metadata document are reached on one way. -/
theorem exists_descends (cache : Path) (filled : cache.text ≠ "") : ∃ way, StaysInside way ∧
    (package.cachePath cache).Descends cache way (package.keptName "") ∧
    (package.metadataCachePath cache).Descends cache way (package.keptName ".json") := by
  obtain ⟨way, inside, steps⟩ := package.exists_way
  have area : cache.packageArea.components = cache.components ++ [.named "package-1"] := by
    rw [Path.packageArea, Path.components_join (by decide) filled]
    rfl
  have descends {path : Path} {suffix : String} (plain : '/' ∉ suffix.toList)
      (joined : ∃ base : Path, path = base.join ⟨package.keptName suffix⟩)
      (components : path.components =
        cache.packageArea.components ++ Path.steps ⟨package.main ++ suffix⟩) :
      path.Descends cache ("package-1" :: way) (package.keptName suffix) := by
    rw [area, List.append_assoc] at components
    obtain ⟨rooted, taken⟩ := Path.of_components_eq_append components (by
      intro component member
      rcases List.mem_cons.mp member with rfl | among
      · rfl
      · exact Path.isMark_of_mem_steps among)
    refine ⟨joined, rooted, ?_⟩
    rw [← Path.map_piece_steps, taken, List.map_append, Path.map_piece_steps, List.map_append,
      steps suffix plain]
    simp [Path.Component.piece]
  have slashless : '/' ∉ "".toList := by decide
  refine ⟨_, inside, descends slashless (package.exists_cachePath_join cache) ?_,
    descends (by decide) (package.exists_metadataCachePath_join cache)
      (package.components_metadataCachePath cache)⟩
  rw [String.append_empty]
  exact package.components_cachePath cache

end PackageUri

end PackageResolution
