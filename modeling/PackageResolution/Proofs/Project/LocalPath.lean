import PackageResolution.Proofs.Path.Names
import PackageResolution.Proofs.Project.Settlement
import PackageResolution.Proofs.Text.Percent
import PackageResolution.Proofs.Uri.Relativize

/-!
# The way to a local project

The manifest records a local project with a path that is taken from the directory of the root
project.  Where both directories are written as names between single slashes, the path leads
from the one to the other, whatever characters the names are made of: it climbs out of what the
root directory does not share with the other one, and goes down again along names that were
escaped and are decoded.
-/

namespace PackageResolution

/-! ## Pieces between slashes -/

/-- That some pieces are not empty and hold no slash, so that they are the pieces of the path
that is joined from them. -/
def Text.AreSolid (pieces : List String) : Prop :=
  ∀ piece ∈ pieces, piece ≠ "" ∧ '/' ∉ piece.toList

section Pieces

variable {pieces : List String} (filled : pieces ≠ []) (solid : Text.AreSolid pieces)

include filled solid

theorem Text.fields_of_solid : fields '/' ("/".intercalate pieces) = pieces :=
  fields_intercalate filled fun piece member => (solid piece member).2

theorem Text.intercalate_ne_empty : "/".intercalate pieces ≠ "" := by
  intro empty
  have split := fields_of_solid filled solid
  rw [empty] at split
  have member : "" ∈ pieces := by
    rw [← split]
    decide
  exact (solid "" member).1 rfl

/-- The slash after the last piece is trimmed. -/
theorem Text.trimEnd_intercalate :
    trimEnd '/' ("/".intercalate (pieces ++ [""])) = "/".intercalate pieces := by
  have split := fields_of_solid filled solid
  have closed : "/".intercalate (pieces ++ [""]) = "/".intercalate pieces ++ "/" := by
    apply fields_injective
    rw [fields_append_slash, split, fields_intercalate (by simp)]
    rw [List.forall_mem_append]
    exact ⟨fun piece member => (solid piece member).2, by simp⟩
  rw [closed]
  apply trimEnd_append_slash
  rw [Bool.eq_false_iff]
  intro ends
  rcases List.getLast?_eq_some_iff.mp (beq_iff_eq.mp ends) with ⟨chars, whole⟩
  have slash : "/".intercalate pieces = String.ofList chars ++ "/" :=
    String.toList_injective (by simpa using whole)
  rw [slash, fields_append_slash] at split
  have member : "" ∈ pieces := by simp [← split]
  exact (solid "" member).1 rfl

theorem Path.isAbsolute_intercalate : isAbsolute ⟨"/".intercalate pieces⟩ = false := by
  rw [Bool.eq_false_iff]
  intro rooted
  have split := Text.fields_of_solid filled solid
  rw [UriPath.fields_eq_cons_segments rooted] at split
  have member : "" ∈ pieces := by
    rw [← split]
    exact List.mem_cons_self
  exact (solid "" member).1 rfl

end Pieces

/-! ## Canonical directories -/

namespace Path

/-- That a path from the root is written as names between single slashes, in none of which a
backslash stands, since an identifier has a slash in its place. -/
structure IsCanonical (path : Path) : Prop where
  /-- The path begins at the root. -/
  rooted : path.isAbsolute = true
  /-- It is the root, or nothing but names follow. -/
  named : path.text = "/" ∨ ∀ segment ∈ UriPath.segments path.text, IsName segment
  /-- No backslash stands in it. -/
  plain : '\\' ∉ path.text.toList

instance (path : Path) : Decidable path.IsCanonical :=
  decidable_of_iff (path.isAbsolute = true ∧
      (path.text = "/" ∨ ∀ segment ∈ UriPath.segments path.text, IsName segment) ∧
        '\\' ∉ path.text.toList)
    ⟨fun parts => ⟨parts.1, parts.2.1, parts.2.2⟩,
      fun canonical => ⟨canonical.rooted, canonical.named, canonical.plain⟩⟩

/-- That some pieces are names, in none of which a slash stands. -/
def AreNames (names : List String) : Prop :=
  ∀ name ∈ names, IsName name ∧ '/' ∉ name.toList

/-- A canonical path is the root or the trail of its names. -/
theorem IsCanonical.exists_names {path : Path} (canonical : path.IsCanonical) :
    ∃ names, AreNames names ∧ path.IsAt names ∧
      (names = [] ∧ path.text = "/" ∨ names ≠ [] ∧ path.text = UriPath.trail names) := by
  rcases canonical.named with root | named
  · refine ⟨[], by simp [AreNames], ?_, .inl ⟨rfl, root⟩⟩
    obtain rfl : path = ⟨"/"⟩ := by cases path; rw [← root]
    decide
  · have names : AreNames (UriPath.segments path.text) := fun segment member =>
      ⟨named segment member, UriPath.areClosed_segments path.text segment member⟩
    refine ⟨_, names, ?_, .inr ⟨UriPath.segments_ne_nil path.text,
      (UriPath.trail_segments canonical.rooted).symm⟩⟩
    have none : component? "" = none := rfl
    rw [IsAt, components_eq, start, if_pos canonical.rooted, steps,
      UriPath.fields_eq_cons_segments canonical.rooted, List.filterMap_cons, none,
      filterMap_component?_of_isName named]
    rfl

/-- A climb takes back the last names of a directory. -/
theorem foldl_step_parent (names : List String) (count : Nat) :
    (List.replicate count .parent).foldl normalized.step
        ((names.map .named).reverse ++ [.root]) =
      ((names.take (names.length - count)).map .named).reverse ++ [.root] := by
  induction count generalizing names with
  | zero => rw [List.replicate_zero, List.foldl_nil, Nat.sub_zero, List.take_length]
  | succ count inductionHypothesis =>
      rw [List.replicate_succ, List.foldl_cons]
      cases names using List.reverseRecOn with
      | nil =>
          rw [List.take_nil]
          exact (inductionHypothesis []).trans (by rw [List.take_nil])
      | append_singleton names last =>
          have back : normalized.step (((names ++ [last]).map .named).reverse ++ [.root]) .parent =
              (names.map .named).reverse ++ [.root] := by
            rw [List.map_append, List.reverse_append]
            rfl
          have left : (names ++ [last]).length - (count + 1) = names.length - count := by
            rw [List.length_append, List.length_singleton]
            omega
          rw [back, inductionHypothesis, left, List.take_append_of_le_length (Nat.sub_le _ _)]

end Path

namespace Uri

open PackageResolution.Path (AreNames IsName)

/-! ## The way from one directory to another -/

theorem commonLength_map {function : String → String} (injective : Function.Injective function)
    (first second : List String) :
    commonLength (first.map function) (second.map function) = commonLength first second := by
  induction first generalizing second with
  | nil => simp [commonLength]
  | cons a first inductionHypothesis =>
      cases second with
      | nil => simp [commonLength]
      | cons b second =>
          simp only [List.map_cons, commonLength, injective.eq_iff, inductionHypothesis]

/-- The pieces of the way between two directories: out of what is not shared, and down. -/
def way (origin target : List String) : List String :=
  List.replicate (origin.length - commonLength origin target) ".." ++
    target.drop (commonLength origin target)

theorem solid_way {origin target : List String} (names : AreNames target) :
    Text.AreSolid (way origin target) := by
  rw [way, Text.AreSolid, List.forall_mem_append]
  constructor
  · intro piece member
    rw [List.eq_of_mem_replicate member]
    decide
  · intro piece member
    have isName := names piece (List.mem_of_mem_drop member)
    exact ⟨isName.1.1, isName.2⟩

/-- The way leads from the one directory to the other. -/
theorem normalized_join_way {base path : Path} {origin target : List String}
    (placed : base.IsAt origin) (names : AreNames target) (relative : path.isAbsolute = false)
    (steps : path.steps = (way origin target).filterMap Path.component?) :
    (base.join path).normalized = .root :: target.map .named := by
  have start : base.reached = (origin.map .named).reverse ++ [.root] := by
    rw [← List.reverse_reverse base.reached, ← Path.normalized_eq, placed.normalized,
      List.reverse_cons]
  have climb (count : Nat) :
      (List.replicate count "..").filterMap Path.component? = List.replicate count .parent := by
    rw [List.filterMap_replicate]
    rfl
  have down : (target.drop (commonLength origin target)).filterMap Path.component? =
      (target.drop (commonLength origin target)).map .named :=
    Path.filterMap_component?_of_isName fun name member =>
      (names name (List.mem_of_mem_drop member)).1
  have back : origin.length - (origin.length - commonLength origin target) =
      commonLength origin target :=
    Nat.sub_sub_self (commonLength_le origin target).1
  rw [Path.normalized_eq, Path.reached_join relative, start, steps, way, List.filterMap_append,
    climb, down, List.foldl_append, Path.foldl_step_parent, back, take_commonLength,
    Path.foldl_step_named, ← List.append_assoc, ← List.reverse_append, ← List.map_append,
    List.take_append_drop, List.reverse_append, List.reverse_reverse]
  rfl

/-! ## Identifiers of directories -/

/-- A name as it is written in the path of an identifier. -/
def escapedName (name : String) : String :=
  Percent.encodeWhere isEscapedInPath name

theorem escapedName_injective : Function.Injective escapedName :=
  Percent.encodeWhere_injective (by decide)

theorem isName_escapedName {name : String} (isName : IsName name) : IsName (escapedName name) := by
  have apart {dots : String} (kept : escapedName dots = dots) (other : name ≠ dots) :
      escapedName name ≠ dots := by
    intro same
    exact other (escapedName_injective (same.trans kept.symm))
  exact ⟨apart (by decide) isName.1, apart (by decide) isName.2.1, apart (by decide) isName.2.2⟩

theorem areNames_escaped {names : List String} (areNames : AreNames names) :
    AreNames (names.map escapedName) := by
  intro written member
  rcases List.mem_map.mp member with ⟨name, among, rfl⟩
  exact ⟨isName_escapedName (areNames name among).1,
    Percent.slash_not_mem_encodeWhere (areNames name among).2⟩

/-- The identifier of the directory with the given names, with a slash at the end. -/
def ofNames (names : List String) : Uri where
  scheme := some "file"
  authority := some ""
  path := UriPath.trail (names.map escapedName ++ [""])
  query := none
  fragment := none

theorem escapedName_trail (names : List String) :
    escapedName (UriPath.trail names) = UriPath.trail (names.map escapedName) := by
  have slash : escapedName "/" = "/" := by decide
  induction names with
  | nil => decide
  | cons name names inductionHypothesis =>
      rw [List.map_cons, UriPath.trail_cons, UriPath.trail_cons, ← inductionHypothesis,
        escapedName, Percent.encodeWhere_append, Percent.encodeWhere_append, ← escapedName,
        ← escapedName, ← escapedName, slash]

/-- The identifier of a canonical directory, closed with a slash. -/
theorem exists_ofNames {path : Path} (canonical : path.IsCanonical) :
    ∃ names uri, AreNames names ∧ path.IsAt names ∧ ofPath path = .ok uri ∧
      uri.closePath = ofNames names := by
  rcases canonical.exists_names with ⟨names, areNames, placed, written⟩
  refine ⟨names, _, areNames, placed, by rw [ofPath, if_pos canonical.rooted], ?_⟩
  rw [Text.replace_eq_self canonical.plain, closePath]
  rcases written with ⟨rfl, root⟩ | ⟨filled, trail⟩
  · rw [root]
    decide
  · have shut : Text.endsWith '/' (UriPath.trail (names.map escapedName)) = false := by
      rcases List.eq_nil_or_concat names with none | ⟨others, last, rfl⟩
      · exact absurd none filled
      · have isLast := areNames_escaped areNames (escapedName last) (by simp)
        rw [List.concat_eq_append, List.map_append, List.map_singleton,
          UriPath.endsWith_trail_concat _ isLast.2]
        exact decide_eq_false isLast.1.1
    rw [← escapedName, trail, escapedName_trail]
    simp [isOpaque, shut, ofNames, UriPath.trail_concat_empty]

theorem removeDots_ofNames {names : List String} (areNames : AreNames names) :
    UriPath.removeDots (ofNames names).path = (ofNames names).path ∧
      UriPath.segments (ofNames names).path = names.map escapedName ++ [""] := by
  have closed : UriPath.AreClosed (names.map escapedName ++ [""]) := by
    rw [UriPath.AreClosed, List.forall_mem_append]
    exact ⟨fun name member => (areNames_escaped areNames name member).2, by simp⟩
  have split : UriPath.segments (ofNames names).path = names.map escapedName ++ [""] :=
    UriPath.segments_trail (by simp) closed
  refine ⟨UriPath.removeDots_eq_self (UriPath.beginsWith_trail (by simp)) ?_, split⟩
  rw [split, List.forall_mem_append]
  exact ⟨fun name member => (areNames_escaped areNames name member).1.2, by simp [UriPath.IsPlain]⟩

theorem relativize_ofNames {full base : List String} (fullNames : AreNames full)
    (baseNames : AreNames base) :
    relativize (ofNames full) (ofNames base) =
      ⟨none, none, guarded (descent (base.map escapedName) (full.map escapedName) ""), none,
        none⟩ := by
  rcases removeDots_ofNames fullNames with ⟨fullKept, fullSegments⟩
  rcases removeDots_ofNames baseNames with ⟨baseKept, baseSegments⟩
  have rooted (names : List String) : Text.beginsWith '/' (ofNames names).path = true :=
    UriPath.beginsWith_trail (by simp)
  rw [relativize, fullKept, baseKept, rooted, rooted, directoriesAndName, directoriesAndName,
    fullSegments, baseSegments]
  simp [isOpaque, ofNames]

/-- The pieces of the reference between two directories are those of the way, escaped, with a
`.` that may be in front. -/
theorem exists_pieces (origin : List String) {target : List String} (names : AreNames target) :
    ∃ start, (start = [] ∨ start = ["."]) ∧ start ++ way origin target ≠ [] ∧
      guarded (descent (origin.map escapedName) (target.map escapedName) "") =
        escapedName ("/".intercalate (start ++ way origin target ++ [""])) := by
  have climb (count : Nat) :
      List.replicate count ".." = (List.replicate count "..").map escapedName := by
    rw [List.map_replicate]
    congr 1
  have closed : UriPath.AreClosed (target.map escapedName) := fun name member =>
    (areNames_escaped names name member).2
  have pieces : Text.fields '/'
      (descent (origin.map escapedName) (target.map escapedName) "") =
        (way origin target ++ [""]).map escapedName := by
    rw [fields_descent _ closed (by simp), commonLength_map escapedName_injective,
      List.length_map, climb, ← List.map_drop, way, List.map_append, List.map_append,
      List.append_assoc]
    rfl
  rcases fields_guarded (descent (origin.map escapedName) (target.map escapedName) "") with
    ⟨start, single, guardedPieces, first⟩
  rw [pieces] at guardedPieces
  have kept : start.map escapedName = start := by
    rcases single with rfl | rfl
    · rfl
    · decide
  have whole : Text.fields '/'
      (guarded (descent (origin.map escapedName) (target.map escapedName) "")) =
        (start ++ way origin target ++ [""]).map escapedName := by
    rw [guardedPieces, List.append_assoc]
    exact (List.map_append.trans (by rw [kept])).symm
  refine ⟨start, single, ?_, ?_⟩
  · intro none
    rw [whole, none] at first
    exact first (by decide)
  · have joined := Text.intercalate_fields '/'
      (guarded (descent (origin.map escapedName) (target.map escapedName) ""))
    rw [whole] at joined
    rw [escapedName, Percent.encodeWhere_intercalate (by decide)]
    exact joined.symm

end Uri

/-! ## What the manifest records -/

namespace Manifest

/-- The path that is recorded for a canonical directory leads to it from a canonical root. -/
theorem leads_back {root directory : Path} {uri : Uri} {path : String}
    (rootCanonical : root.IsCanonical) (canonical : directory.IsCanonical)
    (located : Uri.ofPath root = .ok uri)
    (recorded : relativePath uri.closePath directory = .ok path) :
    (root.join ⟨path⟩).normalized = directory.components := by
  rcases Uri.exists_ofNames rootCanonical with ⟨origin, first, originNames, rootAt, found, closed⟩
  rcases Uri.exists_ofNames canonical with ⟨target, second, names, placed, made, shut⟩
  obtain rfl := Except.ok.inj (found.symm.trans located)
  rcases Uri.exists_pieces origin names with ⟨start, single, filled, written⟩
  have solid : Text.AreSolid (start ++ Uri.way origin target) := by
    rw [Text.AreSolid, List.forall_mem_append]
    refine ⟨?_, Uri.solid_way names⟩
    rcases single with rfl | rfl
    · simp
    · decide
  have decoded : Percent.decode (Uri.escapedName
      ("/".intercalate (start ++ Uri.way origin target ++ [""]))) =
        .ok ("/".intercalate (start ++ Uri.way origin target ++ [""])) :=
    Percent.decode_encodeWhere (by decide) _
  obtain rfl : "/".intercalate (start ++ Uri.way origin target) = path := by
    rw [relativePath, made, Result.ok_bind, shut, closed, Uri.relativize_ofNames names originNames]
      at recorded
    simp only [written, decoded, Text.trimEnd_intercalate filled solid,
      if_neg (Text.intercalate_ne_empty filled solid)] at recorded
    exact Result.pure_eq_ok_iff.mp recorded
  rw [placed]
  apply Uri.normalized_join_way rootAt names (Path.isAbsolute_intercalate filled solid)
  rw [Path.steps, Text.fields_of_solid filled solid, List.filterMap_append]
  rcases single with rfl | rfl
  · rfl
  · rfl

end Manifest

/-! ## A project in a directory full of marks -/

namespace Aviary

/-- A project in a directory whose name an identifier cannot hold as it is. -/
def crate : Project where
  directory := ⟨"/work/50% of: birds?"⟩
  package := some { name := "crate", baseUri := "package://localhost:0/crate", version := "1.0.0" }
  dependencies := []

/-- A source that finds the crate. -/
def crateSource : Source (Stateful Unit) :=
  { source with load := fun _ => return crate }

/-- A project that depends on the crate. -/
def crateProject : Project where
  directory := ⟨"/work/aviary"⟩
  package := none
  dependencies := [("crate", .localProject ⟨"/work/50% of: birds?"⟩)]

theorem resolve_crate :
    (crateProject.resolve crateSource ()).map
        (fun pair => pair.1.find? "package://localhost:0/crate@1") =
      .ok (some (.localProject "projectpackage://localhost:0/crate@1.0.0"
        "../50% of: birds?")) := by
  decide +kernel

end Aviary

namespace Project

variable {σ : Type} {source : Source (Stateful σ)} {project : Project} {manifest : Manifest}
  {before after : σ}

/-- An entry for a local project is that of a project that was visited. -/
theorem visited_of_recorded (resolved : project.resolve source before = .ok (manifest, after))
    {place uri path : String} (written : manifest.find? place = some (.localProject uri path)) :
    ∃ visited ∈ Told.visited project (project.told source before), ∃ package root,
      Walk.publishedPackage visited = .ok package ∧ package.key.text = place ∧
        uri = package.toProjectPackage.text ∧ Uri.ofPath project.directory = .ok root ∧
        Manifest.relativePath root.closePath visited.directory = .ok path := by
  rcases resolve_course resolved with ⟨_, -, -, made⟩
  rcases Manifest.exists_key_of_find? made written with ⟨key, rfl⟩
  rcases resolve_kept resolved with ⟨finish, root, kept, -, located, entries⟩
  rcases entries key with ⟨-, absent⟩ | ⟨choice, entry, found, records, present⟩
  · cases absent.symm.trans written
  obtain rfl := Option.some.inj (present.symm.trans written)
  cases choice with
  | remote package checksum => cases Except.ok.inj records
  | localProject package directory =>
      rcases Result.bind_eq_ok_iff.mp records with ⟨way, leads, same⟩
      obtain ⟨rfl, rfl⟩ := ResolvedDependency.localProject.inj (Result.pure_eq_ok_iff.mp same)
      rcases kept.chosen_local key package directory found with
        ⟨visited, among, published, rfl, rfl⟩
      exact ⟨visited, among, package, root, published, rfl, rfl, located, leads⟩

/-- Every entry for a local project is that of a project that was visited, and every project
that was visited has one; if its directory and that of the root project are canonical, the
recorded path leads from the root project to it. -/
theorem recorded_paths_lead_back
    (resolved : project.resolve source before = .ok (manifest, after))
    (rootCanonical : project.directory.IsCanonical) :
    (∀ place uri path, manifest.find? place = some (.localProject uri path) →
      ∃ visited ∈ Told.visited project (project.told source before), ∃ package,
        Walk.publishedPackage visited = .ok package ∧ package.key.text = place ∧
          uri = package.toProjectPackage.text ∧
          (visited.directory.IsCanonical →
            (project.directory.join ⟨path⟩).normalized = visited.directory.components)) ∧
    ∀ visited ∈ Told.visited project (project.told source before), ∀ package,
      Walk.publishedPackage visited = .ok package →
        ∃ path, manifest.find? package.key.text =
            some (.localProject package.toProjectPackage.text path) ∧
          (visited.directory.IsCanonical →
            (project.directory.join ⟨path⟩).normalized = visited.directory.components) := by
  constructor
  · intro place uri path written
    rcases visited_of_recorded resolved written with
      ⟨visited, among, package, root, published, same, named, located, leads⟩
    refine ⟨visited, among, package, published, same, named, ?_⟩
    intro canonical
    exact Manifest.leads_back rootCanonical canonical located leads
  · intro visited among package published
    rcases records_visited resolved among published with ⟨root, path, located, leads, written⟩
    refine ⟨path, written, ?_⟩
    intro canonical
    exact Manifest.leads_back rootCanonical canonical located leads

/-- The way to the crate is written without escapes and leads there. -/
theorem crate_path_leads_back :
    ∃ manifest, Aviary.crateProject.resolve Aviary.crateSource () = .ok (manifest, ()) ∧
      manifest.find? "package://localhost:0/crate@1" = some
        (.localProject "projectpackage://localhost:0/crate@1.0.0" "../50% of: birds?") ∧
      ∃ visited ∈ Told.visited Aviary.crateProject
          (Aviary.crateProject.told Aviary.crateSource ()),
        visited.directory.IsCanonical ∧
          (Aviary.crateProject.directory.join ⟨"../50% of: birds?"⟩).normalized =
            visited.directory.components := by
  rcases Result.map_eq_ok_iff.mp Aviary.resolve_crate with ⟨⟨manifest, ⟨⟩⟩, resolved, written⟩
  have rootCanonical : Aviary.crateProject.directory.IsCanonical := by decide
  have alone : Told.visited Aviary.crateProject
      (Aviary.crateProject.told Aviary.crateSource ()) = [Aviary.crate] := by
    decide +kernel
  have canonical : Aviary.crate.directory.IsCanonical := by decide
  rcases (recorded_paths_lead_back resolved rootCanonical).1 _ _ _ written with
    ⟨visited, among, package, -, -, -, leads⟩
  obtain rfl : visited = Aviary.crate := by
    rw [alone] at among
    exact List.mem_singleton.mp among
  exact ⟨manifest, resolved, written, _, among, canonical, leads canonical⟩

end Project

end PackageResolution
