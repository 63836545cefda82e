import Mathlib.Data.List.Nodup
import PackageResolution.Proofs.Package.Identifier
import PackageResolution.Proofs.Path.Names
import PackageResolution.Proofs.Uri.DotSegments

/-!
# Where packages are kept in a cache

Below a directory of the cache, a package is kept where the text of its identifier says,
read as a path, and its metadata document where that text with `.json` after it says.  So
two packages have different places.  But one place can lie below the other one, and a
document can have the place of a package: both can be read off the texts.
-/

namespace PackageResolution

/-! ## Places below a directory -/

namespace Path

theorem text_join_ne_empty {base path : Path} (filled : base.text ≠ "")
    (relative : path.isAbsolute = false) : (base.join path).text ≠ "" := by
  rw [join, relative, Bool.false_or, if_neg (by simpa using filled)]
  split <;> simp [filled]

/-- Pieces that are joined one after the other are steps one after the other. -/
theorem components_foldl_join {pieces : List String}
    (plain : ∀ piece ∈ pieces, '/' ∉ piece.toList) {base : Path} (filled : base.text ≠ "") :
    (pieces.foldl (fun path piece => path.join ⟨piece⟩) base).components =
      base.components ++ pieces.filterMap component? := by
  induction pieces generalizing base with
  | nil => exact (List.append_nil _).symm
  | cons piece pieces inductionHypothesis =>
      rw [List.forall_mem_cons] at plain
      have relative := isAbsolute_of_not_mem plain.1
      rw [List.foldl_cons, inductionHypothesis plain.2 (text_join_ne_empty filled relative),
        components_join relative filled, steps, Text.fields_of_not_mem plain.1,
        List.append_assoc, ← List.filterMap_append, List.singleton_append]

/-- The directory of a cache that holds the packages. -/
def packageArea (cache : Path) : Path :=
  cache.join ⟨"package-1"⟩

theorem text_packageArea_ne_empty (cache : Path) : cache.packageArea.text ≠ "" := by
  rw [packageArea, join]
  split
  · decide
  · split <;> simp

theorem components_packageArea_ne_nil (cache : Path) : cache.packageArea.components ≠ [] := by
  by_cases empty : cache.text = ""
  · rw [packageArea, join, if_pos (by simp [empty])]
    decide
  · have single : steps ⟨"package-1"⟩ = [.named "package-1"] := by decide
    rw [packageArea, components_join (by decide) empty, single]
    exact List.append_ne_nil_of_right_ne_nil _ (List.cons_ne_nil _ _)

end Path

namespace PackageUri

variable (package : PackageUri) (cache : Path)

/-! ## Places by texts -/

/-- The pieces of the authority and the path of a package, with what is written after
them. -/
theorem exists_fields : ∃ start last, UriPath.segments package.path = start ++ [last] ∧
    package.name = last ∧ ∀ suffix : String, '/' ∉ suffix.toList →
      Text.fields '/' (package.authority ++ package.path ++ suffix) =
        package.authority :: start ++ [last ++ suffix] := by
  rcases package.exists_path with ⟨rest, whole⟩
  rcases Text.exists_fields_append rest with ⟨start, last, pieces, extended⟩
  refine ⟨start, last, ?_, ?_, ?_⟩
  · rw [whole, UriPath.segments_slash_append, pieces]
  · have rooted : Text.fields '/' ("/" ++ rest) = ("" :: start) ++ [last] := by
      rw [Text.fields_slash_append, pieces, List.cons_append]
    rw [name, whole, Text.lastField_of_fields rooted]
  · intro suffix plain
    rw [whole, ← String.append_assoc, String.append_assoc, Text.fields_append,
      Text.fields_of_not_mem package.authority_plain.2.1, extended suffix plain]
    rfl

theorem slash_not_mem_version : '/' ∉ ("@" ++ package.version.text).toList := by
  rw [String.toList_append, List.mem_append, not_or]
  exact ⟨by decide, Version.not_mem_text (by decide) (by decide)⟩

theorem slash_not_mem_name : '/' ∉ package.name.toList := by
  rcases package.exists_fields with ⟨start, last, segments, rfl, -⟩
  have among : package.name ∈ UriPath.segments package.path := by
    rw [segments]
    exact List.mem_append_right _ List.mem_cons_self
  exact Text.not_mem_of_mem_fields among

theorem main_eq : package.main =
    package.authority ++ package.path ++ ("@" ++ package.version.text) := by
  simp only [main, versionedPath, String.append_assoc]

/-- The place of a package has the components of its text after those of the area. -/
theorem components_cachePath : (package.cachePath cache).components =
    cache.packageArea.components ++ Path.steps ⟨package.main⟩ := by
  rcases package.exists_fields with ⟨start, last, segments, -, pieces⟩
  have plain : ∀ piece ∈ package.authority :: start ++ [last ++ ("@" ++ package.version.text)],
      '/' ∉ piece.toList := by
    rw [← pieces _ package.slash_not_mem_version]
    exact fun piece => Text.not_mem_of_mem_fields
  have joined := Path.components_foldl_join plain cache.text_packageArea_ne_empty
  rw [Path.steps, main_eq, pieces _ package.slash_not_mem_version, ← joined, cachePath, segments,
    List.getLastD_concat, List.dropLast_concat, String.append_assoc]
  rfl

/-- The name of a package with its version and what is written after it is a name. -/
theorem isName_versioned (last suffix : String) :
    Path.IsName (last ++ ("@" ++ package.version.text) ++ suffix) := by
  have marked : '@' ∈ (last ++ ("@" ++ package.version.text) ++ suffix).toList := by simp
  exact Path.isName_of_mem marked (by decide)

/-- The steps to a package are those to a directory and a name. -/
theorem exists_steps : ∃ above, ∀ suffix : String, '/' ∉ suffix.toList →
    Path.steps ⟨package.main ++ suffix⟩ =
      above ++ [.named (package.name ++ ("@" ++ package.version.text) ++ suffix)] := by
  rcases package.exists_fields with ⟨start, last, -, rfl, pieces⟩
  refine ⟨(package.authority :: start).filterMap Path.component?, ?_⟩
  intro suffix plain
  have joined : '/' ∉ ("@" ++ package.version.text ++ suffix).toList := by
    rw [String.toList_append, List.mem_append, not_or]
    exact ⟨package.slash_not_mem_version, plain⟩
  rw [Path.steps, main_eq, String.append_assoc, pieces _ joined, List.filterMap_append,
    ← String.append_assoc]
  simp only [List.filterMap_cons, (package.isName_versioned _ suffix).component?,
    List.filterMap_nil]

/-- The place of the metadata document of a package has the components of its text with
`.json` after it. -/
theorem components_metadataCachePath : (package.metadataCachePath cache).components =
    cache.packageArea.components ++ Path.steps ⟨package.main ++ ".json"⟩ := by
  rcases package.exists_steps with ⟨above, steps⟩
  have whole := steps "" (by decide)
  rw [String.append_empty, String.append_empty] at whole
  have split := package.components_cachePath cache
  rw [whole, ← List.append_assoc] at split
  have filled : cache.packageArea.components ++ above ≠ [] := by
    intro nothing
    exact cache.components_packageArea_ne_nil (List.append_eq_nil_iff.mp nothing).1
  have plain : '/' ∉ (package.name ++ ("@" ++ package.version.text) ++ ".json").toList := by
    rw [String.toList_append, String.toList_append, List.mem_append, List.mem_append, not_or,
      not_or]
    exact ⟨⟨package.slash_not_mem_name, package.slash_not_mem_version⟩, by decide⟩
  have written : s!"{package.name}@{package.version.text}.json" =
      package.name ++ ("@" ++ package.version.text) ++ ".json" := by
    simp only [String.append_assoc]
    rfl
  rw [metadataCachePath, written,
    Path.components_withFileName split filled (Path.isAbsolute_of_not_mem plain),
    Path.steps_of_isName (package.isName_versioned package.name ".json") plain,
    steps ".json" (by decide), List.append_assoc]

/-! ## Packages with names of hosts -/

/-- That a package is what a cache keeps, and its authority is not read as a step within the
cache. -/
structure IsKept (package : PackageUri) : Prop where
  /-- The package is to be found at its server. -/
  scheme_eq : package.scheme = .package
  /-- The package is not pinned. -/
  pin_eq : package.pin = none
  /-- The authority is neither `.` nor `..`. -/
  authority_isName : Path.IsName package.authority

instance : Decidable package.IsKept :=
  decidable_of_iff (package.scheme = .package ∧ package.pin = none ∧
    package.authority ≠ "" ∧ package.authority ≠ "." ∧ package.authority ≠ "..")
    ⟨fun parts => ⟨parts.1, parts.2.1, parts.2.2⟩,
      fun kept => ⟨kept.scheme_eq, kept.pin_eq, kept.authority_isName⟩⟩

variable {package cache}

/-- The text between the scheme and the pin tells kept packages apart. -/
theorem IsKept.eq_of_main_eq {other : PackageUri} (kept : package.IsKept)
    (otherKept : other.IsKept) (same : package.main = other.main) : package = other := by
  have plain {kept : PackageUri} (pin : kept.pin = none) : kept.HasPlainPin := by
    intro checksum held
    rw [pin] at held
    exact nomatch held
  have texts : package.text = other.text := by
    rw [text_eq, text_eq, kept.scheme_eq, otherKept.scheme_eq, same, pinText, pinText,
      kept.pin_eq, otherKept.pin_eq]
  have read := parse_text (plain kept.pin_eq)
  rw [texts, parse_text (plain otherKept.pin_eq)] at read
  exact (Except.ok.inj read).symm

theorem IsKept.isName_of_mem (kept : package.IsKept) {suffix piece : String}
    (plain : '/' ∉ suffix.toList) (member : piece ∈ Text.fields '/' (package.main ++ suffix)) :
    Path.IsName piece := by
  rcases package.exists_fields with ⟨start, last, segments, -, pieces⟩
  have joined : '/' ∉ ("@" ++ package.version.text ++ suffix).toList := by
    rw [String.toList_append, List.mem_append, not_or]
    exact ⟨package.slash_not_mem_version, plain⟩
  rw [main_eq, String.append_assoc, pieces _ joined, ← String.append_assoc, List.mem_append,
    List.mem_cons, List.mem_singleton] at member
  rcases member with (rfl | among) | rfl
  · exact kept.authority_isName
  · have whole := package.path_segments
    rw [segments, List.all_append, Bool.and_eq_true] at whole
    have segment := List.all_eq_true.mp whole.1 piece among
    simpa [isPlainSegment, Path.IsName, and_assoc] using segment
  · exact package.isName_versioned last suffix

end PackageUri

namespace Path

/-- The components of the place that a text names in the area for packages. -/
def place (cache : Path) (text : String) : List Component :=
  cache.packageArea.normalized ++ (Text.fields '/' text).map .named

variable {cache : Path} {first second : String}

/-- A path whose steps from the area are names leads to the place of these names. -/
theorem normalized_eq_place {path : Path} {text : String}
    (split : path.components = cache.packageArea.components ++ steps ⟨text⟩)
    (names : ∀ piece ∈ Text.fields '/' text, IsName piece) :
    path.normalized = cache.place text := by
  rw [normalized_eq, reached, split, List.foldl_append, steps_eq_map_named names,
    foldl_step_named, List.reverse_append, List.reverse_reverse]
  rfl

theorem place_inj : cache.place first = cache.place second ↔ first = second := by
  constructor
  · intro same
    have pieces := named_injective.list_map (List.append_cancel_left same)
    exact Text.fields_injective pieces
  · rintro rfl
    rfl

/-- One place is at or below another exactly if its text is the same or goes on with a
slash. -/
theorem place_prefix_iff : cache.place first <+: cache.place second ↔
    second = first ∨ ∃ rest, second = first ++ "/" ++ rest := by
  rw [← Text.fields_prefix_iff, place, place, List.prefix_append_right_inj,
    List.prefix_map_iff_of_injective named_injective]

theorem place_below_iff :
    (cache.place first <+: cache.place second ∧ cache.place second ≠ cache.place first) ↔
      ∃ rest, second = first ++ "/" ++ rest := by
  rw [place_prefix_iff, Ne, place_inj]
  constructor
  · rintro ⟨same | continues, different⟩
    · exact absurd same different
    · exact continues
  · rintro ⟨rest, rfl⟩
    refine ⟨.inr ⟨rest, rfl⟩, ?_⟩
    rw [String.append_assoc]
    exact (Text.ne_append (by simp) first).symm

theorem place_ne_packageArea : cache.place first ≠ cache.packageArea.normalized := by
  intro same
  have nothing := List.append_right_eq_self.mp same
  exact Text.fields_ne_nil '/' first (List.map_eq_nil_iff.mp nothing)

/-- That a path leads to something below a directory. -/
def LiesBelow (path base : Path) : Prop :=
  path.LiesWithin base ∧ path.normalized ≠ base.normalized

instance (path base : Path) : Decidable (path.LiesBelow base) :=
  inferInstanceAs (Decidable (_ ∧ _))

end Path

namespace PackageUri

variable {package : PackageUri}

theorem IsKept.isName_of_mem_main (kept : package.IsKept) {piece : String}
    (member : piece ∈ Text.fields '/' package.main) : Path.IsName piece := by
  rw [← String.append_empty (s := package.main)] at member
  exact kept.isName_of_mem (by decide) member

theorem IsKept.normalized_cachePath (kept : package.IsKept) (cache : Path) :
    (package.cachePath cache).normalized = cache.place package.main := by
  apply Path.normalized_eq_place (package.components_cachePath cache)
  exact fun piece => kept.isName_of_mem_main

theorem IsKept.normalized_metadataCachePath (kept : package.IsKept) (cache : Path) :
    (package.metadataCachePath cache).normalized = cache.place (package.main ++ ".json") := by
  apply Path.normalized_eq_place (package.components_metadataCachePath cache)
  exact fun piece => kept.isName_of_mem (by decide)

/-- Below a path of names, the place of a package is a path of names. -/
theorem IsKept.cachePath_isAt (kept : package.IsKept) {cache : Path} {directory : List String}
    (written : cache.IsAt directory) : (package.cachePath cache).IsAt
      (directory ++ "package-1" :: Text.fields '/' package.main) := by
  have area : cache.packageArea.IsAt (directory ++ ["package-1"]) :=
    written.join_name (by decide) (by decide)
  rw [Path.IsAt, components_cachePath, area, Path.steps_eq_map_named fun piece =>
    kept.isName_of_mem_main]
  simp

theorem IsKept.metadataCachePath_isAt (kept : package.IsKept) {cache : Path}
    {directory : List String} (written : cache.IsAt directory) :
    (package.metadataCachePath cache).IsAt
      (directory ++ "package-1" :: Text.fields '/' (package.main ++ ".json")) := by
  have area : cache.packageArea.IsAt (directory ++ ["package-1"]) :=
    written.join_name (by decide) (by decide)
  rw [Path.IsAt, components_metadataCachePath, area, Path.steps_eq_map_named fun piece =>
    kept.isName_of_mem (by decide)]
  simp

/-- The places of a package in a cache: its directory and its metadata document. -/
def places (package : PackageUri) (cache : Path) : List Path :=
  [package.cachePath cache, package.metadataCachePath cache]

/-- What a cache relies on where it takes a directory for a package: all places of two
packages are different places below the area for packages, and no place of the first one is
below the directory of the second one. -/
structure LocatedApart (cache : Path) (first second : PackageUri) : Prop where
  distinct : ((first.places cache ++ second.places cache).map Path.normalized).Nodup
  below : ∀ path ∈ first.places cache ++ second.places cache, path.LiesBelow cache.packageArea
  outside : ∀ path ∈ first.places cache, ¬ path.LiesBelow (second.cachePath cache)

theorem IsKept.liesBelow_packageArea (kept : package.IsKept) {cache path : Path}
    (among : path ∈ package.places cache) : path.LiesBelow cache.packageArea := by
  have written : ∃ text, path.normalized = cache.place text := by
    rw [places, List.mem_pair] at among
    rcases among with same | same
    · rw [same, kept.normalized_cachePath]
      exact ⟨_, rfl⟩
    · rw [same, kept.normalized_metadataCachePath]
      exact ⟨_, rfl⟩
  rcases written with ⟨text, written⟩
  constructor
  · rw [Path.LiesWithin, written]
    exact List.prefix_append _ _
  · rw [written]
    exact Path.place_ne_packageArea

/-- No place of a package is below the directory of another one exactly if the text of the
package does not go on from that of the other one with a slash. -/
theorem IsKept.outside_iff {other : PackageUri} (kept : package.IsKept) (otherKept : other.IsKept)
    (cache : Path) : (∀ path ∈ package.places cache, ¬ path.LiesBelow (other.cachePath cache)) ↔
      ∀ rest, package.main ≠ other.main ++ "/" ++ rest := by
  have directory : (package.cachePath cache).LiesBelow (other.cachePath cache) ↔
      ∃ rest, package.main = other.main ++ "/" ++ rest := by
    rw [Path.LiesBelow, Path.LiesWithin, kept.normalized_cachePath,
      otherKept.normalized_cachePath, Path.place_below_iff]
  have document : (package.metadataCachePath cache).LiesBelow (other.cachePath cache) ↔
      ∃ rest, package.main = other.main ++ "/" ++ rest := by
    rw [Path.LiesBelow, Path.LiesWithin, kept.normalized_metadataCachePath,
      otherKept.normalized_cachePath, Path.place_below_iff]
    exact Text.exists_append_slash_iff (by decide)
  rw [places, List.forall_mem_cons, List.forall_mem_singleton, directory, document, not_exists,
    and_self]

theorem map_normalized_places {first second : PackageUri} (firstKept : first.IsKept)
    (secondKept : second.IsKept) (cache : Path) :
    (first.places cache ++ second.places cache).map Path.normalized =
      [first.main, first.main ++ ".json", second.main, second.main ++ ".json"].map
        cache.place := by
  rw [places, places, List.map_append, List.map_cons, List.map_cons, List.map_cons,
    List.map_cons, firstKept.normalized_cachePath, firstKept.normalized_metadataCachePath,
    secondKept.normalized_cachePath, secondKept.normalized_metadataCachePath]
  rfl

/-- Two packages are located apart exactly if neither has the text of the document of the
other one and the first one does not go on from the second one with a slash. -/
theorem locatedApart_iff {first second : PackageUri} (firstKept : first.IsKept)
    (secondKept : second.IsKept) (different : first ≠ second) (cache : Path) :
    LocatedApart cache first second ↔
      first.main ≠ second.main ++ ".json" ∧ second.main ≠ first.main ++ ".json" ∧
        ∀ rest, first.main ≠ second.main ++ "/" ++ rest := by
  have texts : first.main ≠ second.main := fun same =>
    different (firstKept.eq_of_main_eq secondKept same)
  have distinct : ((first.places cache ++ second.places cache).map Path.normalized).Nodup ↔
      first.main ≠ second.main ++ ".json" ∧ second.main ≠ first.main ++ ".json" := by
    rw [map_normalized_places firstKept secondKept,
      List.nodup_map_iff fun _ _ same => Path.place_inj.mp same]
    have longer (text : String) : text ≠ text ++ ".json" := Text.ne_append (by decide) text
    simp [texts, longer, eq_comm]
  constructor
  · rintro ⟨apart, -, outside⟩
    rcases distinct.mp apart with ⟨ahead, behind⟩
    exact ⟨ahead, behind, (firstKept.outside_iff secondKept cache).mp outside⟩
  · rintro ⟨ahead, behind, onward⟩
    constructor
    · exact distinct.mpr ⟨ahead, behind⟩
    · intro path among
      rcases List.mem_append.mp among with among | among
      · exact firstKept.liesBelow_packageArea among
      · exact secondKept.liesBelow_packageArea among
    · exact (firstKept.outside_iff secondKept cache).mpr onward

end PackageUri

end PackageResolution
