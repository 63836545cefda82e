import PackageResolution.Module.Import
import PackageResolution.Proofs.Package.Written
import PackageResolution.Proofs.Project.Settlement
import PackageResolution.Proofs.Uri.Rooted

/-!
# References inside a package

A reference without a scheme and without an authority leads from one module of a package to
another one, by the same rules as in any other module, as long as it does not climb above the
root of the package.  The identifier that it leads to is that of an asset, unless the reference
has a query.  The query is written between the version and the asset, where package identifiers
have none, so it is read as a part of the version.
-/

namespace PackageResolution

open UriPath (Climbs)

/-! ## Modules of packages -/

theorem PackageAsset.scheme_of_hasScheme {uri : Uri} {asset : PackageAsset}
    (has : uri.hasScheme "package" = true) (read : PackageAsset.parse uri.text = .ok asset) :
    asset.package.scheme = .package := by
  rcases PackageAsset.parse_eq_ok_iff.mp read with ⟨-, path, -, whole⟩
  cases named : asset.package.scheme with
  | package => rfl
  | projectPackage =>
      rw [Uri.hasScheme, Option.any_eq_true] at has
      rcases has with ⟨scheme, present, same⟩
      have letters : scheme.toList.map Char.toLower = "package".toList.map Char.toLower := by
        have lowered := congrArg String.toList (beq_iff_eq.mp same)
        simpa only [Text.lower, String.toList_ofList] using lowered.symm
      have long : scheme.toList.length = 7 := by simpa using congrArg List.length letters
      -- the eighth character ends the one scheme and stands inside the other
      have colon : uri.text.toList[7]? = some ':' := by
        simp [Uri.text, present, Uri.closed, long]
      have letter : uri.text.toList[7]? = some 'p' := by
        have name : PackageScheme.projectPackage.text.toList = "projectpackage".toList := rfl
        simp [whole, PackageUri.text_eq, named, name]
      exact absurd (Option.some.inj (colon.symm.trans letter)) (by decide)

/-- An asset that a manifest settles is one of a package at its server. -/
theorem Manifest.asset_of_resolveAsset {manifest : Manifest} {asset pinned : PackageAsset}
    {directory : Path} (settled : manifest.resolveAsset asset directory = .ok (.remote pinned)) :
    pinned.package.scheme = .package ∧
      ∃ path, PackageAsset.ofPath pinned.package path = .ok pinned := by
  unfold resolveAsset at settled
  simp only at settled
  split at settled
  · cases settled
  · split at settled
    · cases settled
    split at settled
    · cases settled
    rename_i made
    obtain rfl := ResolvedAsset.remote.inj (Except.ok.inj settled)
    rcases PackageAsset.ofPath_eq_ok_iff.mp made with ⟨rooted, normal, named⟩
    rw [named]
    exact ⟨rfl, _, made⟩
  · split at settled <;> cases settled

namespace ModuleContext

/-- A module of a package is an asset with a normal path of a package at its server. -/
theorem asset_of_key {context : ModuleContext} {origin : Uri} {asset : PackageAsset}
    {resolver : Resolver} (made : context.key origin = .ok (.package asset resolver)) :
    asset.package.scheme = .package ∧ ∃ path, PackageAsset.ofPath asset.package path = .ok asset := by
  unfold key at made
  split at made
  · cases made
  split at made
  · cases made
  split at made
  · cases made
  split at made
  · unfold keyOnPath at made
    split at made <;> cases made
  split at made
  · rename_i has
    rcases Result.bind_eq_ok_iff.mp made with ⟨named, found, finds⟩
    rcases Result.bind_eq_ok_iff.mp finds with ⟨finder, -, built⟩
    obtain ⟨rfl, -⟩ := ModuleKey.package.inj (Result.pure_eq_ok_iff.mp built)
    have read := Result.mapError_eq_ok_iff.mp found
    rcases PackageAsset.parse_eq_ok_iff.mp read with ⟨-, path, normal, -⟩
    exact ⟨PackageAsset.scheme_of_hasScheme has read, path, normal⟩
  split at made
  · unfold keyInDependency at made
    split at made
    · cases made
    rename_i manifest directory _
    rcases Result.bind_eq_ok_iff.mp made with ⟨named, -, settles⟩
    rcases Result.bind_eq_ok_iff.mp settles with ⟨resolved, settled, finds⟩
    cases resolved with
    | localFile file =>
        rcases Result.bind_eq_ok_iff.mp finds with ⟨located, -, built⟩
        cases Result.pure_eq_ok_iff.mp built
    | remote pinned =>
        rcases Result.bind_eq_ok_iff.mp finds with ⟨finder, -, built⟩
        obtain ⟨rfl, -⟩ := ModuleKey.package.inj (Result.pure_eq_ok_iff.mp built)
        exact Manifest.asset_of_resolveAsset settled
  · cases made

theorem key_eq_keyInPackage {context : ModuleContext} {uri : Uri}
    (scheme : uri.scheme = some "package") : context.key uri = context.keyInPackage uri := by
  have has (other : String) : uri.hasScheme other = Text.sameIgnoringCase other "package" := by
    rw [Uri.hasScheme, scheme, Option.any_some]
  have same : Text.sameIgnoringCase "package" "package" = true := by decide
  have others : ∀ other ∈ ["file", "http", "https", "pkl", "modulepath"],
      Text.sameIgnoringCase other "package" = false := by decide
  simp only [List.forall_mem_cons] at others
  simp only [key, has, others, same, Bool.or_false, Bool.false_eq_true, if_false, if_true]

/-- A module in a package is found if its asset can be read. -/
theorem key_eq_map_assetOf {context : ModuleContext} {resolver : Resolver}
    (configured : context.resolver = some resolver) {uri : Uri}
    (scheme : uri.scheme = some "package") :
    context.key uri = (assetOf uri).map fun asset => .package asset resolver := by
  rw [key_eq_keyInPackage scheme, keyInPackage, requireResolver, configured]
  cases assetOf uri with
  | error failure => rfl
  | ok asset => rfl

theorem scheme_toUri {asset : PackageAsset} (served : asset.package.scheme = .package) :
    asset.toUri.scheme = some "package" := by
  simp [PackageAsset.toUri, PackageUri.toUri, served, PackageScheme.text]

/-- An asset of a package at its server is found by its identifier, without the pin. -/
theorem key_toUri {context : ModuleContext} {resolver : Resolver}
    (configured : context.resolver = some resolver) {package : PackageUri} {path : String}
    {asset : PackageAsset} (served : package.scheme = .package)
    (made : PackageAsset.ofPath package path = .ok asset) :
    context.key asset.toUri =
      .ok (.package { asset with package := asset.package.unpinned } resolver) := by
  rcases PackageAsset.ofPath_eq_ok_iff.mp made with ⟨-, -, rfl⟩
  rw [key_eq_map_assetOf configured (scheme_toUri served), assetOf,
    PackageAsset.parse_toUri made]
  rfl

end ModuleContext

/-! ## Queries in package identifiers -/

namespace PackageUri

/-- A question mark after a version without one stands behind the mark of a pin. -/
theorem colons_before_query {version pin before query : List Char} (unasked : '?' ∉ version)
    (pinned : pin = [] ∨ ∃ digits, pin = ':' :: ':' :: digits)
    (same : version ++ pin = before ++ '?' :: query) : [':', ':'] <:+: before := by
  rcases List.append_eq_append_iff.mp same with ⟨more, rfl, ends⟩ | ⟨more, rfl, ends⟩
  · rcases pinned with rfl | ⟨digits, rfl⟩
    · simp at ends
    · rcases more with _ | ⟨first, _ | ⟨second, more⟩⟩
      · exact absurd (List.cons.inj ends).1 (by decide)
      · exact absurd (List.cons.inj (List.cons.inj ends).2).1 (by decide)
      · obtain ⟨rfl, later⟩ := List.cons.inj ends
        obtain ⟨rfl, -⟩ := List.cons.inj later
        exact ⟨version, more, by simp⟩
  · rcases more with _ | ⟨first, more⟩
    · rcases pinned with rfl | ⟨digits, rfl⟩
      · simp at ends
      · exact absurd (List.cons.inj ends).1 (by decide)
    · obtain ⟨rfl, -⟩ := List.cons.inj ends
      exact absurd (List.mem_append_right _ List.mem_cons_self) unasked

/-- The marks of one package are not found in another one: where a question mark follows the
text of a package, the version that is written before it is read as a part of the path. -/
theorem exists_path_of_query {package other : PackageUri} {query : List Char}
    (written : other.versionedPath.toList ++ other.pinText.toList =
      package.versionedPath.toList ++ '?' :: query) :
    ∃ rest, other.path = package.versionedPath ++ "?" ++ rest := by
  have unasked : '?' ∉ other.version.text.toList :=
    Version.not_mem_text (by decide) (by decide)
  have unpinned := cutPin?_eq_none_iff.mp package.cutPin?_versionedPath
  have pinned : other.pinText.toList = [] ∨
      ∃ digits, other.pinText.toList = ':' :: ':' :: digits := by
    unfold pinText
    cases other.pin with
    | none => exact .inl rfl
    | some pin =>
        right
        exact ⟨pin.text.toList, String.toList_append⟩
  rw [versionedPath_toList, List.append_assoc, List.cons_append] at written
  rcases List.append_eq_append_iff.mp written with
    ⟨start, before, after⟩ | ⟨rest, before, after⟩
  · exfalso
    rcases start with _ | ⟨mark, start⟩
    · exact absurd (List.cons.inj after).1 (by decide)
    · rw [before] at unpinned
      have colons := colons_before_query unasked pinned (List.cons.inj after).2
      exact unpinned (colons.trans ((List.suffix_cons _ _).trans
        (List.suffix_append _ _)).isInfix)
  · rcases rest with _ | ⟨mark, rest⟩
    · exact absurd (List.cons.inj after).1 (by decide)
    · obtain ⟨rfl, -⟩ := List.cons.inj after
      exact ⟨String.ofList rest, String.toList_injective (by simpa using before)⟩

/-- A package whose text begins like that of another one and goes on with a question mark is
one of the same host at a path that goes on as well. -/
theorem stranger_of_query {package other : PackageUri} {query : String}
    (served : package.scheme = .package)
    (written : other.text = package.unpinned.text ++ "?" ++ query) :
    other.authority = package.authority ∧
      ∃ rest, other.path = package.versionedPath ++ "?" ++ rest := by
  have clear : package.unpinned.pinText = "" := rfl
  have whole : package.unpinned.text ++ "?" ++ query =
      "package://" ++ (package.main ++ "?" ++ query) := by
    rw [text_eq, clear, String.append_empty]
    simp only [unpinned, served, String.append_assoc]
    rfl
  have split := other.splitScheme?_text
  rw [written, whole, splitScheme?, Text.dropStart?_append] at split
  have mains : package.main ++ "?" ++ query = other.main ++ other.pinText :=
    (Prod.mk.inj (Option.some.inj split)).2
  have chars : package.main.toList ++ '?' :: query.toList =
      other.main.toList ++ other.pinText.toList := by
    simpa using congrArg String.toList mains
  have authority := package.takeWhile_main ('?' :: query.toList)
  have path := package.dropWhile_main ('?' :: query.toList)
  rw [chars, takeWhile_main] at authority
  rw [chars, dropWhile_main] at path
  exact ⟨String.toList_injective authority, exists_path_of_query path⟩

end PackageUri

/-! ## Following references -/

namespace PackageAsset

/-- The path that a reference leads to from the path of an asset, by the rules for all
identifiers. -/
def followed (asset : PackageAsset) (reference : Uri) : String :=
  (Uri.follow ⟨none, none, asset.path, none, none⟩ reference).path

variable {package : PackageUri} {path : String} {asset : PackageAsset}

theorem beginsWith_pathInPackage (made : ofPath package path = .ok asset) (written : String) :
    Text.beginsWith '/' (ModuleKey.pathInPackage asset written) = true := by
  unfold ModuleKey.pathInPackage
  split
  · exact beginsWith_path made
  split
  · rename_i rooted
    exact rooted
  · rw [UriPath.directoryOf_eq_trail (beginsWith_path made)]
    exact UriPath.beginsWith_trail_append _ written

/-- Inside a package a path is freed of its dot segments where it is in other identifiers. -/
theorem removeDots_pathInPackage (made : ofPath package path = .ok asset) {reference : Uri}
    (alone : reference.authority = none) :
    UriPath.removeDots (ModuleKey.pathInPackage asset reference.path) =
      asset.followed reference := by
  rcases ofPath_eq_ok_iff.mp made with ⟨rooted, found, -⟩
  have normal := UriPath.removeDots_of_normalize? (UriPath.normalize?_of_normalize? rooted found)
  rw [followed, Uri.follow, alone, ModuleKey.pathInPackage]
  by_cases empty : reference.path = ""
  · simp [empty, normal]
  · simp [empty, Uri.merge]

end PackageAsset

namespace ModuleKey

variable {asset : PackageAsset} {resolver : Resolver} {written : String} {reference : Uri}

theorem resolveRelative_package (read : Uri.parse written = .ok reference)
    (relative : reference.isAbsolute = false) :
    (ModuleKey.package asset resolver).resolveRelative written =
      resolveInPackage asset written reference := by
  rw [resolveRelative, read]
  simp [Except.mapError, relative, Result.ok_bind]

/-- A reference that does not climb above the root of the package leads to an asset, and its
query is kept. -/
theorem resolveInPackage_of_not_climbs {package : PackageUri} {path : String}
    (made : PackageAsset.ofPath package path = .ok asset) (alone : reference.authority = none)
    (below : ¬ Climbs (UriPath.segments (pathInPackage asset reference.path))) :
    PackageAsset.ofPath asset.package (pathInPackage asset reference.path) =
        .ok { package := asset.package, path := asset.followed reference } ∧
      resolveInPackage asset written reference =
        .ok { PackageAsset.toUri ⟨asset.package, asset.followed reference⟩ with
          query := reference.query } := by
  have rooted := PackageAsset.beginsWith_pathInPackage made reference.path
  rw [← UriPath.normalize?_eq_none_iff rooted, ← ne_eq, Option.ne_none_iff_exists'] at below
  rcases below with ⟨normal, found⟩
  have same := PackageAsset.removeDots_pathInPackage made alone
  rw [UriPath.removeDots_of_normalize? found] at same
  have target : PackageAsset.ofPath asset.package (pathInPackage asset reference.path) =
      .ok { package := asset.package, path := asset.followed reference } :=
    PackageAsset.ofPath_eq_ok_iff.mpr ⟨rooted, found.trans (congrArg some same), rfl⟩
  refine ⟨target, ?_⟩
  rw [resolveInPackage, alone, PackageAsset.withPath, target]
  rfl

theorem resolveInPackage_of_climbs {package : PackageUri} {path : String}
    (made : PackageAsset.ofPath package path = .ok asset) (alone : reference.authority = none)
    (climbs : Climbs (UriPath.segments (pathInPackage asset reference.path))) :
    ∃ cause, resolveInPackage asset written reference = .error (.malformedUri cause) := by
  have rooted := PackageAsset.beginsWith_pathInPackage made reference.path
  rw [← UriPath.normalize?_eq_none_iff rooted] at climbs
  refine ⟨.escapingAssetPath (pathInPackage asset reference.path), ?_⟩
  rw [resolveInPackage, alone, PackageAsset.withPath, PackageAsset.ofPath, if_pos rooted, climbs]
  rfl

end ModuleKey

/-- An identifier of an asset with a query is read as one of another package, if it is read at
all. -/
theorem ModuleContext.stranger_of_key {context : ModuleContext} {asset : PackageAsset}
    (served : asset.package.scheme = .package) {query : String} (unmarked : '#' ∉ query.toList)
    {key : ModuleKey}
    (found : context.key { asset.toUri with query := some query } = .ok key) :
    ∃ stranger resolver, key = .package stranger resolver ∧
      stranger.package.authority = asset.package.authority ∧
      ∃ rest, stranger.package.path = asset.package.versionedPath ++ "?" ++ rest := by
  have keyed : context.key { asset.toUri with query := some query } =
      context.keyInPackage { asset.toUri with query := some query } :=
    key_eq_keyInPackage (scheme_toUri served)
  rw [keyed] at found
  rcases Result.bind_eq_ok_iff.mp found with ⟨stranger, named, finds⟩
  rcases Result.bind_eq_ok_iff.mp finds with ⟨resolver, -, built⟩
  refine ⟨stranger, resolver, (Result.pure_eq_ok_iff.mp built).symm, ?_⟩
  have read := Result.mapError_eq_ok_iff.mp named
  rcases PackageAsset.parse_eq_ok_iff.mp read with ⟨plain, path, -, whole⟩
  have cut := PackageUri.cut?_text_append plain path
  have unasked := PackageUri.hash_not_mem_text asset.package.hasPlainPin_unpinned
  have cutQuery : Text.cut? '#' (asset.package.unpinned.text ++ "?" ++ query ++ "#" ++
      asset.path) = some (asset.package.unpinned.text ++ "?" ++ query, asset.path) :=
    Text.cut?_eq_some_iff.mpr ⟨by simp, by simp [unasked, unmarked]⟩
  rw [← whole, PackageAsset.text_toUri, Uri.marked_some, ← String.append_assoc, cutQuery] at cut
  exact PackageUri.stranger_of_query served (Prod.mk.inj (Option.some.inj cut)).1.symm

/-- A reference without a scheme in a module of a package.  With an authority it is refused, and
without one it is malformed exactly if it climbs above the root of the package.  Otherwise it
leads to the path that it has in every identifier.  Without a query the module there is found in
the same version of the same package; with a query no module of the package is found, since the
version and the query are read as a part of the path of another package. -/
theorem reference_in_package {context : ModuleContext} {origin : Uri} {asset : PackageAsset}
    {resolver : Resolver} (made : context.key origin = .ok (.package asset resolver))
    {written : String} {reference : Uri} (read : Uri.parse written = .ok reference)
    (relative : reference.isAbsolute = false) :
    (∀ host, reference.authority = some host →
      (ModuleKey.package asset resolver).resolveRelative written =
        .error (.malformedReference (.leavesPackage written asset.package.text))) ∧
    (reference.authority = none →
      Climbs (UriPath.segments (ModuleKey.pathInPackage asset reference.path)) →
        ∃ cause, (ModuleKey.package asset resolver).resolveRelative written =
          .error (.malformedUri cause)) ∧
    (reference.authority = none →
      ¬ Climbs (UriPath.segments (ModuleKey.pathInPackage asset reference.path)) →
        ∃ target, (ModuleKey.package asset resolver).resolveRelative written = .ok target ∧
          (reference.query = none → ∀ (other : ModuleContext) (finder : Resolver),
            other.resolver = some finder → other.key target =
              .ok (.package ⟨asset.package.unpinned, asset.followed reference⟩ finder)) ∧
          ∀ query, reference.query = some query → ∀ (other : ModuleContext) (key : ModuleKey),
            other.key target = .ok key →
              ∃ stranger finder, key = .package stranger finder ∧
                stranger.package.authority = asset.package.authority ∧
                ∃ rest, stranger.package.path = asset.package.versionedPath ++ "?" ++ rest) := by
  rcases ModuleContext.asset_of_key made with ⟨served, path, normal⟩
  rw [ModuleKey.resolveRelative_package read relative]
  refine ⟨?leaving, ?climbing, ?staying⟩
  case leaving =>
    intro host present
    rw [ModuleKey.resolveInPackage, present]
    rfl
  case climbing =>
    intro alone climbs
    exact ModuleKey.resolveInPackage_of_climbs normal alone climbs
  case staying =>
    intro alone below
    rcases ModuleKey.resolveInPackage_of_not_climbs normal alone below with ⟨target, followed⟩
    refine ⟨_, followed, ?_, ?_⟩
    · intro unasked other finder configured
      rw [unasked]
      exact ModuleContext.key_toUri configured served target
    · intro query asked other key found
      rw [asked] at found
      have unmarked := (Uri.isWritten_of_parse read).1.query query asked
      have stays : (PackageAsset.mk asset.package (asset.followed reference)).package.scheme =
          .package := served
      exact ModuleContext.stranger_of_key stays unmarked found

/-! ## A bird and its neighbours -/

/-- A module of the birds. -/
def bird : PackageAsset :=
  { package := Aviary.birds 5 Aviary.five_lt_limit none, path := "/catalog/Bird.pkl" }

/-- A context in which packages are found. -/
def birdContext : ModuleContext :=
  ModuleContext.empty.withResolver ⟨.memory, .unrestricted⟩

/-- The package of an asset is found in the context. -/
theorem key_birdContext {uri : Uri} (scheme : uri.scheme = some "package") :
    birdContext.key uri =
      (ModuleContext.assetOf uri).map fun asset => .package asset ⟨.memory, .unrestricted⟩ :=
  ModuleContext.key_eq_map_assetOf rfl scheme

theorem key_bird :
    birdContext.key bird.toUri = .ok (.package bird ⟨.memory, .unrestricted⟩) := by
  have named : ModuleContext.assetOf bird.toUri = .ok bird := by decide +kernel
  rw [key_birdContext rfl, named]
  rfl

/-- The swallow beside the bird is found in the same package. -/
theorem swallow_found_beside_bird :
    ∃ target, (ModuleKey.package bird ⟨.memory, .unrestricted⟩).resolveRelative
        "../catalog/Swallow.pkl" = .ok target ∧
      birdContext.key target =
        .ok (.package ⟨bird.package, "/catalog/Swallow.pkl"⟩ ⟨.memory, .unrestricted⟩) := by
  have read : Uri.parse "../catalog/Swallow.pkl" =
      .ok ⟨none, none, "../catalog/Swallow.pkl", none, none⟩ := by decide +kernel
  have below : ¬ Climbs (UriPath.segments
      (ModuleKey.pathInPackage bird "../catalog/Swallow.pkl")) := by decide +kernel
  have followed : bird.followed ⟨none, none, "../catalog/Swallow.pkl", none, none⟩ =
      "/catalog/Swallow.pkl" := by decide +kernel
  rcases (reference_in_package key_bird read rfl).2.2 rfl below with ⟨target, leads, stays, -⟩
  refine ⟨target, leads, ?_⟩
  rw [stays rfl birdContext _ rfl, followed]
  rfl

/-- A swallow in a version of a package whose path begins like the text of the birds. -/
def strangeSwallow : PackageAsset :=
  { package := Aviary.release "/birds@0.5.0?" (by decide) 6 Aviary.six_lt_limit none
    path := "/catalog/Swallow.pkl" }

/-- With a query the swallow beside the bird is not found, or one of a stranger is. -/
theorem swallow_with_query_not_found :
    ∃ salty strange,
      birdContext.key bird.toUri = .ok (.package bird ⟨.memory, .unrestricted⟩) ∧
      (ModuleKey.package bird ⟨.memory, .unrestricted⟩).resolveRelative
          "Swallow.pkl?flavor=salty" = .ok salty ∧
        birdContext.key salty = .error (.malformedUri (.badVersion "0.5.0?flavor=salty"
          "package://localhost:0/birds@0.5.0?flavor=salty" (.unexpectedCharAfter .patch '?'))) ∧
      (ModuleKey.package bird ⟨.memory, .unrestricted⟩).resolveRelative
          "Swallow.pkl?@0.6.0" = .ok strange ∧
        birdContext.key strange =
          .ok (.package strangeSwallow ⟨.memory, .unrestricted⟩) := by
  refine ⟨⟨some "package", some "localhost:0", "/birds@0.5.0", some "flavor=salty",
      some "/catalog/Swallow.pkl"⟩,
    ⟨some "package", some "localhost:0", "/birds@0.5.0", some "@0.6.0",
      some "/catalog/Swallow.pkl"⟩, key_bird, ?_, ?_, ?_, ?_⟩
  · decide +kernel
  · have unread : ModuleContext.assetOf ⟨some "package", some "localhost:0", "/birds@0.5.0",
        some "flavor=salty", some "/catalog/Swallow.pkl"⟩ =
        .error (.malformedUri (.badVersion "0.5.0?flavor=salty"
          "package://localhost:0/birds@0.5.0?flavor=salty" (.unexpectedCharAfter .patch '?'))) := by
      decide +kernel
    rw [key_birdContext rfl, unread]
    rfl
  · decide +kernel
  · have named : ModuleContext.assetOf ⟨some "package", some "localhost:0", "/birds@0.5.0",
        some "@0.6.0", some "/catalog/Swallow.pkl"⟩ = .ok strangeSwallow := by decide +kernel
    rw [key_birdContext rfl, named]
    rfl

end PackageResolution
