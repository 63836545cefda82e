import Mathlib.Logic.Relation
import Mathlib.Order.Basic
import PackageResolution.Archive.Zip
import PackageResolution.Module.Import
import PackageResolution.Proofs.Resolver.Run
import PackageResolution.Proofs.Result
import PackageResolution.Proofs.Uri.File

/-!
# How far imports reach

A module can import only what is trusted no more than itself.  So a chain of imports that
begins with a module from elsewhere stays at the level of such modules, however long it is.
Local files are trusted more, with one exception: a file at the host `localhost` counts as
one from elsewhere, though it is a local file.  These are the only local files that such a
chain can reach.
-/

namespace PackageResolution

/-! ## Trust levels -/

/-- The level of the modules that come from elsewhere. -/
def TrustLevel.elsewhere : TrustLevel := 10

namespace Uri

variable {uri : Uri}

/-- A module that comes from a web server or from a package comes from elsewhere. -/
theorem trustLevel_of_hasScheme {scheme : String} (has : uri.hasScheme scheme = true)
    (among : scheme ∈ ["http", "https", "package", "projectpackage"]) :
    uri.trustLevel = .elsewhere := by
  have other : ∀ special ∈ ["repl", "file", "jar", "modulepath", "pkl"],
      uri.hasScheme special = false := by
    intro special member
    apply hasScheme_eq_false has
    have distinct : ∀ scheme ∈ ["http", "https", "package", "projectpackage"],
        ∀ special ∈ ["repl", "file", "jar", "modulepath", "pkl"],
          Text.lower special ≠ Text.lower scheme := by decide
    exact distinct scheme among special member
  simp only [List.forall_mem_cons] at other
  rcases other with ⟨repl, file, jar, modulePath, pkl, -⟩
  simp [trustLevel, repl, file, jar, modulePath, pkl, TrustLevel.elsewhere]

/-- A local file is trusted more than what comes from elsewhere, unless it is written with
the name of the local host. -/
theorem authority_of_toPath {path : Path} (leads : uri.toPath = .ok (some path))
    (bounded : uri.trustLevel ≤ .elsewhere) : uri.authority = some "localhost" := by
  rcases uri with ⟨scheme, authority, written, query, fragment⟩
  rcases toPath_eq_some_iff.mp leads with ⟨isFile, -, isLocal, -⟩
  obtain rfl : scheme = some "file" := isFile
  have high (authority : Option String) (hostless : authority.getD "" = "") :
      trustLevel ⟨some "file", authority, written, query, fragment⟩ = 30 := by
    cases authority with
    | none => rfl
    | some name =>
        obtain rfl : name = "" := hostless
        rfl
  cases authority with
  | none =>
      rw [high none rfl] at bounded
      exact absurd bounded (by decide)
  | some name =>
      simp only [isLocalAuthority, Bool.or_eq_true, decide_eq_true_eq] at isLocal
      rcases isLocal with rfl | rfl
      · rw [high (some "") rfl] at bounded
        exact absurd bounded (by decide)
      · rfl

end Uri

/-! ## One import -/

namespace ModuleKey

/-- That a module comes from a web server or from a package. -/
def IsRemote : ModuleKey → Prop
  | .web uri => uri.hasScheme "http" = true ∨ uri.hasScheme "https" = true
  | .package _ _ => True
  | .file _ => False
  | .onPath _ _ => False
  | .builtIn _ => False

theorem trustLevel_toUri (asset : PackageAsset) :
    asset.toUri.trustLevel = .elsewhere := by
  rcases asset with ⟨⟨scheme, _, _, _, _, _, _⟩, _⟩
  cases scheme with
  | package =>
      have has : Text.sameIgnoringCase "package" "package" = true := by decide
      exact Uri.trustLevel_of_hasScheme has (by decide)
  | projectPackage =>
      have has : Text.sameIgnoringCase "projectpackage" "projectpackage" = true := by decide
      exact Uri.trustLevel_of_hasScheme has (by decide)

theorem IsRemote.trustLevel {key : ModuleKey} (remote : key.IsRemote) :
    key.uri.trustLevel = .elsewhere := by
  cases key with
  | web uri =>
      rcases remote with plain | encrypted
      · exact Uri.trustLevel_of_hasScheme plain (by decide)
      · exact Uri.trustLevel_of_hasScheme encrypted (by decide)
  | package asset resolver => exact trustLevel_toUri asset
  | file uri => exact remote.elim
  | onPath uri modulePath => exact remote.elim
  | builtIn uri => exact remote.elim

/-- What a reference means in a module, whether it may be imported or not. -/
def meant [ArchiveReader] (key : ModuleKey) (security : Security)
    (written : String) : Resolving Uri := do
  match ← Resolving.ofResult (Ascension.parse written) with
  | some ascension => key.resolveAscension security written ascension
  | none => Resolving.ofResult (key.resolveRelative written)

/-- An import means what its reference means, if that passes both checks. -/
theorem resolveImport_eq [ArchiveReader] (key : ModuleKey) (security : Security)
    (written : String) :
    key.resolveImport security written = (do
      let resolved ← key.meant security written
      Resolving.ofResult (security.checkModule resolved)
      Resolving.ofResult (security.checkImport key.uri resolved)
      return resolved) := by
  rw [resolveImport, meant, bind_assoc]
  apply bind_congr
  intro ascension
  cases ascension with
  | some ascension => rfl
  | none => rfl

/-- What an import means passed the check of the import. -/
theorem trustLevel_of_resolveImport [ArchiveReader] {key : ModuleKey} {policy : Policy}
    {written : String} {resolved : Uri} {memo : Memo} {world : World}
    (succeeds : ((key.resolveImport (.standard policy) written).runIn memo world).1 =
      .ok resolved) :
    resolved.trustLevel ≤ key.uri.trustLevel := by
  rw [resolveImport_eq] at succeeds
  rcases Resolving.exists_of_runIn_bind succeeds with ⟨target, _, _, -, checked⟩
  rcases Resolving.exists_of_runIn_bind checked with ⟨⟨⟩, _, _, -, permitted⟩
  rcases Resolving.exists_of_runIn_bind permitted with ⟨⟨⟩, _, _, passes, returned⟩
  obtain rfl : target = resolved := Except.ok.inj returned
  have passed := congrArg Prod.fst passes
  rw [Resolving.runIn_ofResult] at passed
  exact (Security.checkImport_standard_eq_ok_iff policy).mp passed

end ModuleKey

/-- The origin of a module without a project is trusted no more than its identifier. -/
theorem ModuleContext.trustLevel_of_key {context : ModuleContext}
    (projectless : context.project = none) {uri : Uri} {key : ModuleKey}
    (found : context.key uri = .ok key) (bounded : uri.trustLevel ≤ .elsewhere) :
    key.uri.trustLevel ≤ .elsewhere := by
  unfold ModuleContext.key at found
  split at found
  · cases found
    exact bounded
  split at found
  · cases found
    exact bounded
  split at found
  · cases found
    exact bounded
  split at found
  · unfold keyOnPath at found
    split at found
    · cases found
      exact bounded
    · exact nomatch found
  split at found
  · rcases Result.bind_eq_ok_iff.mp found with ⟨asset, -, made⟩
    rcases Result.bind_eq_ok_iff.mp made with ⟨resolver, -, built⟩
    cases built
    exact Nat.le_of_eq (ModuleKey.trustLevel_toUri asset)
  split at found
  · rw [keyInDependency, projectless] at found
    exact nomatch found
  · exact nomatch found

/-! ## Chains of imports -/

namespace ModuleKey

/-- That an import in one module means another one, for some reference, whatever the
resolver remembers and whatever the world is like. -/
def Imports [ArchiveReader] (context : ModuleContext) (policy : Policy)
    (key next : ModuleKey) : Prop :=
  ∃ written resolved memo world,
    ((key.resolveImport (.standard policy) written).runIn memo world).1 = .ok resolved ∧
      context.key resolved = .ok next

variable {context : ModuleContext} {policy : Policy} {first last : ModuleKey}

/-- An import does not lead above the level of what comes from elsewhere. -/
theorem Imports.trustLevel [ArchiveReader] (projectless : context.project = none)
    (imports : Imports context policy first last)
    (bounded : first.uri.trustLevel ≤ .elsewhere) : last.uri.trustLevel ≤ .elsewhere := by
  rcases imports with ⟨written, resolved, memo, world, succeeds, found⟩
  apply context.trustLevel_of_key projectless found
  exact Nat.le_trans (trustLevel_of_resolveImport succeeds) bounded

/-- A chain of imports does not either. -/
theorem trustLevel_of_chain [ArchiveReader] (projectless : context.project = none)
    (remote : first.IsRemote) (chain : Relation.ReflTransGen (Imports context policy) first last) :
    last.uri.trustLevel ≤ .elsewhere := by
  induction chain with
  | refl => exact Nat.le_of_eq remote.trustLevel
  | tail _ imports inductionHypothesis => exact imports.trustLevel projectless inductionHypothesis

/-- A local file that a chain of imports reaches from a module that comes from elsewhere is
written with the name of the local host. -/
theorem local_file_of_chain [ArchiveReader] (projectless : context.project = none)
    (remote : first.IsRemote)
    (chain : Relation.ReflTransGen (Imports context policy) first last) {uri : Uri}
    (isFile : last = .file uri) {path : Path} (leads : uri.toPath = .ok (some path)) :
    uri.authority = some "localhost" := by
  subst isFile
  exact Uri.authority_of_toPath leads (trustLevel_of_chain projectless remote chain)

/-! ## A file at the local host -/

/-- A module of a web server. -/
def page (path : String) : ModuleKey :=
  .web { scheme := some "https", authority := some "example.com", path, query := none,
         fragment := none }

/-- A file at the local host. -/
def localhostFile : Uri :=
  { scheme := some "file", authority := some "localhost", path := "/etc/app.pkl",
    query := none, fragment := none }

theorem page_isRemote (path : String) : (page path).IsRemote := by
  right
  have same : Text.sameIgnoringCase "https" "https" = true := by decide
  exact same

theorem page_imports_page :
    Imports .empty .default (page "/config/app.pkl") (page "/config/base.pkl") := by
  refine ⟨"base.pkl", (page "/config/base.pkl").uri, .empty, .empty, ?_, rfl⟩
  decide +kernel

theorem page_imports_localhostFile :
    Imports .empty .default (page "/config/base.pkl") (.file localhostFile) := by
  refine ⟨"file://localhost/etc/app.pkl", localhostFile, .empty, .empty, ?_, rfl⟩
  decide +kernel

theorem toPath_localhostFile : localhostFile.toPath = .ok (some ⟨"/etc/app.pkl"⟩) := by
  decide +kernel

/-- The chain leads through a second page to the file. -/
theorem pages_reach_localhost :
    Relation.ReflTransGen (Imports .empty .default) (page "/config/app.pkl")
      (.file localhostFile) ∧ localhostFile.authority = some "localhost" := by
  have chain : Relation.ReflTransGen (Imports .empty .default) (page "/config/app.pkl")
      (.file localhostFile) := .tail (.single page_imports_page) page_imports_localhostFile
  exact ⟨chain, local_file_of_chain rfl (page_isRemote _) chain rfl toPath_localhostFile⟩

/-- So a module from elsewhere can import a local file. -/
theorem page_reaches_local_file :
    ∃ first last uri path, IsRemote first ∧
      Relation.ReflTransGen (Imports .empty .default) first last ∧
      last = .file uri ∧ uri.toPath = .ok (some path) := by
  refine ⟨page "/config/base.pkl", .file localhostFile, localhostFile, ⟨"/etc/app.pkl"⟩, ?_⟩
  exact ⟨page_isRemote _, .single page_imports_localhostFile, rfl, toPath_localhostFile⟩

end ModuleKey

end PackageResolution
