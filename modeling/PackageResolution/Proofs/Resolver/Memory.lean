import PackageResolution.Proofs.Resolver.Run
import PackageResolution.Proofs.Result

/-!
# Resolvers that keep packages in memory

Nothing is ever found stored in memory, so such a resolver asks the servers for whatever
it does not remember.  The equations below say what loading the metadata of a package and
loading the package ask for and give.  So what is loaded was received.
-/

namespace PackageResolution

namespace World

/-- The world after an address was asked for. -/
def asked (world : World) (url : String) : World :=
  { world with fetched := world.fetched ++ [url] }

/-- The world after a line was shown to whoever watches. -/
def shown (world : World) (progress : Progress) (line : String) : World :=
  match progress with
  | .watched => { world with reported := world.reported ++ [line] }
  | .unwatched => world

@[simp]
theorem shown_fetched (world : World) (progress : Progress) (line : String) :
    (world.shown progress line).fetched = world.fetched := by
  cases progress <;> rfl

@[simp]
theorem shown_server (world : World) (progress : Progress) (line : String) :
    (world.shown progress line).server = world.server := by
  cases progress <;> rfl

end World

theorem Progress.runIn_report (progress : Progress) (line : String) (world : World) :
    (progress.report line).runIn world = (.ok (), world.shown progress line) := by
  cases progress with
  | watched => rfl
  | unwatched => rfl

namespace Resolver

theorem runIn_download (package : PackageUri) (url : String) (world : World) :
    (download package url).runIn world =
      match world.server world.fetched url with
      | .ok document => (.ok document, world.asked url)
      | .error cause =>
          (.error (.packageLoad (.download package.text cause)), world.asked url) := by
  have answered : (Action.request (.fetch url)).run world =
      (world.server world.fetched url, world.asked url) := rfl
  simp only [download, Attempt.runIn_bind, Attempt.runIn_lift, answered]
  cases world.server world.fetched url with
  | ok document => rfl
  | error cause => rfl

theorem runIn_loadMetadata {resolver : Resolver} (inMemory : resolver.storage = .memory)
    (progress : Progress) (package : PackageUri) (world : World) :
    (resolver.loadMetadata progress package).runIn world =
      match world.server world.fetched package.metadataUrl with
      | .ok document =>
          (describe package document,
            (world.shown progress s!"Downloading metadata for package `{package.text}`").asked
              package.metadataUrl)
      | .error cause =>
          (.error (.packageLoad (.download package.text cause)),
            (world.shown progress s!"Downloading metadata for package `{package.text}`").asked
              package.metadataUrl) := by
  simp only [loadMetadata, inMemory, Storage.metadata?, Storage.keepMetadata, pure_bind,
    Attempt.runIn_bind, Progress.runIn_report, runIn_download, World.shown_fetched,
    World.shown_server]
  cases world.server world.fetched package.metadataUrl with
  | error cause => rfl
  | ok document =>
      simp only [Attempt.runIn_ofResult]
      cases describe package document with
      | ok described => rfl
      | error failure => rfl

theorem checkArchive_eq_ok_iff {package : PackageUri} {metadata : PackageMetadata}
    {archive : ByteArray} :
    checkArchive package metadata archive = .ok () ↔
      (Checksum.ofDocument archive).agrees metadata.archiveChecksum = true := by
  simp [checkArchive]

theorem checkPin_eq_ok_iff {package : PackageUri} {described : DescribedPackage} :
    checkPin package described = .ok () ↔
      ∀ expected, package.pin = some expected → expected.agrees described.checksum = true := by
  unfold checkPin
  cases package.pin with
  | none => simp
  | some expected => simp

theorem describe_eq_ok_iff {package : PackageUri} {document : ByteArray}
    {described : DescribedPackage} :
    describe package document = .ok described ↔
      PackageMetadata.parse document = .ok described.metadata ∧
        described.checksum = .ofDocument document := by
  unfold describe
  cases PackageMetadata.parse document with
  | error detail => simp
  | ok metadata => cases described; simp [eq_comm]

/-- The package in an archive, if the archive has the checksum that the metadata
names. -/
def heldPackage [ArchiveReader] (package : PackageUri) (metadata : PackageMetadata)
    (archive : ByteArray) :
    Result StoredPackage := do
  checkArchive package metadata archive
  return .held (← Storage.treeOfArchive package archive)

theorem heldPackage_eq_ok_iff [ArchiveReader] {package : PackageUri} {metadata : PackageMetadata}
    {archive : ByteArray} {stored : StoredPackage} :
    heldPackage package metadata archive = .ok stored ↔
      (Checksum.ofDocument archive).agrees metadata.archiveChecksum = true ∧
        ∃ tree, Storage.treeOfArchive package archive = .ok tree ∧ .held tree = stored := by
  simp only [heldPackage, Result.bind_eq_ok_iff, Result.pure_eq_ok_iff,
    ← @checkArchive_eq_ok_iff package]
  constructor
  · rintro ⟨⟨⟩, checked, tree, opened, same⟩
    exact ⟨checked, tree, opened, same⟩
  · rintro ⟨checked, tree, opened, same⟩
    exact ⟨(), checked, tree, opened, same⟩

theorem runIn_loadPackage [ArchiveReader] {resolver : Resolver}
    (inMemory : resolver.storage = .memory)
    (progress : Progress) (package : PackageUri) (metadata : PackageMetadata)
    (world : World) :
    (resolver.loadPackage progress package metadata).runIn world =
      if isSecure metadata.archiveUrl then
        match world.server world.fetched metadata.archiveUrl with
        | .ok archive =>
            (heldPackage package metadata archive,
              (world.shown progress s!"Downloading package `{package.text}`").asked
                metadata.archiveUrl)
        | .error cause =>
            (.error (.packageLoad (.download package.text cause)),
              (world.shown progress s!"Downloading package `{package.text}`").asked
                metadata.archiveUrl)
      else
        (.error (.packageLoad (.insecureArchive package.text metadata.archiveUrl)), world) := by
  simp only [loadPackage, loadArchive, inMemory, Storage.package?, Storage.keep, pure_bind]
  cases isSecure metadata.archiveUrl with
  | false => rfl
  | true =>
      simp only [Bool.not_true, Bool.false_eq_true, if_false, if_true,
        Attempt.runIn_bind, Progress.runIn_report, runIn_download, World.shown_fetched,
        World.shown_server]
      cases world.server world.fetched metadata.archiveUrl with
      | error cause => rfl
      | ok archive =>
          simp only [Attempt.runIn_ofResult, heldPackage]
          cases checkArchive package metadata archive with
          | error failure => rfl
          | ok checked =>
              cases Storage.treeOfArchive package archive with
              | error failure => rfl
              | ok tree => rfl

end Resolver

/-! ## What is received -/

namespace World

/-- That a server answered with a document when its address was asked for after the
world `start` and before the world `finish`. -/
def Received (start finish : World) (url : String) (document : ByteArray) : Prop :=
  ∃ earlier, start.fetched ++ earlier ++ [url] <+: finish.fetched ∧
    start.server (start.fetched ++ earlier) url = .ok document

namespace Received

variable {start middle finish : World} {url : String} {document : ByteArray}

theorem of_answer (answered : start.server start.fetched url = .ok document)
    (progress : Progress) (line : String) :
    start.Received ((start.shown progress line).asked url) url document :=
  ⟨[], by simp [asked], by simpa using answered⟩

theorem continued (received : start.Received middle url document)
    (continues : finish.Continues middle) : start.Received finish url document := by
  obtain ⟨earlier, asked, answered⟩ := received
  exact ⟨earlier, asked.trans continues.fetched_prefix, answered⟩

theorem since (received : middle.Received finish url document)
    (continues : middle.Continues start) : start.Received finish url document := by
  obtain ⟨earlier, asked, answered⟩ := received
  obtain ⟨before, fetched⟩ := continues.fetched_prefix
  rw [← fetched, List.append_assoc start.fetched] at asked answered
  exact ⟨before ++ earlier, asked, by rwa [← continues.server_eq]⟩

end Received

end World

namespace Resolver

variable {resolver : Resolver} {progress : Progress} {package : PackageUri}
  {world after : World}

/-- Metadata that is loaded was received and read. -/
theorem received_of_loadMetadata (inMemory : resolver.storage = .memory)
    {described : DescribedPackage}
    (ran : (resolver.loadMetadata progress package).runIn world = (.ok described, after)) :
    ∃ document, world.Received after package.metadataUrl document ∧
      describe package document = .ok described := by
  rw [runIn_loadMetadata inMemory] at ran
  cases answered : world.server world.fetched package.metadataUrl with
  | error cause =>
      rw [answered] at ran
      exact nomatch congrArg Prod.fst ran
  | ok document =>
      rw [answered] at ran
      obtain ⟨read, rfl⟩ := Prod.mk.inj ran
      exact ⟨document, .of_answer answered _ _, read⟩

/-- A package that is loaded was received, and has the checksum that its metadata names. -/
theorem received_of_loadPackage [ArchiveReader] (inMemory : resolver.storage = .memory)
    {metadata : PackageMetadata} {stored : StoredPackage}
    (ran : (resolver.loadPackage progress package metadata).runIn world =
      (.ok stored, after)) :
    ∃ archive, world.Received after metadata.archiveUrl archive ∧
      heldPackage package metadata archive = .ok stored := by
  rw [runIn_loadPackage inMemory] at ran
  cases secure : isSecure metadata.archiveUrl with
  | false =>
      rw [secure] at ran
      exact nomatch congrArg Prod.fst ran
  | true =>
      cases answered : world.server world.fetched metadata.archiveUrl with
      | error cause =>
          rw [secure, answered] at ran
          exact nomatch congrArg Prod.fst ran
      | ok archive =>
          rw [secure, answered] at ran
          obtain ⟨held, rfl⟩ := Prod.mk.inj ran
          exact ⟨archive, .of_answer answered _ _, held⟩

end Resolver

end PackageResolution
