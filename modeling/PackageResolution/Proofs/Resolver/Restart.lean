import PackageResolution.Archive.Zip
import PackageResolution.Proofs.Resolver.Agreement
import PackageResolution.Proofs.Resolver.Recovery
import PackageResolution.Proofs.Storage.Lasting

/-!
# A cache outlives its resolver

What a resolver with a cache directory remembers of a package is in the cache: the metadata document
as it was sent, and the files of the package beside it.  So a new resolver with the same directory
reads from it what the old one remembers, and replies as that one does, without asking a server and
without changing a file.
-/

namespace PackageResolution

open Attempt (Ends Ensures)
open Resolving (Agrees)
open World (Builds HasEmptyCache)

/-! ## What is in a cache -/

namespace World

variable {world later : World} {cache : Path} {package : PackageUri} {described : DescribedPackage}

/-- That the document of a package is in a cache, and what it says. -/
def Documents (world : World) (cache : Path) (package : PackageUri) (described : DescribedPackage) :
    Prop :=
  ∃ document goal, world.Holds (package.metadataCachePath cache) goal (package.keptName ".json")
    (.file document) ∧ Resolver.describe package document = .ok described

/-- That the directory of a package is in a cache. -/
def Stocks (world : World) (cache : Path) (package : PackageUri) : Prop :=
  ∃ goal, world.Holds (package.cachePath cache) goal (package.keptName "") .directory

theorem Documents.of_builds (documents : world.Documents cache package described)
    (builds : world.Builds later) : later.Documents cache package described := by
  obtain ⟨document, goal, holds, read⟩ := documents
  exact ⟨document, goal, holds.of_builds builds, read⟩

theorem Stocks.of_builds (stocks : world.Stocks cache package) (builds : world.Builds later) :
    later.Stocks cache package := by
  obtain ⟨goal, holds⟩ := stocks
  exact ⟨goal, holds.of_builds builds⟩

end World

/-! ## Loading into a cache -/

namespace Resolver

variable {start first : World} {cache : Path} {top : Location} {described : DescribedPackage}
  (security : Security) (progress : Progress) (package : PackageUri)

theorem ensures_report (sound : start.IsSound) (line : String) :
    Ensures start.Builds (progress.report line) (fun _ => start.Builds) start.Builds := by
  cases progress with
  | unwatched => exact .pure fun _ => id
  | watched =>
      intro world builds
      have additive : Request.IsAdditive (.report line) := trivial
      exact .ok (builds.trans (World.builds_answer (builds.isSound sound) additive))

theorem ensures_download (sound : start.IsSound) (url : String) :
    Ensures start.Builds (download package url) (fun _ => start.Builds) start.Builds := by
  unfold download
  refine .lift_bind fun world builds => ?_
  have additive : Request.IsAdditive (.fetch url) := trivial
  have later : start.Builds ((Action.request (.fetch url)).run world).2 :=
    builds.trans (World.builds_answer (builds.isSound sound) additive)
  cases ((Action.request (.fetch url)).run world).1 with
  | error cause =>
      exact .throw_at later
  | ok document =>
      exact .pure_at later

/-- When metadata was loaded, its document is in the cache. -/
theorem ensures_loadMetadata (has : start.HasEmptyCache cache top) :
    Ensures start.Builds (loadMetadata ⟨.disk cache, security⟩ progress package)
      (fun described world => start.Builds world ∧ world.Documents cache package described)
      start.Builds := by
  unfold loadMetadata
  refine .bind _ (Storage.ensures_loadMetadata has) fun found => ?_
  cases found with
  | some document =>
      refine .ofResult (fun _ held => held.1) fun described read world held => ?_
      obtain ⟨goal, holds⟩ := held.2 document rfl
      exact ⟨held.1, document, goal, holds, read⟩
  | none =>
      refine .bind _ ((ensures_report progress has.isSound _).mono fun _ held => held.1) fun _ => ?_
      refine .bind _ (ensures_download package has.isSound _) fun document => ?_
      refine .ofResult_bind (fun _ => id) fun described read => ?_
      refine .bind _ (Storage.ensures_storeMetadata has document) fun _ => .pure ?_
      rintro world ⟨builds, goal, holds⟩
      exact ⟨builds, document, goal, holds, read⟩

/-- When an archive was loaded of a package whose document is in the cache, the package is there as
well. -/
theorem ensures_loadArchive [ArchiveReader] (has : start.HasEmptyCache cache top)
    (begun : start.Builds first)
    (documents : first.Documents cache package described) (metadata : PackageMetadata) :
    Ensures first.Builds (loadArchive ⟨.disk cache, security⟩ progress package metadata)
      (fun stored world => stored = .extracted (package.cachePath cache) ∧ first.Builds world ∧
        world.Stocks cache package)
      first.Builds := by
  obtain ⟨document, goal, holds, -⟩ := documents
  have sound := begun.isSound has.isSound
  unfold loadArchive
  split
  · exact .throw fun _ => id
  refine .bind _ (ensures_report progress sound _) fun _ => ?_
  refine .bind _ (ensures_download package sound _) fun archive => ?_
  refine .ofResult_bind (fun _ => id) fun _ _ => ?_
  refine .bind _ (Storage.ensures_materialize has begun holds) fun root => .pure ?_
  rintro world ⟨rfl, builds, there⟩
  exact ⟨rfl, builds, goal, there⟩

/-- When a package was loaded whose document is in the cache, the package is there as well. -/
theorem ensures_loadPackage [ArchiveReader] (has : start.HasEmptyCache cache top)
    (begun : start.Builds first)
    (documents : first.Documents cache package described) (metadata : PackageMetadata) :
    Ensures first.Builds (loadPackage ⟨.disk cache, security⟩ progress package metadata)
      (fun stored world => stored = .extracted (package.cachePath cache) ∧ first.Builds world ∧
        world.Stocks cache package)
      first.Builds := by
  intro world builds
  rw [loadPackage, Attempt.runIn_bind, Storage.runIn_package?]
  by_cases found : world.tree.isDirectory world.current (package.cachePath cache) = .ok true
  · obtain ⟨document, goal, holds, -⟩ := documents
    have there := has.holds_of_isDirectory (begun.trans builds) (holds.of_builds builds) found
    simp only [if_pos found]
    exact .ok ⟨rfl, builds, goal, there⟩
  · simp only [if_neg found]
    exact ensures_loadArchive security progress package has begun documents metadata world builds

end Resolver

/-! ## What is remembered is in the cache -/

namespace Session

variable {start world : World} {cache : Path} {top : Location} {security : Security}
  {package : PackageUri} {session : Session}

/-- That all that is remembered of a package is in a cache, to which nothing else was done. -/
structure IsBacked (start : World) (cache : Path) (package : PackageUri) (session : Session) :
    Prop where
  builds : start.Builds session.world
  documents : ∀ {described}, session.memo.described.lookup package = some described →
    session.world.Documents cache package described
  stocks : ∀ {stored}, session.memo.stored.lookup package = some stored →
    stored = .extracted (package.cachePath cache) ∧ session.world.Stocks cache package ∧
      ∃ described, session.memo.described.lookup package = some described

namespace IsBacked

theorem opened (sound : start.IsSound) : (Session.opened start).IsBacked start cache package :=
  ⟨.refl sound, nofun, nofun⟩

theorem of_builds (backed : session.IsBacked start cache package)
    (builds : session.world.Builds world) :
    IsBacked start cache package ⟨session.memo, world⟩ where
  builds := backed.builds.trans builds
  documents known := (backed.documents known).of_builds builds
  stocks known := by
    obtain ⟨place, stocks, described⟩ := backed.stocks known
    exact ⟨place, stocks.of_builds builds, described⟩

/-- As long as no metadata is known, no package is. -/
theorem of_unknown {memo : Memo} (builds : start.Builds world)
    (unknown : memo.described.lookup package = none) (empty : memo.stored.lookup package = none) :
    IsBacked start cache package ⟨memo, world⟩ where
  builds := builds
  documents known := nomatch unknown.symm.trans known
  stocks known := nomatch empty.symm.trans known

theorem stored_eq_none (backed : session.IsBacked start cache package)
    (unknown : session.memo.described.lookup package = none) :
    session.memo.stored.lookup package = none := by
  cases known : session.memo.stored.lookup package with
  | none => rfl
  | some stored =>
      obtain ⟨-, -, described, found⟩ := backed.stocks known
      exact nomatch unknown.symm.trans found

variable (has : start.HasEmptyCache cache top)
  (backed : session.IsBacked start cache package.unpinned) (progress : Progress)

include has backed

theorem of_metadata {result : Result DescribedPackage} {memo : Memo} {last : World}
    (ran : (Resolver.metadata ⟨.disk cache, security⟩ progress package).runIn session.memo
      session.world = (result, memo, last)) :
    IsBacked start cache package.unpinned ⟨memo, last⟩ ∧ ∀ described, result = .ok described →
      memo.described.lookup package.unpinned = some described := by
  have outcome := Resolver.ensures_loadMetadata security progress package.unpinned has
    session.world backed.builds
  rcases Resolver.metadata_cases ran with ⟨described, known, rfl, rfl, rfl⟩ |
    ⟨unknown, ⟨described, loads, rfl, rfl⟩ | ⟨failure, loads, rfl, rfl⟩⟩
  · refine ⟨backed, fun other given => ?_⟩
    obtain ⟨-, -, rfl⟩ := Result.map_eq_ok_iff.mp given
    exact known
  · rw [loads] at outcome
    cases outcome with
    | ok held =>
        have empty := backed.stored_eq_none unknown
        refine ⟨⟨held.1, ?_, fun known => nomatch empty.symm.trans known⟩, fun other given => ?_⟩
        · intro other known
          rw [List.lookup_cons_self] at known
          obtain rfl := Option.some.inj known
          exact held.2
        · obtain ⟨-, -, rfl⟩ := Result.map_eq_ok_iff.mp given
          exact List.lookup_cons_self
  · rw [loads] at outcome
    cases outcome with
    | error builds => exact ⟨.of_unknown builds unknown (backed.stored_eq_none unknown), nofun⟩

theorem of_package [ArchiveReader] {result : Result StoredPackage} {memo : Memo} {last : World}
    (ran : (Resolver.package ⟨.disk cache, security⟩ progress package).runIn session.memo
      session.world = (result, memo, last)) :
    IsBacked start cache package.unpinned ⟨memo, last⟩ := by
  rw [Resolver.package, Resolving.runIn_bind] at ran
  rcases describes : (Resolver.metadata ⟨.disk cache, security⟩ progress package).runIn session.memo
    session.world with ⟨found, between, there⟩
  obtain ⟨still, given⟩ := backed.of_metadata has progress describes
  rw [describes] at ran
  cases found with
  | error failure =>
      cases ran
      exact still
  | ok described =>
      -- the metadata is known by now: its document is in the cache, and the package goes beside it
      have known := given described rfl
      have outcome := Resolver.ensures_loadPackage security progress package.unpinned has
        still.builds (still.documents known) described.metadata there
        (.refl (still.builds.isSound has.isSound))
      simp only [Resolving.runIn_remembering] at ran
      generalize (Resolver.loadPackage ⟨.disk cache, security⟩ progress package.unpinned
        described.metadata).runIn there = loads at outcome ran
      cases remembered : between.stored.lookup package.unpinned with
      | some stored =>
          rw [remembered] at ran
          cases ran
          exact still
      | none =>
          rw [remembered] at ran
          cases outcome with
          | error builds =>
              cases ran
              exact still.of_builds builds
          | ok held =>
              cases ran
              obtain ⟨place, builds, stocks⟩ := held
              refine ⟨still.builds.trans builds, fun found => ?_, fun found => ?_⟩
              · exact (still.documents found).of_builds builds
              · rw [List.lookup_cons_self] at found
                obtain rfl := Option.some.inj found
                exact ⟨place, stocks, described, known⟩

end IsBacked

end Session

/-! ## Reading from the cache -/

namespace Resolver

variable {world : World} {cache : Path} {package : PackageUri} {described : DescribedPackage}

theorem runIn_loadMetadata_of_documents (documents : world.Documents cache package described)
    (security : Security) (progress : Progress) :
    (loadMetadata ⟨.disk cache, security⟩ progress package).runIn world =
      (.ok described, world) := by
  obtain ⟨document, goal, holds, read⟩ := documents
  have asked : (Action.request (.read (package.metadataCachePath cache))).run world =
      (.ok document, world) := by
    rw [← holds.read_eq]
    rfl
  have found : ((Storage.disk cache).metadata? package).runIn world =
      (.ok (some document), world) := by
    rw [Storage.metadata?, Storage.loadMetadata, Attempt.runIn_bind, Attempt.runIn_lift, asked]
    rfl
  rw [loadMetadata, Attempt.runIn_bind, found]
  simp only [read, Attempt.runIn_ofResult]

theorem runIn_loadPackage_of_stocks [ArchiveReader] (stocks : world.Stocks cache package)
    (security : Security) (progress : Progress) (metadata : PackageMetadata) :
    (loadPackage ⟨.disk cache, security⟩ progress package metadata).runIn world =
      (.ok (.extracted (package.cachePath cache)), world) := by
  obtain ⟨goal, holds⟩ := stocks
  rw [loadPackage, Attempt.runIn_bind, Storage.runIn_package?, if_pos holds.isDirectory_eq]
  rfl

end Resolver

namespace Session

variable {world : World} {cache : Path} {package : PackageUri} {described : DescribedPackage}
  {stored : StoredPackage} {session : Session}

/-- That a session is in a world, and that nothing else is remembered of a package than the given
metadata and where it is. -/
structure IsReady (world : World) (package : PackageUri) (described : DescribedPackage)
    (stored : StoredPackage) (session : Session) : Prop where
  world_eq : session.world = world
  described_eq : ∀ {other}, session.memo.described.lookup package = some other → other = described
  stored_eq : ∀ {other}, session.memo.stored.lookup package = some other → other = stored

namespace IsReady

theorem opened : (Session.opened world).IsReady world package described stored :=
  ⟨rfl, nofun, nofun⟩

variable (security : Security) (progress : Progress) {memo : Memo} {last : World}

/-- The metadata is what the document says, and the world stays as it is. -/
theorem of_metadata (ready : session.IsReady world package.unpinned described stored)
    (documents : world.Documents cache package.unpinned described)
    {result : Result DescribedPackage}
    (ran : (Resolver.metadata ⟨.disk cache, security⟩ progress package).runIn session.memo
      session.world = (result, memo, last)) :
    result = (Resolver.checkPin package described).map (fun _ => described) ∧
      IsReady world package.unpinned described stored ⟨memo, last⟩ := by
  have reads := Resolver.runIn_loadMetadata_of_documents documents security progress
  rw [← ready.world_eq] at reads
  rcases Resolver.metadata_cases ran with ⟨other, known, rfl, rfl, rfl⟩ |
    ⟨-, ⟨other, loads, rfl, rfl⟩ | ⟨failure, loads, -, -⟩⟩
  · obtain rfl := ready.described_eq known
    exact ⟨rfl, ready⟩
  · obtain ⟨given, rfl⟩ := Prod.mk.inj (reads.symm.trans loads)
    obtain rfl := Except.ok.inj given
    refine ⟨rfl, ready.world_eq, fun known => ?_, ready.stored_eq⟩
    rw [List.lookup_cons_self] at known
    exact (Option.some.inj known).symm
  · exact nomatch reads.symm.trans loads

/-- The package is in its place, and the world stays as it is. -/
theorem of_package [ArchiveReader] (ready : session.IsReady world package.unpinned described
      (.extracted (package.unpinned.cachePath cache)))
    (documents : world.Documents cache package.unpinned described)
    (stocks : world.Stocks cache package.unpinned) {result : Result StoredPackage}
    (ran : (Resolver.package ⟨.disk cache, security⟩ progress package).runIn session.memo
      session.world = (result, memo, last)) :
    result = (Resolver.checkPin package described).map
        (fun _ => .extracted (package.unpinned.cachePath cache)) ∧
      IsReady world package.unpinned described (.extracted (package.unpinned.cachePath cache))
        ⟨memo, last⟩ := by
  rw [Resolver.package, Resolving.runIn_bind] at ran
  rcases describes : (Resolver.metadata ⟨.disk cache, security⟩ progress package).runIn session.memo
    session.world with ⟨found, between, there⟩
  obtain ⟨rfl, still⟩ := ready.of_metadata security progress documents describes
  rw [describes] at ran
  cases checked : Resolver.checkPin package described with
  | error failure =>
      rw [checked] at ran
      cases ran
      exact ⟨rfl, still⟩
  | ok agreed =>
      obtain rfl : there = world := still.world_eq
      have loads := Resolver.runIn_loadPackage_of_stocks stocks security progress described.metadata
      simp only [checked, Except.map, Resolving.runIn_remembering, loads] at ran
      cases remembered : between.stored.lookup package.unpinned with
      | some stored =>
          obtain rfl := still.stored_eq remembered
          rw [remembered] at ran
          cases ran
          exact ⟨rfl, still⟩
      | none =>
          rw [remembered] at ran
          cases ran
          refine ⟨rfl, rfl, still.described_eq, fun known => ?_⟩
          rw [List.lookup_cons_self] at known
          exact (Option.some.inj known).symm

end IsReady

end Session

/-! ## Two resolvers with one cache -/

namespace Resolver

variable {start world : World} {cache : Path} {top : Location} {package : PackageUri}
  {described : DescribedPackage}

/-- Whatever is asked about a package, what is remembered of it is in the cache. -/
theorem isSimulation_isBacked [ArchiveReader] (has : start.HasEmptyCache cache top)
    (security : Security) :
    IsSimulation ⟨.disk cache, security⟩ package
      fun first second => first = second ∧ first.IsBacked start cache package where
  world_eq first second same := by rw [same.1]
  metadata := by
    rintro progress other rfl first _ ⟨rfl, backed⟩
    exact ⟨rfl, rfl, (backed.of_metadata has progress rfl).1⟩
  package := by
    rintro progress other rfl first _ ⟨rfl, backed⟩
    exact ⟨rfl, rfl, backed.of_package has progress rfl⟩

/-- Whatever is asked about a package that is in the cache with its document, it does not matter
what is remembered of it. -/
theorem isSimulation_isReady [ArchiveReader] (documents : world.Documents cache package described)
    (stocks : world.Stocks cache package) (security : Security) :
    IsSimulation ⟨.disk cache, security⟩ package fun first second =>
      first.IsReady world package described (.extracted (package.cachePath cache)) ∧
        second.IsReady world package described (.extracted (package.cachePath cache)) where
  world_eq first second ready := ready.1.world_eq.trans ready.2.world_eq.symm
  metadata := by
    rintro progress other rfl
    exact .of_forall fun session ready => ready.of_metadata security progress documents rfl
  package := by
    rintro progress other rfl
    exact .of_forall fun session ready => ready.of_package security progress documents stocks rfl

end Resolver

/-- Opening a cache directory that is there changes nothing. -/
theorem Storage.runIn_openDisk {world : World} {cache : Path}
    (found : world.tree.isDirectory world.current cache = .ok true) :
    (openDisk cache).runIn world = (.ok (.disk cache), world) := by
  rw [openDisk, Attempt.runIn_bind, Attempt.createDirectories, Attempt.runIn_files,
    Action.run_createDirectories_of_isDirectory found]
  rfl

/-- A cache directory that was empty when a resolver began to use it, and in which it loaded a
package, serves a new resolver as well as the old one.  Opening the directory changes nothing.
Whatever both were asked about the package in the meantime, every further inquiry about it, with any
pin, has the same reply from both, and the world after it is the one that the old resolver left: no
server was asked, no file was changed. -/
theorem restarted_resolver_replies_alike [ArchiveReader] (security : Security) (start : World)
    (cache : Path) (package : PackageUri) (history : List Inquiry) (sound : start.IsSound)
    (empty : start.tree.list start.current cache = .ok [])
    (about : ∀ inquiry ∈ history, inquiry.package.unpinned = package.unpinned)
    (loaded : ((Session.opened start).following ⟨.disk cache, security⟩ history).memo.stored.lookup
      package.unpinned ≠ none) :
    let resolver : Resolver := ⟨.disk cache, security⟩
    let session := (Session.opened start).following resolver history
    (Storage.openDisk cache).runIn start = (.ok (.disk cache), start) ∧
    (Storage.openDisk cache).runIn session.world = (.ok (.disk cache), session.world) ∧
    ∀ earlier later : List Inquiry,
      (∀ inquiry ∈ earlier ++ later, inquiry.package.unpinned = package.unpinned) →
      ∀ inquiry : Inquiry, inquiry.package.unpinned = package.unpinned →
        let restarted := (Session.opened session.world).following resolver later
        (restarted.inquire resolver inquiry).1 =
            ((session.following resolver earlier).inquire resolver inquiry).1 ∧
          (restarted.inquire resolver inquiry).2.world = session.world := by
  intro resolver session
  obtain ⟨top, has⟩ := sound.exists_hasEmptyCache empty
  obtain ⟨-, backed⟩ := (Resolver.isSimulation_isBacked has security).following
    ⟨rfl, .opened sound⟩ about
  have opens {world : World} (builds : start.Builds world) :=
    Storage.runIn_openDisk (has.isDirectory_eq builds)
  refine ⟨opens (.refl sound), opens backed.builds, fun earlier later aboutToo inquiry this => ?_⟩
  obtain ⟨stored, kept⟩ := Option.ne_none_iff_exists'.mp loaded
  obtain ⟨rfl, stocks, described, known⟩ := backed.stocks kept
  have ready : session.IsReady session.world package.unpinned described
      (.extracted (package.unpinned.cachePath cache)) :=
    ⟨rfl, fun found => Option.some.inj (found.symm.trans known),
      fun found => Option.some.inj (found.symm.trans kept)⟩
  have simulation := Resolver.isSimulation_isReady (backed.documents known) stocks security
  -- both resolvers stay in this world, and what they remember of the package makes no difference
  obtain ⟨old, -⟩ := simulation.following ⟨ready, ready⟩
    fun other member => aboutToo other (List.mem_append_left _ member)
  obtain ⟨new, -⟩ := simulation.following ⟨.opened, .opened⟩
    fun other member => aboutToo other (List.mem_append_right _ member)
  obtain ⟨same, after, -⟩ := simulation.agrees_reply this _ _ ⟨new, old⟩
  exact ⟨same, after.world_eq⟩

/-! ## The birds are read again -/

namespace Aviary

/-- A world with an empty cache directory, whose server has the birds. -/
def world : World :=
  { Storage.shelf with
    server := fun _ url =>
      if url = "https://localhost:0/twig.zip" then .ok Storage.twig else .ok Flaky.document }

/-- A resolver with this directory. -/
def resolver : Resolver :=
  ⟨.disk ⟨"/cache"⟩, .unrestricted⟩

/-- The session in which the birds were asked for. -/
def session : Session :=
  (Session.opened world).following resolver [.call Flaky.call]

theorem isSound_world : world.IsSound :=
  ⟨Storage.isSound_shelf.isClosed, Storage.isSound_shelf.isDirectory,
    Storage.isSound_shelf.isAlphanumeric⟩

end Aviary

/-- After the birds were asked for, which took two requests to the server, a new resolver gives the
same file without a third. -/
theorem birds_read_again :
    Aviary.session.world.fetched =
        ["https://localhost:0/birds@1.0.0", "https://localhost:0/twig.zip"] ∧
      ((Session.opened Aviary.session.world).inquire Aviary.resolver (.call Flaky.call)).1 =
        (Aviary.session.inquire Aviary.resolver (.call Flaky.call)).1 ∧
      ((Session.opened Aviary.session.world).inquire Aviary.resolver
        (.call Flaky.call)).2.world.fetched =
          ["https://localhost:0/birds@1.0.0", "https://localhost:0/twig.zip"] := by
  obtain ⟨kept, fetched⟩ :
      (Aviary.session.memo.stored.lookup PackageUri.birds.unpinned).isSome = true ∧
        Aviary.session.world.fetched =
          ["https://localhost:0/birds@1.0.0", "https://localhost:0/twig.zip"] := by
    decide +kernel
  obtain ⟨-, -, alike⟩ := restarted_resolver_replies_alike .unrestricted Aviary.world ⟨"/cache"⟩
    .birds [.call Flaky.call] Aviary.isSound_world (by decide +kernel)
    (List.forall_mem_singleton.mpr rfl) (Option.isSome_iff_ne_none.mp kept)
  obtain ⟨same, after⟩ := alike [] [] (List.forall_mem_nil _) (.call Flaky.call) rfl
  exact ⟨fetched, same, (congrArg World.fetched after).trans fetched⟩

end PackageResolution
