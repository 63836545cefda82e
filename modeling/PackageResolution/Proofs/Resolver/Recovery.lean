import PackageResolution.Archive.Zip
import PackageResolution.Proofs.Resolver.Conduct
import PackageResolution.Proofs.Resolver.Transparency
import PackageResolution.Proofs.Storage.Interchange

/-!
# Recovery from failures

A failure is not remembered.  What is remembered after a call that failed is what went well
in it: perhaps the metadata of the package, never the package itself.  So a resolver that
keeps packages in memory, in whatever way its calls on a package failed, gives the assets of
the package as soon as the servers send what they should.  Metadata that was accepted stays
accepted, though.  If an archive could not be loaded, then a document that the server sends
later does not count.
-/

namespace PackageResolution

/-! ## What is remembered of a call -/

namespace Resolver

variable {resolver : Resolver} {progress : Progress} {package : PackageUri} {memo after : Memo}
  {world last : World}

/-- Looking for metadata gives what is known, or else what is loaded, which is known then, and
compares it with the pin.  No package is remembered. -/
theorem metadata_cases {result : Result DescribedPackage}
    (ran : (resolver.metadata progress package).runIn memo world = (result, after, last)) :
    (∃ described, memo.described.lookup package.unpinned = some described ∧
        result = (checkPin package described).map (fun _ => described) ∧ after = memo ∧
        last = world) ∨
      memo.described.lookup package.unpinned = none ∧
        ((∃ described, (resolver.loadMetadata progress package.unpinned).runIn world =
              (.ok described, last) ∧
            result = (checkPin package described).map (fun _ => described) ∧
            after = { memo with described := (package.unpinned, described) :: memo.described }) ∨
          ∃ failure, (resolver.loadMetadata progress package.unpinned).runIn world =
              (.error failure, last) ∧ result = .error failure ∧ after = memo) := by
  have checked (described : DescribedPackage) (memo : Memo) (world : World) :
      (do Resolving.ofResult (checkPin package described); return described :
        Resolving DescribedPackage).runIn memo world =
        ((checkPin package described).map (fun _ => described), memo, world) := by
    rw [Resolving.runIn_bind, Resolving.runIn_ofResult]
    cases checkPin package described <;> rfl
  rw [metadata, Resolving.runIn_bind, Resolving.runIn_remembering] at ran
  cases known : memo.described.lookup package.unpinned with
  | some described =>
      simp only [known, checked] at ran
      obtain ⟨rfl, rest⟩ := Prod.mk.inj ran
      obtain ⟨rfl, rfl⟩ := Prod.mk.inj rest
      exact .inl ⟨described, rfl, rfl, rfl, rfl⟩
  | none =>
      rcases loads : (resolver.loadMetadata progress package.unpinned).runIn world with
        ⟨loaded, there⟩
      cases loaded with
      | ok described =>
          simp only [known, loads, checked] at ran
          obtain ⟨rfl, rest⟩ := Prod.mk.inj ran
          obtain ⟨rfl, rfl⟩ := Prod.mk.inj rest
          exact .inr ⟨rfl, .inl ⟨described, rfl, rfl, rfl⟩⟩
      | error failure =>
          simp only [known, loads] at ran
          obtain ⟨rfl, rest⟩ := Prod.mk.inj ran
          obtain ⟨rfl, rfl⟩ := Prod.mk.inj rest
          exact .inr ⟨rfl, .inr ⟨failure, rfl, rfl, rfl⟩⟩

theorem stored_of_metadata {result : Result DescribedPackage}
    (ran : (resolver.metadata progress package).runIn memo world = (result, after, last)) :
    after.stored = memo.stored := by
  rcases metadata_cases ran with ⟨_, -, -, rfl, -⟩ | ⟨-, ⟨_, -, -, rfl⟩ | ⟨_, -, -, rfl⟩⟩ <;> rfl

/-- Looking for a package gives what is there, or else what is loaded, which is there then.  If
that fails, no package is remembered. -/
theorem package_cases [ArchiveReader] {result : Result StoredPackage}
    (ran : (resolver.package progress package).runIn memo world = (result, after, last)) :
    (∃ failure, result = .error failure ∧ after.stored = memo.stored) ∨
      ∃ stored, result = .ok stored ∧
        (memo.stored.lookup package.unpinned = some stored ∧ after.stored = memo.stored ∨
          memo.stored.lookup package.unpinned = none ∧
            after.stored = (package.unpinned, stored) :: memo.stored ∧
            ∃ metadata between, (resolver.loadPackage progress package.unpinned metadata).runIn
              between = (.ok stored, last)) := by
  rw [Resolver.package, Resolving.runIn_bind] at ran
  rcases describes : (resolver.metadata progress package).runIn memo world with
    ⟨described, middle, between⟩
  have same := stored_of_metadata describes
  rw [describes] at ran
  cases described with
  | error failure =>
      obtain ⟨rfl, rest⟩ := Prod.mk.inj ran
      obtain ⟨rfl, -⟩ := Prod.mk.inj rest
      exact .inl ⟨failure, rfl, same⟩
  | ok described =>
      simp only [Resolving.runIn_remembering, same] at ran
      cases known : memo.stored.lookup package.unpinned with
      | some stored =>
          rw [known] at ran
          obtain ⟨rfl, rest⟩ := Prod.mk.inj ran
          obtain ⟨rfl, -⟩ := Prod.mk.inj rest
          exact .inr ⟨stored, rfl, .inl ⟨rfl, same⟩⟩
      | none =>
          rcases loads : (resolver.loadPackage progress package.unpinned
            described.metadata).runIn between with ⟨loaded, there⟩
          simp only [known, loads] at ran
          cases loaded with
          | error failure =>
              obtain ⟨rfl, rest⟩ := Prod.mk.inj ran
              obtain ⟨rfl, -⟩ := Prod.mk.inj rest
              exact .inl ⟨failure, rfl, same⟩
          | ok stored =>
              obtain ⟨rfl, rest⟩ := Prod.mk.inj ran
              obtain ⟨rfl, rfl⟩ := Prod.mk.inj rest
              exact .inr ⟨stored, rfl, .inr ⟨rfl, by rw [← same], _, _, loads⟩⟩

/-- A package that is new in memory is the one that was looked for, as the tree of an
archive. -/
theorem package_of_stored [ArchiveReader] (inMemory : resolver.storage = .memory)
    {result : Result StoredPackage}
    (ran : (resolver.package progress package).runIn memo world = (result, after, last))
    {other : PackageUri} (unknown : memo.stored.lookup other = none) {stored : StoredPackage}
    (kept : after.stored.lookup other = some stored) :
    package.unpinned = other ∧ ∃ tree, result = .ok (.held tree) := by
  rcases package_cases ran with ⟨failure, -, same⟩ |
    ⟨found, rfl, ⟨-, same⟩ | ⟨-, same, metadata, between, loads⟩⟩
  · rw [same, unknown] at kept
    exact nomatch kept
  · rw [same, unknown] at kept
    exact nomatch kept
  · constructor
    · by_contra different
      rw [same, Association.lookup_cons_of_ne (Ne.symm different), unknown] at kept
      exact nomatch kept
    · obtain ⟨archive, -, held⟩ := received_of_loadPackage inMemory loads
      obtain ⟨-, tree, -, rfl⟩ := heldPackage_eq_ok_iff.mp held
      exact ⟨tree, rfl⟩

end Resolver

/-- Where the tree of a package has no answer, the failure is about the asset. -/
theorem PackageTree.isAboutAsset_of_answer {tree : PackageTree} {asset : PackageAsset}
    {question : AssetQuestion} {failure : Error}
    (failed : tree.answer asset question = .error failure) : failure.IsAboutAsset := by
  cases question with
  | bytes allowsDirectory =>
      simp only [answer] at failed
      split at failed
      · obtain rfl := Except.error.inj failed
        trivial
      · split at failed
        · cases failed
        · obtain rfl := Except.error.inj failed
          trivial
      · split at failed
        · cases failed
        · obtain rfl := Except.error.inj failed
          trivial
  | elements =>
      simp only [answer] at failed
      split at failed
      · obtain rfl := Except.error.inj failed
        trivial
      · obtain rfl := Except.error.inj failed
        trivial
      · cases failed
  | presence => cases failed

namespace Session

variable [ArchiveReader]

variable {resolver : Resolver} {session : Session} {package : PackageUri}

/-- A package that a call brought to memory is the package of the call, and the answer of the
call shows it. -/
theorem showsPackage_of_stored (inMemory : resolver.storage = .memory) {call : Call}
    (unknown : session.memo.stored.lookup package = none) {stored : StoredPackage}
    (kept : (session.ask resolver call).2.memo.stored.lookup package = some stored) :
    call.question.package.unpinned = package ∧
      call.question.ShowsPackage (session.ask resolver call).1 := by
  cases checked : resolver.checkPackage call.question.package call.question.uri with
  | error failure =>
      rw [ask_refused checked] at kept
      exact nomatch unknown.symm.trans kept
  | ok allowed =>
      obtain ⟨progress, question⟩ := call
      cases question with
      | asset asset question =>
          change resolver.checkPackage asset.package asset.toUri = .ok () at checked
          simp only [ask, Resolver.answer_asset, checked, Resolving.ofResult_ok_bind,
            Resolving.runIn_bind] at kept ⊢
          rcases ran : (resolver.package progress asset.package).runIn session.memo
            session.world with ⟨result, memo, world⟩
          cases result with
          | error failure =>
              simp only [ran] at kept
              obtain ⟨-, tree, held⟩ := Resolver.package_of_stored inMemory ran unknown kept
              cases held
          | ok held =>
              simp only [ran, Resolving.runIn_ofAttempt] at kept ⊢
              obtain ⟨same, tree, whole⟩ := Resolver.package_of_stored inMemory ran unknown kept
              obtain rfl := Except.ok.inj whole
              refine ⟨same, ?_⟩
              rw [StoredPackage.answer_held, Attempt.runIn_ofResult]
              cases told : tree.answer asset question with
              | ok answer => trivial
              | error failure => exact PackageTree.isAboutAsset_of_answer told
      | metadata other =>
          change resolver.checkPackage other other.toUri = .ok () at checked
          simp only [ask, Resolver.answer, Resolver.dependencyMetadata, checked,
            Resolving.ofResult_ok_bind, Resolving.runIn_bind] at kept
          rcases ran : (resolver.metadata progress other).runIn session.memo session.world with
            ⟨result, memo, world⟩
          have same := Resolver.stored_of_metadata ran
          cases result <;>
          · simp only [ran, Resolving.runIn_pure, same, unknown] at kept
            cases kept
      | download other =>
          change resolver.checkPackage other other.toUri = .ok () at checked
          simp only [ask, Resolver.answer, Resolver.downloadPackage, checked, bind_assoc,
            Resolving.ofResult_ok_bind, Resolving.runIn_bind] at kept ⊢
          rcases ran : (resolver.package progress other).runIn session.memo session.world with
            ⟨result, memo, world⟩
          cases result with
          | error failure =>
              simp only [ran] at kept
              obtain ⟨-, tree, held⟩ := Resolver.package_of_stored inMemory ran unknown kept
              cases held
          | ok held =>
              simp only [ran, Resolving.runIn_pure] at kept ⊢
              exact ⟨(Resolver.package_of_stored inMemory ran unknown kept).1, trivial⟩

/-- A package that no call of a session showed is not in memory. -/
theorem stored_of_unshown (inMemory : resolver.storage = .memory) {calls : List Call}
    (unknown : session.memo.stored.lookup package = none)
    (unshown : ∀ before call later, calls = before ++ call :: later →
      call.question.package.unpinned = package →
      ¬ call.question.ShowsPackage ((session.after resolver before).ask resolver call).1) :
    (session.after resolver calls).memo.stored.lookup package = none := by
  induction calls generalizing session with
  | nil => exact unknown
  | cons first rest inductionHypothesis =>
      refine inductionHypothesis ?_ fun before call later split => ?_
      · rw [Option.eq_none_iff_forall_not_mem]
        intro stored kept
        obtain ⟨same, shows⟩ := showsPackage_of_stored inMemory unknown kept
        exact unshown [] first rest rfl same shows
      · exact unshown (first :: before) call later (by rw [split, List.cons_append])

end Session

/-! ## What was accepted was sent -/

/-- Some calls lead from a sound ledger to a sound ledger. -/
theorem Ledger.Sound.exists_after [ArchiveReader] {start : World} {ledger : Ledger}
    (sound : ledger.Sound start)
    {resolver : Resolver} (inMemory : resolver.storage = .memory) (calls : List Call) :
    ∃ later : Ledger, later.toSession = ledger.toSession.after resolver calls ∧
      later.Sound start := by
  induction calls generalizing ledger with
  | nil => exact ⟨ledger, rfl, sound⟩
  | cons call rest inductionHypothesis =>
      rcases ran : (resolver.answer call).runIn ledger.memo ledger.world with
        ⟨result, memo, world⟩
      obtain ⟨middle, ⟨middleSound, -, rfl, rfl⟩, -⟩ :=
        keeps_answer inMemory call _ _ _ _ sound trivial ran
      obtain ⟨later, same, laterSound⟩ := inductionHypothesis middleSound
      refine ⟨later, ?_, laterSound⟩
      rw [same, Session.after_cons, Session.ask, ran]

/-! ## Servers that send what they should -/

/-- That from now on the servers answer for a package with a document and an archive, over an
encrypted connection, and that the archive can be unpacked and has the checksum that the
document names. -/
structure World.Offers [ArchiveReader] (world : World) (package : PackageUri)
    (document archive : ByteArray) (described : DescribedPackage) (tree : PackageTree) : Prop where
  sends_document : ∀ earlier, world.fetched <+: earlier →
    world.server earlier package.metadataUrl = .ok document
  read : Resolver.describe package document = .ok described
  isSecure : Resolver.isSecure described.metadata.archiveUrl = true
  sends_archive : ∀ earlier, world.fetched <+: earlier →
    world.server earlier described.metadata.archiveUrl = .ok archive
  agrees : (Checksum.ofDocument archive).agrees described.metadata.archiveChecksum = true
  opened : Storage.treeOfArchive package archive = .ok tree

namespace World.Offers

variable [ArchiveReader]

variable {world : World} {package : PackageUri} {document archive : ByteArray}
  {described : DescribedPackage} {tree : PackageTree} {resolver : Resolver} {memo : Memo}

/-- The metadata is found, unless other metadata was accepted before. -/
theorem runIn_metadata (offers : world.Offers package.unpinned document archive described tree)
    (inMemory : resolver.storage = .memory)
    (accepted : ∀ other, memo.described.lookup package.unpinned = some other → other = described)
    (pinned : ∀ pin, package.pin = some pin → pin.agrees (.ofDocument document) = true)
    (progress : Progress) :
    ((resolver.metadata progress package).runIn memo world).1 = .ok described := by
  have checked : Resolver.checkPin package described = .ok () := by
    refine Resolver.checkPin_eq_ok_iff.mpr fun pin held => ?_
    rw [(Resolver.describe_eq_ok_iff.mp offers.read).2]
    exact pinned pin held
  rcases ran : (resolver.metadata progress package).runIn memo world with ⟨result, after, last⟩
  have loads : ((resolver.loadMetadata progress package.unpinned).runIn world).1 =
      .ok described := by
    rw [Resolver.runIn_loadMetadata inMemory, offers.sends_document _ (List.prefix_refl _)]
    exact offers.read
  rcases Resolver.metadata_cases ran with ⟨other, known, rfl, -⟩ |
    ⟨-, ⟨other, loaded, rfl, -⟩ | ⟨failure, loaded, -⟩⟩
  · rw [accepted other known, checked]
    rfl
  · rw [loaded] at loads
    obtain rfl := Except.ok.inj loads
    rw [checked]
    rfl
  · rw [loaded] at loads
    exact nomatch loads

/-- The package is found in the archive, unless it was found before. -/
theorem runIn_package (offers : world.Offers package.unpinned document archive described tree)
    (inMemory : resolver.storage = .memory)
    (accepted : ∀ other, memo.described.lookup package.unpinned = some other → other = described)
    (unknown : memo.stored.lookup package.unpinned = none)
    (pinned : ∀ pin, package.pin = some pin → pin.agrees (.ofDocument document) = true)
    (progress : Progress) :
    ((resolver.package progress package).runIn memo world).1 = .ok (.held tree) := by
  have describes := offers.runIn_metadata inMemory accepted pinned progress
  have continues := Resolving.continues_runIn (resolver.metadata progress package) memo world
  rcases ran : (resolver.metadata progress package).runIn memo world with ⟨result, after, last⟩
  rw [ran] at describes continues
  obtain rfl : result = .ok described := describes
  have held : Resolver.heldPackage package.unpinned described.metadata archive =
      .ok (.held tree) :=
    Resolver.heldPackage_eq_ok_iff.mpr ⟨offers.agrees, tree, offers.opened, rfl⟩
  have loads : ((resolver.loadPackage progress package.unpinned described.metadata).runIn
      last).1 = .ok (.held tree) := by
    rw [Resolver.runIn_loadPackage inMemory, if_pos offers.isSecure, continues.server_eq,
      offers.sends_archive _ continues.fetched_prefix]
    exact held
  rw [Resolver.package, Resolving.runIn_bind, ran]
  simp only [Resolving.runIn_remembering, Resolver.stored_of_metadata ran, unknown]
  rcases loaded : (resolver.loadPackage progress package.unpinned described.metadata).runIn last
    with ⟨stored, there⟩
  rw [loaded] at loads
  obtain rfl : stored = .ok (.held tree) := loads
  rfl

end World.Offers

/-- What is there in a tree has contents, if the listing of a directory will do. -/
theorem PackageTree.exists_contents {tree : PackageTree} {asset : PackageAsset}
    (present : (tree.kind? asset.relativePath).isSome = true) :
    ∃ contents, tree.answer asset (.bytes true) = .ok (.bytes contents) := by
  simp only [answer]
  cases kind : tree.kind? asset.relativePath with
  | none =>
      rw [kind] at present
      cases present
  | some kind' =>
      cases kind' with
      | directory => exact ⟨_, rfl⟩
      | file =>
          cases found : tree.files.lookup asset.relativePath with
          | some contents => exact ⟨contents, rfl⟩
          | none =>
              rw [kind?, found] at kind
              simp only [Option.isSome_none, Bool.false_eq_true, if_false] at kind
              split at kind <;> cases kind

/-- Take a session with a resolver that keeps packages in memory, in which no call brought a
package to memory, and servers that from then on send a document and an archive for it as they
should.  Whatever metadata of the package was accepted in the session was sent in it.  If none
was but that of the document, then the next call for the contents of an asset that is in the
archive gives what is in the archive. -/
theorem failures_forgotten [ArchiveReader] (security : Security) (start : World)
    (history : List Call)
    (progress : Progress) (asset : PackageAsset) (document archive : ByteArray)
    (described : DescribedPackage) (tree : PackageTree)
    (unshown : ∀ before call later, history = before ++ call :: later →
      call.question.package.unpinned = asset.package.unpinned →
      ¬ call.question.ShowsPackage (((Session.opened start).after (.inMemory security)
        before).ask (.inMemory security) call).1) :
    let session := (Session.opened start).after (.inMemory security) history
    (∀ other, session.memo.described.lookup asset.package.unpinned = some other →
      ∃ sent, start.Received session.world asset.package.unpinned.metadataUrl sent ∧
        Resolver.describe asset.package.unpinned sent = .ok other) ∧
    (session.world.Offers asset.package.unpinned document archive described tree →
      (∀ other, session.memo.described.lookup asset.package.unpinned = some other →
        other = described) →
      (∀ pin, asset.package.pin = some pin → pin.agrees (.ofDocument document) = true) →
      (Resolver.inMemory security).checkPackage asset.package asset.toUri = .ok () →
      (tree.kind? asset.relativePath).isSome = true →
      ∃ contents, tree.answer asset (.bytes true) = .ok (.bytes contents) ∧
        (session.ask (.inMemory security) ⟨progress, .asset asset (.bytes true)⟩).1 =
          .ok (.bytes contents)) := by
  intro session
  have inMemory : (Resolver.inMemory security).storage = .memory := rfl
  constructor
  · intro other known
    obtain ⟨ledger, same, sound⟩ :=
      (Ledger.sound_opened start).exists_after inMemory history
    have memo : ledger.memo = session.memo := congrArg Session.memo same
    have world : ledger.world = session.world := congrArg Session.world same
    rw [← memo] at known
    obtain ⟨received, read⟩ := sound.described known
    exact ⟨_, world ▸ received, read⟩
  · intro offers accepted pinned permitted present
    have unknown : session.memo.stored.lookup asset.package.unpinned = none :=
      Session.stored_of_unshown inMemory rfl unshown
    have found := offers.runIn_package inMemory accepted unknown pinned progress
    obtain ⟨contents, told⟩ := PackageTree.exists_contents present
    refine ⟨contents, told, ?_⟩
    rcases ran : ((Resolver.inMemory security).package progress asset.package).runIn session.memo
      session.world with ⟨result, after, last⟩
    rw [ran] at found
    obtain rfl : result = .ok (.held tree) := found
    simp only [Session.ask, Resolver.answer_asset, permitted, Resolving.ofResult_ok_bind,
      Resolving.runIn_bind, ran, Resolving.runIn_ofAttempt, StoredPackage.answer_held,
      Attempt.runIn_ofResult, told]

/-! ## A server that recovers -/

namespace Flaky

open Storage (twig)

/-- The metadata document of the birds. -/
def document : ByteArray :=
  ("\x7b\"name\":\"birds\",\"packageUri\":\"package://localhost:0/birds@1.0.0\"," ++
    "\"version\":\"1.0.0\",\"packageZipUrl\":\"https://localhost:0/twig.zip\"," ++
    "\"packageZipChecksums\":\x7b\"sha256\":" ++
    "\"3adefa950c8f56a669de2a67d59b62ed2b51e8719a64a480935fa66cc04baff0\"\x7d\x7d").toUTF8

/-- A metadata document that names an address for which there is no encrypted connection. -/
def insecureDocument : ByteArray :=
  ("\x7b\"name\":\"birds\",\"packageUri\":\"package://localhost:0/birds@1.0.0\"," ++
    "\"version\":\"1.0.0\",\"packageZipUrl\":\"http://localhost:0/twig.zip\"," ++
    "\"packageZipChecksums\":\x7b\"sha256\":\"\"\x7d\x7d").toUTF8

/-- A world whose server has the birds, except that its first answer is another one. -/
def world (first : Except FetchError ByteArray) : World :=
  { World.empty with
    server := fun earlier url =>
      if earlier = [] then first
      else if url = "https://localhost:0/twig.zip" then .ok twig
      else .ok document }

/-- The only file of the birds. -/
def asset : PackageAsset :=
  { package := .birds, path := "/a" }

/-- The contents of the file are asked for. -/
def call : Call :=
  ⟨.unwatched, .asset asset (.bytes true)⟩

/-- The session after one call. -/
def session (first : Except FetchError ByteArray) : Session :=
  (Session.opened (world first)).after (.inMemory .unrestricted) [call]

/-- A server that recovered sends the birds as it should, and the file is among them. -/
theorem exists_offers : ∃ described tree, (tree.kind? asset.relativePath).isSome = true ∧
    ∀ first, (session first).world.fetched ≠ [] →
      (session first).world.Offers asset.package.unpinned document twig described tree := by
  have reads : (Resolver.describe .birds document).map (fun described =>
      (described.metadata.archiveUrl, described.metadata.archiveChecksum)) =
      .ok ("https://localhost:0/twig.zip",
        ⟨"3adefa950c8f56a669de2a67d59b62ed2b51e8719a64a480935fa66cc04baff0"⟩) := by
    decide +kernel
  have opens : (Storage.treeOfArchive .birds twig).map (fun tree =>
      (tree.kind? asset.relativePath).isSome) = .ok true := by
    decide +kernel
  have agrees : (Checksum.ofDocument twig).agrees
      ⟨"3adefa950c8f56a669de2a67d59b62ed2b51e8719a64a480935fa66cc04baff0"⟩ = true := by
    decide +kernel
  obtain ⟨described, read, named⟩ := Result.map_eq_ok_iff.mp reads
  obtain ⟨url, checksum⟩ := Prod.mk.inj named
  obtain ⟨tree, opened, present⟩ := Result.map_eq_ok_iff.mp opens
  refine ⟨described, tree, present, fun first asked => ?_⟩
  have later {earlier : List String} (onward : (session first).world.fetched <+: earlier) :
      earlier ≠ [] := by
    rintro rfl
    exact asked (List.prefix_nil.mp onward)
  have server : (session first).world.server = (world first).server :=
    (Resolving.continues_runIn ((Resolver.inMemory .unrestricted).answer call) .empty
      (world first)).server_eq
  constructor
  · intro earlier onward
    rw [server]
    simp only [world, if_neg (later onward)]
    rw [if_neg (by decide +kernel)]
  · exact read
  · rw [url]
    decide +kernel
  · intro earlier onward
    rw [server, url]
    simp only [world, if_neg (later onward), if_true]
  · rw [checksum]
    exact agrees
  · exact opened

/-- A call that fails while the package is loaded does not show the package. -/
theorem unshown_of_packageLoad {first : Except FetchError ByteArray} {failure : PackageLoadError}
    (failed : (((Session.opened (world first)).ask (.inMemory .unrestricted) call).1.map
      fun _ => ()) = .error (.packageLoad failure)) :
    ∀ before later call', [call] = before ++ call' :: later →
      ¬ call'.question.ShowsPackage (((Session.opened (world first)).after
        (.inMemory .unrestricted) before).ask (.inMemory .unrestricted) call').1 := by
  intro before later call' split
  obtain ⟨rfl, rfl, rfl⟩ : before = [] ∧ call' = call ∧ later = [] := by
    cases before with
    | nil => simpa [eq_comm] using split
    | cons other before => simp at split
  rw [Session.after_nil]
  generalize ((Session.opened (world first)).ask (.inMemory .unrestricted) call).1 = result
    at failed
  cases result with
  | ok answer => exact nomatch failed
  | error other =>
      obtain rfl := Except.error.inj failed
      exact id

end Flaky

/-- After the document was not found, the birds are given as soon as it is. -/
theorem missing_document_forgotten :
    ∃ contents,
      ((Session.opened (Flaky.world (.error (.notFound "https://localhost:0/birds@1.0.0")))).ask
        (.inMemory .unrestricted) Flaky.call).1.map (fun _ => ()) =
          .error (.packageLoad (.download "package://localhost:0/birds@1.0.0"
            (.notFound "https://localhost:0/birds@1.0.0"))) ∧
      ((Flaky.session (.error (.notFound "https://localhost:0/birds@1.0.0"))).ask
        (.inMemory .unrestricted) Flaky.call).1 = .ok (.bytes contents) := by
  have failed : ((Session.opened (Flaky.world (.error (.notFound
      "https://localhost:0/birds@1.0.0")))).ask (.inMemory .unrestricted) Flaky.call).1.map
      (fun _ => ()) = .error (.packageLoad (.download "package://localhost:0/birds@1.0.0"
        (.notFound "https://localhost:0/birds@1.0.0"))) := by
    decide +kernel
  obtain ⟨described, tree, present, offers⟩ := Flaky.exists_offers
  have unknown : (Flaky.session (.error (.notFound
      "https://localhost:0/birds@1.0.0"))).memo.described.lookup .birds = none := by
    decide +kernel
  obtain ⟨contents, -, given⟩ := (failures_forgotten .unrestricted _ [Flaky.call] .unwatched
    Flaky.asset Flaky.document Storage.twig described tree
    (fun before call later split _ => Flaky.unshown_of_packageLoad failed before later call split)).2
    (offers _ (by decide +kernel)) (fun other known => nomatch unknown.symm.trans known)
    (fun _ held => nomatch held) rfl present
  exact ⟨contents, failed, given⟩

/-- After a document was accepted whose archive cannot be asked for, the birds are not given,
though the server sends another document and its archive as it should. -/
theorem accepted_document_stays :
    ∃ described tree, (tree.kind? Flaky.asset.relativePath).isSome = true ∧
      (Flaky.session (.ok Flaky.insecureDocument)).world.Offers Flaky.asset.package.unpinned
        Flaky.document Storage.twig described tree ∧
      (∀ before later call, [Flaky.call] = before ++ call :: later →
        ¬ call.question.ShowsPackage (((Session.opened
          (Flaky.world (.ok Flaky.insecureDocument))).after (.inMemory .unrestricted)
            before).ask (.inMemory .unrestricted) call).1) ∧
      ((Flaky.session (.ok Flaky.insecureDocument)).ask (.inMemory .unrestricted)
        Flaky.call).1.map (fun _ => ()) =
          .error (.packageLoad (.insecureArchive "package://localhost:0/birds@1.0.0"
            "http://localhost:0/twig.zip")) := by
  obtain ⟨described, tree, present, offers⟩ := Flaky.exists_offers
  have failed : ((Session.opened (Flaky.world (.ok Flaky.insecureDocument))).ask
      (.inMemory .unrestricted) Flaky.call).1.map (fun _ => ()) =
      .error (.packageLoad (.insecureArchive "package://localhost:0/birds@1.0.0"
        "http://localhost:0/twig.zip")) := by
    decide +kernel
  exact ⟨described, tree, present, offers _ (by decide +kernel),
    Flaky.unshown_of_packageLoad failed, by decide +kernel⟩

end PackageResolution
