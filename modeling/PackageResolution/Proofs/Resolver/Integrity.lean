import PackageResolution.Proofs.Resolver.Ledger

/-!
# Integrity of packages in memory

Whatever the servers answer, and however their answers change, what a resolver tells
about an asset comes from an archive that was received and has the checksum that the
metadata of the package names, and this metadata from a document that was received and
has the checksum that the call is pinned to.

Every call leads from a sound ledger to a sound ledger, and what a ledger says about a
package never changes, so all calls of a session on one package rest on the same document
and the same archive.
-/

namespace PackageResolution

namespace Ledger

/-- That the metadata of a package is remembered and agrees with the pin of a call. -/
def Describes (ledger : Ledger) (package : PackageUri) (described : DescribedPackage) : Prop :=
  ledger.memo.described.lookup package.unpinned = some described ∧
    Resolver.checkPin package described = .ok ()

/-- That an answer is the answer of the tree of a package that is remembered. -/
def Tells (ledger : Ledger) (asset : PackageAsset) (question : AssetQuestion)
    (answer : Answer) : Prop :=
  ∃ described tree, ledger.Describes asset.package described ∧
    ledger.memo.stored.lookup asset.package.unpinned = some (.held tree) ∧
    tree.answer asset question = .ok answer

/-! ## What calls do to a ledger -/

section Calls

variable [ArchiveReader]

variable {start : World} {resolver : Resolver}

/-- The metadata of a package is remembered, and it was compared with the pin of the call. -/
theorem keeps_metadata (inMemory : resolver.storage = .memory) (progress : Progress)
    (package : PackageUri) :
    Keeps start (fun _ => True) (resolver.metadata progress package)
      fun described ledger => ledger.Describes package described := by
  refine .bind (fun described ledger =>
    ledger.memo.described.lookup package.unpinned = some described) (.remembering ?_ ?_) ?_
  · intro described ledger _ remembered
    exact remembered
  · intro described ledger world sound _ unknown ran
    have continues := (resolver.loadMetadata progress package.unpinned).continues_runIn ledger.world
    rw [ran] at continues
    obtain ⟨document, received, read⟩ := Resolver.received_of_loadMetadata inMemory ran
    exact ⟨_, ((Reaches.refl sound).moved continues).withDocument unknown
      (received.since sound.continues) read, List.lookup_cons_self⟩
  · intro described
    refine .bind (fun _ ledger => ledger.Describes package described) (.ofResult ?_) ?_
    · intro _ ledger remembered agreed
      exact ⟨remembered, agreed⟩
    · intro _
      exact .pure fun ledger known => known

/-- A package is remembered with its metadata. -/
theorem keeps_package (inMemory : resolver.storage = .memory) (progress : Progress)
    (package : PackageUri) :
    Keeps start (fun _ => True) (resolver.package progress package)
      fun stored ledger => ledger.memo.stored.lookup package.unpinned = some stored ∧
        ∃ described, ledger.Describes package described := by
  refine .bind _ (keeps_metadata inMemory progress package) fun described => .remembering ?_ ?_
  · intro stored ledger known kept
    exact ⟨kept, described, known⟩
  · intro stored ledger world sound known unknown ran
    have continues := (resolver.loadPackage progress package.unpinned
      described.metadata).continues_runIn ledger.world
    rw [ran] at continues
    obtain ⟨archive, received, held⟩ := Resolver.received_of_loadPackage inMemory ran
    exact ⟨_, ((Reaches.refl sound).moved continues).withArchive unknown known.1
      (received.since sound.continues) held, List.lookup_cons_self, described, known⟩

/-- An answer about an asset is the answer of the tree that is remembered. -/
theorem keeps_answer (inMemory : resolver.storage = .memory) (call : Call) :
    Keeps start (fun _ => True) (resolver.answer call)
      fun answer ledger => ∀ asset question, call.question = .asset asset question →
        ledger.Tells asset question answer := by
  obtain ⟨progress, question⟩ := call
  cases question with
  | asset asset question =>
      rw [Resolver.answer_asset]
      refine .bind (fun _ _ => True) (.ofResult fun _ _ _ _ => trivial) fun _ => ?_
      refine .bind _ (keeps_package inMemory progress asset.package) fun stored => .ofAttempt ?_
      rintro answer ledger world sound ⟨kept, described, known⟩ ran
      obtain ⟨_, _, _, held⟩ := sound.stored kept
      obtain ⟨_, tree, _, rfl⟩ := Resolver.heldPackage_eq_ok_iff.mp held
      rw [StoredPackage.answer_held, Attempt.runIn_ofResult] at ran
      obtain ⟨told, rfl⟩ := Prod.mk.inj ran
      rintro _ _ ⟨⟩
      exact ⟨described, tree, known, kept, told⟩
  | metadata package =>
      refine .bind _ (.bind (fun _ _ => True) (.ofResult fun _ _ _ _ => trivial) fun _ =>
        keeps_metadata inMemory progress package) fun described => ?_
      exact .pure fun _ _ _ _ other => nomatch other
  | download package =>
      refine .bind (fun _ _ => True) (.bind (fun _ _ => True)
        (.ofResult fun _ _ _ _ => trivial) fun _ =>
          .bind _ (keeps_package inMemory progress package) fun _ => ?_) fun _ => ?_
      · exact .pure fun _ _ => trivial
      · exact .pure fun _ _ _ _ other => nomatch other

end Calls

end Ledger

/-! ## Whole sessions -/

/-- That the tree of a package is the contents of an archive which the servers sent
between two worlds, with the checksum and at the address that the metadata of the package
names, and that they sent this metadata as well. -/
structure Provenance [ArchiveReader] (start finish : World) (package : PackageUri)
    (document archive : ByteArray) (metadata : PackageMetadata) (tree : PackageTree) :
    Prop where
  document_received : start.Received finish package.metadataUrl document
  document_read : PackageMetadata.parse document = .ok metadata
  archive_received : start.Received finish metadata.archiveUrl archive
  archive_agrees : (Checksum.ofDocument archive).agrees metadata.archiveChecksum = true
  archive_opened : Storage.treeOfArchive package archive = .ok tree

namespace Ledger

variable [ArchiveReader]

variable {start : World} {ledger : Ledger}

theorem Sound.provenance (sound : ledger.Sound start) {package : PackageUri}
    {described : DescribedPackage} {tree : PackageTree}
    (remembered : ledger.memo.described.lookup package = some described)
    (kept : ledger.memo.stored.lookup package = some (.held tree)) :
    described.checksum = .ofDocument (ledger.document package) ∧
      Provenance start ledger.world package (ledger.document package)
        (ledger.archive package) described.metadata tree := by
  obtain ⟨documentReceived, read⟩ := sound.described remembered
  obtain ⟨parsed, computed⟩ := Resolver.describe_eq_ok_iff.mp read
  obtain ⟨other, same, archiveReceived, held⟩ := sound.stored kept
  obtain rfl : described = other := Option.some.inj (remembered.symm.trans same)
  obtain ⟨agreed, opened, opens, equal⟩ := Resolver.heldPackage_eq_ok_iff.mp held
  obtain rfl : opened = tree := StoredPackage.held.inj equal
  exact ⟨computed, documentReceived, parsed, archiveReceived, agreed, opens⟩

/-- That an answer about an asset comes from the documents and archives of a ledger, as
far as they were received before the world `finish`. -/
def Supports (ledger : Ledger) (start finish : World) (asset : PackageAsset)
    (question : AssetQuestion) (answer : Answer) : Prop :=
  ∃ metadata tree,
    Provenance start finish asset.package.unpinned (ledger.document asset.package.unpinned)
        (ledger.archive asset.package.unpinned) metadata tree ∧
      (∀ pin, asset.package.pin = some pin →
        pin.agrees (.ofDocument (ledger.document asset.package.unpinned)) = true) ∧
      tree.answer asset question = .ok answer

/-- One ledger supports the answers of a whole session: what it says of a package is
fixed by the first call that needs it. -/
theorem Sound.exists_supports (sound : ledger.Sound start) {resolver : Resolver}
    (inMemory : resolver.storage = .memory) (calls : List Call) :
    ∃ last : Ledger, last.Extends ledger ∧
      ∀ before call later asset question answer,
        calls = before ++ call :: later →
        call.question = .asset asset question →
        ((ledger.toSession.after resolver before).ask resolver call).1 = .ok answer →
        last.Supports start
          ((ledger.toSession.after resolver before).ask resolver call).2.world
          asset question answer := by
  induction calls generalizing ledger with
  | nil =>
      refine ⟨ledger, .refl ledger, ?_⟩
      intro before call later _ _ _ split
      exact absurd split (by simp)
  | cons first rest inductionHypothesis =>
      rcases ran : (resolver.answer first).runIn ledger.memo ledger.world with
        ⟨result, memo, world⟩
      have asked : ledger.toSession.ask resolver first = (result, ⟨memo, world⟩) := by
        simp only [Session.ask, ran]
      obtain ⟨middle, ⟨middleSound, grown, rfl, rfl⟩, known⟩ :=
        keeps_answer inMemory first _ _ _ _ sound trivial ran
      obtain ⟨last, extended, supported⟩ := inductionHypothesis middleSound
      refine ⟨last, extended.trans grown, ?_⟩
      intro before call later asset question answer split about answered
      cases before with
      | cons other before =>
          obtain ⟨rfl, rest_eq⟩ := List.cons.inj split
          rw [Session.after_cons, asked] at answered ⊢
          exact supported before call later asset question answer rest_eq about answered
      | nil =>
          obtain ⟨rfl, -⟩ := List.cons.inj split
          rw [Session.after_nil, asked] at answered ⊢
          obtain ⟨described, tree, ⟨remembered, agreed⟩, kept, told⟩ :=
            known answer answered asset question about
          obtain ⟨computed, provenance⟩ := middleSound.provenance remembered kept
          have sameDocument := (extended.described remembered).2
          have sameArchive := (extended.stored kept).2
          refine ⟨described.metadata, tree, ?_, ?_, told⟩
          · rwa [sameDocument, sameArchive]
          · intro pin pinned
            rw [sameDocument, ← computed]
            exact Resolver.checkPin_eq_ok_iff.mp agreed pin pinned

end Ledger

/-- The resolver that keeps packages in memory. -/
def Resolver.inMemory (security : Security) : Resolver :=
  { storage := .memory, security }

/-- In every session with a resolver that keeps packages in memory, each answer about an
asset comes from a document and an archive that the servers sent before it and that have
the required checksums.  All answers about one package come from the same two. -/
theorem answers_rest_on_verified_archives [ArchiveReader] (security : Security) (start : World)
    (calls : List Call) :
    ∃ document archive : PackageUri → ByteArray,
      ∀ before call later asset question answer,
        calls = before ++ call :: later →
        call.question = .asset asset question →
        let asked := ((Session.opened start).after (.inMemory security) before).ask
          (.inMemory security) call
        asked.1 = .ok answer →
        ∃ metadata tree,
          Provenance start asked.2.world asset.package.unpinned
              (document asset.package.unpinned) (archive asset.package.unpinned)
              metadata tree ∧
            (∀ pin, asset.package.pin = some pin →
              pin.agrees (.ofDocument (document asset.package.unpinned)) = true) ∧
            tree.answer asset question = .ok answer := by
  have inMemory : (Resolver.inMemory security).storage = .memory := rfl
  obtain ⟨last, -, supported⟩ := (Ledger.sound_opened start).exists_supports inMemory calls
  exact ⟨last.document, last.archive, supported⟩

end PackageResolution
