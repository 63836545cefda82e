import PackageResolution.Proofs.Resolver.Memory
import PackageResolution.Proofs.Resolver.Session

/-!
# Ledgers

A ledger is a session together with the document and the archive that stand behind each
remembered package.  It is sound if these were received, were read and have the right
checksums.

`Ledger.Keeps` says of an attempt that it leads from sound ledgers to sound ledgers, and
never changes what a ledger says of a package.  One lemma for each way of putting attempts
together reduces this to the two steps that record something, `Sound.withDocument` and
`Sound.withArchive`.
-/

namespace PackageResolution

/-- A session with what stands behind the packages that are remembered. -/
structure Ledger extends Session where
  /-- The metadata documents. -/
  document : PackageUri → ByteArray
  /-- The archives. -/
  archive : PackageUri → ByteArray

namespace Ledger

/-- That each remembered package was received and verified since the world `start`: its
metadata is that of its document, and its tree that of the archive which this metadata
names. -/
structure Sound [ArchiveReader] (start : World) (ledger : Ledger) : Prop where
  continues : ledger.world.Continues start
  described : ∀ {package described},
    ledger.memo.described.lookup package = some described →
      start.Received ledger.world package.metadataUrl (ledger.document package) ∧
        Resolver.describe package (ledger.document package) = .ok described
  stored : ∀ {package stored}, ledger.memo.stored.lookup package = some stored →
    ∃ described, ledger.memo.described.lookup package = some described ∧
      start.Received ledger.world described.metadata.archiveUrl (ledger.archive package) ∧
        Resolver.heldPackage package described.metadata (ledger.archive package) = .ok stored

/-- That a ledger still says what an earlier one said. -/
structure Extends (later earlier : Ledger) : Prop where
  described : ∀ {package described},
    earlier.memo.described.lookup package = some described →
      later.memo.described.lookup package = some described ∧
        later.document package = earlier.document package
  stored : ∀ {package stored}, earlier.memo.stored.lookup package = some stored →
    later.memo.stored.lookup package = some stored ∧
      later.archive package = earlier.archive package

namespace Extends

theorem refl (ledger : Ledger) : ledger.Extends ledger :=
  ⟨fun known => ⟨known, rfl⟩, fun known => ⟨known, rfl⟩⟩

theorem trans {first second third : Ledger} (later : third.Extends second)
    (earlier : second.Extends first) : third.Extends first where
  described known := by
    obtain ⟨still, same⟩ := earlier.described known
    obtain ⟨last, equal⟩ := later.described still
    exact ⟨last, equal.trans same⟩
  stored known := by
    obtain ⟨still, same⟩ := earlier.stored known
    obtain ⟨last, equal⟩ := later.stored still
    exact ⟨last, equal.trans same⟩

end Extends

/-- The ledger of a new resolver. -/
def opened (world : World) : Ledger :=
  { Session.opened world with document := fun _ => .empty, archive := fun _ => .empty }

theorem sound_opened [ArchiveReader] (world : World) : (opened world).Sound world where
  continues := .refl world
  described known := absurd known (by simp [opened, Session.opened, Memo.empty])
  stored known := absurd known (by simp [opened, Session.opened, Memo.empty])

/-- The ledger in a later world. -/
def moved (ledger : Ledger) (world : World) : Ledger :=
  { ledger with world }

theorem Sound.moved [ArchiveReader] {start : World} {ledger : Ledger} (sound : ledger.Sound start)
    {world : World} (continues : world.Continues ledger.world) :
    (ledger.moved world).Sound start where
  continues := continues.trans sound.continues
  described known := by
    obtain ⟨received, read⟩ := sound.described known
    exact ⟨received.continued continues, read⟩
  stored known := by
    obtain ⟨described, known, received, held⟩ := sound.stored known
    exact ⟨described, known, received.continued continues, held⟩

/-- The ledger with a document behind a package. -/
def withDocument (ledger : Ledger) (package : PackageUri) (document : ByteArray)
    (described : DescribedPackage) : Ledger :=
  { ledger with
    memo := { ledger.memo with described := (package, described) :: ledger.memo.described }
    document := fun other => if other = package then document else ledger.document other }

/-- The ledger with an archive behind a package. -/
def withArchive (ledger : Ledger) (package : PackageUri) (archive : ByteArray)
    (stored : StoredPackage) : Ledger :=
  { ledger with
    memo := { ledger.memo with stored := (package, stored) :: ledger.memo.stored }
    archive := fun other => if other = package then archive else ledger.archive other }

section Recording

variable {start : World} {ledger : Ledger} {package : PackageUri}

theorem extends_withDocument (unknown : ledger.memo.described.lookup package = none)
    (document : ByteArray) (described : DescribedPackage) :
    (ledger.withDocument package document described).Extends ledger where
  described {other _} known := by
    have different : other ≠ package := by
      rintro rfl
      exact absurd known (by simp [unknown])
    simp [withDocument, List.lookup_cons, beq_eq_false_iff_ne.mpr different, different, known]
  stored known := ⟨known, rfl⟩

theorem Sound.withDocument [ArchiveReader] (sound : ledger.Sound start)
    (unknown : ledger.memo.described.lookup package = none) {document : ByteArray}
    {described : DescribedPackage}
    (received : start.Received ledger.world package.metadataUrl document)
    (read : Resolver.describe package document = .ok described) :
    (ledger.withDocument package document described).Sound start where
  continues := sound.continues
  described {other found} known := by
    by_cases same : other = package
    · subst same
      simp only [Ledger.withDocument, List.lookup_cons, beq_self_eq_true,
        Option.some.injEq] at known
      subst known
      simpa [Ledger.withDocument] using ⟨received, read⟩
    · simp only [Ledger.withDocument, List.lookup_cons, beq_eq_false_iff_ne.mpr same] at known
      simpa [Ledger.withDocument, same] using sound.described known
  stored known := by
    obtain ⟨found, describedBefore, archiveReceived, held⟩ := sound.stored known
    have extended := extends_withDocument unknown document described
    exact ⟨found, (extended.described describedBefore).1, archiveReceived, held⟩

theorem extends_withArchive (unknown : ledger.memo.stored.lookup package = none)
    (archive : ByteArray) (stored : StoredPackage) :
    (ledger.withArchive package archive stored).Extends ledger where
  described known := ⟨known, rfl⟩
  stored {other _} known := by
    have different : other ≠ package := by
      rintro rfl
      exact absurd known (by simp [unknown])
    simp [withArchive, List.lookup_cons, beq_eq_false_iff_ne.mpr different, different, known]

theorem Sound.withArchive [ArchiveReader] (sound : ledger.Sound start) {archive : ByteArray}
    {described : DescribedPackage} {stored : StoredPackage}
    (known : ledger.memo.described.lookup package = some described)
    (received : start.Received ledger.world described.metadata.archiveUrl archive)
    (held : Resolver.heldPackage package described.metadata archive = .ok stored) :
    (ledger.withArchive package archive stored).Sound start where
  continues := sound.continues
  described known := sound.described known
  stored {other found} keptNow := by
    by_cases same : other = package
    · subst same
      simp only [Ledger.withArchive, List.lookup_cons, beq_self_eq_true,
        Option.some.injEq] at keptNow
      subst keptNow
      exact ⟨described, known, by simpa [Ledger.withArchive] using received,
        by simpa [Ledger.withArchive] using held⟩
    · simp only [Ledger.withArchive, List.lookup_cons, beq_eq_false_iff_ne.mpr same] at keptNow
      simpa [Ledger.withArchive, same] using sound.stored keptNow

end Recording

/-! ## What attempts do to a ledger -/

variable [ArchiveReader]

/-- That a ledger goes on from another one to the given state. -/
structure Reaches (start : World) (earlier later : Ledger) (memo : Memo) (world : World) :
    Prop where
  sound : later.Sound start
  grown : later.Extends earlier
  memo_eq : later.memo = memo
  world_eq : later.world = world

variable {start : World} {ledger earlier : Ledger} {memo : Memo} {world : World}

namespace Reaches

theorem refl (sound : ledger.Sound start) :
    ledger.Reaches start ledger ledger.memo ledger.world :=
  ⟨sound, .refl ledger, rfl, rfl⟩

theorem moved (reaches : earlier.Reaches start ledger memo world) {after : World}
    (continues : after.Continues world) :
    earlier.Reaches start (ledger.moved after) memo after := by
  obtain ⟨sound, grown, rfl, rfl⟩ := reaches
  exact ⟨sound.moved continues, ⟨fun known => grown.described known,
    fun known => grown.stored known⟩, rfl, rfl⟩

theorem withDocument (reaches : earlier.Reaches start ledger memo world)
    {package : PackageUri} (unknown : memo.described.lookup package = none)
    {document : ByteArray} {described : DescribedPackage}
    (received : start.Received world package.metadataUrl document)
    (read : Resolver.describe package document = .ok described) :
    earlier.Reaches start (ledger.withDocument package document described)
      { memo with described := (package, described) :: memo.described } world := by
  obtain ⟨sound, grown, rfl, rfl⟩ := reaches
  exact ⟨sound.withDocument unknown received read,
    (extends_withDocument unknown document described).trans grown, rfl, rfl⟩

theorem withArchive (reaches : earlier.Reaches start ledger memo world)
    {package : PackageUri} (unknown : memo.stored.lookup package = none)
    {archive : ByteArray} {described : DescribedPackage} {stored : StoredPackage}
    (known : memo.described.lookup package = some described)
    (received : start.Received world described.metadata.archiveUrl archive)
    (held : Resolver.heldPackage package described.metadata archive = .ok stored) :
    earlier.Reaches start (ledger.withArchive package archive stored)
      { memo with stored := (package, stored) :: memo.stored } world := by
  obtain ⟨sound, grown, rfl, rfl⟩ := reaches
  exact ⟨sound.withArchive known received held,
    (extends_withArchive unknown archive stored).trans grown, rfl, rfl⟩

end Reaches

/-- That an attempt leads from a sound ledger where `before` holds to a sound ledger that
still says the same, and that `after` holds there of what the attempt gives. -/
def Keeps {α : Type} (start : World) (before : Ledger → Prop) (attempt : Resolving α)
    (after : α → Ledger → Prop) : Prop :=
  ∀ (earlier : Ledger) (result : Result α) (memo : Memo) (world : World),
    earlier.Sound start → before earlier →
      attempt.runIn earlier.memo earlier.world = (result, memo, world) →
      ∃ later, earlier.Reaches start later memo world ∧
        ∀ value, result = .ok value → after value later

namespace Keeps

variable {α β : Type} {before : Ledger → Prop} {after : α → Ledger → Prop}

theorem ofResult {result : Result α}
    (known : ∀ value ledger, before ledger → result = .ok value → after value ledger) :
    Keeps start before (.ofResult result) after := by
  intro earlier found memo world sound holds ran
  rw [Resolving.runIn_ofResult] at ran
  cases ran
  exact ⟨earlier, .refl sound, fun value equal => known value earlier holds equal⟩

theorem pure {value : α} (known : ∀ ledger, before ledger → after value ledger) :
    Keeps start before (Pure.pure value) after := by
  have same : (Pure.pure value : Resolving α) = .ofResult (.ok value) := rfl
  rw [same]
  apply ofResult
  rintro _ ledger holds ⟨⟩
  exact known ledger holds

/-- What does not remember anything only moves the ledger. -/
theorem ofAttempt {attempt : Attempt α}
    (known : ∀ value (ledger : Ledger) world, ledger.Sound start → before ledger →
      attempt.runIn ledger.world = (.ok value, world) → after value (ledger.moved world)) :
    Keeps start before (.ofAttempt attempt) after := by
  intro earlier result memo world sound holds ran
  rw [Resolving.runIn_ofAttempt] at ran
  cases ran
  refine ⟨_, (Reaches.refl sound).moved (attempt.continues_runIn _), ?_⟩
  intro value equal
  exact known value earlier _ sound holds (Prod.ext equal rfl)

/-- Attempts one after the other; `between` is what the second one can use. -/
theorem bind (between : α → Ledger → Prop) {attempt : Resolving α} {next : α → Resolving β}
    {after : β → Ledger → Prop} (first : Keeps start before attempt between)
    (second : ∀ value, Keeps start (between value) (next value) after) :
    Keeps start before (attempt >>= next) after := by
  intro earlier result memo world sound holds ran
  rw [Resolving.runIn_bind] at ran
  rcases firstRan : attempt.runIn earlier.memo earlier.world with ⟨found, middleMemo, middleWorld⟩
  rw [firstRan] at ran
  obtain ⟨middle, reaches, known⟩ := first _ _ _ _ sound holds firstRan
  cases found with
  | error failure =>
      cases ran
      exact ⟨middle, reaches, fun _ equal => nomatch equal⟩
  | ok value =>
      obtain ⟨middleSound, grown, rfl, rfl⟩ := reaches
      obtain ⟨later, further, told⟩ := second value _ _ _ _ middleSound (known value rfl) ran
      exact ⟨later, ⟨further.sound, further.grown.trans grown, further.memo_eq, further.world_eq⟩,
        told⟩

/-- What was not remembered is recorded in the ledger. -/
theorem remembering {known? : Memo → Option α} {record : α → Memo → Memo}
    {attempt : Attempt α}
    (known : ∀ value ledger, before ledger → known? ledger.memo = some value →
      after value ledger)
    (recorded : ∀ value (ledger : Ledger) world, ledger.Sound start → before ledger →
      known? ledger.memo = none → attempt.runIn ledger.world = (.ok value, world) →
        ∃ later, ledger.Reaches start later (record value ledger.memo) world ∧
          after value later) :
    Keeps start before (.remembering known? record attempt) after := by
  intro earlier result memo world sound holds ran
  rw [Resolving.runIn_remembering] at ran
  cases remembered : known? earlier.memo with
  | some value =>
      rw [remembered] at ran
      cases ran
      refine ⟨earlier, .refl sound, ?_⟩
      rintro _ ⟨⟩
      exact known value earlier holds remembered
  | none =>
      have continues := attempt.continues_runIn earlier.world
      rcases attempted : attempt.runIn earlier.world with ⟨found, there⟩
      rw [remembered, attempted] at ran
      rw [attempted] at continues
      cases found with
      | error failure =>
          cases ran
          exact ⟨_, (Reaches.refl sound).moved continues, fun _ equal => nomatch equal⟩
      | ok value =>
          cases ran
          obtain ⟨later, reaches, told⟩ :=
            recorded value earlier _ sound holds remembered attempted
          refine ⟨later, reaches, ?_⟩
          rintro _ ⟨⟩
          exact told

end Keeps

end Ledger

end PackageResolution
