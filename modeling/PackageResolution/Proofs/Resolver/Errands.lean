import PackageResolution.Proofs.Resolver.Session
import PackageResolution.Proofs.Security.Manager
import PackageResolution.Proofs.Storage.Quiet

/-!
# What calls ask the servers for

A resolver asks the servers for documents and for archives, and for nothing else.  Here each
part of a call is followed for these errands, in every world and with every way of keeping
packages: `Attempt.Runs` bounds the errands of an attempt that remembers nothing, and
`Resolving.Conducts` follows the memory together with the errands of the call so far.

`Conduct` is what holds of the errands of a call at each moment, and every call ends in it.
-/

namespace PackageResolution

/-- What a resolver asks a server for, for an unpinned package.  The address alone does not
tell the two kinds apart, since a document can name any address as that of the archive. -/
inductive Errand
  /-- The metadata document. -/
  | document (package : PackageUri)
  /-- The archive, at the address that the metadata names. -/
  | archive (package : PackageUri) (url : String)
  deriving DecidableEq, Repr

/-- The address that is asked for. -/
def Errand.url : Errand → String
  | .document package => package.metadataUrl
  | .archive _ url => url

/-- A package that is kept is asked without a server. -/
theorem StoredPackage.isQuiet_answer (stored : StoredPackage) (asset : PackageAsset)
    (question : AssetQuestion) :
    Attempt.IsQuiet (fun _ => True) (stored.answer asset question) := by
  apply (stored.isQuiet_kind? asset.relativePath).bind
  intro kind
  cases question with
  | bytes allowsDirectory =>
      rcases kind with _ | _ | _
      · exact Attempt.isQuiet_throw trivial
      · exact (stored.isQuiet_read _).bind fun _ => Attempt.isQuiet_pure _
      · cases allowsDirectory with
        | false => exact Attempt.isQuiet_throw trivial
        | true => exact (stored.isQuiet_children _).bind fun _ => Attempt.isQuiet_pure _
  | elements =>
      rcases kind with _ | _ | _
      · exact Attempt.isQuiet_throw trivial
      · exact Attempt.isQuiet_throw trivial
      · exact (stored.isQuiet_children _).bind fun _ => Attempt.isQuiet_pure _
  | presence => exact Attempt.isQuiet_pure _

/-! ## Errands of attempts -/

namespace Attempt

variable {α β : Type} {failing : Error → Prop} {errands others : List Errand}

/-- That an attempt runs at most some errands, in their order, and fails only as said. -/
def Runs (failing : Error → Prop) (errands : List Errand) (attempt : Attempt α) : Prop :=
  ∀ world, (∃ made : List Errand, made.Sublist errands ∧
      (attempt.runIn world).2.fetched = world.fetched ++ made.map Errand.url) ∧
    ∀ failure, (attempt.runIn world).1 = .error failure → failing failure

theorem IsQuiet.runs {attempt : Attempt α} (quiet : IsQuiet failing attempt)
    (errands : List Errand) : Runs failing errands attempt := by
  intro world
  obtain ⟨unasked, fails⟩ := quiet world
  exact ⟨⟨[], List.nil_sublist _, unasked.trans (List.append_nil _).symm⟩, fails⟩

theorem Runs.bind {attempt : Attempt α} {next : α → Attempt β}
    (first : Runs failing errands attempt) (second : ∀ value, Runs failing others (next value)) :
    Runs failing (errands ++ others) (attempt >>= next) := by
  intro world
  obtain ⟨⟨made, among, asked⟩, fails⟩ := first world
  rw [runIn_bind]
  rcases ran : attempt.runIn world with ⟨result, after⟩
  rw [ran] at asked fails
  cases result with
  | error failure =>
      refine ⟨⟨made, among.trans (List.sublist_append_left _ _), asked⟩, ?_⟩
      rintro _ ⟨⟩
      exact fails failure rfl
  | ok value =>
      obtain ⟨⟨more, amongOthers, askedLater⟩, failsLater⟩ := second value after
      refine ⟨⟨made ++ more, among.append amongOthers, ?_⟩, failsLater⟩
      rw [askedLater, asked, List.map_append, List.append_assoc]

/-- Quiet work before errands. -/
theorem IsQuiet.bind_runs {attempt : Attempt α} {next : α → Attempt β}
    (first : IsQuiet failing attempt) (second : ∀ value, Runs failing errands (next value)) :
    Runs failing errands (attempt >>= next) :=
  (first.runs []).bind second

/-- Quiet work after errands. -/
theorem Runs.bind_isQuiet {attempt : Attempt α} {next : α → Attempt β}
    (first : Runs failing errands attempt) (second : ∀ value, IsQuiet failing (next value)) :
    Runs failing errands (attempt >>= next) := by
  have whole := first.bind fun value => (second value).runs []
  rwa [List.append_nil] at whole

end Attempt

theorem Progress.isQuiet_report (progress : Progress) (line : String) :
    Attempt.IsQuiet Error.IsEarly (progress.report line) := by
  cases progress with
  | watched => exact Attempt.isQuiet_lift (Action.isQuiet_request trivial)
  | unwatched => exact Attempt.isQuiet_pure _

/-- What the managers of the program refuse is found out before a package is. -/
theorem Manager.isEarly_of_checkModule {manager : Manager} {uri : Uri} {failure : Error}
    (failed : manager.security.checkModule uri = .error failure) : failure.IsEarly := by
  rcases manager.failure_of_checkModule failed with ⟨_, rfl⟩ | ⟨_, rfl⟩ | ⟨_, rfl⟩
  · exact id
  · exact id
  · exact id

namespace Resolver

variable {resolver : Resolver} {package : PackageUri}

theorem runs_download (package : PackageUri) (errand : Errand) :
    Attempt.Runs Error.IsEarly [errand] (download package errand.url) := by
  intro world
  have answered : (Action.request (.fetch errand.url)).run world =
      (world.server world.fetched errand.url,
        { world with fetched := world.fetched ++ [errand.url] }) := rfl
  simp only [download, Attempt.runIn_bind, Attempt.runIn_lift, answered]
  cases world.server world.fetched errand.url with
  | error cause =>
      refine ⟨⟨[errand], List.Sublist.refl _, rfl⟩, ?_⟩
      rintro _ ⟨⟩
      exact id
  | ok document =>
      exact ⟨⟨[errand], List.Sublist.refl _, rfl⟩, fun _ other => nomatch other⟩

theorem isEarly_of_describe {document : ByteArray} {failure : Error}
    (failed : describe package document = .error failure) : failure.IsEarly := by
  unfold describe at failed
  split at failed
  · exact nomatch failed
  · obtain rfl := Except.error.inj failed
    exact id

theorem isEarly_of_checkPin {described : DescribedPackage} {failure : Error}
    (failed : checkPin package described = .error failure) : failure.IsEarly := by
  unfold checkPin at failed
  split at failed
  · exact nomatch failed
  split at failed
  · exact nomatch failed
  · obtain rfl := Except.error.inj failed
    exact id

theorem isEarly_of_checkArchive {metadata : PackageMetadata} {archive : ByteArray}
    {failure : Error} (failed : checkArchive package metadata archive = .error failure) :
    failure.IsEarly := by
  unfold checkArchive at failed
  simp only at failed
  split at failed
  · exact nomatch failed
  · obtain rfl := Except.error.inj failed
    exact id

theorem isEarly_of_checkPackage {storage : Storage} {manager : Manager} {uri : Uri}
    {failure : Error}
    (failed : (Resolver.mk storage manager.security).checkPackage package uri =
      .error failure) : failure.IsEarly := by
  unfold checkPackage at failed
  split at failed
  · obtain rfl := Except.error.inj failed
    exact id
  · exact manager.isEarly_of_checkModule failed

/-- Finding out the metadata of a package asks for its document at most. -/
theorem runs_loadMetadata (progress : Progress) (package : PackageUri) :
    Attempt.Runs Error.IsEarly [.document package] (resolver.loadMetadata progress package) := by
  apply (resolver.storage.isQuiet_metadata? package).bind_runs
  intro kept
  cases kept with
  | some document =>
      exact (Attempt.isQuiet_ofResult fun _ => isEarly_of_describe).runs _
  | none =>
      apply (progress.isQuiet_report _).bind_runs
      intro _
      apply (runs_download package (.document package)).bind_isQuiet
      intro document
      apply (Attempt.isQuiet_ofResult fun _ => isEarly_of_describe).bind
      intro described
      apply (resolver.storage.isQuiet_keepMetadata package document).bind
      exact fun _ => Attempt.isQuiet_pure _

/-- Loading a package asks for its archive at most, and only over an encrypted
connection. -/
theorem runs_loadPackage [ArchiveReader] (progress : Progress) (package : PackageUri)
    (metadata : PackageMetadata) :
    Attempt.Runs Error.IsEarly
      (if isSecure metadata.archiveUrl then [.archive package metadata.archiveUrl] else [])
      (resolver.loadPackage progress package metadata) := by
  apply (resolver.storage.isQuiet_package? package).bind_runs
  intro kept
  cases kept with
  | some stored => exact (Attempt.isQuiet_pure _).runs _
  | none =>
      simp only [loadArchive]
      cases isSecure metadata.archiveUrl with
      | false => exact (Attempt.isQuiet_throw id).runs _
      | true =>
          apply (progress.isQuiet_report _).bind_runs
          intro _
          apply (runs_download package (.archive package metadata.archiveUrl)).bind_isQuiet
          intro archive
          apply (Attempt.isQuiet_ofResult fun _ => isEarly_of_checkArchive).bind
          exact fun _ => resolver.storage.isQuiet_keep package archive

end Resolver

/-! ## Errands of calls -/

/-- A moment of a call. -/
structure Moment where
  /-- What the resolver remembers. -/
  memo : Memo
  /-- The errands of the call so far. -/
  errands : List Errand

namespace Resolving

variable {α β : Type} {before : Moment → World → Prop} {after : Result α → Moment → Prop}

/-- That an attempt leads from a moment in a world where `before` holds to one where `after`
holds of its result, with the errands that it runs in between. -/
def Conducts (before : Moment → World → Prop) (attempt : Resolving α)
    (after : Result α → Moment → Prop) : Prop :=
  ∀ (moment : Moment) (world : World), before moment world →
    ∃ made : List Errand,
      (attempt.runIn moment.memo world).2.2.fetched = world.fetched ++ made.map Errand.url ∧
        after (attempt.runIn moment.memo world).1
          ⟨(attempt.runIn moment.memo world).2.1, moment.errands ++ made⟩

namespace Conducts

theorem ofResult {result : Result α}
    (holds : ∀ moment world, before moment world → after result moment) :
    Conducts before (.ofResult result) after := by
  intro moment world known
  refine ⟨[], (List.append_nil _).symm, ?_⟩
  rw [List.append_nil]
  exact holds moment world known

theorem pure {value : α}
    (holds : ∀ moment world, before moment world → after (.ok value) moment) :
    Conducts before (Pure.pure value) after :=
  ofResult holds

/-- What asks no server keeps the memory and the errands as they are. -/
theorem ofQuiet {attempt : Attempt α} {failing : Error → Prop}
    (quiet : attempt.IsQuiet failing)
    (holds : ∀ result moment world, before moment world → after result moment) :
    Conducts before (.ofAttempt attempt) after := by
  intro moment world known
  rw [runIn_ofAttempt]
  refine ⟨[], (quiet world).1.trans (List.append_nil _).symm, ?_⟩
  rw [List.append_nil]
  exact holds _ moment world known

/-- Attempts one after the other; `between` is what the first one leads to. -/
theorem bind (between : Result α → Moment → Prop) {attempt : Resolving α}
    {next : α → Resolving β} {after : Result β → Moment → Prop}
    (first : Conducts before attempt between)
    (failed : ∀ failure moment, between (.error failure) moment → after (.error failure) moment)
    (second : ∀ value, Conducts (fun moment _ => between (.ok value) moment) (next value) after) :
    Conducts before (attempt >>= next) after := by
  intro moment world known
  obtain ⟨made, asked, holds⟩ := first moment world known
  rw [runIn_bind]
  rcases ran : attempt.runIn moment.memo world with ⟨result, memo, middle⟩
  rw [ran] at asked holds
  cases result with
  | error failure => exact ⟨made, asked, failed failure _ holds⟩
  | ok value =>
      obtain ⟨more, askedLater, holdsLater⟩ := second value _ middle holds
      refine ⟨made ++ more, ?_, ?_⟩
      · rw [askedLater, asked, List.map_append, List.append_assoc]
      · rw [← List.append_assoc]
        exact holdsLater

/-- What is remembered costs no errand, and what is loaded is remembered. -/
theorem remembering {known? : Memo → Option α} {record : α → Memo → Memo}
    {attempt : Attempt α} {errands : List Errand}
    (runs : attempt.Runs Error.IsEarly errands)
    (known : ∀ value moment world, before moment world → known? moment.memo = some value →
      after (.ok value) moment)
    (failed : ∀ failure (moment : Moment) world made, before moment world →
      known? moment.memo = none → (attempt.runIn world).1 = .error failure →
      failure.IsEarly → made.Sublist errands →
        after (.error failure) { moment with errands := moment.errands ++ made })
    (loaded : ∀ value (moment : Moment) world made, before moment world →
      known? moment.memo = none → made.Sublist errands →
        after (.ok value) ⟨record value moment.memo, moment.errands ++ made⟩) :
    Conducts before (.remembering known? record attempt) after := by
  intro moment world holds
  rw [runIn_remembering]
  cases remembered : known? moment.memo with
  | some value =>
      refine ⟨[], (List.append_nil _).symm, ?_⟩
      rw [List.append_nil]
      exact known value moment world holds remembered
  | none =>
      obtain ⟨⟨made, among, asked⟩, early⟩ := runs world
      rcases ran : attempt.runIn world with ⟨result, later⟩
      rw [ran] at asked early
      cases result with
      | error failure =>
          have refused : (attempt.runIn world).1 = .error failure := by rw [ran]
          exact ⟨made, asked,
            failed failure moment world made holds remembered refused (early failure rfl) among⟩
      | ok value => exact ⟨made, asked, loaded value moment world made holds remembered among⟩

end Conducts

end Resolving

end PackageResolution
