import PackageResolution.Proofs.Resolver.Errands

/-!
# Documents first, then archives, and each at most once

A call that is not allowed asks the servers for nothing.  Any other call asks at most for
the document of its package and then for the archive, which must come over an encrypted
connection and only after the pin of the call was compared.  What was found out is not
asked for again: once the metadata of a package is known its document is not, and once the
package is there nothing is.

`Conduct` says this of one call, at each moment of it.  What it says of later calls comes
from the memory, which only grows in a session.
-/

namespace PackageResolution

/-! ## Questions -/

namespace Question

/-- The package that a question is about. -/
def package : Question → PackageUri
  | .asset target _ => target.package
  | .metadata package => package
  | .download package => package

/-- The identifier that must be allowed. -/
def uri : Question → Uri
  | .asset target _ => target.toUri
  | .metadata package => package.toUri
  | .download package => package.toUri

/-- That a question cannot be answered from the metadata alone. -/
def NeedsArchive : Question → Prop
  | .metadata _ => False
  | _ => True

/-- That a result shows that the package is there: there is an answer, or a failure that is
about an asset of the package. -/
def ShowsPackage : Question → Result Answer → Prop
  | .asset _ _, .ok _ => True
  | .asset _ _, .error failure => failure.IsAboutAsset
  | .metadata _, _ => False
  | .download _, .ok _ => True
  | .download _, .error _ => False

end Question

/-! ## What is remembered -/

namespace Memo

/-- That a memory still has what an earlier one had. -/
structure Extends (later earlier : Memo) : Prop where
  described : ∀ {package described}, earlier.described.lookup package = some described →
    later.described.lookup package = some described
  stored : ∀ {package stored}, earlier.stored.lookup package = some stored →
    later.stored.lookup package = some stored

/-- That the metadata is known of every package that is there. -/
def IsClosed (memo : Memo) : Prop :=
  ∀ {package stored}, memo.stored.lookup package = some stored →
    ∃ described, memo.described.lookup package = some described

theorem isClosed_empty : empty.IsClosed :=
  nofun

namespace Extends

theorem refl (memo : Memo) : memo.Extends memo :=
  ⟨id, id⟩

theorem trans {first second third : Memo} (later : third.Extends second)
    (earlier : second.Extends first) : third.Extends first :=
  ⟨fun known => later.described (earlier.described known),
    fun known => later.stored (earlier.stored known)⟩

end Extends

variable {memo : Memo} {package : PackageUri}

theorem extends_withDescribed (unknown : memo.described.lookup package = none)
    (described : DescribedPackage) :
    Extends { memo with described := (package, described) :: memo.described } memo where
  described known := Association.lookup_cons_of_known unknown known described
  stored known := known

theorem extends_withStored (unknown : memo.stored.lookup package = none)
    (stored : StoredPackage) :
    Extends { memo with stored := (package, stored) :: memo.stored } memo where
  described known := known
  stored known := Association.lookup_cons_of_known unknown known stored

theorem IsClosed.withStored (closed : memo.IsClosed) {described : DescribedPackage}
    (known : memo.described.lookup package = some described) (stored : StoredPackage) :
    IsClosed { memo with stored := (package, stored) :: memo.stored } := by
  intro other found kept
  by_cases same : other = package
  · subst same
    exact ⟨described, known⟩
  · rw [Association.lookup_cons_of_ne same] at kept
    exact closed kept

end Memo

/-! ## The conduct of a call -/

section Conduct

variable {resolver : Resolver} {call : Call} {session : Session} {moment : Moment}

/-- What holds in a call, begun in a session, at each moment after the call was allowed. -/
structure Conduct (resolver : Resolver) (call : Call) (session : Session) (moment : Moment) :
    Prop where
  grown : moment.memo.Extends session.memo
  isClosed : session.memo.IsClosed → moment.memo.IsClosed
  /-- The errands are the document and then the archive, at most. -/
  ordered : moment.errands.Sublist [.document call.question.package.unpinned] ∨
    ∃ described,
      moment.memo.described.lookup call.question.package.unpinned = some described ∧
        call.question.NeedsArchive ∧
        Resolver.checkPin call.question.package described = .ok () ∧
        Resolver.isSecure described.metadata.archiveUrl = true ∧
        moment.errands.Sublist [.document call.question.package.unpinned,
          .archive call.question.package.unpinned described.metadata.archiveUrl]
  /-- A document that is known is not asked for. -/
  undocumented : ∀ described,
    session.memo.described.lookup call.question.package.unpinned = some described →
      .document call.question.package.unpinned ∉ moment.errands
  /-- For a package that is there nothing is asked for. -/
  idle : session.memo.IsClosed → ∀ stored,
    session.memo.stored.lookup call.question.package.unpinned = some stored →
      moment.errands = []
  /-- The metadata is known if it could be loaded. -/
  obtained : ∀ described, ((resolver.loadMetadata call.progress
      call.question.package.unpinned).runIn session.world).1 = .ok described →
    ∃ described, moment.memo.described.lookup call.question.package.unpinned = some described

/-- What holds when the metadata of the package was looked for. -/
structure Described (resolver : Resolver) (call : Call) (session : Session)
    (result : Result DescribedPackage) (moment : Moment) : Prop where
  grown : moment.memo.Extends session.memo
  stored_eq : moment.memo.stored = session.memo.stored
  asked : moment.errands.Sublist [.document call.question.package.unpinned]
  unasked : ∀ described,
    session.memo.described.lookup call.question.package.unpinned = some described →
      moment.errands = []
  known : ∀ described, result = .ok described →
    moment.memo.described.lookup call.question.package.unpinned = some described
  early : ∀ failure, result = .error failure → failure.IsEarly
  obtained : ∀ described, ((resolver.loadMetadata call.progress
      call.question.package.unpinned).runIn session.world).1 = .ok described →
    ∃ described, moment.memo.described.lookup call.question.package.unpinned = some described

theorem Described.conduct {result : Result DescribedPackage}
    (known : Described resolver call session result moment) :
    Conduct resolver call session moment where
  grown := known.grown
  isClosed closed package stored kept := by
    rw [known.stored_eq] at kept
    obtain ⟨described, before⟩ := closed kept
    exact ⟨described, known.grown.described before⟩
  ordered := .inl known.asked
  undocumented described before := by
    rw [known.unasked described before]
    exact List.not_mem_nil
  idle closed stored kept := by
    obtain ⟨described, before⟩ := closed kept
    exact known.unasked described before
  obtained := known.obtained

/-- The archive may be asked for after the document. -/
theorem Described.conduct_archive {described : DescribedPackage}
    (looked : Described resolver call session (.ok described) moment)
    (agreed : Resolver.checkPin call.question.package described = .ok ())
    (needed : call.question.NeedsArchive)
    (unknown : moment.memo.stored.lookup call.question.package.unpinned = none)
    {made : List Errand}
    (among : made.Sublist (if Resolver.isSecure described.metadata.archiveUrl then
      [.archive call.question.package.unpinned described.metadata.archiveUrl] else []))
    {memo : Memo} (grown : memo.Extends moment.memo)
    (isClosed : moment.memo.IsClosed → memo.IsClosed) :
    Conduct resolver call session ⟨memo, moment.errands ++ made⟩ where
  grown := grown.trans looked.grown
  isClosed closed := isClosed (looked.conduct.isClosed closed)
  ordered := by
    cases secure : Resolver.isSecure described.metadata.archiveUrl with
    | false =>
        rw [secure] at among
        obtain rfl := List.sublist_nil.mp among
        left
        rw [List.append_nil]
        exact looked.asked
    | true =>
        rw [secure] at among
        right
        exact ⟨described, grown.described (looked.known described rfl), needed, agreed, secure,
          looked.asked.append among⟩
  undocumented before remembered := by
    rw [looked.unasked before remembered, List.nil_append]
    intro member
    have inside := among.subset member
    split at inside
    · rw [List.mem_singleton] at inside
      exact nomatch inside
    · exact nomatch inside
  idle _ stored kept := by
    rw [← looked.stored_eq, unknown] at kept
    exact nomatch kept
  obtained described sent := by
    obtain ⟨found, known⟩ := looked.obtained described sent
    exact ⟨found, grown.described known⟩

end Conduct

/-! ## Calls -/

namespace Resolver

open Resolving (Conducts)

variable {resolver : Resolver} {call : Call} {session : Session}

/-- The start of a call in a session. -/
def Begins (session : Session) (moment : Moment) (world : World) : Prop :=
  moment = ⟨session.memo, []⟩ ∧ world = session.world

/-- Looking for metadata asks for the document at most, and accepts what agrees with the pin
of the call. -/
theorem conducts_metadata (resolver : Resolver) (call : Call) (session : Session) :
    Conducts (Begins session) (resolver.metadata call.progress call.question.package)
      fun result moment => Described resolver call session result moment ∧
        ∀ described, result = .ok described →
          checkPin call.question.package described = .ok () := by
  refine .bind (Described resolver call session)
    (.remembering (resolver.runs_loadMetadata call.progress _) ?known ?failed ?loaded)
    (fun failure moment looked => ⟨looked, fun _ other => nomatch other⟩) fun described =>
      .bind (fun result moment => Described resolver call session (.ok described) moment ∧
        result = checkPin call.question.package described) (.ofResult ?checked) ?mismatched
        fun _ => .pure ?accepted
  case known =>
    rintro described _ _ ⟨rfl, rfl⟩ remembered
    exact {
      grown := .refl _
      stored_eq := rfl
      asked := List.nil_sublist _
      unasked := fun _ _ => rfl
      known := by
        rintro _ ⟨⟩
        exact remembered
      early := fun _ other => nomatch other
      obtained := fun _ _ => ⟨described, remembered⟩ }
  case failed =>
    rintro failure _ _ made ⟨rfl, rfl⟩ unknown refused early among
    exact {
      grown := .refl _
      stored_eq := rfl
      asked := among
      unasked := fun _ remembered => nomatch unknown.symm.trans remembered
      known := fun _ other => nomatch other
      early := by
        rintro _ ⟨⟩
        exact early
      obtained := fun _ sent => nomatch refused.symm.trans sent }
  case loaded =>
    rintro described _ _ made ⟨rfl, rfl⟩ unknown among
    exact {
      grown := Memo.extends_withDescribed unknown described
      stored_eq := rfl
      asked := among
      unasked := fun _ remembered => nomatch unknown.symm.trans remembered
      known := by
        rintro _ ⟨⟩
        exact List.lookup_cons_self
      early := fun _ other => nomatch other
      obtained := fun _ _ => ⟨described, List.lookup_cons_self⟩ }
  case checked =>
    intro moment _ looked
    exact ⟨looked, rfl⟩
  case mismatched =>
    rintro failure moment ⟨looked, mismatch⟩
    refine ⟨{ looked with known := (fun _ other => nomatch other), early := ?_ },
      fun _ other => nomatch other⟩
    rintro _ ⟨⟩
    exact isEarly_of_checkPin mismatch.symm
  case accepted =>
    rintro moment _ ⟨looked, agreed⟩
    refine ⟨looked, ?_⟩
    rintro _ ⟨⟩
    exact agreed.symm

variable [ArchiveReader]

/-- Looking for a package asks for the archive at most after the document. -/
theorem conducts_package (resolver : Resolver) (call : Call) (session : Session)
    (needed : call.question.NeedsArchive) :
    Conducts (Begins session) (resolver.package call.progress call.question.package)
      fun result moment => Conduct resolver call session moment ∧
        (∀ stored, result = .ok stored →
          moment.memo.stored.lookup call.question.package.unpinned = some stored) ∧
        ∀ failure, result = .error failure → failure.IsEarly := by
  refine .bind _ (conducts_metadata resolver call session) ?unknown fun described =>
    .remembering (resolver.runs_loadPackage call.progress _ _) ?known ?failed ?loaded
  case unknown =>
    rintro failure moment ⟨looked, -⟩
    refine ⟨looked.conduct, (fun _ other => nomatch other), ?_⟩
    rintro _ ⟨⟩
    exact looked.early failure rfl
  case known =>
    rintro stored moment _ ⟨looked, -⟩ kept
    refine ⟨looked.conduct, ?_, fun _ other => nomatch other⟩
    rintro _ ⟨⟩
    exact kept
  case failed =>
    rintro failure moment _ made ⟨looked, agreed⟩ unknown - early among
    refine ⟨looked.conduct_archive (agreed described rfl) needed unknown among (.refl _) id,
      (fun _ other => nomatch other), ?_⟩
    rintro _ ⟨⟩
    exact early
  case loaded =>
    rintro stored moment _ made ⟨looked, agreed⟩ unknown among
    have grown := Memo.extends_withStored unknown stored
    refine ⟨looked.conduct_archive (agreed described rfl) needed unknown among grown ?_, ?_,
      fun _ other => nomatch other⟩
    · intro closed
      exact closed.withStored (looked.known described rfl) stored
    · rintro _ ⟨⟩
      exact List.lookup_cons_self

/-- A call that is allowed keeps to its errands, and shows its package only when the package
is there. -/
theorem conducts_answer (session : Session)
    (allowed : resolver.checkPackage call.question.package call.question.uri = .ok ()) :
    Conducts (Begins session) (resolver.answer call) fun result moment =>
      Conduct resolver call session moment ∧ (call.question.ShowsPackage result →
        ∃ stored, moment.memo.stored.lookup call.question.package.unpinned = some stored) := by
  rcases call with ⟨progress, question⟩
  cases question with
  | asset asset question =>
      have provided := conducts_package resolver ⟨progress, .asset asset question⟩ session trivial
      change resolver.checkPackage asset.package asset.toUri = .ok () at allowed
      rw [answer_asset, allowed, Resolving.ofResult_ok_bind]
      refine .bind _ provided ?failed fun stored => .ofQuiet (stored.isQuiet_answer asset question)
        ?answered
      case failed =>
        rintro failure moment ⟨conduct, -, early⟩
        exact ⟨conduct, fun shows => absurd shows (early failure rfl)⟩
      case answered =>
        rintro result moment _ ⟨conduct, kept, -⟩
        exact ⟨conduct, fun _ => ⟨stored, kept stored rfl⟩⟩
  | metadata package =>
      have looked := conducts_metadata resolver ⟨progress, .metadata package⟩ session
      change resolver.checkPackage package package.toUri = .ok () at allowed
      simp only [answer, dependencyMetadata, bind_assoc]
      rw [allowed, Resolving.ofResult_ok_bind]
      refine .bind _ looked ?_ fun described => .pure ?_
      · rintro failure moment ⟨looked, -⟩
        exact ⟨looked.conduct, False.elim⟩
      · rintro moment _ ⟨looked, -⟩
        exact ⟨looked.conduct, False.elim⟩
  | download package =>
      have provided := conducts_package resolver ⟨progress, .download package⟩ session trivial
      change resolver.checkPackage package package.toUri = .ok () at allowed
      simp only [answer, downloadPackage, bind_assoc]
      rw [allowed, Resolving.ofResult_ok_bind]
      refine .bind _ provided ?_ fun stored => .pure ?_
      · rintro failure moment ⟨conduct, -⟩
        exact ⟨conduct, False.elim⟩
      · rintro moment _ ⟨conduct, kept, -⟩
        exact ⟨conduct, fun _ => ⟨stored, kept stored rfl⟩⟩

/-- A call that is not allowed fails at once. -/
theorem runIn_answer_of_refused {failure : Error}
    (refused : resolver.checkPackage call.question.package call.question.uri = .error failure)
    (memo : Memo) (world : World) :
    (resolver.answer call).runIn memo world = (.error failure, memo, world) := by
  rcases call with ⟨progress, question⟩
  cases question with
  | asset asset question =>
      change resolver.checkPackage asset.package asset.toUri = .error failure at refused
      rw [answer_asset, refused]
      rfl
  | metadata package =>
      change resolver.checkPackage package package.toUri = .error failure at refused
      simp only [answer, dependencyMetadata, refused]
      rfl
  | download package =>
      change resolver.checkPackage package package.toUri = .error failure at refused
      simp only [answer, downloadPackage, refused]
      rfl

end Resolver

/-! ## Sessions -/

namespace Session

variable [ArchiveReader]

variable {resolver : Resolver} {session : Session} {call : Call}

theorem after_append (session : Session) (resolver : Resolver) (first second : List Call) :
    session.after resolver (first ++ second) =
      (session.after resolver first).after resolver second := by
  induction first generalizing session with
  | nil => rfl
  | cons call rest inductionHypothesis => exact inductionHypothesis _

theorem ask_refused {failure : Error}
    (refused : resolver.checkPackage call.question.package call.question.uri = .error failure) :
    session.ask resolver call = (.error failure, session) := by
  rw [ask, Resolver.runIn_answer_of_refused refused]

/-- What a call that is allowed does in a session. -/
theorem exists_conduct_ask (session : Session)
    (allowed : resolver.checkPackage call.question.package call.question.uri = .ok ()) :
    ∃ errands : List Errand,
      (session.ask resolver call).2.world.fetched =
          session.world.fetched ++ errands.map Errand.url ∧
        Conduct resolver call session ⟨(session.ask resolver call).2.memo, errands⟩ ∧
        (call.question.ShowsPackage (session.ask resolver call).1 → ∃ stored,
          (session.ask resolver call).2.memo.stored.lookup call.question.package.unpinned =
            some stored) :=
  Resolver.conducts_answer session allowed ⟨session.memo, []⟩ session.world ⟨rfl, rfl⟩

theorem extends_ask (session : Session) (resolver : Resolver) (call : Call) :
    (session.ask resolver call).2.memo.Extends session.memo := by
  cases checked : resolver.checkPackage call.question.package call.question.uri with
  | error failure =>
      rw [ask_refused checked]
      exact .refl _
  | ok allowed =>
      obtain ⟨errands, -, conduct, -⟩ := session.exists_conduct_ask checked
      exact conduct.grown

theorem isClosed_ask (closed : session.memo.IsClosed) (resolver : Resolver) (call : Call) :
    (session.ask resolver call).2.memo.IsClosed := by
  cases checked : resolver.checkPackage call.question.package call.question.uri with
  | error failure =>
      rw [ask_refused checked]
      exact closed
  | ok allowed =>
      obtain ⟨errands, -, conduct, -⟩ := session.exists_conduct_ask checked
      exact conduct.isClosed closed

/-- Nothing is forgotten in a session. -/
theorem extends_after (session : Session) (resolver : Resolver) (calls : List Call) :
    (session.after resolver calls).memo.Extends session.memo := by
  induction calls generalizing session with
  | nil => exact .refl _
  | cons call rest inductionHypothesis =>
      exact (inductionHypothesis _).trans (session.extends_ask resolver call)

theorem isClosed_after (closed : session.memo.IsClosed) (resolver : Resolver)
    (calls : List Call) : (session.after resolver calls).memo.IsClosed := by
  induction calls generalizing session with
  | nil => exact closed
  | cons call rest inductionHypothesis =>
      exact inductionHypothesis (isClosed_ask closed resolver call)

/-- That a call in a session is allowed and that the metadata of its package can be loaded,
should it not be known. -/
def Obtains (session : Session) (resolver : Resolver) (call : Call) : Prop :=
  resolver.checkPackage call.question.package call.question.uri = .ok () ∧
    ∃ described, ((resolver.loadMetadata call.progress
      call.question.package.unpinned).runIn session.world).1 = .ok described

theorem Obtains.exists_described (obtains : session.Obtains resolver call) :
    ∃ described, (session.ask resolver call).2.memo.described.lookup
      call.question.package.unpinned = some described := by
  obtain ⟨allowed, described, sent⟩ := obtains
  obtain ⟨errands, -, conduct, -⟩ := session.exists_conduct_ask allowed
  exact conduct.obtained described sent

theorem exists_stored_of_showsPackage {storage : Storage} {manager : Manager}
    (shows : call.question.ShowsPackage (session.ask ⟨storage, manager.security⟩ call).1) :
    ∃ stored, (session.ask ⟨storage, manager.security⟩ call).2.memo.stored.lookup
      call.question.package.unpinned = some stored := by
  cases checked : (Resolver.mk storage manager.security).checkPackage call.question.package
    call.question.uri with
  | error failure =>
      rw [ask_refused checked] at shows
      have early := Resolver.isEarly_of_checkPackage checked
      rcases call with ⟨progress, _ | _ | _⟩
      · exact absurd shows early
      · exact shows.elim
      · exact shows.elim
  | ok allowed =>
      obtain ⟨errands, -, -, kept⟩ := session.exists_conduct_ask checked
      exact kept shows

end Session

/-- That some errands are those of a call after a history of calls on a new resolver, and
that they are allowed, in order and not repeated. -/
structure InOrder [ArchiveReader] (resolver : Resolver) (start : World) (history : List Call)
    (call : Call) (errands : List Errand) : Prop where
  /-- The call asks the servers for the addresses of the errands. -/
  fetched_eq :
    let session := (Session.opened start).after resolver history
    (session.ask resolver call).2.world.fetched =
      session.world.fetched ++ errands.map Errand.url
  /-- Packages of projects and what the policy rejects are not asked for. -/
  permitted : call.question.package.scheme = .projectPackage ∨
      (∃ failure, resolver.security.checkModule call.question.uri = .error failure) →
    errands = []
  /-- The document is asked for at most, and then the archive that the accepted metadata
  names: only if the metadata is not all that is needed, only after its document agreed
  with the pin of the call, and only over an encrypted connection. -/
  ordered : errands.Sublist [.document call.question.package.unpinned] ∨
    ∃ described,
      (((Session.opened start).after resolver history).ask resolver
          call).2.memo.described.lookup call.question.package.unpinned = some described ∧
        call.question.NeedsArchive ∧
        Resolver.checkPin call.question.package described = .ok () ∧
        Resolver.isSecure described.metadata.archiveUrl = true ∧
        errands.Sublist [.document call.question.package.unpinned,
          .archive call.question.package.unpinned described.metadata.archiveUrl]
  /-- After a call that found out the metadata of the package, its document is not asked
  for. -/
  document_once : ∀ before earlier between, history = before ++ earlier :: between →
    earlier.question.package.unpinned = call.question.package.unpinned →
    ((Session.opened start).after resolver before).Obtains resolver earlier →
      .document call.question.package.unpinned ∉ errands
  /-- After a call that showed the package, nothing is asked for. -/
  package_once : ∀ before earlier between, history = before ++ earlier :: between →
    earlier.question.package.unpinned = call.question.package.unpinned →
    earlier.question.ShowsPackage
      (((Session.opened start).after resolver before).ask resolver earlier).1 →
      errands = []

/-- Whatever the servers answer, each call on a resolver with a manager of the program asks for
what it may ask for, for the document before the archive, and for nothing that an earlier call
has found out. -/
theorem calls_in_order [ArchiveReader] (storage : Storage) (manager : Manager) (start : World)
    (history : List Call) (call : Call) :
    ∃ errands, InOrder ⟨storage, manager.security⟩ start history call errands := by
  let resolver : Resolver := ⟨storage, manager.security⟩
  let session := (Session.opened start).after resolver history
  cases checked : resolver.checkPackage call.question.package call.question.uri with
  | error failure =>
      have unasked : session.ask resolver call = (.error failure, session) :=
        Session.ask_refused checked
      exact ⟨[], {
        fetched_eq := by
          change (session.ask resolver call).2.world.fetched = session.world.fetched ++ []
          rw [unasked, List.append_nil]
        permitted := fun _ => rfl
        ordered := .inl (List.nil_sublist _)
        document_once := fun _ _ _ _ _ _ => List.not_mem_nil
        package_once := fun _ _ _ _ _ _ => rfl }⟩
  | ok allowed =>
      obtain ⟨errands, fetched, conduct, -⟩ := session.exists_conduct_ask checked
      have later {before : List Call} {earlier : Call} {between : List Call}
          (split : history = before ++ earlier :: between) : session.memo.Extends
            (((Session.opened start).after resolver before).ask resolver earlier).2.memo := by
        change ((Session.opened start).after resolver history).memo.Extends _
        rw [split, Session.after_append, Session.after_cons]
        exact Session.extends_after _ resolver between
      refine ⟨errands, fetched, ?_, conduct.ordered, ?_, ?_⟩
      · intro rejected
        unfold Resolver.checkPackage at checked
        split at checked
        · exact nomatch checked
        · rename_i atServer
          rcases rejected with inProject | ⟨failure, refused⟩
          · exact absurd inProject atServer
          · rw [refused] at checked
            exact nomatch checked
      · intro before earlier between split same obtains
        obtain ⟨described, known⟩ := obtains.exists_described
        rw [same] at known
        exact conduct.undocumented described ((later split).described known)
      · intro before earlier between split same shows
        obtain ⟨stored, kept⟩ := Session.exists_stored_of_showsPackage shows
        rw [same] at kept
        have closed : session.memo.IsClosed :=
          Session.isClosed_after Memo.isClosed_empty resolver history
        exact conduct.idle closed stored ((later split).stored kept)

end PackageResolution
