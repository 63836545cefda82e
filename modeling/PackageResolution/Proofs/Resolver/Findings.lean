import PackageResolution.Proofs.Resolver.Conduct
import PackageResolution.Proofs.Resolver.Memory

/-!
# What remembered metadata rests on

Whatever a resolver remembers of a package was read from a document that it found, in its
storage or at the server of the package.  `Session.Follows` says this of two sessions, of
which the later one has come from the earlier one without forgetting anything.  What the
storage has can change meanwhile, so it also says at which moments the storage was looked
at: these are worlds that the run has passed through.

`Resolver.Attains` says of an attempt that, where it succeeds, it leads to a session that
follows and in which something holds of the result.  There is a rule for each way of putting
attempts together, so that longer procedures with a resolver can be followed with the rules
alone.
-/

namespace PackageResolution

/-! ## The worlds of a run -/

namespace Action

variable {α β : Type} {action : Action α} {next : α → Action β} {start world : World}

/-- That an action passes through a world when it is run. -/
inductive Visits : Action α → World → World → Prop
  | here (action : Action α) (world : World) : Visits action world world
  | later {request : Request} {next : request.Answer → Action α} {start world : World}
      (visits : Visits (next (start.answer request).1) (start.answer request).2 world) :
      Visits (.ask request next) start world

theorem Visits.bind (visits : action.Visits start world) (next : α → Action β) :
    (action >>= next).Visits start world := by
  induction visits with
  | here action world => exact .here _ world
  | later _ inductionHypothesis => exact .later inductionHypothesis

theorem Visits.after {result : α} {between : World} (ran : action.run start = (result, between))
    (visits : (next result).Visits between world) : (action >>= next).Visits start world := by
  induction action generalizing start with
  | done known =>
      obtain ⟨rfl, rfl⟩ := ran
      exact visits
  | ask request rest inductionHypothesis => exact .later (inductionHypothesis _ ran)

end Action

namespace Resolving

variable {α β : Type} {attempt : Resolving α} {next : α → Resolving β} {session : Session}
  {world : World}

/-- That an attempt passes through a world when it is run in a session. -/
def Visits (attempt : Resolving α) (session : Session) (world : World) : Prop :=
  (attempt.run.run session.memo).Visits session.world world

theorem Visits.bind (visits : attempt.Visits session world) (next : α → Resolving β) :
    (attempt >>= next).Visits session world :=
  Action.Visits.bind visits _

theorem Visits.after {value : α} {memo : Memo} {between : World}
    (ran : attempt.runIn session.memo session.world = (.ok value, memo, between))
    (visits : (next value).Visits ⟨memo, between⟩ world) :
    (attempt >>= next).Visits session world := by
  obtain ⟨found, rest⟩ := Prod.mk.inj ran
  obtain ⟨remembered, there⟩ := Prod.mk.inj rest
  have ran : (attempt.run.run session.memo).run session.world = ((.ok value, memo), between) :=
    Prod.ext (Prod.ext found remembered) there
  exact Action.Visits.after ran visits

theorem visits_remembering {known? : Memo → Option α} {record : α → Memo → Memo}
    {attempt : Attempt α} (unknown : known? session.memo = none)
    (visits : attempt.run.Visits session.world world) :
    (remembering known? record attempt).Visits session world := by
  have got : (get : Resolving Memo).runIn session.memo session.world =
      (.ok session.memo, session.memo, session.world) := rfl
  refine Visits.after got ?_
  rw [unknown]
  have attempted : (ofAttempt attempt).Visits session world := Action.Visits.bind visits _
  exact attempted.bind _

end Resolving

/-! ## Documents that are found -/

namespace Resolver

variable {resolver : Resolver} {progress : Progress} {package : PackageUri}
  {document : ByteArray} {start middle later finish : World} {moments others : World → Prop}

/-- That a resolver can have found a document of a package: it was stored at one of the given
moments, or the server sent it after the world `start` and before the world `finish`. -/
def Finds (resolver : Resolver) (moments : World → Prop) (start finish : World)
    (package : PackageUri) (document : ByteArray) : Prop :=
  (∃ world, moments world ∧
      ((resolver.storage.metadata? package).runIn world).1 = .ok (some document)) ∨
    start.Received finish package.metadataUrl document

theorem Finds.widened (finds : resolver.Finds moments middle later package document)
    (among : ∀ world, moments world → others world) (before : middle.Continues start)
    (after : finish.Continues later) : resolver.Finds others start finish package document := by
  rcases finds with ⟨world, moment, stored⟩ | received
  · exact .inl ⟨world, among world moment, stored⟩
  · exact .inr ((received.since before).continued after)

/-- Metadata that is loaded was read from a document that was found. -/
theorem finds_of_loadMetadata {world : World} {described : DescribedPackage}
    (ran : (resolver.loadMetadata progress package).runIn start = (.ok described, world)) :
    ∃ document, resolver.Finds (· = start) start world package document ∧
      describe package document = .ok described := by
  obtain ⟨found?, between, looked, ran⟩ := Attempt.exists_of_runIn_bind ran
  cases found? with
  | some document =>
      obtain ⟨read, rfl⟩ := Prod.mk.inj ran
      refine ⟨document, .inl ⟨start, rfl, ?_⟩, read⟩
      rw [looked]
  | none =>
      obtain ⟨⟨⟩, shown, reported, fetching⟩ := Attempt.exists_of_runIn_bind ran
      obtain ⟨document, asked, downloaded, reading⟩ := Attempt.exists_of_runIn_bind fetching
      obtain ⟨described, there, read, keeping⟩ := Attempt.exists_of_runIn_bind reading
      obtain ⟨done, last, kept, ending⟩ := Attempt.exists_of_runIn_bind keeping
      obtain ⟨described_eq, rfl⟩ := Prod.mk.inj read
      obtain ⟨⟨⟩, rfl⟩ := Prod.mk.inj ending
      have begun : between.Continues start := by
        simpa only [looked] using (resolver.storage.metadata? package).continues_runIn start
      have ended : last.Continues asked := by
        simpa only [kept] using
          (resolver.storage.keepMetadata package document).continues_runIn asked
      rw [Progress.runIn_report] at reported
      obtain ⟨-, rfl⟩ := Prod.mk.inj reported
      rw [runIn_download] at downloaded
      cases answered : between.server between.fetched package.metadataUrl with
      | error cause => simp [answered] at downloaded
      | ok sent =>
          simp only [World.shown_server, World.shown_fetched, answered, Prod.mk.injEq,
            Except.ok.injEq] at downloaded
          obtain ⟨rfl, rfl⟩ := downloaded
          have received := World.Received.of_answer answered progress
            s!"Downloading metadata for package `{package.text}`"
          exact ⟨sent, .inr ((received.since begun).continued ended), described_eq⟩

end Resolver

/-! ## Sessions that follow each other -/

namespace Session

/-- That a session has come from an earlier one: nothing was forgotten, and what is known in
addition was read from documents that the resolver found, in its storage at the given
moments. -/
structure Follows (resolver : Resolver) (moments : World → Prop) (later earlier : Session) :
    Prop where
  continues : later.world.Continues earlier.world
  grown : later.memo.Extends earlier.memo
  found : ∀ {package described}, later.memo.described.lookup package = some described →
    earlier.memo.described.lookup package = some described ∨
      ∃ document, resolver.Finds moments earlier.world later.world package document ∧
        Resolver.describe package document = .ok described

namespace Follows

variable {resolver : Resolver} {firstMoments lastMoments moments : World → Prop}
  {first second third : Session}

theorem refl (resolver : Resolver) (moments : World → Prop) (session : Session) :
    session.Follows resolver moments session :=
  ⟨.refl _, .refl _, .inl⟩

theorem trans (later : third.Follows resolver lastMoments second)
    (earlier : second.Follows resolver firstMoments first)
    (lastAmong : ∀ world, lastMoments world → moments world)
    (firstAmong : ∀ world, firstMoments world → moments world) :
    third.Follows resolver moments first where
  continues := later.continues.trans earlier.continues
  grown := later.grown.trans earlier.grown
  found known := by
    rcases later.found known with known | ⟨document, finds, read⟩
    · rcases earlier.found known with known | ⟨document, finds, read⟩
      · exact .inl known
      · exact .inr ⟨document, finds.widened firstAmong (.refl _) later.continues, read⟩
    · exact .inr ⟨document, finds.widened lastAmong earlier.continues (.refl _), read⟩

theorem imp (follows : second.Follows resolver firstMoments first)
    (among : ∀ world, firstMoments world → moments world) :
    second.Follows resolver moments first :=
  follows.trans (.refl resolver moments first) among fun _ => id

end Follows

variable {resolver : Resolver} {moments : World → Prop} {session : Session}
  {package : PackageUri} {world : World}

/-- Metadata that was found is recorded. -/
theorem follows_withDescribed (unknown : session.memo.described.lookup package = none)
    (continues : world.Continues session.world) {document : ByteArray}
    {described : DescribedPackage}
    (finds : resolver.Finds moments session.world world package document)
    (read : Resolver.describe package document = .ok described) :
    Follows resolver moments ⟨{ session.memo with
      described := (package, described) :: session.memo.described }, world⟩ session where
  continues := continues
  grown := Memo.extends_withDescribed unknown described
  found {other known} remembered := by
    by_cases same : other = package
    · subst same
      obtain rfl : described = known := by
        simpa [List.lookup_cons] using remembered
      exact .inr ⟨document, finds, read⟩
    · rw [Association.lookup_cons_of_ne same] at remembered
      exact .inl remembered

/-- A package that is kept is recorded. -/
theorem follows_withStored (unknown : session.memo.stored.lookup package = none)
    (continues : world.Continues session.world) (stored : StoredPackage) :
    Follows resolver moments ⟨{ session.memo with
      stored := (package, stored) :: session.memo.stored }, world⟩ session where
  continues := continues
  grown := Memo.extends_withStored unknown stored
  found := .inl

end Session

/-! ## What attempts attain -/

namespace Resolver

variable {α β : Type} {resolver : Resolver} {before : Session → Prop}
  {after : α → Session → Prop}

/-- That an attempt, where it succeeds, leads from a session in which `before` holds to one
that follows and in which `after` holds of what the attempt gives. -/
def Attains (resolver : Resolver) (before : Session → Prop) (attempt : Resolving α)
    (after : α → Session → Prop) : Prop :=
  ∀ (session : Session) (value : α) (memo : Memo) (world : World), before session →
    attempt.runIn session.memo session.world = (.ok value, memo, world) →
      Session.Follows resolver (attempt.Visits session) ⟨memo, world⟩ session ∧
        after value ⟨memo, world⟩

namespace Attains

theorem ofResult {result : Result α}
    (holds : ∀ value session, before session → result = .ok value → after value session) :
    Attains resolver before (.ofResult result) after := by
  intro session value memo world begun ran
  rw [Resolving.runIn_ofResult] at ran
  obtain ⟨known, rfl, rfl⟩ := ran
  exact ⟨.refl resolver _ session, holds value session begun rfl⟩

theorem pure {value : α} (holds : ∀ session, before session → after value session) :
    Attains resolver before (Pure.pure value) after := by
  intro session found memo world begun ran
  obtain ⟨rfl, rfl, rfl⟩ := ran
  exact ⟨.refl resolver _ session, holds session begun⟩

/-- Attempts one after the other; `between` is what the second one begins with. -/
theorem bind (between : α → Session → Prop) {attempt : Resolving α} {next : α → Resolving β}
    {after : β → Session → Prop} (first : Attains resolver before attempt between)
    (second : ∀ value, Attains resolver (between value) (next value) after) :
    Attains resolver before (attempt >>= next) after := by
  intro session value memo world begun ran
  rw [Resolving.runIn_bind] at ran
  rcases firstRan : attempt.runIn session.memo session.world with ⟨_ | found, middle, there⟩
  · simp [firstRan] at ran
  · rw [firstRan] at ran
    obtain ⟨earlier, holds⟩ := first session found middle there begun firstRan
    obtain ⟨later, attained⟩ := second found ⟨middle, there⟩ value memo world holds ran
    exact ⟨later.trans earlier (fun _ visits => .after firstRan visits)
      fun _ visits => visits.bind next, attained⟩

/-- What is said of a session and stays true as more is remembered still holds after an
attempt. -/
theorem lasting {attempt : Resolving α} {fact : Session → Prop}
    (attains : Attains resolver before attempt after)
    (lasts : ∀ {later earlier : Session}, later.memo.Extends earlier.memo → fact earlier →
      fact later) :
    Attains resolver (fun session => before session ∧ fact session) attempt
      fun value session => after value session ∧ fact session := by
  rintro session value memo world ⟨begun, holds⟩ ran
  obtain ⟨follows, attained⟩ := attains session value memo world begun ran
  exact ⟨follows, attained, lasts follows.grown holds⟩

theorem imp {first : Session → Prop} {last : α → Session → Prop} {attempt : Resolving α}
    (attains : Attains resolver before attempt after)
    (begins : ∀ session, first session → before session)
    (ends : ∀ value session, after value session → last value session) :
    Attains resolver first attempt last := by
  intro session value memo world begun ran
  obtain ⟨follows, attained⟩ := attains session value memo world (begins session begun) ran
  exact ⟨follows, ends _ _ attained⟩

/-- What was not remembered is recorded. -/
theorem remembering {known? : Memo → Option α} {record : α → Memo → Memo} {attempt : Attempt α}
    (known : ∀ value session, before session → known? session.memo = some value →
      after value session)
    (recorded : ∀ value (session : Session) world, before session → known? session.memo = none →
      world.Continues session.world → attempt.runIn session.world = (.ok value, world) →
        Session.Follows resolver (attempt.run.Visits session.world)
            ⟨record value session.memo, world⟩ session ∧
          after value ⟨record value session.memo, world⟩) :
    Attains resolver before (.remembering known? record attempt) after := by
  intro session value memo world begun ran
  rw [Resolving.runIn_remembering] at ran
  cases remembered : known? session.memo with
  | some found =>
      rw [remembered] at ran
      obtain ⟨rfl, rfl, rfl⟩ := ran
      exact ⟨.refl resolver _ session, known value session begun remembered⟩
  | none =>
      have continues := attempt.continues_runIn session.world
      rcases attempted : attempt.runIn session.world with ⟨_ | found, there⟩
      · simp [remembered, attempted] at ran
      · rw [remembered, attempted] at ran
        rw [attempted] at continues
        obtain ⟨rfl, rfl, rfl⟩ := ran
        obtain ⟨follows, attained⟩ :=
          recorded value session world begun remembered continues attempted
        exact ⟨follows.imp fun _ => Resolving.visits_remembering remembered, attained⟩

end Attains

end Resolver

/-! ## Metadata and packages -/

/-- That the metadata of a package is known in a session and agrees with the pin of the
package. -/
def Session.Accepts (session : Session) (package : PackageUri) (described : DescribedPackage) :
    Prop :=
  session.memo.described.lookup package.unpinned = some described ∧
    Resolver.checkPin package described = .ok ()

namespace Resolver

variable (resolver : Resolver) (progress : Progress) (package : PackageUri)

theorem attains_metadata :
    Attains resolver (fun _ => True) (resolver.metadata progress package)
      fun described session => session.Accepts package described := by
  refine .bind (fun described session =>
    session.memo.described.lookup package.unpinned = some described)
    (.remembering (fun _ _ _ => id) ?recorded) fun described =>
      .bind (fun _ session => session.Accepts package described)
        (.ofResult fun _ _ known checked => ⟨known, checked⟩) fun _ => .pure fun _ => id
  case recorded =>
    rintro described session world - unknown continues ran
    obtain ⟨document, finds, read⟩ := finds_of_loadMetadata ran
    have visited : ∀ other, other = session.world →
        ((resolver.loadMetadata progress package.unpinned).run).Visits session.world other := by
      rintro _ rfl
      exact .here _ _
    exact ⟨Session.follows_withDescribed unknown continues
      (finds.widened visited (.refl _) (.refl _)) read, List.lookup_cons_self⟩

theorem attains_package [ArchiveReader] :
    Attains resolver (fun _ => True) (resolver.package progress package)
      fun _ session => ∃ described, session.Accepts package described := by
  refine .bind _ (resolver.attains_metadata progress package) fun described =>
    .remembering (fun _ _ accepted _ => ⟨described, accepted⟩) ?recorded
  intro stored session world accepted unknown continues _
  exact ⟨Session.follows_withStored unknown continues stored, described, accepted⟩

/-- A package that is downloaded is accepted. -/
theorem attains_downloadPackage [ArchiveReader] :
    Attains resolver (fun _ => True) (resolver.downloadPackage progress package)
      fun _ session => ∃ described, session.Accepts package described :=
  .bind (fun _ _ => True) (.ofResult fun _ _ _ _ => trivial) fun _ =>
    .bind _ (resolver.attains_package progress package) fun _ => .pure fun _ => id

/-- Metadata that is asked for is accepted. -/
theorem attains_dependencyMetadata :
    Attains resolver (fun _ => True) (resolver.dependencyMetadata progress package)
      fun described session => session.Accepts package described :=
  .bind (fun _ _ => True) (.ofResult fun _ _ _ _ => trivial) fun _ =>
    resolver.attains_metadata progress package

end Resolver

end PackageResolution
