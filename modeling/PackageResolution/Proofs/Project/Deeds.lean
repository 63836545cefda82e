import PackageResolution.Proofs.Project.Selection

/-!
# What a resolution does

A run is watched through its source.  `Source.watched` notes each thing that is asked of a
source, the metadata of packages, projects and entries for the log, before it is answered, so
that a run which fails leaves its deeds behind as one that succeeds does.  Watching does not
change how a run comes out.

Of each place a run asks only for versions that are later than those it asked for before,
and it visits the projects of each directory once.  A visit is logged before it is made, so
the deeds show the directories.
-/

namespace PackageResolution

/-! ## Watching -/

/-- Something that is asked of a source. -/
inductive Deed
  /-- The metadata of an unpinned package. -/
  | describes (package : PackageUri)
  /-- The project at a path. -/
  | loads (path : Path)
  /-- To take note of a step. -/
  | logs (entry : LogEntry)
  deriving DecidableEq, Repr

/-- A computation that can fail and has a memory, whose deeds are noted, latest first. -/
abbrev Watched (σ : Type) := ExceptT Error (StateM (List Deed × σ))

namespace Watched

variable {σ α β : Type}

/-- Notes a deed and does it. -/
def doing (deed : Deed) (action : Stateful σ α) : Watched σ α := fun (deeds, memory) =>
  match action memory with
  | .ok (value, after) => (.ok value, (deed :: deeds, after))
  | .error failure => (.error failure, (deed :: deeds, memory))

theorem bind_apply (watched : Watched σ α) (next : α → Watched σ β) (state : List Deed × σ) :
    (watched >>= next) state =
      match watched state with
      | (.ok value, after) => next value after
      | (.error failure, after) => (.error failure, after) := by
  change ExceptT.bindCont next (watched state).1 (watched state).2 = _
  rcases watched state with ⟨_ | _, _⟩ <;> rfl

/-- That a computation comes out as another one does, apart from the deeds. -/
def Matches (watched : Watched σ α) (plain : Stateful σ α) : Prop :=
  ∀ deeds memory, (watched (deeds, memory)).1.map
    (fun value => (value, (watched (deeds, memory)).2.2)) = plain memory

theorem Matches.doing (deed : Deed) (action : Stateful σ α) :
    Matches (doing deed action) action := by
  intro deeds memory
  cases ran : action memory <;> simp [Watched.doing, ran, Except.map]

theorem Matches.pure (value : α) :
    Matches (Pure.pure value : Watched σ α) (Pure.pure value) :=
  fun _ _ => rfl

theorem Matches.throw (failure : Error) :
    Matches (MonadExcept.throw failure : Watched σ α) (MonadExcept.throw failure) :=
  fun _ _ => rfl

theorem Matches.ofExcept (result : Result α) :
    Matches (MonadExcept.ofExcept result : Watched σ α) (MonadExcept.ofExcept result) := by
  cases result with
  | error failure => exact .throw failure
  | ok value => exact .pure value

theorem Matches.bind {watched : Watched σ α} {plain : Stateful σ α} {next : α → Watched σ β}
    {plainNext : α → Stateful σ β} (first : Matches watched plain)
    (second : ∀ value, Matches (next value) (plainNext value)) :
    Matches (watched >>= next) (plain >>= plainNext) := by
  intro deeds memory
  change _ = Except.bind (plain memory) fun pair => plainNext pair.1 pair.2
  rw [← first deeds memory, bind_apply]
  obtain ⟨outcome, more, after⟩ := watched (deeds, memory)
  cases outcome with
  | error failure => rfl
  | ok value => exact second value more after

end Watched

/-- The source whose deeds are noted. -/
def Source.watched {σ : Type} (source : Source (Stateful σ)) : Source (Watched σ) where
  describe package := Watched.doing (.describes package) (source.describe package)
  load path := Watched.doing (.loads path) (source.load path)
  log entry := Watched.doing (.logs entry) (source.log entry)

namespace Walk

open Watched (Matches)

variable {σ : Type} (source : Source (Stateful σ))

theorem meetPackage_watched (walk : Walk) (required : PackageUri) :
    Matches (walk.meetPackage source.watched required) (walk.meetPackage source required) := by
  refine .bind (.ofExcept _) fun met => ?_
  cases met with
  | true => exact .pure walk
  | false =>
      refine .bind (.doing _ _) fun _ => .bind (.doing _ _) fun described => ?_
      exact .bind (.ofExcept _) fun _ => .pure _

theorem meet_watched (walk : Walk) (requirement : Requirement) :
    Matches (walk.meet source.watched requirement) (walk.meet source requirement) := by
  cases requirement with
  | remote package => exact walk.meetPackage_watched source package
  | listed dependency =>
      exact .bind (.ofExcept _) fun package => walk.meetPackage_watched source package
  | localProject path =>
      refine .bind (.doing _ _) fun project => .bind (.ofExcept _) fun package => ?_
      refine .bind (.ofExcept _) fun visited => ?_
      cases visited with
      | true => exact .pure walk
      | false => exact .bind (.doing _ _) fun _ => .pure _

theorem run_watched (steps : Nat) (walk : Walk) :
    Matches (run source.watched steps walk) (run source steps walk) := by
  induction steps generalizing walk with
  | zero => exact .pure none
  | succ steps inductionHypothesis =>
      unfold run
      split
      · exact .pure (some walk)
      · exact .bind (meet_watched source _ _) fun next => inductionHypothesis next

end Walk

namespace Project

/-- Settles the dependencies of a project unless that takes more than a number of steps. -/
def resolveWithin {m : Type → Type} [Monad m] [MonadExceptOf Error m] (limit : Nat)
    (source : Source m) (project : Project) : m Manifest := do
  match ← Walk.run source limit (Walk.start project) with
  | some walk => MonadExcept.ofExcept (Manifest.ofChoices project.directory walk.chosen)
  | none => throw (.resolution (.endless project.directory.text))

theorem resolve_eq_resolveWithin {m : Type → Type} [Monad m] [MonadExceptOf Error m]
    (source : Source m) (project : Project) :
    project.resolve source = project.resolveWithin Walk.stepLimit source :=
  rfl

variable {σ : Type} (source : Source (Stateful σ)) (project : Project)

/-- Watching does not change how the dependencies of a project are settled. -/
theorem resolveWithin_watched (limit : Nat) :
    Watched.Matches (project.resolveWithin limit source.watched)
      (project.resolveWithin limit source) := by
  refine .bind (Walk.run_watched source _ _) fun finish => ?_
  cases finish with
  | none => exact .throw _
  | some walk => exact .ofExcept _

/-- What is done in a run of no more than a number of steps, in order. -/
def deeds (limit : Nat) (memory : σ) : List Deed :=
  (project.resolveWithin limit source.watched ([], memory)).2.1.reverse

end Project

/-! ## What the deeds show -/

namespace Deed

/-- The version of a package that is asked for at a place. -/
def version? (key : PackageKey) : Deed → Option Version
  | .describes package => if package.key = key then some package.version else none
  | _ => none

/-- The directory of the project that is visited next. -/
def visited? : Deed → Option Path
  | .logs (.visiting directory) => some directory
  | _ => none

theorem version?_eq_some_iff {key : PackageKey} {deed : Deed} {version : Version} :
    deed.version? key = some version ↔
      ∃ package, deed = .describes package ∧ package.key = key ∧ package.version = version := by
  cases deed with
  | describes package => simp [version?]
  | loads path => simp [version?]
  | logs entry => simp [version?]

/-- What the deeds of a run, latest first, show of the run so far: the versions that were asked
for at a place are each later than the one before, and no project was visited twice, nor the
root. -/
structure Steady (root : Path) (deeds : List Deed) : Prop where
  versions : ∀ key, (deeds.filterMap (Deed.version? key)).Pairwise
    fun later earlier => earlier.compare later = .lt
  visits : (deeds.filterMap Deed.visited? ++ [root]).Pairwise
    fun later earlier => later.same earlier = false

end Deed

namespace Walk

/-- What the deeds of a run, latest first, show of the state that the walk is in. -/
structure Tracks (root : Path) (walk : Walk) (deeds : List Deed) : Prop
    extends Deed.Steady root deeds where
  /-- The projects that were visited are those that were logged, and the root. -/
  visited : walk.visited = deeds.filterMap Deed.visited? ++ [root]
  /-- Whatever was asked for is settled. -/
  settled : ∀ package, .describes package ∈ deeds → walk.Settles package

namespace Tracks

variable {root : Path} {walk : Walk} {deeds : List Deed}

/-- A deed that asks for no version and visits no project is of no account. -/
theorem cons {deed : Deed} (tracks : Tracks root walk deeds)
    (asks : ∀ package, deed ≠ .describes package) (visits : deed.visited? = none) :
    Tracks root walk (deed :: deeds) := by
  have unasked (key : PackageKey) : deed.version? key = none := by
    rw [Option.eq_none_iff_forall_not_mem]
    intro version asked
    obtain ⟨package, same, -⟩ := Deed.version?_eq_some_iff.mp asked
    exact asks package same
  refine ⟨⟨fun key => ?_, ?_⟩, ?_, fun package member => ?_⟩
  · rw [List.filterMap_cons_none (unasked key)]
    exact tracks.versions key
  · rw [List.filterMap_cons_none visits]
    exact tracks.visits
  · rw [List.filterMap_cons_none visits]
    exact tracks.visited
  · rcases List.mem_cons.mp member with same | before
    · exact absurd same.symm (asks package)
    · exact tracks.settled package before

/-- Whatever was asked for before is less than a version that is not met. -/
theorem compare_lt {required package : PackageUri} (tracks : Tracks root walk deeds)
    (isMet : walk.isMet required = .ok false) (asked : .describes package ∈ deeds)
    (same : package.key = required.key) : package.version.compare required.version = .lt := by
  obtain ⟨choice, found, meets⟩ := tracks.settled package asked
  rw [same] at found
  rcases lookup_of_not_isMet isMet with free | ⟨chosen, checksum, taken, less⟩
  · exact nomatch free.symm.trans found
  obtain rfl := Option.some.inj (taken.symm.trans found)
  rw [Version.atLeast, bne_eq_false_iff_eq] at less
  exact Std.TransCmp.lt_of_isLE_of_lt (Version.atLeast_iff.mp meets.1) less

/-- The next version that is asked for is later than those before. -/
theorem describes {required : PackageUri} (tracks : Tracks root walk deeds)
    (isMet : walk.isMet required = .ok false) :
    Deed.Steady root (.describes required.unpinned :: deeds) := by
  refine ⟨fun key => ?_, tracks.visits⟩
  by_cases place : required.key = key
  · have next : (Deed.describes required.unpinned).version? key = some required.version :=
      Deed.version?_eq_some_iff.mpr ⟨_, rfl, place, rfl⟩
    rw [List.filterMap_cons_some next, List.pairwise_cons]
    refine ⟨fun version earlier => ?_, tracks.versions key⟩
    obtain ⟨deed, member, asked⟩ := List.mem_filterMap.mp earlier
    obtain ⟨package, rfl, same, rfl⟩ := Deed.version?_eq_some_iff.mp asked
    exact tracks.compare_lt isMet member (same.trans place.symm)
  · have other : (Deed.describes required.unpinned).version? key = none := if_neg place
    rw [List.filterMap_cons_none other]
    exact tracks.versions key

/-- When the version is chosen, everything that was asked for is settled. -/
theorem choose_remote {required : PackageUri} {checksum : Checksum} {news : List Requirement}
    (tracks : Tracks root walk deeds) (isMet : walk.isMet required = .ok false) :
    Tracks root (walk.choose required.key (.remote required.unpinned checksum) news)
      (.describes required.unpinned :: deeds) := by
  refine ⟨tracks.describes isMet, tracks.visited, fun package member => ?_⟩
  rcases List.mem_cons.mp member with same | before
  · obtain rfl := Deed.describes.inj same
    exact ⟨_, lookup_choose_self, Version.atLeast_self _, fun _ pin held => nomatch held⟩
  · exact (tracks.settled package before).choose_remote isMet

/-- A project that was not visited before is visited. -/
theorem visits_project {directory : Path} (tracks : Tracks root walk deeds)
    (new : walk.visited.any directory.same = false) :
    Tracks root { walk with visited := directory :: walk.visited }
      (.logs (.visiting directory) :: deeds) := by
  have logged : (Deed.logs (.visiting directory)).visited? = some directory := rfl
  have named := List.filterMap_cons_some logged (l := deeds)
  refine ⟨⟨tracks.versions, ?_⟩, ?_, fun package member => ?_⟩
  · rw [named, List.cons_append, List.pairwise_cons, ← tracks.visited]
    exact ⟨fun other among => Bool.eq_false_iff.mpr (List.any_eq_false.mp new other among),
      tracks.visited ▸ tracks.visits⟩
  · rw [named, List.cons_append, tracks.visited]
  · rcases List.mem_cons.mp member with impossible | before
    · exact nomatch impossible
    · exact tracks.settled package before

end Tracks

end Walk

/-! ## A run does nothing else -/

namespace Watched

variable {σ α β : Type} {before : List Deed → Prop} {after : α → List Deed → Prop}
  {failed : List Deed → Prop}

/-- That a computation which starts with deeds of one kind ends with deeds of a kind that its
value determines, or fails with deeds of a third kind. -/
def Ensures (before : List Deed → Prop) (computation : Watched σ α)
    (after : α → List Deed → Prop) (failed : List Deed → Prop) : Prop :=
  ∀ deeds memory, before deeds →
    match computation (deeds, memory) with
    | (.ok value, (more, _)) => after value more
    | (.error _, (more, _)) => failed more

theorem Ensures.pure {value : α} (holds : ∀ deeds, before deeds → after value deeds) :
    Ensures before (Pure.pure value : Watched σ α) after failed :=
  fun deeds _ held => holds deeds held

theorem Ensures.throw {failure : Error} (fails : ∀ deeds, before deeds → failed deeds) :
    Ensures before (MonadExcept.throw failure : Watched σ α) after failed :=
  fun deeds _ held => fails deeds held

theorem Ensures.ofExcept {result : Result α} (fails : ∀ deeds, before deeds → failed deeds)
    (holds : ∀ value, result = .ok value → ∀ deeds, before deeds → after value deeds) :
    Ensures before (MonadExcept.ofExcept result : Watched σ α) after failed := by
  cases result with
  | error failure => exact .throw fails
  | ok value => exact .pure (holds value rfl)

theorem Ensures.doing {deed : Deed} {action : Stateful σ α}
    (fails : ∀ deeds, before deeds → failed (deed :: deeds))
    (holds : ∀ value deeds, before deeds → after value (deed :: deeds)) :
    Ensures before (doing deed action) after failed := by
  intro deeds memory held
  cases ran : action memory with
  | error failure =>
      simp only [Watched.doing, ran]
      exact fails deeds held
  | ok pair =>
      simp only [Watched.doing, ran]
      exact holds pair.1 deeds held

theorem Ensures.bind (after : α → List Deed → Prop) {computation : Watched σ α}
    {next : α → Watched σ β} {last : β → List Deed → Prop}
    (first : Ensures before computation after failed)
    (second : ∀ value, Ensures (after value) (next value) last failed) :
    Ensures before (computation >>= next) last failed := by
  intro deeds memory held
  have outcome := first deeds memory held
  rw [bind_apply]
  generalize computation (deeds, memory) = ran at outcome ⊢
  obtain ⟨result, more, memory⟩ := ran
  cases result with
  | error failure => exact outcome
  | ok value => exact second value more memory outcome

end Watched

namespace Walk

open Watched (Ensures)

variable {σ : Type} (source : Source (Stateful σ)) {root : Path}

theorem ensures_meetPackage (walk : Walk) (required : PackageUri) :
    Ensures (Tracks root walk) (walk.meetPackage source.watched required) (Tracks root)
      (Deed.Steady root) := by
  refine .bind (fun met deeds => walk.isMet required = .ok met ∧ Tracks root walk deeds)
    (.ofExcept (fun _ => Tracks.toSteady) fun met decided _ tracks => ⟨decided, tracks⟩)
    fun met => ?_
  cases met with
  | true => exact .pure fun _ held => held.2
  | false =>
      refine .bind (fun _ deeds =>
        walk.isMet required = .ok false ∧ Tracks root walk deeds) ?_ fun _ => ?_
      · have logged (deeds : List Deed) (held : walk.isMet required = .ok false ∧
            Tracks root walk deeds) :
            Tracks root walk (.logs (.resolving required.unpinned) :: deeds) :=
          held.2.cons (fun _ => nofun) rfl
        exact .doing (fun deeds held => (logged deeds held).toSteady) fun _ deeds held =>
          ⟨held.1, logged deeds held⟩
      -- the walk is behind its deeds until the version that was described is chosen
      refine .bind (fun _ deeds => Deed.Steady root deeds ∧ ∀ checksum news,
        Tracks root (walk.choose required.key (.remote required.unpinned checksum) news) deeds)
        ?_ fun described => ?_
      · exact .doing (fun _ held => held.2.describes held.1) fun _ _ held =>
          ⟨held.2.describes held.1, fun _ _ => held.2.choose_remote held.1⟩
      · exact .bind _ (.ofExcept (fun _ => And.left) fun _ _ _ held => held.2) fun _ =>
          .pure fun _ held => held _ _

theorem ensures_meetProject (walk : Walk) (path : Path) :
    Ensures (Tracks root walk) (walk.meetProject source.watched path) (Tracks root)
      (Deed.Steady root) := by
  have loaded (deeds : List Deed) (tracks : Tracks root walk deeds) :
      Tracks root walk (.loads path :: deeds) := tracks.cons (fun _ => nofun) rfl
  refine .bind _ (.doing (fun deeds tracks => (loaded deeds tracks).toSteady) fun _ => loaded)
    fun project => ?_
  refine .bind _ (.ofExcept (fun _ => Tracks.toSteady) fun _ _ _ tracks => tracks)
    fun package => ?_
  refine .bind (fun visited deeds =>
    walk.isVisited package.key project.directory = .ok visited ∧ Tracks root walk deeds)
    (.ofExcept (fun _ => Tracks.toSteady) fun visited decided _ tracks => ⟨decided, tracks⟩)
    fun visited => ?_
  cases visited with
  | true => exact .pure fun _ held => held.2
  | false =>
      have visits (deeds : List Deed)
          (held : walk.isVisited package.key project.directory = .ok false ∧
            Tracks root walk deeds) :=
        held.2.visits_project (visited_of_isVisited held.1)
      refine .bind _ (.doing (fun deeds held => (visits deeds held).toSteady) fun _ => visits)
        fun _ => .pure fun deeds tracks => ?_
      exact ⟨tracks.toSteady, tracks.visited, fun package asked =>
        Settles.choose_localProject { walk with visited := _ } (tracks.settled package asked)⟩

theorem ensures_meet (walk : Walk) (requirement : Requirement) :
    Ensures (Tracks root walk) (walk.meet source.watched requirement) (Tracks root)
      (Deed.Steady root) := by
  cases requirement with
  | remote package => exact walk.ensures_meetPackage source package
  | listed dependency =>
      exact .bind _ (.ofExcept (fun _ => Tracks.toSteady) fun _ _ _ tracks => tracks)
        fun package => walk.ensures_meetPackage source package
  | localProject path => exact walk.ensures_meetProject source path

/-- However far a run goes and however it ends, its deeds are steady. -/
theorem ensures_run (steps : Nat) (walk : Walk) :
    Ensures (Tracks root walk) (run source.watched steps walk)
      (fun _ => Deed.Steady root) (Deed.Steady root) := by
  induction steps generalizing walk with
  | zero => exact .pure fun _ => Tracks.toSteady
  | succ steps inductionHypothesis =>
      cases pending : walk.pending with
      | nil =>
          rw [run, pending]
          exact .pure fun _ => Tracks.toSteady
      | cons requirement rest =>
          rw [run, pending]
          refine .bind (Tracks root) ?_ inductionHypothesis
          intro deeds memory tracks
          have same : Tracks root { walk with pending := rest } deeds :=
            ⟨tracks.toSteady, tracks.visited, tracks.settled⟩
          exact ensures_meet source _ requirement deeds memory same

end Walk

/-- The deeds of a run are steady. -/
theorem Project.steady_deeds {σ : Type} (source : Source (Stateful σ)) (project : Project)
    (limit : Nat) (memory : σ) :
    Deed.Steady project.directory (project.deeds source limit memory).reverse := by
  have start : Walk.Tracks project.directory (Walk.start project) [] :=
    ⟨⟨fun _ => .nil, List.pairwise_singleton _ _⟩, rfl, fun _ => nofun⟩
  have ensures : Watched.Ensures (Walk.Tracks project.directory (Walk.start project))
      (project.resolveWithin limit source.watched) (fun _ => Deed.Steady project.directory)
      (Deed.Steady project.directory) := by
    refine .bind _ (Walk.ensures_run source limit _) fun finish => ?_
    cases finish with
    | none => exact .throw fun _ steady => steady
    | some walk => exact .ofExcept (fun _ steady => steady) fun _ _ _ steady => steady
  have outcome := ensures [] memory start
  rw [Project.deeds, List.reverse_reverse]
  split at outcome
  all_goals
    rename_i ran
    rw [ran]
    exact outcome

end PackageResolution
