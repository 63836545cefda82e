import Mathlib.Data.Set.Card
import Mathlib.Data.Set.Finite.Lattice
import PackageResolution.Proofs.Project.Course
import PackageResolution.Proofs.Project.Deeds
import PackageResolution.Proofs.Project.Settlement

/-!
# Resolution terminates

A walk that is not met with ever more packages and projects comes to its end, however the
packages and projects require each other.  Only two steps bring up anything new.  One
chooses a version that is later than what its place was settled to, so one more of the
packages that can be asked for is settled, and none of them is ever unsettled again.  The
other visits a directory in which no project was visited before.  Every other step leaves
less to be met.
-/

namespace PackageResolution

namespace Project

variable {σ : Type}

/-- The packages, without their pins, that what a project brings up asks for. -/
def packagesAsked (source : Source (Stateful σ)) (project : Project) : Set PackageUri :=
  {package | ∃ requirement required, project.BringsUp source requirement ∧
    requirement.Asks required ∧ required.unpinned = package}

/-- The directories of the projects that what a project brings up leads to. -/
def directoriesLoaded (source : Source (Stateful σ)) (project : Project) : Set Path :=
  {directory | ∃ path loaded, project.BringsUp source (.localProject path) ∧
    source.Loads path loaded ∧ loaded.directory = directory}

end Project

namespace Walk

variable {σ : Type} {source : Source (Stateful σ)}

/-! ## The measure -/

/-- How many of some packages are not settled and how many of some directories were not
visited. -/
noncomputable def remaining (packages : Set PackageUri) (directories : Set Path)
    (walk : Walk) : Nat :=
  {package ∈ packages | ¬ walk.Settles package}.ncard +
    {directory ∈ directories | walk.visited.any directory.same = false}.ncard

/-- What is not met is not settled, not even without its pin. -/
theorem not_settles_of_not_isMet {walk : Walk} {required : PackageUri}
    (isMet : walk.isMet required = .ok false) : ¬ walk.Settles required.unpinned := by
  rintro ⟨choice, found, meets⟩
  rcases lookup_of_not_isMet isMet with free | ⟨package, checksum, taken, less⟩
  · exact nomatch free.symm.trans found
  · obtain rfl := Option.some.inj (taken.symm.trans found)
    exact nomatch less.symm.trans meets.1

section Remaining

variable {packages : Set PackageUri} {directories : Set Path}

/-- Choosing a version leaves less, if the version is one of the packages. -/
theorem remaining_choose_remote (finite : packages.Finite) {walk : Walk} {required : PackageUri}
    (asked : required.unpinned ∈ packages) (isMet : walk.isMet required = .ok false)
    (checksum : Checksum) (news : List Requirement) :
    (walk.choose required.key (.remote required.unpinned checksum) news).remaining packages
      directories < walk.remaining packages directories := by
  refine Nat.add_lt_add_right (Set.ncard_lt_ncard ?_ (finite.subset (Set.sep_subset _ _))) _
  rw [Set.ssubset_iff_exists]
  refine ⟨fun package ⟨among, open_⟩ => ⟨among, fun settled => open_ ?_⟩, required.unpinned,
    ⟨asked, not_settles_of_not_isMet isMet⟩, fun ⟨_, open_⟩ => open_ ?_⟩
  · exact settled.choose_remote isMet
  · exact ⟨_, lookup_choose_self, Version.atLeast_self _, fun _ pin held => nomatch held⟩

/-- Visiting a project leaves less, if its directory is one of the directories. -/
theorem remaining_choose_localProject (finitePackages : packages.Finite)
    (finite : directories.Finite) {walk : Walk} {key : PackageKey} {package : PackageUri}
    {directory : Path} (loaded : directory ∈ directories)
    (new : walk.visited.any directory.same = false) (news : List Requirement) :
    ({ walk with visited := directory :: walk.visited }.choose key
      (.localProject package directory) news).remaining packages directories <
        walk.remaining packages directories := by
  refine Nat.add_lt_add_of_le_of_lt (Set.ncard_le_ncard ?_ ?_) (Set.ncard_lt_ncard ?_ ?_)
  · rintro other ⟨among, open_⟩
    refine ⟨among, fun settled => open_ ?_⟩
    exact Settles.choose_localProject { walk with visited := _ } settled
  · exact finitePackages.subset (Set.sep_subset _ _)
  · rw [Set.ssubset_iff_exists]
    refine ⟨fun other ⟨among, unvisited⟩ => ⟨among, ?_⟩, directory, ⟨loaded, new⟩, ?_⟩
    · exact (Bool.or_eq_false_iff.mp unvisited).2
    · rintro ⟨-, unvisited⟩
      have itself : directory.same directory = true := by simp [Path.same]
      exact nomatch itself.symm.trans (Bool.or_eq_false_iff.mp unvisited).1
  · exact finite.subset (Set.sep_subset _ _)

end Remaining

/-- A step leaves less of what a project brings up, or it leaves no more and brings up
nothing. -/
theorem Step.remaining_lt {project : Project}
    (packages : (project.packagesAsked source).Finite)
    (directories : (project.directoriesLoaded source).Finite) {walk next : Walk}
    {requirement : Requirement} {news : List Told} (step : Step walk requirement news next)
    (tells : ∀ note ∈ news, source.Tells requirement note)
    (broughtUp : project.BringsUp source requirement) :
    next = walk ∨
      next.remaining (project.packagesAsked source) (project.directoriesLoaded source) <
        walk.remaining (project.packagesAsked source) (project.directoriesLoaded source) := by
  cases step with
  | met asks isMet => exact .inl rfl
  | known published isVisited => exact .inl rfl
  | chosen asks isMet description pinned =>
      exact .inr (remaining_choose_remote packages ⟨_, _, broughtUp, asks, rfl⟩ isMet _ _)
  | visited published isVisited =>
      have loads := (tells _ (List.mem_singleton_self _)).loads
      exact .inr (remaining_choose_localProject packages directories
        ⟨_, _, broughtUp, loads, rfl⟩ (visited_of_isVisited isVisited) _)

/-! ## Coming to an end -/

/-- That a walk comes to its end, or fails, before a number of requirements were met. -/
def Ends (source : Source (Stateful σ)) (steps : Nat) (walk : Walk) (memory : σ) : Prop :=
  ∀ after, run source steps walk memory ≠ .ok (none, after)

theorem run_nil {walk : Walk} (steps : Nat) (pending : walk.pending = []) (memory : σ) :
    run source (steps + 1) walk memory = .ok (some walk, memory) := by
  rw [run, pending]
  rfl

theorem run_cons {walk : Walk} {requirement : Requirement} {rest : List Requirement}
    (steps : Nat) (pending : walk.pending = requirement :: rest) :
    run source (steps + 1) walk =
      (meet source { walk with pending := rest } requirement >>= run source steps) := by
  rw [run, pending]

/-- A walk that comes to its end comes to the same end when it may go further. -/
theorem run_of_le {steps more : Nat} {walk : Walk} {memory : σ}
    (ends : Ends source steps walk memory) (le : steps ≤ more) :
    run source more walk memory = run source steps walk memory := by
  induction steps generalizing more walk memory with
  | zero => exact absurd rfl (ends memory)
  | succ steps inductionHypothesis =>
      obtain ⟨more, rfl⟩ : ∃ fewer, more = fewer + 1 := ⟨more - 1, by omega⟩
      cases pending : walk.pending with
      | nil => rw [run_nil more pending, run_nil steps pending]
      | cons requirement rest =>
          rw [run_cons more pending, run_cons steps pending]
          cases met : meet source { walk with pending := rest } requirement memory with
          | error failure => rw [Stateful.bind_of_error met, Stateful.bind_of_error met]
          | ok pair =>
              rw [Stateful.bind_of_ok met, Stateful.bind_of_ok met]
              refine inductionHypothesis (fun after ran => ends after ?_) (by omega)
              rw [run_cons steps pending, Stateful.bind_of_ok met, ran]

/-- A walk with finitely much to be brought up comes to its end, or fails. -/
theorem exists_ends {project : Project} (packages : (project.packagesAsked source).Finite)
    (directories : (project.directoriesLoaded source).Finite) (walk : Walk)
    (broughtUp : ∀ waiting ∈ walk.pending, project.BringsUp source waiting) (memory : σ) :
    ∃ steps, Ends source steps walk memory := by
  cases pending : walk.pending with
  | nil =>
      refine ⟨1, fun after ran => ?_⟩
      rw [run_nil 0 pending] at ran
      exact nomatch ran
  | cons requirement rest =>
      cases met : meet source { walk with pending := rest } requirement memory with
      | error failure =>
          refine ⟨1, fun after ran => ?_⟩
          rw [run_cons 0 pending, Stateful.bind_of_error met] at ran
          exact nomatch ran
      | ok pair =>
          obtain ⟨next, between⟩ := pair
          obtain ⟨news, step, tells⟩ := exists_step_of_meet met
          have first : project.BringsUp source requirement :=
            broughtUp requirement (pending ▸ List.mem_cons_self)
          have less := step.remaining_lt packages directories tells first
          obtain ⟨steps, ends⟩ := exists_ends packages directories next
            (step.bringsUp pending tells broughtUp) between
          refine ⟨steps + 1, fun after ran => ends after ?_⟩
          rwa [run_cons steps pending, Stateful.bind_of_ok met] at ran
termination_by (walk.remaining (project.packagesAsked source)
  (project.directoriesLoaded source), walk.pending.length)
decreasing_by
  rcases less with rfl | less
  · refine Prod.Lex.right _ ?_
    rw [pending]
    exact Nat.lt_succ_self _
  · exact Prod.Lex.left _ _ less

end Walk

/-! ## The dependencies of a project -/

namespace Project

variable {σ : Type} (source : Source (Stateful σ)) (project : Project)

/-- Settling the dependencies of a project comes to the same end when it may take longer. -/
theorem resolveWithin_of_le {limit more : Nat} {memory : σ}
    (ends : Walk.Ends source limit (Walk.start project) memory) (le : limit ≤ more) :
    project.resolveWithin more source memory = project.resolveWithin limit source memory := by
  have same := Walk.run_of_le ends le
  change Except.bind (Walk.run source more _ memory) _ =
    Except.bind (Walk.run source limit _ memory) _
  rw [same]

/-- If what a project brings up asks for finitely many packages and leads to finitely many
directories, then settling its dependencies comes to an end after a number of steps, and to
the same end whenever it may take more.  In every run, however far it goes and however it
ends, the versions that are asked for at a place are each later than the one before, and no
two of the projects that are visited are in one directory, nor any in that of the root. -/
theorem resolve_terminates (memory : σ) :
    ((project.packagesAsked source).Finite → (project.directoriesLoaded source).Finite →
      ∃ limit, Walk.Ends source limit (Walk.start project) memory ∧
        (∀ more, limit ≤ more → project.resolveWithin more source memory =
          project.resolveWithin limit source memory) ∧
        (limit ≤ Walk.stepLimit →
          project.resolve source memory = project.resolveWithin limit source memory)) ∧
    ∀ limit,
      (∀ key, ((project.deeds source limit memory).filterMap (Deed.version? key)).Pairwise
        fun earlier later => earlier.compare later = .lt) ∧
      (project.directory :: (project.deeds source limit memory).filterMap
        Deed.visited?).Pairwise fun earlier later => earlier.same later = false := by
  constructor
  · intro packages directories
    have declared : ∀ waiting ∈ (Walk.start project).pending, project.BringsUp source waiting :=
      fun waiting declares => .declared declares
    obtain ⟨limit, ends⟩ := Walk.exists_ends packages directories _ declared memory
    have same (more : Nat) (le : limit ≤ more) := resolveWithin_of_le source project ends le
    exact ⟨limit, ends, same, same Walk.stepLimit⟩
  · intro limit
    have steady := project.steady_deeds source limit memory
    constructor
    · intro key
      have versions := steady.versions key
      rwa [List.filterMap_reverse, List.pairwise_reverse] at versions
    · have visits := steady.visits
      rw [List.filterMap_reverse, ← List.reverse_cons, List.pairwise_reverse] at visits
      exact visits.imp fun different => Path.same_comm _ _ ▸ different

/-! ## A cycle

The birds and the seeds list each other, and a project depends on itself. -/

/-- What finitely many requirements ask for are finitely many packages. -/
theorem finite_packagesAsked (requirements : {raised | project.BringsUp source raised}.Finite) :
    (project.packagesAsked source).Finite := by
  refine (Set.Finite.biUnion requirements fun requirement _ =>
    Set.Subsingleton.finite (s := {package | ∃ required, requirement.Asks required ∧
      required.unpinned = package}) ?_).subset ?_
  · rintro _ ⟨first, asks, rfl⟩ _ ⟨second, asks', rfl⟩
    rw [asks.unique asks']
  · rintro package ⟨requirement, required, broughtUp, asks, same⟩
    exact Set.mem_biUnion broughtUp ⟨required, asks, same⟩

end Project

namespace Aviary

/-- The seeds that are listed. -/
def seeds : PackageUri :=
  release "/seeds" isPath_seeds 1 one_lt_limit none

/-- A project that depends on itself. -/
def nest : Project where
  directory := ⟨"/work/nest"⟩
  package := some { name := "nest", baseUri := "package://localhost:0/nest", version := "1.0.0" }
  dependencies := [("nest", .localProject ⟨"/work/nest"⟩), ("seeds", .remote seeds)]

/-- A server whose birds and seeds list each other. -/
def cyclicSource : Source (Stateful Unit) where
  describe package :=
    if package.path = "/seeds" then return ⟨metadata [("birds", listedBirds)], ⟨"5e"⟩⟩
    else return ⟨metadata [("seeds", listedSeeds)], ⟨"b6"⟩⟩
  load _ := return nest
  log _ := return ()

/-- A project in the cycle. -/
def cyclicProject : Project where
  directory := ⟨"/work/aviary"⟩
  package := none
  dependencies := [("birds", .remote (birds 5 five_lt_limit none)),
    ("nest", .localProject ⟨"/work/nest"⟩)]

/-- What can come up in the cycle. -/
def cyclicRequirements : List Requirement :=
  [.remote (birds 5 five_lt_limit none), .remote seeds, .listed listedBirds, .listed listedSeeds,
    .localProject ⟨"/work/nest"⟩]

end Aviary

namespace Project

open Aviary

/-- Whatever comes up in the cycle. -/
theorem mem_of_bringsUp_cycle {requirement : Requirement}
    (broughtUp : cyclicProject.BringsUp cyclicSource requirement) :
    requirement ∈ cyclicRequirements := by
  induction broughtUp with
  | declared declares =>
      have within : ∀ requirement ∈ Requirement.ofProject cyclicProject,
          requirement ∈ cyclicRequirements := by decide +kernel
      exact within _ declares
  | raised earlier tells raises inductionHypothesis =>
      cases tells with
      | described asks describes =>
          obtain ⟨_, _, described⟩ := describes
          simp only [cyclicSource] at described
          split at described
          all_goals
            obtain ⟨rfl, -⟩ := Stateful.pure_eq_ok_iff.mp described
            obtain rfl := List.mem_singleton.mp raises
            decide +kernel
      | loaded loads =>
          obtain ⟨_, _, loaded⟩ := loads
          obtain ⟨rfl, -⟩ := Stateful.pure_eq_ok_iff.mp loaded
          have within : ∀ requirement ∈ Requirement.ofProject nest,
              requirement ∈ cyclicRequirements := by decide +kernel
          exact within _ raises

/-- Cycles of packages and of projects do not keep a run from coming to its end. -/
theorem resolve_terminates_cycle :
    (cyclicProject.packagesAsked cyclicSource).Finite ∧
      (cyclicProject.directoriesLoaded cyclicSource).Finite ∧
      ∃ limit, Walk.Ends cyclicSource limit (Walk.start cyclicProject) () := by
  have requirements : {raised | cyclicProject.BringsUp cyclicSource raised}.Finite :=
    (List.finite_toSet _).subset fun raised broughtUp => mem_of_bringsUp_cycle broughtUp
  have packages := finite_packagesAsked cyclicSource cyclicProject requirements
  have directories : (cyclicProject.directoriesLoaded cyclicSource).Finite := by
    refine (Set.finite_singleton nest.directory).subset ?_
    rintro directory ⟨path, loaded, -, ⟨_, _, loads⟩, rfl⟩
    obtain ⟨rfl, -⟩ := Stateful.pure_eq_ok_iff.mp loads
    rfl
  obtain ⟨limit, ends, -⟩ := (resolve_terminates cyclicSource cyclicProject ()).1 packages directories
  exact ⟨packages, directories, limit, ends⟩

end Project

end PackageResolution
