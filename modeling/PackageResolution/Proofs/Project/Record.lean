import PackageResolution.Project.Resolution
import PackageResolution.Proofs.Result

/-!
# What a resolution is told

A source can have a memory, and answer differently every time.  A recorded source notes
what it was told, the metadata of packages and the projects, latest first, and answers as
the source does.  A resolution with the recorded source goes as it does with the source
itself, so what was noted belongs to the run: it says which projects the run visited and
what it requires of which package.
-/

namespace PackageResolution

/-- A computation that can fail and has a memory. -/
abbrev Stateful (σ : Type) := StateT σ Result

namespace Stateful

variable {σ α β : Type}

theorem bind_eq_ok_iff {computation : Stateful σ α} {next : α → Stateful σ β}
    {before after : σ} {value : β} :
    (computation >>= next) before = .ok (value, after) ↔
      ∃ first between, computation before = .ok (first, between) ∧
        next first between = .ok (value, after) := by
  refine Result.bind_eq_ok_iff.trans ?_
  simp only [Prod.exists]

theorem bind_of_ok {computation : Stateful σ α} {next : α → Stateful σ β} {before between : σ}
    {value : α} (ran : computation before = .ok (value, between)) :
    (computation >>= next) before = next value between := by
  change Except.bind (computation before) _ = _
  rw [ran]
  rfl

theorem bind_of_error {computation : Stateful σ α} {next : α → Stateful σ β} {before : σ}
    {failure : Error} (ran : computation before = .error failure) :
    (computation >>= next) before = .error failure := by
  change Except.bind (computation before) _ = _
  rw [ran]
  rfl

theorem pure_eq_ok_iff {before after : σ} {first value : α} :
    (pure first : Stateful σ α) before = .ok (value, after) ↔
      first = value ∧ before = after := by
  change Except.ok (first, before) = Except.ok (value, after) ↔ _
  rw [Except.ok.injEq, Prod.mk.injEq]

theorem ofExcept_eq_ok_iff {result : Result α} {before after : σ} {value : α} :
    (MonadExcept.ofExcept result : Stateful σ α) before = .ok (value, after) ↔
      result = .ok value ∧ before = after := by
  cases result with
  | error failure =>
      simp [MonadExcept.ofExcept, throw, throwThe, MonadExceptOf.throw, StateT.lift, bind,
        Except.bind]
  | ok first =>
      refine pure_eq_ok_iff.trans ?_
      rw [Except.ok.injEq]

end Stateful

/-! ## Recording -/

/-- Something that a source told. -/
inductive Told
  /-- The metadata of an unpinned package. -/
  | described (package : PackageUri) (description : DescribedPackage)
  /-- A project. -/
  | loaded (project : Project)
  deriving DecidableEq, Repr

namespace Source

variable {σ : Type}

/-- The source that notes what it tells. -/
def recorded (source : Source (Stateful σ)) : Source (Stateful (List Told × σ)) where
  describe package := fun (told, memory) => do
    let (description, memory) ← source.describe package memory
    return (description, (.described package description :: told, memory))
  load path := fun (told, memory) => do
    let (project, memory) ← source.load path memory
    return (project, (.loaded project :: told, memory))
  log entry := fun (told, memory) => do
    let ((), memory) ← source.log entry memory
    return ((), (told, memory))

end Source

/-- What a source tells while it settles the dependencies of a project, latest first. -/
def Project.told {σ : Type} (source : Source (Stateful σ)) (project : Project) (memory : σ) :
    List Told :=
  match project.resolve source.recorded ([], memory) with
  | .ok (_, (told, _)) => told
  | .error _ => []

namespace Stateful

variable {σ ν α β : Type}

/-- That a computation goes as another one does, apart from what it notes. -/
def Follows (recorded : Stateful (ν × σ) α) (plain : Stateful σ α) : Prop :=
  ∀ notes memory, (recorded (notes, memory)).map (fun (value, (_, memory)) => (value, memory)) =
    plain memory

theorem Follows.bind {recorded : Stateful (ν × σ) α} {plain : Stateful σ α}
    {recordedNext : α → Stateful (ν × σ) β} {plainNext : α → Stateful σ β}
    (follows : Follows recorded plain)
    (next : ∀ value, Follows (recordedNext value) (plainNext value)) :
    Follows (recorded >>= recordedNext) (plain >>= plainNext) := by
  intro notes memory
  have first := follows notes memory
  change (Except.bind (recorded (notes, memory)) fun pair => recordedNext pair.1 pair.2).map _ =
    Except.bind (plain memory) fun pair => plainNext pair.1 pair.2
  rw [← first]
  cases recorded (notes, memory) with
  | error failure => rfl
  | ok pair =>
      obtain ⟨value, notes, memory⟩ := pair
      exact next value notes memory

theorem Follows.pure (value : α) :
    Follows (Pure.pure value : Stateful (ν × σ) α) (Pure.pure value) :=
  fun _ _ => rfl

theorem Follows.throw (failure : Error) :
    Follows (MonadExcept.throw failure : Stateful (ν × σ) α)
      (MonadExcept.throw failure) :=
  fun _ _ => rfl

theorem Follows.ofExcept (result : Result α) :
    Follows (MonadExcept.ofExcept result : Stateful (ν × σ) α)
      (MonadExcept.ofExcept result) := by
  cases result with
  | error failure => exact .throw failure
  | ok value => exact .pure value

end Stateful

namespace Source

open Stateful (Follows)

variable {σ : Type} (source : Source (Stateful σ))

theorem recorded_describe (package : PackageUri) :
    Follows (source.recorded.describe package) (source.describe package) := by
  intro told memory
  cases answer : source.describe package memory <;>
    simp [recorded, answer, bind, Except.bind, pure, Except.pure, Except.map]

theorem recorded_load (path : Path) :
    Follows (source.recorded.load path) (source.load path) := by
  intro told memory
  cases answer : source.load path memory <;>
    simp [recorded, answer, bind, Except.bind, pure, Except.pure, Except.map]

theorem recorded_log (entry : LogEntry) :
    Follows (source.recorded.log entry) (source.log entry) := by
  intro told memory
  cases answer : source.log entry memory <;>
    simp [recorded, answer, bind, Except.bind, pure, Except.pure, Except.map]

end Source

namespace Walk

open Stateful (Follows)

variable {σ : Type} (source : Source (Stateful σ))

theorem meetPackage_recorded (walk : Walk) (required : PackageUri) :
    Follows (walk.meetPackage source.recorded required) (walk.meetPackage source required) := by
  refine .bind (.ofExcept _) fun met => ?_
  cases met with
  | true => exact .pure walk
  | false =>
      refine .bind (source.recorded_log _) fun _ => ?_
      refine .bind (source.recorded_describe _) fun described => ?_
      exact .bind (.ofExcept _) fun _ => .pure _

theorem meetProject_recorded (walk : Walk) (path : Path) :
    Follows (walk.meetProject source.recorded path) (walk.meetProject source path) := by
  refine .bind (source.recorded_load path) fun project => ?_
  refine .bind (.ofExcept _) fun package => ?_
  refine .bind (.ofExcept _) fun visited => ?_
  cases visited with
  | true => exact .pure walk
  | false => exact .bind (source.recorded_log _) fun _ => .pure _

theorem meet_recorded (walk : Walk) (requirement : Requirement) :
    Follows (walk.meet source.recorded requirement) (walk.meet source requirement) := by
  cases requirement with
  | remote package => exact walk.meetPackage_recorded source package
  | listed dependency =>
      exact .bind (.ofExcept _) fun package => walk.meetPackage_recorded source package
  | localProject path => exact walk.meetProject_recorded source path

theorem run_recorded (steps : Nat) (walk : Walk) :
    Follows (run source.recorded steps walk) (run source steps walk) := by
  induction steps generalizing walk with
  | zero => exact .pure none
  | succ steps inductionHypothesis =>
      unfold run
      split
      · exact .pure (some walk)
      · exact .bind (meet_recorded source _ _) fun next => inductionHypothesis next

end Walk

/-- Recording does not change how the dependencies of a project are settled. -/
theorem Project.resolve_recorded {σ : Type} (source : Source (Stateful σ)) (project : Project) :
    Stateful.Follows (project.resolve source.recorded) (project.resolve source) := by
  refine .bind (Walk.run_recorded source _ _) fun finish => ?_
  cases finish with
  | none => exact .throw _
  | some walk => exact .ofExcept _

/-- What is told in a run that succeeds is what the recorded source notes. -/
theorem Project.resolve_told {σ : Type} {source : Source (Stateful σ)} {project : Project}
    {manifest : Manifest} {before after : σ}
    (resolved : project.resolve source before = .ok (manifest, after)) :
    project.resolve source.recorded ([], before) =
      .ok (manifest, (project.told source before, after)) := by
  have same := project.resolve_recorded source [] before
  rw [resolved, Result.map_eq_ok_iff] at same
  obtain ⟨⟨other, told, memory⟩, recorded, equal⟩ := same
  obtain ⟨rfl, rfl⟩ := Prod.mk.inj equal
  rw [Project.told, recorded]

end PackageResolution
