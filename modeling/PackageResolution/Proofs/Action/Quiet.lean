import PackageResolution.Action.Files
import PackageResolution.Proofs.Resolver.Run

/-!
# Work that asks no server

Files are read and changed without the help of a server, so an action on files leaves the
list of the addresses that were asked for as it is.  Where it fails, the failure is about
files and never about an asset of a package.
-/

namespace PackageResolution

/-- That a failure is about an asset of a package. -/
def Error.IsAboutAsset : Error → Prop
  | .assetNotFound _ => True
  | .isADirectory _ => True
  | .notADirectory _ => True
  | _ => False

/-- That a request is answered without a server. -/
def Request.IsLocal : Request → Prop
  | .fetch _ => False
  | _ => True

theorem World.fetched_answer (world : World) {request : Request} (isLocal : request.IsLocal) :
    (world.answer request).2.fetched = world.fetched := by
  have changed (operation : FileTree → Location → Except OsError FileTree) :
      (world.change operation).2.fetched = world.fetched := by
    unfold change
    split <;> rfl
  cases request with
  | fetch url => exact isLocal.elim
  | createDirectory path => exact changed _
  | createFile path => exact changed _
  | write path contents => exact changed _
  | rename source target => exact changed _
  | removeFile path => exact changed _
  | removeTree path => exact changed _
  | _ => rfl

/-! ## Actions -/

namespace Action

variable {α β : Type}

/-- That an action asks no server. -/
def IsQuiet (action : Action α) : Prop :=
  ∀ world, (action.run world).2.fetched = world.fetched

theorem isQuiet_pure (value : α) : (pure value : Action α).IsQuiet :=
  fun _ => rfl

theorem isQuiet_request {request : Request} (isLocal : request.IsLocal) :
    (Action.request request).IsQuiet :=
  fun world => world.fetched_answer isLocal

theorem IsQuiet.bind {action : Action α} {next : α → Action β} (first : action.IsQuiet)
    (second : ∀ value, (next value).IsQuiet) : (action >>= next).IsQuiet := by
  intro world
  rw [run_bind, second, first]

theorem isQuiet_request_bind {request : Request} {next : request.Answer → Action β}
    (isLocal : request.IsLocal) (second : ∀ answer, (next answer).IsQuiet) :
    (Action.request request >>= next).IsQuiet :=
  (isQuiet_request isLocal).bind second

theorem isQuiet_leadsToDirectory (path : Path) : (leadsToDirectory path).IsQuiet := by
  apply isQuiet_request_bind (by trivial)
  rintro (refusal | answer)
  · exact isQuiet_pure _
  · exact isQuiet_pure _

theorem isQuiet_createOne (path : Path) : (createOne path).IsQuiet := by
  apply isQuiet_request_bind (by trivial)
  rintro (refusal | ⟨⟩)
  · exact (isQuiet_leadsToDirectory path).bind fun _ => isQuiet_pure _
  · exact isQuiet_pure _

theorem isQuiet_createChain (paths : List Path) : (createChain paths).IsQuiet := by
  induction paths with
  | nil => exact isQuiet_pure _
  | cons path above inductionHypothesis =>
      rw [createChain]
      split
      · exact isQuiet_pure _
      apply (isQuiet_createOne path).bind
      intro first
      split
      · apply inductionHypothesis.bind
        rintro (refusal | ⟨⟩)
        · exact isQuiet_pure _
        · exact isQuiet_createOne path
      · exact isQuiet_pure _

theorem isQuiet_createDirectories (path : Path) : (createDirectories path).IsQuiet :=
  isQuiet_createChain _

section Temporary

variable {create : Path → Action (Except OsError Unit)}

theorem isQuiet_createUnderFreshName (each : ∀ path, (create path).IsQuiet) (directory : Path)
    (stem : String) (count : Nat) :
    (createUnderFreshName directory stem create count).IsQuiet := by
  induction count with
  | zero => exact isQuiet_pure _
  | succ count inductionHypothesis =>
      apply isQuiet_request_bind (by trivial)
      intro letters
      apply (each _).bind
      rintro (refusal | ⟨⟩)
      · cases refusal with
        | «exists» => exact inductionHypothesis
        | _ => exact isQuiet_pure _
      · exact isQuiet_pure _

theorem isQuiet_createTemporary (each : ∀ path, (create path).IsQuiet) (directory : Path)
    (stem : String) : (createTemporary directory stem create).IsQuiet := by
  unfold createTemporary
  split
  · exact isQuiet_createUnderFreshName each _ _ _
  · apply isQuiet_request_bind (by trivial)
    rintro (refusal | current)
    · exact isQuiet_pure _
    · exact isQuiet_createUnderFreshName each _ _ _

end Temporary

theorem isQuiet_createTemporaryFile (directory : Path) :
    (createTemporaryFile directory).IsQuiet :=
  isQuiet_createTemporary (fun _ => isQuiet_request (by trivial)) _ _

theorem isQuiet_createTemporaryDirectory (directory : Path) (stem : String) :
    (createTemporaryDirectory directory stem).IsQuiet :=
  isQuiet_createTemporary (fun _ => isQuiet_request (by trivial)) _ _

end Action

/-! ## Attempts -/

namespace Attempt

variable {α β : Type} {failing : Error → Prop}

/-- That an attempt asks no server, and fails only as said. -/
def IsQuiet (failing : Error → Prop) (attempt : Attempt α) : Prop :=
  ∀ world, (attempt.runIn world).2.fetched = world.fetched ∧
    ∀ failure, (attempt.runIn world).1 = .error failure → failing failure

theorem isQuiet_pure (value : α) : IsQuiet failing (pure value : Attempt α) :=
  fun _ => ⟨rfl, fun _ other => nomatch other⟩

theorem isQuiet_throw {failure : Error} (fails : failing failure) :
    IsQuiet failing (throw failure : Attempt α) := by
  intro world
  refine ⟨rfl, ?_⟩
  rintro _ ⟨⟩
  exact fails

theorem isQuiet_ofResult {result : Result α}
    (fails : ∀ failure, result = .error failure → failing failure) :
    IsQuiet failing (ofResult result) :=
  fun _ => ⟨rfl, fails⟩

theorem isQuiet_lift {action : Action α} (quiet : action.IsQuiet) :
    IsQuiet failing (liftM action : Attempt α) := by
  intro world
  rw [runIn_lift]
  exact ⟨quiet world, fun _ other => nomatch other⟩

theorem IsQuiet.bind {attempt : Attempt α} {next : α → Attempt β}
    (first : IsQuiet failing attempt) (second : ∀ value, IsQuiet failing (next value)) :
    IsQuiet failing (attempt >>= next) := by
  intro world
  obtain ⟨unasked, fails⟩ := first world
  rw [runIn_bind]
  rcases ran : attempt.runIn world with ⟨result, after⟩
  rw [ran] at unasked fails
  cases result with
  | error failure =>
      refine ⟨unasked, ?_⟩
      rintro _ ⟨⟩
      exact fails failure rfl
  | ok value =>
      obtain ⟨still, failsLater⟩ := second value after
      exact ⟨still.trans unasked, failsLater⟩

theorem isQuiet_request_bind {request : Request} {next : request.Answer → Attempt β}
    (isLocal : request.IsLocal) (second : ∀ answer, IsQuiet failing (next answer)) :
    IsQuiet failing (liftM (Action.request request) >>= next) :=
  (isQuiet_lift (Action.isQuiet_request isLocal)).bind second

/-- What files refuse is a failure of the task. -/
theorem isQuiet_files {task : IoTask} {action : Action (Except OsError α)}
    (quiet : action.IsQuiet) (fails : ∀ cause, failing (.io task cause)) :
    IsQuiet failing (files task action) := by
  intro world
  have ran : (files task action).runIn world =
      ((action.run world).1.mapError fun refusal => .io task (.refused refusal),
        (action.run world).2) :=
    Action.run_bind action _ world
  rw [ran]
  refine ⟨quiet world, ?_⟩
  intro failure failed
  cases answered : (action.run world).1 with
  | error refusal =>
      rw [answered] at failed
      obtain rfl := Except.error.inj failed
      exact fails _
  | ok value =>
      rw [answered] at failed
      exact nomatch failed

theorem isQuiet_forM {γ : Type} {values : List γ} {each : γ → Attempt PUnit}
    (quiet : ∀ value, IsQuiet failing (each value)) : IsQuiet failing (values.forM each) := by
  induction values with
  | nil => exact isQuiet_pure _
  | cons value values inductionHypothesis =>
      exact (quiet value).bind fun _ => inductionHypothesis

theorem isQuiet_createDirectories {task : IoTask} (path : Path)
    (fails : ∀ cause, failing (.io task cause)) :
    IsQuiet failing (createDirectories task path) :=
  isQuiet_files (Action.isQuiet_createDirectories path) fails

theorem isQuiet_writeThrough {directory path : Path} {contents : ByteArray}
    {create write move : IoTask} (fails : ∀ task cause, failing (.io task cause)) :
    IsQuiet failing (writeThrough directory path contents create write move) := by
  have removed (temporary : Path) : IsQuiet failing
      (liftM (Action.request (.removeFile temporary)) : Attempt (Except OsError Unit)) :=
    isQuiet_lift (Action.isQuiet_request (by trivial))
  apply (isQuiet_lift (Action.isQuiet_createTemporaryFile directory)).bind
  rintro (cause | temporary)
  · exact isQuiet_throw (fails _ _)
  apply isQuiet_request_bind (by trivial)
  rintro (refusal | ⟨⟩)
  · exact (removed temporary).bind fun _ => isQuiet_throw (fails _ _)
  apply isQuiet_request_bind (by trivial)
  rintro (refusal | ⟨⟩)
  · exact (removed temporary).bind fun _ => isQuiet_throw (fails _ _)
  · exact isQuiet_pure _

end Attempt

end PackageResolution
