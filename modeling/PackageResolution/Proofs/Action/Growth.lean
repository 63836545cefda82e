import PackageResolution.Proofs.Action.Directories
import PackageResolution.Proofs.FileTree.Growth

/-!
# Actions that only add

Creating directories, with or without those above them, adds to the files and takes nothing away.
Something temporary is created under a name that was free.
-/

namespace PackageResolution

/-! ## Worlds with more files -/

namespace World

/-- That the files of a world are those of a file system, in which the working directory is, and
that temporary names are made of letters and digits. -/
structure IsSound (world : World) : Prop where
  isClosed : world.tree.IsClosed
  isDirectory : world.tree.get? world.current = some .directory
  isAlphanumeric : ∀ count, ∀ letter ∈ (world.letters count).toList, letter.isAlphanum = true

theorem IsSound.isOpen {world : World} (sound : world.IsSound) :
    world.tree.IsOpen world.current :=
  sound.isClosed.isOpen sound.isDirectory

/-- That a world has the files of an earlier one and perhaps others. -/
structure Builds (earlier later : World) : Prop where
  grows : FileTree.Grows earlier.tree later.tree
  current_eq : later.current = earlier.current
  letters_eq : later.letters = earlier.letters

namespace Builds

theorem refl {world : World} (sound : world.IsSound) : Builds world world :=
  ⟨.refl sound.isClosed, rfl, rfl⟩

theorem trans {first second third : World} (earlier : Builds first second)
    (later : Builds second third) : Builds first third :=
  ⟨earlier.grows.trans later.grows, later.current_eq.trans earlier.current_eq,
    later.letters_eq.trans earlier.letters_eq⟩

variable {earlier later : World}

theorem isSound (builds : Builds earlier later) (sound : earlier.IsSound) : later.IsSound where
  isClosed := builds.grows.isClosed
  isDirectory := by
    rw [builds.current_eq]
    exact builds.grows.kept sound.isDirectory
  isAlphanumeric := by
    rw [builds.letters_eq]
    exact sound.isAlphanumeric

theorem approaches (builds : Builds earlier later) {path : Path} {above : Location} {name : String}
    (approaches : earlier.tree.Approaches earlier.current path above name) :
    later.tree.Approaches later.current path above name := by
  rw [builds.current_eq]
  exact builds.grows.approaches approaches

end Builds

/-- That something is said of sound worlds only, and that more files do not spoil it. -/
structure IsLasting (fact : World → Prop) : Prop where
  isSound : ∀ {world : World}, fact world → world.IsSound
  of_builds : ∀ {world later : World}, fact world → world.Builds later → fact later

theorem IsSound.isLasting {start : World} (sound : start.IsSound) : IsLasting start.Builds :=
  ⟨fun builds => builds.isSound sound, Builds.trans⟩

variable {world : World}

theorem builds_change (sound : world.IsSound)
    {operation : FileTree → Location → Except OsError FileTree}
    (grows : ∀ after, operation world.tree world.current = .ok after →
      FileTree.Grows world.tree after) : world.Builds (world.change operation).2 := by
  unfold change
  split
  · rename_i after done
    exact ⟨grows after done, rfl, rfl⟩
  · exact .refl sound

end World

/-- That a request takes nothing away from the files. -/
def Request.IsAdditive : Request → Prop
  | .write _ _ => False
  | .rename _ _ => False
  | .removeFile _ => False
  | .removeTree _ => False
  | _ => True

theorem World.builds_answer {world : World} (sound : world.IsSound) {request : Request}
    (additive : request.IsAdditive) : world.Builds (world.answer request).2 := by
  cases request with
  | createDirectory path =>
      refine builds_change sound fun after done => ?_
      obtain ⟨_, -, -, grows⟩ :=
        FileTree.exists_of_createDirectory sound.isClosed sound.isOpen done
      exact grows
  | createFile path =>
      refine builds_change sound fun after done => ?_
      obtain ⟨_, -, -, grows⟩ := FileTree.exists_of_createFile sound.isClosed sound.isOpen done
      exact grows
  | write path contents => exact additive.elim
  | rename source target => exact additive.elim
  | removeFile path => exact additive.elim
  | removeTree path => exact additive.elim
  | _ => exact ⟨.refl sound.isClosed, rfl, rfl⟩

/-! ## Directories -/

namespace Action

variable {α β : Type}

/-- That an action takes nothing away from the files. -/
def IsAdditive (action : Action α) : Prop :=
  ∀ world : World, world.IsSound → world.Builds (action.run world).2

theorem isAdditive_pure (value : α) : (pure value : Action α).IsAdditive :=
  fun _ sound => .refl sound

theorem isAdditive_request {request : Request} (additive : request.IsAdditive) :
    (Action.request request).IsAdditive :=
  fun _ sound => World.builds_answer sound additive

theorem IsAdditive.bind {action : Action α} {next : α → Action β} (first : action.IsAdditive)
    (second : ∀ value, (next value).IsAdditive) : (action >>= next).IsAdditive := by
  intro world sound
  have builds := first world sound
  rw [run_bind]
  exact builds.trans (second _ _ (builds.isSound sound))

theorem isAdditive_leadsToDirectory (path : Path) : (leadsToDirectory path).IsAdditive := by
  apply (isAdditive_request (by trivial)).bind
  rintro (refusal | answer)
  · exact isAdditive_pure _
  · exact isAdditive_pure _

theorem isAdditive_createOne (path : Path) : (createOne path).IsAdditive := by
  apply (isAdditive_request (by trivial)).bind
  rintro (refusal | ⟨⟩)
  · exact (isAdditive_leadsToDirectory path).bind fun _ => isAdditive_pure _
  · exact isAdditive_pure _

theorem isAdditive_createChain (paths : List Path) : (createChain paths).IsAdditive := by
  induction paths with
  | nil => exact isAdditive_pure _
  | cons path above inductionHypothesis =>
      rw [createChain]
      split
      · exact isAdditive_pure _
      apply (isAdditive_createOne path).bind
      intro first
      split
      · apply inductionHypothesis.bind
        rintro (refusal | ⟨⟩)
        · exact isAdditive_pure _
        · exact isAdditive_createOne path
      · exact isAdditive_pure _

theorem isAdditive_createDirectories (path : Path) : (createDirectories path).IsAdditive :=
  isAdditive_createChain _

/-- A directory that is there is not created again. -/
theorem run_createDirectories_of_isDirectory {world : World} {path : Path}
    (found : world.tree.isDirectory world.current path = .ok true) :
    (createDirectories path).run world = (.ok (), world) := by
  have occupied : ∀ place, world.tree.find false world.current path ≠ .ok (.vacant place) := by
    intro place vacant
    have followed : world.tree.find true world.current path = .ok (.vacant place) := by
      rw [FileTree.find_eq_walk (FileTree.isAccepted_of_find vacant)]
      exact (FileTree.leads_of_find vacant).walk_of_vacant rfl
    rw [FileTree.isDirectory, FileTree.findNode, followed] at found
    cases found
  have once : (createOne path).run world = (.ok (), world) := by
    rw [run_createOne]
    simp only [FileTree.createDirectory]
    cases searched : world.tree.find false world.current path with
    | ok destination =>
        cases destination with
        | vacant place => exact absurd searched (occupied place)
        | occupied place node => simp [found]
    | error refusal => simp [found]
  rw [createDirectories]
  by_cases filled : path.text = ""
  · rw [createChain, if_pos filled]
    rfl
  · rw [run_createChain_cons filled, once]

end Action

/-! ## Attempts -/

namespace Attempt

variable {α β γ : Type} {before failed : World → Prop} {after : α → World → Prop}

/-- That an attempt has succeeded, in a world of a kind that its value determines, or failed in a
world of another kind. -/
inductive Ends (after : α → World → Prop) (failed : World → Prop) : Result α × World → Prop
  | ok {value : α} {world : World} (holds : after value world) : Ends after failed (.ok value, world)
  | error {failure : Error} {world : World} (holds : failed world) :
      Ends after failed (.error failure, world)

/-- That an attempt in a world of one kind ends in a world of a kind that its value determines, or
fails in a world of a third kind. -/
def Ensures (before : World → Prop) (attempt : Attempt α) (after : α → World → Prop)
    (failed : World → Prop) : Prop :=
  ∀ world, before world → Ends after failed (attempt.runIn world)

theorem Ensures.pure {value : α} (holds : ∀ world, before world → after value world) :
    Ensures before (Pure.pure value : Attempt α) after failed :=
  fun world held => .ok (holds world held)

theorem Ensures.throw {failure : Error} (fails : ∀ world, before world → failed world) :
    Ensures before (MonadExcept.throw failure : Attempt α) after failed :=
  fun world held => .error (fails world held)

theorem Ensures.ofResult {result : Result α} (fails : ∀ world, before world → failed world)
    (holds : ∀ value, result = .ok value → ∀ world, before world → after value world) :
    Ensures before (Attempt.ofResult result) after failed := by
  intro world held
  rw [runIn_ofResult]
  cases result with
  | error failure => exact .error (fails world held)
  | ok value => exact .ok (holds value rfl world held)

theorem Ensures.bind (after : α → World → Prop) {attempt : Attempt α} {next : α → Attempt β}
    {last : β → World → Prop} (first : Ensures before attempt after failed)
    (second : ∀ value, Ensures (after value) (next value) last failed) :
    Ensures before (attempt >>= next) last failed := by
  intro world held
  have outcome := first world held
  rw [runIn_bind]
  generalize attempt.runIn world = ran at outcome ⊢
  cases outcome with
  | error fails => exact .error fails
  | ok holds => exact second _ _ holds

/-- An attempt goes on with a result that is known. -/
theorem Ensures.ofResult_bind {result : Result α} {next : α → Attempt β} {last : β → World → Prop}
    (fails : ∀ world, before world → failed world)
    (second : ∀ value, result = .ok value → Ensures before (next value) last failed) :
    Ensures before (Attempt.ofResult result >>= next) last failed := by
  intro world held
  rw [runIn_bind, runIn_ofResult]
  cases result with
  | error failure => exact .error (fails world held)
  | ok value => exact second value rfl world held

/-- An attempt goes on in the world after an action. -/
theorem Ensures.lift_bind {action : Action α} {next : α → Attempt β} {last : β → World → Prop}
    (second : ∀ world, before world →
      Ensures (· = (action.run world).2) (next (action.run world).1) last failed) :
    Ensures before (liftM action >>= next) last failed := by
  intro world held
  rw [runIn_bind, runIn_lift]
  exact second world held _ rfl

/-! The same in one world. -/

section

variable {world : World}

theorem Ensures.pure_at {value : α} (holds : after value world) :
    Ensures (· = world) (Pure.pure value : Attempt α) after failed := by
  rintro _ rfl
  exact .ok holds

theorem Ensures.throw_at {failure : Error} (fails : failed world) :
    Ensures (· = world) (MonadExcept.throw failure : Attempt α) after failed := by
  rintro _ rfl
  exact .error fails

theorem Ensures.lift_bind_at {action : Action α} {next : α → Attempt β} {last : β → World → Prop}
    (second : Ensures (· = (action.run world).2) (next (action.run world).1) last failed) :
    Ensures (· = world) (liftM action >>= next) last failed := by
  refine .lift_bind ?_
  rintro _ rfl
  exact second

end

theorem Ensures.mono {earlier : World → Prop} {attempt : Attempt α}
    (ensures : Ensures before attempt after failed)
    (sooner : ∀ world, earlier world → before world) : Ensures earlier attempt after failed :=
  fun world held => ensures world (sooner world held)

/-- An invariant of each attempt is one of all of them. -/
theorem Ensures.forM {values : List γ} {each : γ → Attempt PUnit}
    (maintains : ∀ value, Ensures before (each value) (fun _ => before) failed) :
    Ensures before (values.forM each) (fun _ => before) failed := by
  induction values with
  | nil => exact .pure fun _ => id
  | cons value values inductionHypothesis =>
      exact .bind _ (maintains value) fun _ => inductionHypothesis

/-- What an action on files maintains is maintained whether it is refused or not. -/
theorem Ensures.files {task : IoTask} {action : Action (Except OsError α)}
    (maintains : ∀ world, before world → before (action.run world).2) :
    Ensures before (Attempt.files task action) (fun _ => before) before := by
  intro world held
  have after := maintains world held
  rw [runIn_files]
  cases (action.run world).1 with
  | error refusal => exact .error after
  | ok value => exact .ok after

/-- Creating directories maintains what more files do not spoil. -/
theorem ensures_createDirectories (task : IoTask) (path : Path) (lasting : World.IsLasting before) :
    Ensures before (createDirectories task path) (fun _ => before) before :=
  .files fun world held =>
    lasting.of_builds held (Action.isAdditive_createDirectories path world (lasting.isSound held))

end Attempt

/-! ## Temporary names -/

/-- A path taken from the root, if it is relative from the working directory. -/
def World.absolute (world : World) (path : Path) : Path :=
  if path.isAbsolute then path else (FileTree.pathOf world.current).join path

namespace Action

open FileTree (Approaches)

variable {world : World} {stem : String} {create : Path → Action (Except OsError Unit)}
  {operation : Path → FileTree → Location → Except OsError FileTree}

/-- How the search for a name that nobody has ends: something is created under such a name, or
nothing at all. -/
inductive Takes (operation : Path → FileTree → Location → Except OsError FileTree) (base : Path)
    (stem : String) (world : World) : Except IoCause Path × World → Prop
  | taken {used : Nat} {tree : FileTree}
      (done : operation (base.join ⟨stem ++ world.letters used⟩) world.tree world.current =
        .ok tree) :
      Takes operation base stem world (.ok (base.join ⟨stem ++ world.letters used⟩),
        { world with tree, lettersUsed := used + 1 })
  | failed {cause : IoCause} {used : Nat} :
      Takes operation base stem world (.error cause, { world with lettersUsed := used })

theorem takes_createUnderFreshName
    (runs : ∀ path world, (create path).run world = world.change (operation path))
    (directory : Path) (world : World) (count : Nat) :
    Takes operation directory stem world
      ((createUnderFreshName directory stem create count).run world) := by
  induction count generalizing world with
  | zero => exact .failed
  | succ count inductionHypothesis =>
      have lettered : (request .randomLetters).run world =
          (world.letters world.lettersUsed,
            { world with lettersUsed := world.lettersUsed + 1 }) := rfl
      rw [createUnderFreshName, run_bind, lettered]
      simp only [run_bind, runs, World.change]
      cases done : operation (directory.join ⟨stem ++ world.letters world.lettersUsed⟩) world.tree
          world.current with
      | ok tree => exact .taken done
      | error refusal =>
          cases refusal with
          | «exists» =>
              have later := inductionHypothesis { world with lettersUsed := world.lettersUsed + 1 }
              generalize (createUnderFreshName directory stem create count).run
                { world with lettersUsed := world.lettersUsed + 1 } = result at later
              cases later with
              | taken done => exact .taken done
              | failed => exact .failed
          | _ => exact .failed

theorem takes_createTemporary
    (runs : ∀ path world, (create path).run world = world.change (operation path))
    (directory : Path) (world : World) :
    Takes operation (world.absolute directory) stem world
      ((createTemporary directory stem create).run world) := by
  have located : (request .currentDirectory).run world =
      (.ok (FileTree.pathOf world.current), world) := rfl
  unfold createTemporary World.absolute
  split
  · exact takes_createUnderFreshName runs directory world nameAttempts
  · rw [run_bind, located]
    exact takes_createUnderFreshName runs _ world nameAttempts

end Action

/-- That a path leads to a name in a directory which nothing there has, a name without an `@`. -/
structure World.IsFresh (world : World) (path : Path) (above : Location) (name : String) : Prop where
  approaches : world.tree.Approaches world.current path above name
  vacant : world.tree.get? (above ++ [name]) = none
  isName : Path.IsName name
  slashless : '/' ∉ name.toList
  unmarked : '@' ∉ name.toList

theorem World.IsSound.exists_isFresh {world : World} (sound : world.IsSound) {base : Path}
    {place : Location} {stem : String} {used : Nat}
    (named : ∀ letters, Path.IsName (stem ++ letters))
    (plain : '/' ∉ stem.toList ∧ '@' ∉ stem.toList)
    (found : world.tree.find false world.current (base.join ⟨stem ++ world.letters used⟩) =
      .ok (.vacant place)) :
    ∃ above, world.IsFresh (base.join ⟨stem ++ world.letters used⟩) above
        (stem ++ world.letters used) ∧ place = above ++ [stem ++ world.letters used] := by
  have unlettered {mark : Char} (other : mark.isAlphanum = false) (plain : mark ∉ stem.toList) :
      mark ∉ (stem ++ world.letters used).toList := by
    rw [String.toList_append, List.mem_append, not_or]
    refine ⟨plain, fun member => ?_⟩
    rw [sound.isAlphanumeric used mark member] at other
    exact nomatch other
  obtain ⟨above, approaches⟩ :=
    FileTree.exists_approaches (named _) (unlettered (by decide) plain.1) found
  rw [approaches.find_unfollowed, FileTree.lookAt] at found
  cases missing : world.tree.get? (above ++ [stem ++ world.letters used]) with
  | some node =>
      rw [missing] at found
      cases found
  | none =>
      rw [missing] at found
      obtain rfl := FileTree.Destination.vacant.inj (Except.ok.inj found)
      exact ⟨above, ⟨approaches, missing, named _, unlettered (by decide) plain.1,
        unlettered (by decide) plain.2⟩, rfl⟩

namespace Action

variable {world : World} {directory : Path}

/-- A temporary file is created under a fresh name, or nothing is. -/
theorem createTemporaryFile_cases (sound : world.IsSound) (directory : Path) :
    (∃ cause used, (createTemporaryFile directory).run world =
        (.error cause, { world with lettersUsed := used })) ∨
      ∃ path above name used, world.IsFresh path above name ∧
        (createTemporaryFile directory).run world = (.ok path, { world with
          tree := world.tree.insert (above ++ [name]) (.file .empty), lettersUsed := used }) := by
  have takes : Takes (fun path tree current => tree.createFile current path)
      (world.absolute directory) ".tmp" world ((createTemporaryFile directory).run world) :=
    takes_createTemporary (fun _ _ => rfl) directory world
  generalize (createTemporaryFile directory).run world = result at takes
  cases takes with
  | failed => exact .inl ⟨_, _, rfl⟩
  | @taken used tree done =>
      obtain ⟨place, found, rfl, -⟩ :=
        FileTree.exists_of_createFile sound.isClosed sound.isOpen done
      have named (letters : String) : Path.IsName (".tmp" ++ letters) := by
        have letter : 't' ∈ (".tmp" ++ letters).toList := by simp
        exact Path.isName_of_mem letter (by decide)
      obtain ⟨above, fresh, rfl⟩ := sound.exists_isFresh named (by decide) found
      exact .inr ⟨_, above, _, _, fresh, rfl⟩

/-- A temporary directory is created under a fresh name, or nothing is. -/
theorem createTemporaryDirectory_cases (sound : world.IsSound) (directory : Path) :
    (∃ cause used, (createTemporaryDirectory directory "package-").run world =
        (.error cause, { world with lettersUsed := used })) ∨
      ∃ path above name used, path = (world.absolute directory).join ⟨name⟩ ∧
        world.IsFresh path above name ∧
        (createTemporaryDirectory directory "package-").run world = (.ok path, { world with
          tree := world.tree.insert (above ++ [name]) .directory, lettersUsed := used }) := by
  have takes : Takes (fun path tree current => tree.createDirectory current path)
      (world.absolute directory) "package-" world
        ((createTemporaryDirectory directory "package-").run world) :=
    takes_createTemporary (fun _ _ => rfl) directory world
  generalize (createTemporaryDirectory directory "package-").run world = result at takes
  cases takes with
  | failed => exact .inl ⟨_, _, rfl⟩
  | @taken used tree done =>
      obtain ⟨place, found, rfl, -⟩ :=
        FileTree.exists_of_createDirectory sound.isClosed sound.isOpen done
      have named (letters : String) : Path.IsName ("package-" ++ letters) := by
        have letter : 'p' ∈ ("package-" ++ letters).toList := by simp
        exact Path.isName_of_mem letter (by decide)
      obtain ⟨above, fresh, rfl⟩ := sound.exists_isFresh named (by decide) found
      exact .inr ⟨_, above, _, _, rfl, fresh, rfl⟩

end Action

end PackageResolution
