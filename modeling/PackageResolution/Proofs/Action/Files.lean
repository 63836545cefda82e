import PackageResolution.Action.Files
import PackageResolution.Proofs.Action.Asks

/-!
# Files and directories away from a place

Creating a directory creates at most the directories above it, and something temporary is
created in the directory that it is meant for.  So what lies elsewhere is left alone.
-/

namespace PackageResolution

open FileTree (Apart)

variable {top names : Location} {path : Path}

namespace Action

theorem asks_leadsToDirectory (path : Path) :
    (leadsToDirectory path).Asks (Request.Spares top) fun _ => True := by
  apply asks_request_bind trivial
  rintro (refusal | answer) -
  · exact asks_pure trivial
  · exact asks_pure trivial

/-! ## Directories -/

theorem asks_createOne (written : path.IsAt names) (outside : ¬ top <+: names) :
    (createOne path).Asks (Request.Spares top) fun _ => True := by
  apply asks_request_bind ⟨names, written, outside⟩
  rintro (refusal | ⟨⟩) -
  · apply (asks_leadsToDirectory path).bind
    intro answer _
    exact asks_pure trivial
  · exact asks_pure trivial

theorem asks_createChain {paths : List Path}
    (each : ∀ path ∈ paths, ∃ names, path.IsAt names ∧ ¬ top <+: names) :
    (createChain paths).Asks (Request.Spares top) fun _ => True := by
  induction paths with
  | nil => exact asks_pure trivial
  | cons path above inductionHypothesis =>
      rw [List.forall_mem_cons] at each
      rcases each with ⟨⟨names, written, outside⟩, each⟩
      rw [createChain, if_neg written.text_ne_empty]
      apply (asks_createOne written outside).bind
      intro first _
      split
      · apply (inductionHypothesis each).bind
        intro others _
        split
        · exact asks_pure trivial
        · exact asks_createOne written outside
      · exact asks_pure trivial

/-- A directory outside of a place is created without the place. -/
theorem asks_createDirectories (written : path.IsAt names) (outside : ¬ top <+: names) :
    (createDirectories path).Asks (Request.Spares top) fun _ => True := by
  apply asks_createChain
  intro above member
  rcases List.mem_cons.mp member with rfl | among
  · exact ⟨names, written, outside⟩
  · rcases written.of_mem_ancestors among with ⟨others, there, start⟩
    exact ⟨others, there, fun below => outside (below.trans start)⟩

/-! ## Temporary names -/

variable {directory : Path} {stem : String} {create : Path → Action (Except OsError Unit)}

theorem asks_createUnderFreshName (written : directory.IsAt names)
    (named : ∀ letters, Path.IsName (stem ++ letters)) (plain : '/' ∉ stem.toList)
    (each : ∀ path name, path.IsAt (names ++ [name]) →
      (create path).Asks (Request.Spares top) fun _ => True) (count : Nat) :
    (createUnderFreshName directory stem create count).Asks (Request.Spares top) fun outcome =>
      ∀ path, outcome = .ok path → ∃ name, path.IsAt (names ++ [name]) := by
  induction count with
  | zero =>
      apply asks_pure
      rintro path ⟨⟩
  | succ count inductionHypothesis =>
      apply asks_request_bind trivial
      intro letters slashless
      have joined : '/' ∉ (stem ++ letters).toList := by
        rw [String.toList_append, List.mem_append, not_or]
        exact ⟨plain, slashless⟩
      have there := written.join_name (named letters) joined
      apply (each _ _ there).bind
      rintro (refusal | ⟨⟩) -
      · cases refusal with
        | «exists» => exact inductionHypothesis
        | _ =>
            apply asks_pure
            rintro path ⟨⟩
      · apply asks_pure
        rintro path ⟨⟩
        exact ⟨_, there⟩

theorem asks_createTemporary (written : directory.IsAt names)
    (named : ∀ letters, Path.IsName (stem ++ letters)) (plain : '/' ∉ stem.toList)
    (each : ∀ path name, path.IsAt (names ++ [name]) →
      (create path).Asks (Request.Spares top) fun _ => True) :
    (createTemporary directory stem create).Asks (Request.Spares top) fun outcome =>
      ∀ path, outcome = .ok path → ∃ name, path.IsAt (names ++ [name]) := by
  rw [createTemporary, if_pos written.isAbsolute]
  exact asks_createUnderFreshName written named plain each nameAttempts

theorem asks_createTemporaryDirectory (written : directory.IsAt names)
    (named : ∀ letters, Path.IsName (stem ++ letters)) (plain : '/' ∉ stem.toList)
    (outside : ∀ name, ¬ top <+: names ++ [name]) :
    (createTemporaryDirectory directory stem).Asks (Request.Spares top) fun outcome =>
      ∀ path, outcome = .ok path → ∃ name, path.IsAt (names ++ [name]) := by
  apply asks_createTemporary written named plain
  intro path name there
  have permitted : Request.Spares top (.createDirectory path) := ⟨_, there, outside name⟩
  exact asks_request_only permitted

theorem asks_createTemporaryFile (written : directory.IsAt names)
    (outside : ∀ name, ¬ top <+: names ++ [name]) :
    (createTemporaryFile directory).Asks (Request.Spares top) fun outcome =>
      ∀ path, outcome = .ok path → ∃ name, path.IsAt (names ++ [name]) := by
  have named (letters : String) : Path.IsName (".tmp" ++ letters) := by
    have letter : 't' ∈ (".tmp" ++ letters).toList := by simp
    exact Path.isName_of_mem letter (by decide)
  apply asks_createTemporary written named (by decide)
  intro path name there
  have permitted : Request.Spares top (.createFile path) := ⟨_, there, outside name⟩
  exact asks_request_only permitted

end Action

/-! ## Attempts -/

namespace Attempt

theorem asks_createDirectories {task : IoTask} (written : path.IsAt names)
    (outside : ¬ top <+: names) :
    (createDirectories task path).Asks (Request.Spares top) fun _ => True :=
  asks_files (Action.asks_createDirectories written outside)

/-- A file that is written through a temporary one. -/
theorem asks_writeThrough {directory : Path} {others : Location} {contents : ByteArray}
    {create write move : IoTask} (written : directory.IsAt names) (goal : path.IsAt others)
    (aside : ∀ name, Apart (names ++ [name]) top) (goalAside : Apart others top) :
    (writeThrough directory path contents create write move).Asks (Request.Spares top)
      fun _ => True := by
  have removed (temporary : Path) {name : String} (there : temporary.IsAt (names ++ [name])) :
      Attempt.Asks (Request.Spares top) (fun _ => True)
        (liftM (Action.request (.removeFile temporary)) : Attempt _) :=
    asks_lift (Action.asks_request_only ⟨_, there, aside name⟩)
  apply (asks_lift (Action.asks_createTemporaryFile written fun name => (aside name).2)).bind
  rintro (cause | temporary) place
  · exact asks_throw _
  rcases place temporary rfl with ⟨name, there⟩
  apply (asks_lift (Action.asks_request ⟨_, there, (aside name).2⟩)).bind
  rintro (refusal | ⟨⟩) -
  · exact (removed temporary there).bind fun _ _ => asks_throw _
  apply (asks_lift (Action.asks_request ⟨⟨_, there, aside name⟩, others, goal, goalAside⟩)).bind
  rintro (refusal | ⟨⟩) -
  · exact (removed temporary there).bind fun _ _ => asks_throw _
  · exact asks_pure trivial

end Attempt

end PackageResolution
