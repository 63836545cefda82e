import PackageResolution.Proofs.Path.Normalization
import PackageResolution.Proofs.Uri.File

/-!
# Files in the root directory

A root directory is compared as it is written, and not as the directory that it means where
the program runs.  So an absolute one keeps every access in it, a relative one with a name
left after normalization allows no file at all, and a relative one with nothing left, such
as `.`, allows every file.
-/

namespace PackageResolution

/-! ## What passes the check -/

namespace Policy

variable {policy : Policy} {directory path : Path} {access : Access} {uri : Uri}

/-- An access to a local file is allowed exactly if the patterns allow it and the file is in
the root directory as it is written. -/
theorem check_withRootDirectory_iff (leads : uri.LeadsTo path) :
    (policy.withRootDirectory directory).check access uri = .ok () ↔
      allows (policy.patternsFor access) uri = true ∧ path.LiesWithin directory := by
  have same : (policy.withRootDirectory directory).patternsFor access =
      policy.patternsFor access := by
    cases access with
    | module => rfl
    | resource => rfl
  rw [check, same]
  split
  · rename_i allowed
    rw [checkRootDirectory, withRootDirectory]
    simp only [leads.confinedPath?]
    rw [Path.LiesWithin, ← List.isPrefixOf_iff_prefix]
    split
    · rename_i inside
      simp [allowed, inside]
    · rename_i outside
      simp [outside]
  · rename_i refused
    simp [refused]

end Policy

namespace Path

variable {directory path working : Path}

/-- An absolute path lies only in absolute directories and in those without components. -/
theorem LiesWithin.isAbsolute (inside : path.LiesWithin directory)
    (filled : directory.normalized ≠ []) (absolute : path.isAbsolute = true) :
    directory.isAbsolute = true := by
  cases first : directory.normalized with
  | nil => exact absurd first filled
  | cons component rest =>
      rw [LiesWithin, first] at inside
      rcases inside with ⟨others, whole⟩
      have head := head?_normalized absolute
      rw [← whole] at head
      obtain rfl : component = .root := Option.some.inj head
      rw [← root_mem_normalized_iff, first]
      exact List.mem_cons_self

/-- An absolute directory means the same wherever the program runs. -/
theorem join_of_isAbsolute (absolute : directory.isAbsolute = true) :
    working.join directory = directory := by
  rw [join, absolute, Bool.true_or, if_pos rfl]

/-- In a directory without components lies everything. -/
theorem liesWithin_of_eq_nil (empty : directory.normalized = []) : path.LiesWithin directory := by
  rw [LiesWithin, empty]
  exact List.nil_prefix

/-- The root lies outside of what a directory without components means far below it. -/
theorem exists_not_liesWithin_join (empty : directory.normalized = []) :
    ∃ working : Path, working.isAbsolute = true ∧
      ¬ LiesWithin ⟨"/"⟩ (working.join directory) := by
  have relative : directory.isAbsolute = false := by
    rw [← Bool.not_eq_true, ← root_mem_normalized_iff, empty]
    exact List.not_mem_nil
  refine ⟨descent (directory.steps.length + 1), isAbsolute_descent _, ?_⟩
  intro inside
  have short := inside.length_le
  have long := length_le_length_foldl_step (descent (directory.steps.length + 1)).reached
    directory.steps
  rw [← reached_join relative, reached_descent, List.length_append, List.length_replicate,
    List.length_singleton] at long
  rw [normalized_eq, normalized_eq, List.length_reverse, List.length_reverse] at short
  have root : reached ⟨"/"⟩ = [.root] := by decide
  rw [root, List.length_singleton] at short
  omega

end Path

/-- A relative root directory that still has a name allows no access to a file. -/
theorem Policy.check_ne_ok_of_relative {policy : Policy} {directory path : Path}
    {access : Access} {uri : Uri} (relative : directory.isAbsolute = false)
    (filled : directory.normalized ≠ []) (leads : uri.LeadsTo path) :
    (policy.withRootDirectory directory).check access uri ≠ .ok () := by
  intro passes
  have inside := ((check_withRootDirectory_iff leads).mp passes).2
  rw [inside.isAbsolute filled leads.isAbsolute] at relative
  exact nomatch relative

/-! ## The root directory where the program runs -/

/-- That a root directory keeps what a policy allows in the directory that it means, wherever
the program runs. -/
def Path.ConfinesAccess (directory : Path) : Prop :=
  ∀ (policy : Policy) (working : Path) (access : Access) (uri : Uri) (path : Path),
    working.isAbsolute = true →
    (Security.standard (policy.withRootDirectory directory)).checkAccess access uri = .ok () →
    uri.LeadsTo path → path.LiesWithin (working.join directory)

namespace Path

/-- The identifier of a local file. -/
def fileUri (path : String) : Uri :=
  { scheme := some "file", authority := some "", path, query := none, fragment := none }

theorem leadsTo_fileUri_root : (fileUri "/").LeadsTo ⟨"/"⟩ := by
  apply Uri.LeadsTo.file
  · decide +kernel
  · decide +kernel

theorem allows_fileUri_root :
    Policy.allows (Policy.default.patternsFor .resource) (fileUri "/") = true := by
  decide +kernel

/-- Exactly the root directories that still have a component after normalization keep every
access in them. -/
theorem confinesAccess_iff {directory : Path} :
    directory.ConfinesAccess ↔ directory.normalized ≠ [] := by
  constructor
  · intro confines empty
    rcases exists_not_liesWithin_join empty with ⟨working, absolute, outside⟩
    apply outside
    apply confines .default working .resource (fileUri "/") ⟨"/"⟩ absolute _
      leadsTo_fileUri_root
    rw [Security.checkAccess_standard, Policy.check_withRootDirectory_iff leadsTo_fileUri_root]
    exact ⟨allows_fileUri_root, liesWithin_of_eq_nil empty⟩
  · intro filled policy working access uri path _ passes leads
    rw [Security.checkAccess_standard, Policy.check_withRootDirectory_iff leads] at passes
    rw [join_of_isAbsolute (passes.2.isAbsolute filled leads.isAbsolute)]
    exact passes.2

/-- An absolute root directory allows the files in it and nothing outside. -/
theorem project_confinesAccess :
    ConfinesAccess ⟨"/work/project"⟩ ∧
      (Security.standard (Policy.default.withRootDirectory ⟨"/work/project"⟩)).checkAccess
        .resource (fileUri "/work/project/bird%2Etxt") = .ok () ∧
      LiesWithin ⟨"/work/project/bird.txt"⟩ (join ⟨"/work"⟩ ⟨"/work/project"⟩) := by
  have confines : ConfinesAccess ⟨"/work/project"⟩ := confinesAccess_iff.mpr (by decide)
  have passes : (Security.standard (Policy.default.withRootDirectory ⟨"/work/project"⟩)).checkAccess
      .resource (fileUri "/work/project/bird%2Etxt") = .ok () := by decide +kernel
  have leads : (fileUri "/work/project/bird%2Etxt").LeadsTo ⟨"/work/project/bird.txt"⟩ := by
    apply Uri.LeadsTo.file
    · decide +kernel
    · decide +kernel
  exact ⟨confines, passes, confines .default ⟨"/work"⟩ .resource _ _ (by decide) passes leads⟩

/-- The directory where the program runs, written as `.`, does not keep out a file beside
it. -/
theorem current_directory_allows_secret :
    (Security.standard (Policy.default.withRootDirectory ⟨"."⟩)).checkAccess .resource
        (fileUri "/secret.txt") = .ok () ∧
      (fileUri "/secret.txt").LeadsTo ⟨"/secret.txt"⟩ ∧
      ¬ LiesWithin ⟨"/secret.txt"⟩ (join ⟨"/work"⟩ ⟨"."⟩) := by
  refine ⟨?_, ?_, ?_⟩
  · decide +kernel
  · apply Uri.LeadsTo.file
    · decide +kernel
    · decide +kernel
  · decide +kernel

end Path

end PackageResolution
