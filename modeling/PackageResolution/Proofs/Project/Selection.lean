import PackageResolution.Proofs.Project.Walk
import PackageResolution.Proofs.Version.Order

/-!
# What a resolution has settled

At every point of a walk, each requirement that was raised is still to be met or is met by
what its place is settled to: by a local project, or by a version that is at least the
required one and has the checksum that the requirement is pinned to if it is that version.
Each version that is chosen is a required one, and each project that was visited has its
place.  `Walk.Kept` is this invariant.  A step keeps it, so it holds at the end of a walk,
where nothing is left to be met.
-/

namespace PackageResolution

theorem Path.same_comm (first second : Path) : first.same second = second.same first :=
  BEq.comm

/-! ## What was required -/

namespace Told

/-- The projects other than the root that were visited, latest first: those that were loaded
from a directory in which none was before. -/
def visited (root : Project) : List Told → List Project
  | [] => []
  | .described _ _ :: earlier => visited root earlier
  | .loaded project :: earlier =>
      if ((visited root earlier).map Project.directory ++ [root.directory]).any
          project.directory.same then visited root earlier
      else project :: visited root earlier

/-- What the metadata of a package requires. -/
def listed : Told → List Requirement
  | .described _ description =>
      description.metadata.dependencies.map fun entry => .listed entry.2
  | .loaded _ => []

/-- What the root, the projects that were visited and the packages that were described
require. -/
def requirements (root : Project) (told : List Told) : List Requirement :=
  Requirement.ofProject root ++ (visited root told).flatMap Requirement.ofProject ++
    told.flatMap listed

/-- That a package is required in a run. -/
def Requires (root : Project) (told : List Told) (required : PackageUri) : Prop :=
  ∃ requirement ∈ requirements root told, requirement.Asks required

variable {root : Project} {told : List Told} {requirement : Requirement}

theorem mem_requirements_described {package : PackageUri} {description : DescribedPackage} :
    requirement ∈ requirements root (.described package description :: told) ↔
      requirement ∈ Requirement.ofMetadata description.metadata ∨
        requirement ∈ requirements root told := by
  simp only [requirements, visited, List.flatMap_cons, listed, Requirement.ofMetadata,
    List.mem_append]
  tauto

theorem mem_requirements_known {project : Project}
    (known : ((visited root told).map Project.directory ++ [root.directory]).any
      project.directory.same = true) :
    requirement ∈ requirements root (.loaded project :: told) ↔
      requirement ∈ requirements root told := by
  simp only [requirements, visited, known, if_true, List.flatMap_cons, listed,
    List.nil_append]

theorem mem_requirements_visited {project : Project}
    (new : ((visited root told).map Project.directory ++ [root.directory]).any
      project.directory.same = false) :
    requirement ∈ requirements root (.loaded project :: told) ↔
      requirement ∈ Requirement.ofProject project ∨ requirement ∈ requirements root told := by
  simp only [requirements, visited, new, Bool.false_eq_true, if_false, List.flatMap_cons,
    listed, List.nil_append, List.mem_append]
  tauto

end Told

theorem Requirement.Asks.unique {requirement : Requirement} {first second : PackageUri}
    (asks : requirement.Asks first) (asks' : requirement.Asks second) : first = second := by
  cases requirement with
  | remote package => exact asks.symm.trans asks'
  | listed dependency => exact Except.ok.inj (asks.symm.trans asks')
  | localProject path => exact asks.elim

/-! ## What is settled -/

/-- That a requirement for a package is met by what its place is settled to. -/
def Choice.Meets : Choice → PackageUri → Prop
  | .localProject _ _, _ => True
  | .remote package checksum, required =>
      package.version.atLeast required.version = true ∧
        (package.version = required.version →
          ∀ pin, required.pin = some pin → pin.agrees checksum = true)

namespace Walk

/-- That the place of a required package is settled so that the requirement is met. -/
def Settles (walk : Walk) (required : PackageUri) : Prop :=
  ∃ choice, walk.chosen.lookup required.key = some choice ∧ choice.Meets required

theorem checkPin_eq_ok_iff {required : PackageUri} {computed : Checksum} :
    checkPin required computed = .ok () ↔
      ∀ pin, required.pin = some pin → pin.agrees computed = true := by
  unfold checkPin
  cases required.pin with
  | none => simp
  | some declared => by_cases agrees : declared.agrees computed = true <;> simp [agrees]

/-- A requirement that is found to be met is met. -/
theorem settles_of_isMet {walk : Walk} {required : PackageUri}
    (isMet : walk.isMet required = .ok true) : walk.Settles required := by
  unfold Walk.isMet at isMet
  cases found : walk.chosen.lookup required.key with
  | none =>
      rw [found] at isMet
      exact nomatch isMet
  | some choice =>
      rw [found] at isMet
      cases choice with
      | localProject package directory => exact ⟨_, found, trivial⟩
      | remote package checksum =>
          refine ⟨_, found, ?_⟩
          by_cases same : package.version = required.version
          · simp only [same, if_true, Result.map_eq_ok_iff] at isMet
            obtain ⟨⟨⟩, pinned, -⟩ := isMet
            exact ⟨by rw [same, Version.atLeast_self], fun _ => checkPin_eq_ok_iff.mp pinned⟩
          · simp only [if_neg same] at isMet
            exact ⟨Except.ok.inj isMet, fun equal => absurd equal same⟩

/-- A requirement that is not met yet has no choice at its place, or a lesser version. -/
theorem lookup_of_not_isMet {walk : Walk} {required : PackageUri}
    (isMet : walk.isMet required = .ok false) :
    walk.chosen.lookup required.key = none ∨
      ∃ package checksum, walk.chosen.lookup required.key = some (.remote package checksum) ∧
        package.version.atLeast required.version = false := by
  unfold Walk.isMet at isMet
  cases found : walk.chosen.lookup required.key with
  | none => exact .inl rfl
  | some choice =>
      rw [found] at isMet
      cases choice with
      | localProject package directory => exact nomatch isMet
      | remote package checksum =>
          refine .inr ⟨package, checksum, rfl, ?_⟩
          by_cases same : package.version = required.version
          · simp only [same, if_true, Result.map_eq_ok_iff] at isMet
            obtain ⟨-, -, impossible⟩ := isMet
            exact nomatch impossible
          · simp only [if_neg same] at isMet
            exact Except.ok.inj isMet

/-- Whether a project was visited is decided by its directory. -/
theorem visited_of_isVisited {walk : Walk} {key : PackageKey} {directory : Path}
    {isVisited : Bool} (decided : walk.isVisited key directory = .ok isVisited) :
    walk.visited.any directory.same = isVisited := by
  unfold Walk.isVisited at decided
  split at decided
  · split at decided
    · exact Except.ok.inj decided
    · exact nomatch decided
  · exact Except.ok.inj decided

/-- A project that was not visited before does not take the place of another project. -/
theorem not_localProject_of_isVisited {walk : Walk} {key : PackageKey} {directory : Path}
    (decided : walk.isVisited key directory = .ok false)
    {package : PackageUri} {other : Path}
    (found : walk.chosen.lookup key = some (.localProject package other)) :
    other ∉ walk.visited := by
  have unvisited := visited_of_isVisited decided
  simp only [Walk.isVisited, found] at decided
  split at decided
  · rename_i same
    intro member
    have among := List.any_eq_true.mpr ⟨other, member, Path.same_comm _ _ ▸ same⟩
    rw [unvisited] at among
    exact nomatch among
  · exact nomatch decided

/-! ## Choosing -/

variable {walk : Walk} {key : PackageKey} {choice : Choice} {news : List Requirement}

theorem lookup_choose_self :
    (walk.choose key choice news).chosen.lookup key = some choice :=
  Association.lookup_set_self key choice walk.chosen

theorem lookup_choose_of_ne {other : PackageKey} (different : other ≠ key) :
    (walk.choose key choice news).chosen.lookup other = walk.chosen.lookup other :=
  Association.lookup_set_of_ne choice walk.chosen different

/-- What meets every requirement that was met at a place can be chosen for the place. -/
theorem Settles.choose {required : PackageUri} (settled : walk.Settles required)
    (better : required.key = key → choice.Meets required) :
    (walk.choose key choice news).Settles required := by
  obtain ⟨old, found, meets⟩ := settled
  by_cases same : required.key = key
  · exact ⟨choice, same ▸ lookup_choose_self, better same⟩
  · exact ⟨old, (lookup_choose_of_ne same).trans found, meets⟩

/-- A project that is chosen meets what was met. -/
theorem Settles.choose_localProject {package required : PackageUri} {directory : Path}
    (walk : Walk) (settled : walk.Settles required) :
    (walk.choose key (.localProject package directory) news).Settles required :=
  settled.choose fun _ => trivial

/-- A version that is chosen meets what lesser versions met. -/
theorem Settles.choose_remote {required other : PackageUri} {checksum : Checksum}
    (isMet : walk.isMet required = .ok false) (settled : walk.Settles other) :
    (walk.choose required.key (.remote required.unpinned checksum) news).Settles other := by
  refine settled.choose fun same => ?_
  obtain ⟨old, found, meets⟩ := settled
  rw [same] at found
  rcases lookup_of_not_isMet isMet with free | ⟨package, oldChecksum, taken, less⟩
  · rw [free] at found
    exact nomatch found
  obtain rfl := Option.some.inj (taken.symm.trans found)
  refine ⟨Version.atLeast_trans (Version.atLeast_of_not_atLeast less) meets.1, ?_⟩
  -- the lesser version met the requirement, so the requirement is for no such version
  intro equal
  have again : package.version.atLeast required.version = true := by
    rw [show required.version = other.version from equal]
    exact meets.1
  rw [less] at again
  exact nomatch again

theorem settles_choose_remote {required : PackageUri} {checksum : Checksum}
    (pinned : checkPin required checksum = .ok ()) :
    (walk.choose required.key (.remote required.unpinned checksum) news).Settles required :=
  ⟨_, lookup_choose_self, Version.atLeast_self required.version,
    fun _ => checkPin_eq_ok_iff.mp pinned⟩

/-! ## The invariant -/

/-- What holds at every point of a walk, of the walk and what was told. -/
structure Kept (root : Project) (told : List Told) (walk : Walk) : Prop where
  /-- The directories that were visited are those of the projects and of the root. -/
  visited : walk.visited = (Told.visited root told).map Project.directory ++ [root.directory]
  /-- What is still to be met was raised. -/
  raised : ∀ requirement ∈ walk.pending, requirement ∈ Told.requirements root told
  /-- What was raised is still to be met or is met. -/
  met : ∀ requirement ∈ Told.requirements root told, requirement ∈ walk.pending ∨
    ∀ required, requirement.Asks required → walk.Settles required
  /-- Each version that is chosen is a required one, and was described. -/
  chosen_remote : ∀ key package checksum,
    walk.chosen.lookup key = some (.remote package checksum) →
      ∃ required description, Told.Requires root told required ∧ required.key = key ∧
        package = required.unpinned ∧ .described package description ∈ told ∧
        description.checksum = checksum
  /-- Each project that is chosen was visited. -/
  chosen_local : ∀ key package directory,
    walk.chosen.lookup key = some (.localProject package directory) →
      ∃ project ∈ Told.visited root told, publishedPackage project = .ok package ∧
        package.key = key ∧ project.directory = directory
  /-- Each project that was visited is chosen. -/
  recorded : ∀ project ∈ Told.visited root told, ∃ package,
    publishedPackage project = .ok package ∧
      walk.chosen.lookup package.key = some (.localProject package project.directory)

namespace Kept

variable {root : Project} {told : List Told} {walk : Walk} {requirement : Requirement}
  {rest : List Requirement}

theorem start (root : Project) : Kept root [] (Walk.start root) where
  visited := rfl
  raised requirement pending := by
    simpa [Told.requirements, Told.visited, Walk.start] using pending
  met requirement raised := .inl (by
    simpa [Told.requirements, Told.visited, Walk.start] using raised)
  chosen_remote _ _ _ found := nomatch found
  chosen_local _ _ _ found := nomatch found
  recorded _ visited := nomatch visited

theorem raised_of_mem_rest (kept : Kept root told walk)
    (pending : walk.pending = requirement :: rest) {other : Requirement}
    (waiting : other ∈ rest) : other ∈ Told.requirements root told := by
  apply kept.raised
  rw [pending]
  exact List.mem_cons_of_mem _ waiting

/-- What was raised is the requirement that is next, waits behind it or is met. -/
theorem met_cases (kept : Kept root told walk) (pending : walk.pending = requirement :: rest)
    {other : Requirement} (raised : other ∈ Told.requirements root told) :
    other = requirement ∨ other ∈ rest ∨
      ∀ required, other.Asks required → walk.Settles required := by
  rcases kept.met other raised with waiting | settled
  · rw [pending, List.mem_cons] at waiting
    rcases waiting with next | waiting
    · exact .inl next
    · exact .inr (.inl waiting)
  · exact .inr (.inr settled)

/-- A version that is chosen stays a required one when more is told. -/
theorem chosen_remote_of_more (kept : Kept root told walk) {news : Told}
    (more : ∀ {raised}, raised ∈ Told.requirements root told →
      raised ∈ Told.requirements root (news :: told))
    {key : PackageKey} {package : PackageUri} {checksum : Checksum}
    (found : walk.chosen.lookup key = some (.remote package checksum)) :
    ∃ required description, Told.Requires root (news :: told) required ∧ required.key = key ∧
      package = required.unpinned ∧ .described package description ∈ news :: told ∧
      description.checksum = checksum := by
  obtain ⟨required, description, ⟨asking, raised, asks⟩, place, chosen, before, sum⟩ :=
    kept.chosen_remote key package checksum found
  exact ⟨required, description, ⟨asking, more raised, asks⟩, place, chosen,
    List.mem_cons_of_mem _ before, sum⟩

theorem met_step (kept : Kept root told walk) (pending : walk.pending = requirement :: rest)
    {required : PackageUri} (asks : requirement.Asks required)
    (isMet : { walk with pending := rest }.isMet required = .ok true) :
    Kept root told { walk with pending := rest } where
  visited := kept.visited
  raised _ waiting := kept.raised_of_mem_rest pending waiting
  met other raised := by
    rcases kept.met_cases pending raised with rfl | waiting | settled
    · refine .inr fun package asked => ?_
      obtain rfl := asks.unique asked
      exact settles_of_isMet isMet
    · exact .inl waiting
    · exact .inr settled
  chosen_remote := kept.chosen_remote
  chosen_local := kept.chosen_local
  recorded := kept.recorded

theorem chosen_step (kept : Kept root told walk) (pending : walk.pending = requirement :: rest)
    {required : PackageUri} (asks : requirement.Asks required)
    (isMet : { walk with pending := rest }.isMet required = .ok false)
    (description : DescribedPackage) (pinned : checkPin required description.checksum = .ok ()) :
    Kept root (.described required.unpinned description :: told)
      ({ walk with pending := rest }.choose required.key
        (.remote required.unpinned description.checksum)
        (Requirement.ofMetadata description.metadata)) where
  visited := kept.visited
  raised other member := by
    rw [Told.mem_requirements_described]
    rcases List.mem_append.mp member with listed | waiting
    · exact .inl listed
    · exact .inr (kept.raised_of_mem_rest pending waiting)
  met other raised := by
    rcases Told.mem_requirements_described.mp raised with listed | raised
    · exact .inl (List.mem_append_left _ listed)
    rcases kept.met_cases pending raised with rfl | waiting | settled
    · refine .inr fun package asked => ?_
      obtain rfl := asks.unique asked
      exact settles_choose_remote pinned
    · exact .inl (List.mem_append_right _ waiting)
    · exact .inr fun package asked => (settled package asked).choose_remote isMet
  chosen_remote key package checksum found := by
    have raised : Told.Requires root (.described required.unpinned description :: told)
        required :=
      ⟨requirement, Told.mem_requirements_described.mpr
        (.inr (kept.raised requirement (pending ▸ List.mem_cons_self))), asks⟩
    by_cases same : key = required.key
    · subst same
      rw [lookup_choose_self] at found
      obtain ⟨rfl, rfl⟩ := Choice.remote.inj (Option.some.inj found)
      exact ⟨required, description, raised, rfl, rfl, List.mem_cons_self, rfl⟩
    · rw [lookup_choose_of_ne same] at found
      exact kept.chosen_remote_of_more
        (fun raised => Told.mem_requirements_described.mpr (.inr raised)) found
  chosen_local key package directory found := by
    by_cases same : key = required.key
    · subst same
      rw [lookup_choose_self] at found
      exact nomatch found
    · rw [lookup_choose_of_ne same] at found
      exact kept.chosen_local key package directory found
  recorded project visited := by
    obtain ⟨package, published, found⟩ := kept.recorded project visited
    refine ⟨package, published, ?_⟩
    -- the place of a project is never open for a version
    have other : package.key ≠ required.key := by
      intro same
      rw [same] at found
      rcases lookup_of_not_isMet isMet with free | ⟨_, _, taken, -⟩
      · exact nomatch free.symm.trans found
      · exact nomatch taken.symm.trans found
    exact (lookup_choose_of_ne other).trans found

theorem known_step {path : Path} (kept : Kept root told walk)
    (pending : walk.pending = .localProject path :: rest) {project : Project}
    {package : PackageUri}
    (isVisited : { walk with pending := rest }.isVisited package.key project.directory =
      .ok true) :
    Kept root (.loaded project :: told) { walk with pending := rest } := by
  have known := visited_of_isVisited isVisited
  simp only [kept.visited] at known
  have unchanged : Told.visited root (.loaded project :: told) = Told.visited root told := by
    rw [Told.visited, if_pos known]
  constructor
  · rw [unchanged]
    exact kept.visited
  · intro other member
    rw [Told.mem_requirements_known known]
    exact kept.raised_of_mem_rest pending member
  · intro other raised
    rw [Told.mem_requirements_known known] at raised
    rcases kept.met_cases pending raised with rfl | waiting | settled
    · exact .inr fun package asked => asked.elim
    · exact .inl waiting
    · exact .inr settled
  · intro key chosen checksum found
    exact kept.chosen_remote_of_more (Told.mem_requirements_known known).mpr found
  · rw [unchanged]
    exact kept.chosen_local
  · rw [unchanged]
    exact kept.recorded

theorem visited_step {path : Path} (kept : Kept root told walk)
    (pending : walk.pending = .localProject path :: rest) {project : Project}
    {package : PackageUri} (published : publishedPackage project = .ok package)
    (isVisited : { walk with pending := rest }.isVisited package.key project.directory =
      .ok false) :
    Kept root (.loaded project :: told)
      ({ walk with pending := rest, visited := project.directory :: walk.visited }.choose
        package.key (.localProject package project.directory)
        (Requirement.ofProject project)) := by
  have new := visited_of_isVisited isVisited
  simp only [kept.visited] at new
  have extended : Told.visited root (.loaded project :: told) =
      project :: Told.visited root told := by
    rw [Told.visited, new]
    rfl
  constructor
  · rw [extended, List.map_cons, List.cons_append, ← kept.visited]
    rfl
  · intro other member
    rw [Told.mem_requirements_visited new]
    rcases List.mem_append.mp member with declared | waiting
    · exact .inl declared
    · exact .inr (kept.raised_of_mem_rest pending waiting)
  · intro other raised
    rcases (Told.mem_requirements_visited new).mp raised with declared | raised
    · exact .inl (List.mem_append_left _ declared)
    rcases kept.met_cases pending raised with rfl | waiting | settled
    · exact .inr fun package asked => asked.elim
    · exact .inl (List.mem_append_right _ waiting)
    · exact .inr fun required asked =>
        Settles.choose_localProject { walk with pending := rest, visited := _ }
          (settled required asked)
  · intro key chosen checksum found
    by_cases same : key = package.key
    · subst same
      rw [lookup_choose_self] at found
      exact nomatch found
    · rw [lookup_choose_of_ne same] at found
      exact kept.chosen_remote_of_more
        (fun raised => (Told.mem_requirements_visited new).mpr (.inr raised)) found
  · intro key chosen directory found
    rw [extended]
    by_cases same : key = package.key
    · subst same
      rw [lookup_choose_self] at found
      obtain ⟨rfl, rfl⟩ := Choice.localProject.inj (Option.some.inj found)
      exact ⟨project, List.mem_cons_self, published, rfl, rfl⟩
    · rw [lookup_choose_of_ne same] at found
      obtain ⟨other, visited, rest⟩ := kept.chosen_local key chosen directory found
      exact ⟨other, List.mem_cons_of_mem _ visited, rest⟩
  · rw [extended]
    intro other member
    rcases List.mem_cons.mp member with rfl | member
    · exact ⟨package, published, lookup_choose_self⟩
    obtain ⟨otherPackage, otherPublished, found⟩ := kept.recorded other member
    refine ⟨otherPackage, otherPublished, ?_⟩
    -- the place of a project is never open for another project
    have different : otherPackage.key ≠ package.key := by
      intro same
      rw [same] at found
      refine not_localProject_of_isVisited isVisited found ?_
      change other.directory ∈ walk.visited
      rw [kept.visited]
      exact List.mem_append_left _ (List.mem_map_of_mem member)
    exact (lookup_choose_of_ne different).trans found

/-- Every step keeps the invariant. -/
theorem step {next : Walk} {news : List Told} (kept : Kept root told walk)
    (pending : walk.pending = requirement :: rest)
    (taken : Step { walk with pending := rest } requirement news next) :
    Kept root (news ++ told) next := by
  cases taken with
  | met asks isMet => exact kept.met_step pending asks isMet
  | chosen asks isMet description pinned =>
      exact kept.chosen_step pending asks isMet description pinned
  | known published isVisited => exact kept.known_step pending isVisited
  | visited published isVisited => exact kept.visited_step pending published isVisited

/-- The invariant holds wherever a walk leads. -/
theorem leads {finish : Walk} {all : List Told} (kept : Kept root told walk)
    (leads : Leads walk told finish all) : Kept root all finish := by
  induction leads with
  | refl walk told => exact kept
  | step pending first more inductionHypothesis =>
      exact inductionHypothesis (kept.step pending first)

end Kept

end Walk

end PackageResolution
