import PackageResolution.Proofs.Project.Closure
import PackageResolution.Proofs.Project.Course

/-!
# The order of declaration

Which version of a package is met first decides which versions are expanded: one that is
met early is expanded though a later one takes its place, and one that is met late is passed
over.  So the order in which a project declares its dependencies can be seen in the manifest,
but only through what such versions list.  Two runs that follow the same fixed answers for
projects that differ in this order visit the same projects.  Their manifests have the same
entries exactly if each of them answers whatever is listed by the packages that only the
other run described.
-/

namespace PackageResolution

/-! ## Fixed answers -/

/-- That a source always gives the same answers: of a package by its place and version, of a
project by its path, and that it knows no two projects in one directory. -/
structure Source.IsFixed {σ : Type} (source : Source (Stateful σ)) : Prop where
  describes : ∀ {first second : PackageUri} {description other : DescribedPackage},
    source.Describes first description → source.Describes second other →
      first.toPackage = second.toPackage → description = other
  loads : ∀ {path : Path} {project other : Project},
    source.Loads path project → source.Loads path other → project = other
  directory : ∀ {path otherPath : Path} {project other : Project},
    source.Loads path project → source.Loads otherPath other →
      project.directory.same other.directory = true → project = other

/-! ## The projects of a run -/

/-- That a path is declared by a project, or by one that is loaded from such a path in another
directory. -/
inductive Project.Includes {σ : Type} (source : Source (Stateful σ)) (root : Project) :
    Path → Prop
  | declared {path : Path} (declares : .localProject path ∈ Requirement.ofProject root) :
      Includes source root path
  | brought {path next : Path} {project : Project} (earlier : Includes source root path)
      (loads : source.Loads path project)
      (apart : project.directory.same root.directory = false)
      (declares : .localProject next ∈ Requirement.ofProject project) :
      Includes source root next

namespace Told

variable {root : Project} {told : List Told} {project : Project}

theorem loaded_of_visited (among : project ∈ visited root told) : .loaded project ∈ told := by
  induction told with
  | nil => exact nomatch among
  | cons note told inductionHypothesis =>
      cases note with
      | described package description => exact List.mem_cons_of_mem _ (inductionHypothesis among)
      | loaded other =>
          rw [visited] at among
          split at among
          · exact List.mem_cons_of_mem _ (inductionHypothesis among)
          · rcases List.mem_cons.mp among with rfl | before
            · exact List.mem_cons_self
            · exact List.mem_cons_of_mem _ (inductionHypothesis before)

/-- No project that was visited is in the directory of the root. -/
theorem apart_of_visited (among : project ∈ visited root told) :
    project.directory.same root.directory = false := by
  induction told with
  | nil => exact nomatch among
  | cons note told inductionHypothesis =>
      cases note with
      | described package description => exact inductionHypothesis among
      | loaded other =>
          rw [visited] at among
          split at among
          · exact inductionHypothesis among
          · rename_i new
            rcases List.mem_cons.mp among with rfl | before
            · rw [Bool.not_eq_true, List.any_append, Bool.or_eq_false_iff] at new
              exact (Bool.or_eq_false_iff.mp new.2).1
            · exact inductionHypothesis before

/-- Of each project that was loaded, one in the same directory was visited, unless that is the
directory of the root. -/
theorem exists_visited_of_loaded (loaded : .loaded project ∈ told)
    (apart : project.directory.same root.directory = false) :
    ∃ other ∈ visited root told, project.directory.same other.directory = true := by
  induction told with
  | nil => exact nomatch loaded
  | cons note told inductionHypothesis =>
      have later (other : Project) (among : other ∈ visited root told) :
          other ∈ visited root (note :: told) := by
        cases note with
        | described package description => exact among
        | loaded project =>
            rw [visited]
            split
            · exact among
            · exact List.mem_cons_of_mem _ among
      rcases List.mem_cons.mp loaded with rfl | before
      · by_cases known : ((visited root told).map Project.directory ++ [root.directory]).any
            project.directory.same = true
        · obtain ⟨directory, among, same⟩ := List.any_eq_true.mp known
          rcases List.mem_append.mp among with before | itself
          · obtain ⟨other, visited, rfl⟩ := List.mem_map.mp before
            exact ⟨other, later other visited, same⟩
          · obtain rfl := List.mem_singleton.mp itself
            cases apart.symm.trans same
        · refine ⟨project, ?_, by simp [Path.same]⟩
          rw [visited, if_neg known]
          exact List.mem_cons_self
      · obtain ⟨other, among, same⟩ := inductionHypothesis before
        exact ⟨other, later other among, same⟩

end Told

theorem Requirement.not_localProject_of_asks {requirement : Requirement} {required : PackageUri}
    (asks : requirement.Asks required) (path : Path) : .localProject path ≠ requirement := by
  rintro rfl
  exact asks

theorem Requirement.localProject_not_mem_ofMetadata (path : Path) (metadata : PackageMetadata) :
    .localProject path ∉ Requirement.ofMetadata metadata := by
  simp [Requirement.ofMetadata]

namespace Walk

variable {σ : Type} {source : Source (Stateful σ)} {root : Project}

/-- What holds at every point of a walk that follows a source, of the projects that are met. -/
structure Explored (source : Source (Stateful σ)) (root : Project) (told : List Told)
    (walk : Walk) : Prop where
  /-- The projects that are still to be met are those of the root. -/
  included : ∀ path, .localProject path ∈ walk.pending → root.Includes source path
  /-- The projects that were loaded are those of the root. -/
  loaded : ∀ project, .loaded project ∈ told →
    ∃ path, root.Includes source path ∧ source.Loads path project
  /-- What was described is what the source describes. -/
  described : ∀ package description, .described package description ∈ told →
    source.Describes package description
  /-- The projects that were raised are still to be met or were loaded. -/
  explored : ∀ path, .localProject path ∈ Told.requirements root told →
    .localProject path ∈ walk.pending ∨
      ∃ project, .loaded project ∈ told ∧ source.Loads path project

namespace Explored

variable {told : List Told} {walk : Walk} {requirement : Requirement} {rest : List Requirement}

theorem start (root : Project) : Explored source root [] (Walk.start root) where
  included _ pending := .declared pending
  loaded _ loaded := nomatch loaded
  described _ _ described := nomatch described
  explored path raised := .inl (by
    simpa [Told.requirements, Told.visited, Walk.start] using raised)

/-- A project that was raised is the requirement that is next, waits behind it or was loaded. -/
theorem explored_cases (explored : Explored source root told walk)
    (pending : walk.pending = requirement :: rest) {path : Path}
    (raised : .localProject path ∈ Told.requirements root told) :
    .localProject path = requirement ∨ .localProject path ∈ rest ∨
      ∃ project, .loaded project ∈ told ∧ source.Loads path project := by
  rcases explored.explored path raised with waiting | loaded
  · rw [pending, List.mem_cons] at waiting
    rcases waiting with next | waiting
    · exact .inl next
    · exact .inr (.inl waiting)
  · exact .inr (.inr loaded)

theorem included_of_mem_rest (explored : Explored source root told walk)
    (pending : walk.pending = requirement :: rest) {path : Path}
    (waiting : .localProject path ∈ rest) : root.Includes source path :=
  explored.included path (pending ▸ List.mem_cons_of_mem _ waiting)

theorem met_step (explored : Explored source root told walk)
    (pending : walk.pending = requirement :: rest) {required : PackageUri}
    (asks : requirement.Asks required) :
    Explored source root told { walk with pending := rest } where
  included _ waiting := explored.included_of_mem_rest pending waiting
  loaded := explored.loaded
  described := explored.described
  explored path raised := by
    rcases explored.explored_cases pending raised with next | waiting | loaded
    · exact absurd next (Requirement.not_localProject_of_asks asks path)
    · exact .inl waiting
    · exact .inr loaded

theorem chosen_step (explored : Explored source root told walk)
    (pending : walk.pending = requirement :: rest) {required : PackageUri}
    (asks : requirement.Asks required) {description : DescribedPackage}
    (describes : source.Describes required.unpinned description) (choice : Choice) :
    Explored source root (.described required.unpinned description :: told)
      ({ walk with pending := rest }.choose required.key choice
        (Requirement.ofMetadata description.metadata)) where
  included path waiting := by
    rcases List.mem_append.mp waiting with listed | waiting
    · exact absurd listed (Requirement.localProject_not_mem_ofMetadata path _)
    · exact explored.included_of_mem_rest pending waiting
  loaded project loaded := by
    rcases List.mem_cons.mp loaded with impossible | before
    · exact nomatch impossible
    · exact explored.loaded project before
  described package other described := by
    rcases List.mem_cons.mp described with same | before
    · obtain ⟨rfl, rfl⟩ := Told.described.inj same
      exact describes
    · exact explored.described package other before
  explored path raised := by
    rcases Told.mem_requirements_described.mp raised with listed | raised
    · exact absurd listed (Requirement.localProject_not_mem_ofMetadata path _)
    rcases explored.explored_cases pending raised with next | waiting | ⟨project, loaded, loads⟩
    · exact absurd next (Requirement.not_localProject_of_asks asks path)
    · exact .inl (List.mem_append_right _ waiting)
    · exact .inr ⟨project, List.mem_cons_of_mem _ loaded, loads⟩

/-- What is known of a project that was just loaded and of those before. -/
theorem loaded_cons {path : Path} (explored : Explored source root told walk)
    (pending : walk.pending = .localProject path :: rest) {project : Project}
    (loads : source.Loads path project) {other : Project}
    (loaded : .loaded other ∈ .loaded project :: told) :
    ∃ path, root.Includes source path ∧ source.Loads path other := by
  rcases List.mem_cons.mp loaded with same | before
  · obtain rfl := Told.loaded.inj same
    exact ⟨path, explored.included path (pending ▸ List.mem_cons_self), loads⟩
  · exact explored.loaded other before

theorem described_cons (explored : Explored source root told walk) {project : Project}
    {package : PackageUri} {description : DescribedPackage}
    (described : .described package description ∈ .loaded project :: told) :
    source.Describes package description := by
  rcases List.mem_cons.mp described with impossible | before
  · exact nomatch impossible
  · exact explored.described package description before

theorem known_step {path : Path} (kept : Kept root told walk)
    (explored : Explored source root told walk)
    (pending : walk.pending = .localProject path :: rest) {project : Project}
    (loads : source.Loads path project)
    (known : walk.visited.any project.directory.same = true) :
    Explored source root (.loaded project :: told) { walk with pending := rest } where
  included _ waiting := explored.included_of_mem_rest pending waiting
  loaded _ loaded := explored.loaded_cons pending loads loaded
  described _ _ described := explored.described_cons described
  explored other raised := by
    rw [kept.visited] at known
    rw [Told.mem_requirements_known known] at raised
    rcases explored.explored_cases pending raised with next | waiting | ⟨held, loaded, leads⟩
    · obtain rfl := Requirement.localProject.inj next
      exact .inr ⟨project, List.mem_cons_self, loads⟩
    · exact .inl waiting
    · exact .inr ⟨held, List.mem_cons_of_mem _ loaded, leads⟩

theorem visited_step {path : Path} (kept : Kept root told walk)
    (explored : Explored source root told walk)
    (pending : walk.pending = .localProject path :: rest) {project : Project}
    (loads : source.Loads path project)
    (new : walk.visited.any project.directory.same = false) (key : PackageKey)
    (choice : Choice) :
    Explored source root (.loaded project :: told)
      ({ walk with pending := rest, visited := project.directory :: walk.visited }.choose key
        choice (Requirement.ofProject project)) := by
  rw [kept.visited] at new
  have apart : project.directory.same root.directory = false := by
    rw [List.any_append, Bool.or_eq_false_iff] at new
    exact (Bool.or_eq_false_iff.mp new.2).1
  have included := explored.included path (pending ▸ List.mem_cons_self)
  constructor
  · intro other waiting
    rcases List.mem_append.mp waiting with declared | waiting
    · exact .brought included loads apart declared
    · exact explored.included_of_mem_rest pending waiting
  · exact fun _ loaded => explored.loaded_cons pending loads loaded
  · exact fun _ _ described => explored.described_cons described
  · intro other raised
    rcases (Told.mem_requirements_visited new).mp raised with declared | raised
    · exact .inl (List.mem_append_left _ declared)
    rcases explored.explored_cases pending raised with next | waiting | ⟨held, loaded, leads⟩
    · obtain rfl := Requirement.localProject.inj next
      exact .inr ⟨project, List.mem_cons_self, loads⟩
    · exact .inl (List.mem_append_right _ waiting)
    · exact .inr ⟨held, List.mem_cons_of_mem _ loaded, leads⟩

theorem step {next : Walk} {news : List Told} (kept : Kept root told walk)
    (explored : Explored source root told walk) (pending : walk.pending = requirement :: rest)
    (taken : Step { walk with pending := rest } requirement news next)
    (tells : ∀ note ∈ news, source.Tells requirement note) :
    Explored source root (news ++ told) next := by
  cases taken with
  | met asks isMet => exact explored.met_step pending asks
  | chosen asks isMet description pinned =>
      have describes := (tells _ (List.mem_singleton_self _)).describes
      exact explored.chosen_step pending asks describes _
  | known published isVisited =>
      have loads := (tells _ (List.mem_singleton_self _)).loads
      exact known_step kept explored pending loads (visited_of_isVisited isVisited)
  | visited published isVisited =>
      have loads := (tells _ (List.mem_singleton_self _)).loads
      exact visited_step kept explored pending loads (visited_of_isVisited isVisited) _ _

theorem course {finish : Walk} {all : List Told} (kept : Kept root told walk)
    (explored : Explored source root told walk) (course : Course source walk told finish all) :
    Explored source root all finish := by
  induction course with
  | refl walk told => exact explored
  | step pending first tells more inductionHypothesis =>
      exact inductionHypothesis (kept.step pending first) (step kept explored pending first tells)

end Explored

end Walk

/-! ## What two runs share -/

namespace Manifest

/-- That a manifest answers whatever is listed by the packages that were described in a run but
not in another one. -/
def AnswersRest (manifest : Manifest) (told other : List Told) : Prop :=
  ∀ package description, .described package description ∈ told →
    .described package description ∉ other →
      ∀ entry ∈ description.metadata.dependencies, ∀ required,
        entry.2.package = .ok required → manifest.Answers required

theorem answersRest_of_listed {manifest : Manifest} {told other : List Told}
    (covered : ∀ note ∈ told, note ∈ other ∨ note.listed = []) :
    manifest.AnswersRest told other := by
  intro package description described new entry member required named
  rcases covered _ described with both | listed
  · exact absurd both new
  · have raised : Requirement.listed entry.2 ∈ Told.listed (.described package description) :=
      List.mem_map_of_mem member
    rw [listed] at raised
    exact nomatch raised

/-- Manifests with the same entries answer the same requirements. -/
theorem Answers.of_same {manifest other : Manifest} {required : PackageUri}
    (same : ∀ key, manifest.find? key = other.find? key) (answers : manifest.Answers required) :
    other.Answers required := by
  obtain ⟨entry, written, answered⟩ := answers
  refine ⟨entry, same _ ▸ written, fun uri checksum remote => ?_⟩
  obtain ⟨selected, read, place, atLeast, found⟩ := answered uri checksum remote
  refine ⟨selected, read, place, atLeast, fun package path asset directory asked made => ?_⟩
  rw [← found package path asset directory asked made, resolveAsset, resolveAsset, same]

end Manifest

/-- A package is found at its server by its place and its version. -/
theorem PackageUri.unpinned_toPackage_of_key {first second : PackageUri}
    (place : first.key = second.key) (version : first.version = second.version) :
    first.unpinned.toPackage = second.unpinned.toPackage := by
  obtain ⟨authority, path, -⟩ := PackageKey.mk.inj place
  cases first
  cases second
  simp_all [unpinned, toPackage]

namespace Project

variable {σ : Type} {source : Source (Stateful σ)} {project reordered : Project}
  {manifest manifest' : Manifest} {before after before' after' : σ}

theorem mem_ofProject_of_perm (order : reordered.dependencies.Perm project.dependencies)
    {requirement : Requirement} :
    requirement ∈ Requirement.ofProject reordered ↔ requirement ∈ Requirement.ofProject project :=
  (order.map _).mem_iff

theorem Includes.of_perm (order : reordered.dependencies.Perm project.dependencies)
    (directory : reordered.directory = project.directory) {path : Path}
    (includes : project.Includes source path) : reordered.Includes source path := by
  induction includes with
  | declared declares => exact .declared ((mem_ofProject_of_perm order).mpr declares)
  | brought earlier loads apart declares inductionHypothesis =>
      exact .brought inductionHypothesis loads (directory ▸ apart) declares

/-- Nothing is recorded for a text that is not the text of a key. -/
theorem find?_of_no_key (resolved : project.resolve source before = .ok (manifest, after))
    {text : String} (none : ¬ ∃ key : PackageKey, key.text = text) :
    manifest.find? text = .none := by
  obtain ⟨finish, -, -, made⟩ := resolve_course resolved
  rw [Option.eq_none_iff_forall_not_mem]
  intro entry written
  exact none (Manifest.exists_key_of_find? made written)

/-- A run that succeeds met every project of the root, and described what the source
describes. -/
theorem resolve_explored (resolved : project.resolve source before = .ok (manifest, after)) :
    ∃ finish : Walk, finish.pending = [] ∧
      Walk.Explored source project (project.told source before) finish := by
  obtain ⟨finish, course, done, -⟩ := resolve_course resolved
  exact ⟨finish, done, Walk.Explored.course (.start project) (.start project) course⟩

/-- Every project of the root is loaded. -/
theorem loaded_of_includes (fixed : source.IsFixed)
    (resolved : project.resolve source before = .ok (manifest, after)) {path : Path}
    (includes : project.Includes source path) :
    ∃ loaded, .loaded loaded ∈ project.told source before ∧ source.Loads path loaded := by
  obtain ⟨finish, done, explored⟩ := resolve_explored resolved
  have raised (path : Path) (member : .localProject path ∈
      Told.requirements project (project.told source before)) :
      ∃ loaded, .loaded loaded ∈ project.told source before ∧ source.Loads path loaded := by
    rcases explored.explored path member with waiting | loaded
    · rw [done] at waiting
      exact nomatch waiting
    · exact loaded
  induction includes with
  | declared declares =>
      exact raised _ (List.mem_append_left _ (List.mem_append_left _ declares))
  | brought earlier loads apart declares inductionHypothesis =>
      obtain ⟨other, told, loads'⟩ := inductionHypothesis
      obtain rfl := fixed.loads loads loads'
      obtain ⟨visited, among, same⟩ := Told.exists_visited_of_loaded told apart
      obtain ⟨_, -, leads⟩ := explored.loaded visited (Told.loaded_of_visited among)
      obtain rfl := fixed.directory loads leads same
      refine raised _ (List.mem_append_left _ (List.mem_append_right _ ?_))
      exact List.mem_flatMap.mpr ⟨_, among, declares⟩

/-- Runs for projects that differ in the order of their dependencies visit the same projects. -/
theorem visited_of_perm (fixed : source.IsFixed)
    (order : reordered.dependencies.Perm project.dependencies)
    (directory : reordered.directory = project.directory)
    (resolved : project.resolve source before = .ok (manifest, after))
    (resolved' : reordered.resolve source before' = .ok (manifest', after')) {visited : Project}
    (among : visited ∈ Told.visited project (project.told source before)) :
    visited ∈ Told.visited reordered (reordered.told source before') := by
  obtain ⟨_, -, explored⟩ := resolve_explored resolved
  obtain ⟨_, -, explored'⟩ := resolve_explored resolved'
  obtain ⟨path, includes, loads⟩ := explored.loaded visited (Told.loaded_of_visited among)
  obtain ⟨other, loaded, loads'⟩ :=
    loaded_of_includes fixed resolved' (includes.of_perm order directory)
  obtain rfl := fixed.loads loads loads'
  have apart := Told.apart_of_visited among
  obtain ⟨again, among', same⟩ :=
    Told.exists_visited_of_loaded loaded (directory ▸ apart : _ = false)
  obtain ⟨_, -, leads⟩ := explored'.loaded again (Told.loaded_of_visited among')
  obtain rfl := fixed.directory loads leads same
  exact among'

/-- What one run requires is answered by the manifest of the other, if that is so of what only
the first run found listed. -/
theorem answers_of_perm (fixed : source.IsFixed)
    (order : reordered.dependencies.Perm project.dependencies)
    (directory : reordered.directory = project.directory)
    (resolved : project.resolve source before = .ok (manifest, after))
    (resolved' : reordered.resolve source before' = .ok (manifest', after'))
    (rest : manifest'.AnswersRest (project.told source before) (reordered.told source before'))
    {required : PackageUri}
    (requires : Told.Requires project (project.told source before) required) :
    manifest'.Answers required := by
  obtain ⟨requirement, raised, asks⟩ := requires
  rw [Told.requirements, List.mem_append, List.mem_append] at raised
  rcases raised with (declared | brought) | listed
  · refine answers_required resolved' ⟨requirement, ?_, asks⟩
    exact List.mem_append_left _ (List.mem_append_left _
      ((mem_ofProject_of_perm order).mpr declared))
  · obtain ⟨visited, among, declares⟩ := List.mem_flatMap.mp brought
    have among' := visited_of_perm fixed order directory resolved resolved' among
    refine answers_required resolved' ⟨requirement, ?_, asks⟩
    exact List.mem_append_left _ (List.mem_append_right _
      (List.mem_flatMap.mpr ⟨visited, among', declares⟩))
  · obtain ⟨note, told, lists⟩ := List.mem_flatMap.mp listed
    cases note with
    | loaded other => exact absurd lists List.not_mem_nil
    | described package description =>
        obtain ⟨entry, member, rfl⟩ := List.mem_map.mp lists
        by_cases both : .described package description ∈ reordered.told source before'
        · exact answers_required resolved' (requires_listed both member asks)
        · exact rest package description told both entry member required asks

/-- Where the manifest of one run records a version, the manifest of the other does not record
another one or nothing, if each answers what the other run requires. -/
theorem find?_of_answers (fixed : source.IsFixed)
    (resolved : project.resolve source before = .ok (manifest, after))
    (resolved' : reordered.resolve source before' = .ok (manifest', after'))
    (answers : ∀ required, Told.Requires project (project.told source before) required →
      manifest'.Answers required)
    (answers' : ∀ required, Told.Requires reordered (reordered.told source before') required →
      manifest.Answers required) {key : PackageKey}
    (free : ∀ visited ∈ Told.visited project (project.told source before), ∀ package,
      Walk.publishedPackage visited = .ok package → package.key ≠ key)
    (free' : ∀ visited ∈ Told.visited reordered (reordered.told source before'), ∀ package,
      Walk.publishedPackage visited = .ok package → package.key ≠ key)
    {entry : ResolvedDependency} (written : manifest.find? key.text = some entry) :
    manifest'.find? key.text = some entry := by
  obtain ⟨selected, description, requires, rfl, described, rfl, -⟩ :=
    records_described resolved free written
  obtain ⟨other, written', selects⟩ := answers selected requires
  obtain ⟨selected', description', requires', place, described', rfl, -⟩ :=
    records_described resolved' free' written'
  have version : selected'.version = selected.version := by
    obtain ⟨_, parsed, -, above, -⟩ := selects _ _ rfl
    obtain rfl := Except.ok.inj ((parse_recorded selected').symm.trans parsed)
    obtain ⟨entry, again, selects'⟩ := answers' selected' requires'
    rw [place] at again
    obtain rfl := Option.some.inj (again.symm.trans written)
    obtain ⟨_, parsed', -, below, -⟩ := selects' _ _ rfl
    obtain rfl := Except.ok.inj ((parse_recorded selected).symm.trans parsed')
    exact Version.atLeast_antisymm above below
  obtain ⟨_, -, explored⟩ := resolve_explored resolved
  obtain ⟨_, -, explored'⟩ := resolve_explored resolved'
  have same := PackageUri.unpinned_toPackage_of_key place version
  have told := fixed.describes (explored'.described _ _ described')
    (explored.described _ _ described) same
  have text : selected'.unpinned.toProjectPackage.text =
      selected.unpinned.toProjectPackage.text := by
    change selected'.unpinned.toPackage.toProjectPackage.text =
      selected.unpinned.toPackage.toProjectPackage.text
    rw [same]
  rw [written', told, text]

/-- The manifests of two runs have the same entries if each answers what the other run
requires. -/
theorem find?_eq_of_answers (fixed : source.IsFixed)
    (order : reordered.dependencies.Perm project.dependencies)
    (directory : reordered.directory = project.directory)
    (resolved : project.resolve source before = .ok (manifest, after))
    (resolved' : reordered.resolve source before' = .ok (manifest', after'))
    (answers : ∀ required, Told.Requires project (project.told source before) required →
      manifest'.Answers required)
    (answers' : ∀ required, Told.Requires reordered (reordered.told source before') required →
      manifest.Answers required) (key : PackageKey) :
    manifest.find? key.text = manifest'.find? key.text := by
  have visits (visited : Project) :
      visited ∈ Told.visited project (project.told source before) ↔
        visited ∈ Told.visited reordered (reordered.told source before') :=
    ⟨visited_of_perm fixed order directory resolved resolved',
      visited_of_perm fixed order.symm directory.symm resolved' resolved⟩
  by_cases taken : ∃ visited ∈ Told.visited project (project.told source before), ∃ package,
      Walk.publishedPackage visited = .ok package ∧ package.key = key
  · obtain ⟨visited, among, package, published, rfl⟩ := taken
    obtain ⟨root, path, located, leads, written⟩ := records_visited resolved among published
    obtain ⟨root', path', located', leads', written'⟩ :=
      records_visited resolved' ((visits visited).mp among) published
    rw [directory] at located'
    obtain rfl := Except.ok.inj (located.symm.trans located')
    obtain rfl := Except.ok.inj (leads.symm.trans leads')
    rw [written, written']
  · push Not at taken
    have taken' := fun visited among => taken visited ((visits visited).mpr among)
    refine Option.ext fun entry => ⟨?_, ?_⟩
    · exact find?_of_answers fixed resolved resolved' answers answers' taken taken'
    · exact find?_of_answers fixed resolved' resolved answers' answers taken' taken

/-- Take a source with fixed answers and two projects that differ in the order in which they
declare their dependencies, both of which can be settled.  Their manifests have the same
entries exactly if each manifest answers whatever is listed by the packages that only the
other run described. -/
theorem resolve_reordered (fixed : source.IsFixed)
    (order : reordered.dependencies.Perm project.dependencies)
    (directory : reordered.directory = project.directory)
    (resolved : project.resolve source before = .ok (manifest, after))
    (resolved' : reordered.resolve source before' = .ok (manifest', after')) :
    (∀ text, manifest.find? text = manifest'.find? text) ↔
      manifest'.AnswersRest (project.told source before) (reordered.told source before') ∧
        manifest.AnswersRest (reordered.told source before') (project.told source before) := by
  constructor
  · intro same
    constructor
    · intro package description described _ entry listed required named
      exact (answers_required resolved (requires_listed described listed named)).of_same same
    · intro package description described _ entry listed required named
      exact (answers_required resolved' (requires_listed described listed named)).of_same
        fun key => (same key).symm
  · rintro ⟨rest, rest'⟩ text
    have answers (required : PackageUri)
        (requires : Told.Requires project (project.told source before) required) :=
      answers_of_perm fixed order directory resolved resolved' rest requires
    have answers' (required : PackageUri)
        (requires : Told.Requires reordered (reordered.told source before') required) :=
      answers_of_perm fixed order.symm directory.symm resolved' resolved rest' requires
    have keyed := find?_eq_of_answers fixed order directory resolved resolved' answers answers'
    by_cases key : ∃ key : PackageKey, key.text = text
    · obtain ⟨key, rfl⟩ := key
      exact keyed key
    · rw [find?_of_no_key resolved key, find?_of_no_key resolved' key]

end Project

namespace Aviary

/-- The project with its dependencies the other way around. -/
def turnedProject : Project :=
  { project with dependencies := project.dependencies.reverse }

theorem source_isFixed : source.IsFixed where
  describes {first second description other} described described' same := by
    obtain ⟨_, _, described⟩ := described
    obtain ⟨_, _, described'⟩ := described'
    have path : first.path = second.path := by
      change first.toPackage.path = second.toPackage.path
      rw [same]
    have version : first.version = second.version := by
      change first.toPackage.version = second.toPackage.version
      rw [same]
    simp only [source, path, version] at described described'
    exact congrArg Prod.fst (Except.ok.inj (described.symm.trans described'))
  loads {path project other} loaded _ := by
    obtain ⟨_, _, loaded⟩ := loaded
    exact nomatch loaded
  directory {path otherPath project other} loaded _ _ := by
    obtain ⟨_, _, loaded⟩ := loaded
    exact nomatch loaded

end Aviary

namespace Project

open Aviary

/-- The birds are settled alike before and after the seeds, since the birds that are described
only before them list nothing. -/
theorem resolve_reordered_birds :
    ∃ manifest manifest', Aviary.project.resolve Aviary.source () = .ok (manifest, ()) ∧
      turnedProject.resolve Aviary.source () = .ok (manifest', ()) ∧
      ∀ text, manifest.find? text = manifest'.find? text := by
  obtain ⟨⟨manifest, ⟨⟩⟩, resolved, -⟩ := Result.map_eq_ok_iff.mp Aviary.resolve_birds
  have turned : (turnedProject.resolve Aviary.source ()).map (fun pair => pair.1.find? "") =
      .ok none := by decide +kernel
  obtain ⟨⟨manifest', ⟨⟩⟩, resolved', -⟩ := Result.map_eq_ok_iff.mp turned
  have order : turnedProject.dependencies.Perm Aviary.project.dependencies :=
    List.reverse_perm _
  refine ⟨manifest, manifest', resolved, resolved', ?_⟩
  refine (resolve_reordered source_isFixed order rfl resolved resolved').mpr ⟨?_, ?_⟩
  · exact Manifest.answersRest_of_listed (by decide +kernel)
  · exact Manifest.answersRest_of_listed (by decide +kernel)

end Project

namespace Aviary

/-- A server whose birds listed the seeds before their latest version. -/
def weanedSource : Source (Stateful Unit) where
  describe package :=
    if package.version.minor = 5 then return ⟨metadata [("seeds", listedSeeds)], ⟨"b5"⟩⟩
    else return ⟨metadata [], ⟨"b6"⟩⟩
  load path := throw (.invalidProject (.undeclaredPackage path.text))
  log _ := return ()

/-- A project that declares an earlier version of the birds before a later one. -/
def earlierFirst : Project where
  directory := ⟨"/work/aviary"⟩
  package := none
  dependencies := [("birds", .remote (birds 5 five_lt_limit none)),
    ("fledglings", .remote (birds 6 six_lt_limit none))]

/-- The project that declares the later version first. -/
def laterFirst : Project :=
  { earlierFirst with dependencies := earlierFirst.dependencies.reverse }

end Aviary

namespace Project

open Aviary

/-- Declared first, the earlier birds are expanded before they are replaced, and the seeds that
they list are recorded.  Declared last, they are passed over, and the seeds are not. -/
theorem order_shows_in_seeds :
    laterFirst.dependencies.Perm earlierFirst.dependencies ∧
      ∃ manifest manifest', earlierFirst.resolve weanedSource () = .ok (manifest, ()) ∧
        laterFirst.resolve weanedSource () = .ok (manifest', ()) ∧
        (manifest.find? "package://localhost:0/seeds@0").isSome = true ∧
        manifest'.find? "package://localhost:0/seeds@0" = none := by
  have expanded : (earlierFirst.resolve weanedSource ()).map
      (fun pair => (pair.1.find? "package://localhost:0/seeds@0").isSome) = .ok true := by
    decide +kernel
  have passed : (laterFirst.resolve weanedSource ()).map
      (fun pair => pair.1.find? "package://localhost:0/seeds@0") = .ok none := by
    decide +kernel
  obtain ⟨⟨manifest, ⟨⟩⟩, resolved, recorded⟩ := Result.map_eq_ok_iff.mp expanded
  obtain ⟨⟨manifest', ⟨⟩⟩, resolved', absent⟩ := Result.map_eq_ok_iff.mp passed
  exact ⟨List.reverse_perm _, manifest, manifest', resolved, resolved', recorded, absent⟩

end Project

end PackageResolution
