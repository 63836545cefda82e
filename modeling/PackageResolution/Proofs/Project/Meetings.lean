import Mathlib.Data.List.Nodup
import PackageResolution.Proofs.Project.Order
import PackageResolution.Proofs.Project.Settlement

/-!
# The order of a manifest

A run meets one requirement after another.  What it meets is listed as it happens, each
requirement with the state of the walk and with what the run is told.  The list is the depth
first one: behind each meeting stand those of what it brings up, and only then those of what
was waiting.  At every point of a run the places are settled in the order in which the
requirements for them were met first, so settling a place again leaves all of them where they
were.

A local dependency on a project in a directory that was visited before settles no place.
As a rule its place is settled already.  It need not be if the directory is that of the root,
whose place is left to the packages of servers, or if the project publishes a package of
another place than the one that was visited there.  In a source with fixed places the latter
does not happen, and the order is that of all meetings but those with the root.
-/

namespace PackageResolution

/-- A requirement that is met in a run. -/
structure Meeting where
  /-- The walk, with what else is still to be met. -/
  walk : Walk
  /-- What is required. -/
  requirement : Requirement
  /-- What the run is told. -/
  told : List Told
  deriving DecidableEq, Repr

namespace Meeting

/-- The project that is loaded. -/
def project? (meeting : Meeting) : Option Project :=
  match meeting.told with
  | [.loaded project] => some project
  | _ => none

/-- The package that is required, or that the project publishes. -/
def package? (meeting : Meeting) : Option PackageUri :=
  match meeting.requirement with
  | .remote package => some package
  | .listed dependency => dependency.package.toOption
  | .localProject _ => meeting.project?.bind fun project =>
      (Walk.publishedPackage project).toOption

/-- The place that the requirement is for. -/
def key? (meeting : Meeting) : Option PackageKey :=
  meeting.package?.map fun package => package.key

/-- Whether the project is in a directory that was visited before. -/
def isRepeated (meeting : Meeting) : Bool :=
  meeting.project?.any fun project => meeting.walk.visited.any project.directory.same

/-- Whether the project is in the directory of another one. -/
def isOf (root : Project) (meeting : Meeting) : Bool :=
  meeting.project?.any fun project => project.directory.same root.directory

/-- That a project in a directory is met. -/
def Loads (directory : Path) (meeting : Meeting) : Prop :=
  ∃ project package, meeting.project? = some project ∧ project.directory = directory ∧
    Walk.publishedPackage project = .ok package ∧ meeting.key? = some package.key

/-- That a project that is met is one that a source can load. -/
def IsKnownTo {σ : Type} (source : Source (Stateful σ)) (meeting : Meeting) : Prop :=
  ∀ project, meeting.project? = some project → ∃ path, source.Loads path project

/-- What the meeting brings up. -/
def brings (meeting : Meeting) : List Requirement :=
  if meeting.isRepeated then [] else meeting.told.flatMap Told.raises

end Meeting

/-- A requirement for a package is for the place of the package. -/
theorem Meeting.key?_of_asks {walk : Walk} {requirement : Requirement} {told : List Told}
    {required : PackageUri} (asks : requirement.Asks required) :
    (Meeting.mk walk requirement told).key? = some required.key := by
  cases requirement with
  | remote package =>
      obtain rfl := asks
      rfl
  | listed dependency =>
      have named : dependency.package = .ok required := asks
      simp [key?, package?, named, Except.toOption]
  | localProject path => exact asks.elim

/-- A project that is met is known to a source that can tell what the run is told. -/
theorem Meeting.isKnownTo_of_tells {σ : Type} {source : Source (Stateful σ)} {walk : Walk}
    {requirement : Requirement} {told : List Told}
    (tells : ∀ note ∈ told, source.Tells requirement note) :
    (Meeting.mk walk requirement told).IsKnownTo source := by
  intro project loaded
  simp only [project?] at loaded
  split at loaded
  · obtain rfl := Option.some.inj loaded
    cases tells _ (List.mem_singleton_self _) with
    | loaded loads => exact ⟨_, loads⟩
  · exact nomatch loaded

/-- A requirement for a project is for the place of the package that it publishes. -/
theorem Meeting.key?_of_published {walk : Walk} {path : Path} {project : Project}
    {package : PackageUri} (published : Walk.publishedPackage project = .ok package) :
    (Meeting.mk walk (.localProject path) [.loaded project]).key? = some package.key := by
  simp [key?, package?, project?, published, Except.toOption]

/-- The meetings that follow the order of some requirements, depth first. -/
inductive DepthFirst : List Requirement → List Meeting → Prop
  | nil : DepthFirst [] []
  | cons {meeting : Meeting} {below after : List Meeting} {rest : List Requirement}
      (brought : DepthFirst meeting.brings below) (more : DepthFirst rest after) :
      DepthFirst (meeting.requirement :: rest) (meeting :: (below ++ after))

/-- The places of the requirements that count, in the order of the meetings. -/
def keysMet (counts : Meeting → Bool) (meetings : List Meeting) : List PackageKey :=
  (meetings.filter counts).filterMap Meeting.key?

/-- That the places are settled in the order in which the requirements that count are met
first. -/
structure SettledInOrder (counts : Meeting → Bool) (meetings : List Meeting)
    (manifest : Manifest) : Prop where
  /-- At each meeting they are those of the earlier ones. -/
  chosen : ∀ earlier meeting later, meetings = earlier ++ meeting :: later →
    Association.keys meeting.walk.chosen = (keysMet counts earlier).eraseDups
  /-- The manifest names those of all meetings. -/
  named : Association.keys manifest.dependencies =
    (keysMet counts meetings).eraseDups.map PackageKey.text

/-- That the projects which a source knows in one directory publish packages of one place. -/
def Source.HasFixedPlaces {σ : Type} (source : Source (Stateful σ)) : Prop :=
  ∀ ⦃path otherPath : Path⦄ ⦃project other : Project⦄ ⦃package otherPackage : PackageUri⦄,
    source.Loads path project → source.Loads otherPath other →
      project.directory.same other.directory = true →
        Walk.publishedPackage project = .ok package →
          Walk.publishedPackage other = .ok otherPackage → package.key = otherPackage.key

/-- A source with fixed answers knows a single project in a directory. -/
theorem Source.IsFixed.hasFixedPlaces {σ : Type} {source : Source (Stateful σ)}
    (fixed : source.IsFixed) : source.HasFixedPlaces := by
  intro path otherPath project other package otherPackage loads loads' same published published'
  obtain rfl := fixed.directory loads loads' same
  rw [Except.ok.inj (published.symm.trans published')]

namespace Walk

variable {σ : Type}

/-- What a walk that follows a source meets. -/
def meetings (source : Source (Stateful σ)) : Nat → Walk → σ → List Meeting
  | 0, _, _ => []
  | steps + 1, walk, memory =>
      match walk.pending with
      | [] => []
      | requirement :: rest =>
          let rested := { walk with pending := rest }
          match rested.meet source.recorded requirement ([], memory) with
          | .error _ => []
          | .ok (next, (told, memory)) =>
              ⟨rested, requirement, told⟩ :: meetings source steps next memory

end Walk

/-- What is met while the dependencies of a project are settled. -/
def Project.meetings {σ : Type} (source : Source (Stateful σ)) (project : Project)
    (memory : σ) : List Meeting :=
  Walk.meetings source Walk.stepLimit (Walk.start project) memory

/-! ## First places -/

section FirstPlaces

variable {α : Type} [DecidableEq α]

theorem eraseDups_concat (list : List α) (last : α) :
    (list ++ [last]).eraseDups =
      if last ∈ list then list.eraseDups else list.eraseDups ++ [last] := by
  rw [List.eraseDups_append]
  by_cases known : last ∈ list <;> simp [List.removeAll, known, List.eraseDups_cons]

theorem nodup_eraseDups (list : List α) : list.eraseDups.Nodup := by
  induction list using List.reverseRecOn with
  | nil => simp
  | append_singleton list last inductionHypothesis =>
      rw [eraseDups_concat]
      split
      · exact inductionHypothesis
      · rename_i unknown
        rw [← List.mem_eraseDups] at unknown
        refine List.nodup_append.mpr ⟨inductionHypothesis, by simp, ?_⟩
        intro item among other single same
        rw [same, List.mem_singleton.mp single] at among
        exact unknown among

end FirstPlaces

section Keys

variable {counts other : Meeting → Bool} {earlier : List Meeting} {meeting : Meeting}

@[simp]
theorem keysMet_append (earlier later : List Meeting) :
    keysMet counts (earlier ++ later) = keysMet counts earlier ++ keysMet counts later := by
  rw [keysMet, List.filter_append, List.filterMap_append, keysMet, keysMet]

theorem keysMet_of_counts {key : PackageKey} (counted : counts meeting = true)
    (place : meeting.key? = some key) : keysMet counts [meeting] = [key] := by
  simp [keysMet, counted, place]

theorem keysMet_of_not_counts (passed : counts meeting = false) :
    keysMet counts [meeting] = [] := by
  simp [keysMet, passed]

theorem mem_keysMet {key : PackageKey} (among : meeting ∈ earlier)
    (counted : counts meeting = true) (place : meeting.key? = some key) :
    key ∈ keysMet counts earlier :=
  List.mem_filterMap.mpr ⟨meeting, List.mem_filter.mpr ⟨among, counted⟩, place⟩

/-- The first places stay the same if more meetings count, each for a place that was met. -/
theorem eraseDups_keysMet_of_imp {meetings : List Meeting}
    (more : ∀ meeting ∈ meetings, counts meeting = true → other meeting = true)
    (known : ∀ earlier meeting later, meetings = earlier ++ meeting :: later →
      counts meeting = false → other meeting = true →
        ∀ key, meeting.key? = some key → key ∈ keysMet counts earlier) :
    (keysMet other meetings).eraseDups = (keysMet counts meetings).eraseDups := by
  induction meetings using List.reverseRecOn with
  | nil => rfl
  | append_singleton earlier last inductionHypothesis =>
      have before : (keysMet other earlier).eraseDups = (keysMet counts earlier).eraseDups := by
        refine inductionHypothesis (fun meeting among => more meeting
          (List.mem_append_left _ among)) fun front meeting back split => ?_
        exact known front meeting (back ++ [last]) (by rw [split]; simp)
      have sameMembers (key : PackageKey) :
          key ∈ keysMet other earlier ↔ key ∈ keysMet counts earlier := by
        rw [← List.mem_eraseDups, before, List.mem_eraseDups]
      rw [keysMet_append, keysMet_append]
      cases counted : counts last with
      | true =>
          have counted' := more last (List.mem_append_right _ List.mem_cons_self) counted
          cases place : last.key? with
          | none => simpa [keysMet, place, counted, counted'] using before
          | some key =>
              rw [keysMet_of_counts counted place, keysMet_of_counts counted' place,
                eraseDups_concat, eraseDups_concat, before]
              simp only [sameMembers]
      | false =>
          rw [keysMet_of_not_counts counted, List.append_nil]
          cases counted' : other last with
          | false => rw [keysMet_of_not_counts counted', List.append_nil, before]
          | true =>
              cases place : last.key? with
              | none => simpa [keysMet, place, counted'] using before
              | some key =>
                  have met := known earlier last [] rfl counted counted' key place
                  rw [keysMet_of_counts counted' place, eraseDups_concat,
                    if_pos ((sameMembers key).mpr met), before]

end Keys

/-! ## Depth first -/

/-- The meetings for requirements in a row are those for the first ones, and then those for
the others. -/
theorem DepthFirst.append {first second : List Requirement} {meetings : List Meeting}
    (ordered : DepthFirst (first ++ second) meetings) :
    ∃ front back, meetings = front ++ back ∧ DepthFirst first front ∧
      DepthFirst second back := by
  induction first generalizing meetings with
  | nil => exact ⟨[], meetings, rfl, .nil, ordered⟩
  | cons requirement first inductionHypothesis =>
      cases ordered with
      | @cons meeting below after _ brought more =>
          obtain ⟨front, back, rfl, ordered, ordered'⟩ := inductionHypothesis more
          refine ⟨meeting :: (below ++ front), back, ?_, .cons brought ordered, ordered'⟩
          rw [List.cons_append, List.append_assoc]

namespace Walk

/-- That a walk leads from one state to another through some meetings. -/
inductive Passes : Walk → List Meeting → Walk → Prop
  | refl (walk : Walk) : Passes walk [] walk
  | step {walk next finish : Walk} {requirement : Requirement} {rest : List Requirement}
      {told : List Told} {later : List Meeting} (pending : walk.pending = requirement :: rest)
      (first : Step { walk with pending := rest } requirement told next)
      (more : Passes next later finish) :
      Passes walk (⟨{ walk with pending := rest }, requirement, told⟩ :: later) finish

theorem Passes.of_append {walk finish : Walk} {earlier later : List Meeting}
    (passes : Passes walk (earlier ++ later) finish) :
    ∃ between, Passes walk earlier between ∧ Passes between later finish := by
  induction earlier generalizing walk with
  | nil => exact ⟨walk, .refl walk, passes⟩
  | cons meeting earlier inductionHypothesis =>
      cases passes with
      | step pending first more =>
          obtain ⟨between, front, back⟩ := inductionHypothesis more
          exact ⟨between, .step pending first front, back⟩

/-- What a step brings up is met next, before what was waiting. -/
theorem Step.pending_eq {walk next : Walk} {requirement : Requirement} {told : List Told}
    (step : Step walk requirement told next) :
    next.pending = (Meeting.mk walk requirement told).brings ++ walk.pending := by
  cases step with
  | met asks isMet => rfl
  | chosen asks isMet description pinned =>
      simp [choose, Meeting.brings, Meeting.isRepeated, Meeting.project?, Told.raises,
        Requirement.ofMetadata]
  | known published isVisited =>
      have repeated := visited_of_isVisited isVisited
      simp [Meeting.brings, Meeting.isRepeated, Meeting.project?, repeated]
  | visited published isVisited =>
      have new := visited_of_isVisited isVisited
      simp [choose, Meeting.brings, Meeting.isRepeated, Meeting.project?, Told.raises, new]

/-- A project that is loaded publishes the package that is met. -/
theorem Step.published {walk next : Walk} {requirement : Requirement} {told : List Told}
    (step : Step walk requirement told next) {project : Project}
    (loaded : (Meeting.mk walk requirement told).project? = some project) :
    ∃ package, publishedPackage project = .ok package ∧
      (Meeting.mk walk requirement told).key? = some package.key := by
  cases step with
  | met asks isMet => exact nomatch loaded
  | chosen asks isMet description pinned => exact nomatch loaded
  | known published isVisited =>
      obtain rfl := Option.some.inj loaded
      exact ⟨_, published, Meeting.key?_of_published published⟩
  | visited published isVisited =>
      obtain rfl := Option.some.inj loaded
      exact ⟨_, published, Meeting.key?_of_published published⟩

/-- A walk that comes to its end is depth first. -/
theorem Passes.depthFirst {walk finish : Walk} {meetings : List Meeting}
    (passes : Passes walk meetings finish) (done : finish.pending = []) :
    DepthFirst walk.pending meetings := by
  induction passes with
  | refl walk =>
      rw [done]
      exact .nil
  | step pending first more inductionHypothesis =>
      have ordered := inductionHypothesis done
      rw [first.pending_eq] at ordered
      obtain ⟨below, after, rfl, brought, others⟩ := ordered.append
      rw [pending]
      exact .cons brought others

/-! ## The invariant -/

/-- What holds after some meetings of a walk through the dependencies of a project. -/
structure Ordered (root : Project) (earlier : List Meeting) (walk : Walk) : Prop where
  /-- The places are settled in the order in which they were met. -/
  keys : Association.keys walk.chosen =
    (keysMet (fun meeting => !meeting.isRepeated) earlier).eraseDups
  /-- The directory of the root counts as visited. -/
  root_mem : root.directory ∈ walk.visited
  /-- In every other directory that was visited, a project was met. -/
  visited : ∀ directory ∈ walk.visited, directory = root.directory ∨
    ∃ meeting ∈ earlier, meeting.isRepeated = false ∧ meeting.Loads directory

namespace Ordered

variable {root : Project} {earlier : List Meeting} {walk : Walk}

theorem start (root : Project) : Ordered root [] (Walk.start root) where
  keys := rfl
  root_mem := List.mem_singleton_self _
  visited _ among := .inl (List.mem_singleton.mp among)

/-- A place is settled where it stands, or behind the others. -/
theorem keys_choose (ordered : Ordered root earlier walk) (key : PackageKey) (choice : Choice)
    (news : List Requirement) :
    Association.keys (walk.choose key choice news).chosen =
      (keysMet (fun meeting => !meeting.isRepeated) earlier ++ [key]).eraseDups := by
  rw [choose, Association.keys_set, ordered.keys, eraseDups_concat]
  simp only [List.mem_eraseDups]

/-- What was visited stays so. -/
theorem visited_concat (ordered : Ordered root earlier walk) (last : Meeting) :
    ∀ directory ∈ walk.visited, directory = root.directory ∨
      ∃ meeting ∈ earlier ++ [last], meeting.isRepeated = false ∧
        meeting.Loads directory := by
  intro directory among
  rcases ordered.visited directory among with same | ⟨meeting, before, met⟩
  · exact .inl same
  · exact .inr ⟨meeting, List.mem_append_left _ before, met⟩

theorem met_step {requirement : Requirement} {required : PackageUri}
    (ordered : Ordered root earlier walk) (asks : requirement.Asks required)
    (isMet : walk.isMet required = .ok true) :
    Ordered root (earlier ++ [⟨walk, requirement, []⟩]) walk where
  keys := by
    obtain ⟨choice, found, -⟩ := settles_of_isMet isMet
    have known := Association.mem_keys_of_lookup found
    rw [ordered.keys, List.mem_eraseDups] at known
    rw [keysMet_append, keysMet_of_counts rfl (Meeting.key?_of_asks asks), eraseDups_concat,
      if_pos known, ordered.keys]
  root_mem := ordered.root_mem
  visited := ordered.visited_concat _

theorem chosen_step {requirement : Requirement} {required : PackageUri}
    (ordered : Ordered root earlier walk) (asks : requirement.Asks required)
    (description : DescribedPackage) :
    Ordered root
      (earlier ++ [⟨walk, requirement, [.described required.unpinned description]⟩])
      (walk.choose required.key (.remote required.unpinned description.checksum)
        (Requirement.ofMetadata description.metadata)) where
  keys := by
    rw [ordered.keys_choose, keysMet_append, keysMet_of_counts rfl (Meeting.key?_of_asks asks)]
  root_mem := ordered.root_mem
  visited := ordered.visited_concat _

theorem known_step {path : Path} {project : Project} (ordered : Ordered root earlier walk)
    (repeated : walk.visited.any project.directory.same = true) :
    Ordered root (earlier ++ [⟨walk, .localProject path, [.loaded project]⟩]) walk where
  keys := by
    have passed : (!(Meeting.mk walk (.localProject path) [.loaded project]).isRepeated) =
        false := by
      simp [Meeting.isRepeated, Meeting.project?, repeated]
    rw [keysMet_append, keysMet_of_not_counts passed, List.append_nil, ordered.keys]
  root_mem := ordered.root_mem
  visited := ordered.visited_concat _

theorem visited_step {path : Path} {project : Project} {package : PackageUri}
    (ordered : Ordered root earlier walk)
    (published : publishedPackage project = .ok package)
    (new : walk.visited.any project.directory.same = false) :
    Ordered root (earlier ++ [⟨walk, .localProject path, [.loaded project]⟩])
      ({ walk with visited := project.directory :: walk.visited }.choose package.key
        (.localProject package project.directory) (Requirement.ofProject project)) where
  keys := by
    have counted : (!(Meeting.mk walk (.localProject path) [.loaded project]).isRepeated) =
        true := by
      simp [Meeting.isRepeated, Meeting.project?, new]
    rw [keysMet_append, keysMet_of_counts counted (Meeting.key?_of_published published)]
    exact ordered.keys_choose _ _ []
  root_mem := List.mem_cons_of_mem _ ordered.root_mem
  visited directory among := by
    rcases List.mem_cons.mp among with rfl | before
    · refine .inr ⟨_, List.mem_append_right _ List.mem_cons_self, ?_, project, package, rfl,
        rfl, published, Meeting.key?_of_published published⟩
      simp [Meeting.isRepeated, Meeting.project?, new]
    · exact ordered.visited_concat _ directory before

/-- Every step keeps the order. -/
theorem step {next : Walk} {requirement : Requirement} {rest : List Requirement}
    {told : List Told} (ordered : Ordered root earlier walk)
    (taken : Step { walk with pending := rest } requirement told next) :
    Ordered root (earlier ++ [⟨{ walk with pending := rest }, requirement, told⟩]) next := by
  have rested : Ordered root earlier { walk with pending := rest } :=
    ⟨ordered.keys, ordered.root_mem, ordered.visited⟩
  cases taken with
  | met asks isMet => exact rested.met_step asks isMet
  | chosen asks isMet description pinned => exact rested.chosen_step asks description
  | known published isVisited => exact rested.known_step (visited_of_isVisited isVisited)
  | visited published isVisited =>
      exact rested.visited_step published (visited_of_isVisited isVisited)

/-- The order is kept through all meetings. -/
theorem passes {finish : Walk} {later : List Meeting} (ordered : Ordered root earlier walk)
    (passes : Passes walk later finish) : Ordered root (earlier ++ later) finish := by
  induction passes generalizing earlier with
  | refl walk => rwa [List.append_nil]
  | step pending first more inductionHypothesis =>
      have next := inductionHypothesis (ordered.step first)
      rwa [List.append_assoc] at next

end Ordered

/-- The walk at any of its meetings is what came of the earlier ones. -/
theorem Passes.of_split {root : Project} {finish : Walk} {earlier later : List Meeting}
    {meeting : Meeting}
    (passes : Passes (Walk.start root) (earlier ++ meeting :: later) finish) :
    Ordered root earlier meeting.walk ∧
      ∃ next, Step meeting.walk meeting.requirement meeting.told next := by
  obtain ⟨between, before, after⟩ := passes.of_append
  have ordered := (Ordered.start root).passes before
  cases after with
  | step pending first more =>
      exact ⟨⟨ordered.keys, ordered.root_mem, ordered.visited⟩, _, first⟩

/-- A meeting with the root is a repeated one. -/
theorem Ordered.isRepeated_of_isOf {root : Project} {earlier : List Meeting} {meeting : Meeting}
    (ordered : Ordered root earlier meeting.walk) (itself : meeting.isOf root = true) :
    meeting.isRepeated = true := by
  obtain ⟨project, loaded, same⟩ := (Option.any_eq_true _ _).mp itself
  have among := List.any_eq_true.mpr ⟨root.directory, ordered.root_mem, same⟩
  simpa [Meeting.isRepeated, loaded] using among

/-! ## Fixed places -/

variable {σ : Type} {source : Source (Stateful σ)}

/-- In a source with fixed places, a repeated meeting with a project that is not the root is
for a place that was met. -/
theorem Ordered.mem_keysMet_of_isRepeated {root : Project} {earlier : List Meeting}
    {meeting : Meeting} {next : Walk} (fixed : source.HasFixedPlaces)
    (ordered : Ordered root earlier meeting.walk)
    (knows : ∀ met ∈ earlier ++ [meeting], met.IsKnownTo source)
    (step : Step meeting.walk meeting.requirement meeting.told next)
    (repeated : meeting.isRepeated = true) (apart : meeting.isOf root = false)
    {key : PackageKey} (place : meeting.key? = some key) :
    key ∈ keysMet (fun meeting => !meeting.isRepeated) earlier := by
  obtain ⟨again, loaded, among⟩ := (Option.any_eq_true _ _).mp repeated
  obtain ⟨directory, visited, same⟩ := List.any_eq_true.mp among
  have different := (Option.any_eq_false _ _).mp apart again loaded
  rcases ordered.visited directory visited with
    rfl | ⟨first, before, new, project, package, met, rfl, published, firstPlace⟩
  · exact nomatch different.symm.trans same
  · obtain ⟨path, loads⟩ := knows first (List.mem_append_left _ before) project met
    obtain ⟨otherPath, loads'⟩ :=
      knows meeting (List.mem_append_right _ List.mem_cons_self) again loaded
    obtain ⟨other, published', place'⟩ := step.published loaded
    have samePlace := fixed loads' loads same published' published
    obtain rfl := Option.some.inj (place'.symm.trans place)
    exact mem_keysMet before (by rw [new]; rfl) (samePlace ▸ firstPlace)

/-- In a source with fixed places the order is the same whether the repeated meetings are left
out or only those with the root. -/
theorem Passes.eraseDups_keysMet {root : Project} {finish : Walk} {meetings : List Meeting}
    (fixed : source.HasFixedPlaces) (knows : ∀ meeting ∈ meetings, meeting.IsKnownTo source)
    (passes : Passes (Walk.start root) meetings finish) :
    (keysMet (fun meeting => !meeting.isOf root) meetings).eraseDups =
      (keysMet (fun meeting => !meeting.isRepeated) meetings).eraseDups := by
  apply eraseDups_keysMet_of_imp
  · intro meeting among fresh
    obtain ⟨earlier, later, rfl⟩ := List.append_of_mem among
    cases itself : meeting.isOf root with
    | false => rfl
    | true => simp [passes.of_split.1.isRepeated_of_isOf itself] at fresh
  · intro earlier meeting later split stale apart key place
    subst split
    obtain ⟨walked, next, step⟩ := passes.of_split
    have knows' (met : Meeting) (among : met ∈ earlier ++ [meeting]) : met.IsKnownTo source := by
      apply knows
      rw [List.append_cons]
      exact List.mem_append_left _ among
    exact walked.mem_keysMet_of_isRepeated fixed knows' step (by simpa using stale)
      (by simpa using apart) place

/-! ## Runs -/


/-- A run meets only projects that its source knows. -/
theorem isKnownTo_of_mem_meetings {steps : Nat} {walk : Walk} {memory : σ} {meeting : Meeting}
    (among : meeting ∈ meetings source steps walk memory) : meeting.IsKnownTo source := by
  induction steps generalizing walk memory with
  | zero => exact nomatch among
  | succ steps inductionHypothesis =>
      cases pending : walk.pending with
      | nil =>
          rw [meetings, pending] at among
          exact nomatch among
      | cons requirement rest =>
          rw [meetings, pending] at among
          dsimp only at among
          split at among
          · exact nomatch among
          · rename_i recorded
            rcases List.mem_cons.mp among with rfl | later
            · obtain ⟨news, whole, tells⟩ := notes_meet source _ _ _ _ _ _ _ recorded
              rw [List.append_nil] at whole
              exact Meeting.isKnownTo_of_tells (whole ▸ tells)
            · exact inductionHypothesis later

/-- Whatever meets a requirement passes through the meeting that is listed. -/
theorem recorded_of_meet {walk next : Walk} {requirement : Requirement} {before after : σ}
    (met : walk.meet source requirement before = .ok (next, after)) :
    ∃ told, walk.meet source.recorded requirement ([], before) = .ok (next, (told, after)) ∧
      Step walk requirement told next := by
  have follows := walk.meet_recorded source requirement [] before
  rw [met, Result.map_eq_ok_iff] at follows
  obtain ⟨⟨other, told, memory⟩, recorded, same⟩ := follows
  obtain ⟨rfl, rfl⟩ := Prod.mk.inj same
  obtain ⟨news, whole, step⟩ := step_of_meet recorded
  rw [List.append_nil] at whole
  exact ⟨told, recorded, whole ▸ step⟩

/-- A run that comes to its end passes through what it meets. -/
theorem passes_of_run {steps : Nat} {walk finish : Walk} {before after : σ}
    (ran : run source steps walk before = .ok (some finish, after)) :
    Passes walk (meetings source steps walk before) finish ∧ finish.pending = [] := by
  induction steps generalizing walk before with
  | zero =>
      obtain ⟨impossible, -⟩ := Stateful.pure_eq_ok_iff.mp ran
      exact nomatch impossible
  | succ steps inductionHypothesis =>
      cases pending : walk.pending with
      | nil =>
          rw [run, pending] at ran
          obtain ⟨same, -⟩ := Stateful.pure_eq_ok_iff.mp ran
          obtain rfl := Option.some.inj same
          rw [meetings, pending]
          exact ⟨.refl walk, rfl⟩
      | cons requirement rest =>
          rw [run, pending] at ran
          obtain ⟨next, memory, meets, met⟩ := Stateful.bind_eq_ok_iff.mp ran
          obtain ⟨told, recorded, first⟩ := recorded_of_meet meets
          obtain ⟨more, done⟩ := inductionHypothesis met
          rw [meetings, pending]
          simp only [recorded]
          exact ⟨.step pending first more, done⟩

end Walk

/-- The names in a manifest are those of the settled places, in their order. -/
theorem Manifest.keys_ofChoices {directory : Path} {chosen : List (PackageKey × Choice)}
    {manifest : Manifest} (made : ofChoices directory chosen = .ok manifest) :
    Association.keys manifest.dependencies =
      (Association.keys chosen).map PackageKey.text := by
  obtain ⟨root, -, lists⟩ := Result.bind_eq_ok_iff.mp made
  obtain ⟨entries, makes, whole⟩ := Result.bind_eq_ok_iff.mp lists
  obtain rfl := Result.pure_eq_ok_iff.mp whole
  have pairs := Result.forall₂_of_mapM makes
  change Association.keys entries = _
  clear makes lists made whole
  induction pairs with
  | nil => rfl
  | cons first more inductionHypothesis =>
      obtain ⟨entry, -, written⟩ := Result.bind_eq_ok_iff.mp first
      rw [Result.pure_eq_ok_iff] at written
      rw [Association.keys_cons, Association.keys_cons, List.map_cons, inductionHypothesis,
        ← written]

/-- The places are settled in the order of the meetings, the repeated ones left out. -/
theorem Walk.Passes.settledInOrder {root : Project} {meetings : List Meeting} {finish : Walk}
    {manifest : Manifest} (passes : Passes (Walk.start root) meetings finish)
    (made : Manifest.ofChoices root.directory finish.chosen = .ok manifest) :
    SettledInOrder (fun meeting => !meeting.isRepeated) meetings manifest where
  chosen earlier meeting later split := (split ▸ passes).of_split.1.keys
  named := by
    have ordered := (Ordered.start root).passes passes
    rw [Manifest.keys_ofChoices made, ordered.keys, List.nil_append]

namespace SettledInOrder

variable {counts other : Meeting → Bool} {meetings : List Meeting} {manifest : Manifest}

/-- What is settled at a meeting is what the manifest begins with. -/
theorem keys_prefix (settled : SettledInOrder counts meetings manifest)
    {earlier : List Meeting} {meeting : Meeting} {later : List Meeting}
    (split : meetings = earlier ++ meeting :: later) :
    (Association.keys meeting.walk.chosen).map PackageKey.text <+:
      Association.keys manifest.dependencies := by
  rw [settled.chosen earlier meeting later split, settled.named, split, keysMet_append,
    List.eraseDups_append, List.map_append]
  exact List.prefix_append _ _

/-- The order is also that of other meetings with the same first places. -/
theorem congr (settled : SettledInOrder counts meetings manifest)
    (same : ∀ earlier later, meetings = earlier ++ later →
      (keysMet other earlier).eraseDups = (keysMet counts earlier).eraseDups) :
    SettledInOrder other meetings manifest where
  chosen earlier meeting later split := by
    rw [settled.chosen earlier meeting later split, same earlier (meeting :: later) split]
  named := by rw [settled.named, same meetings [] (List.append_nil _).symm]

end SettledInOrder

namespace Project

variable {σ : Type} {source : Source (Stateful σ)} {project : Project} {manifest : Manifest}
  {before after : σ}

/-- A resolution that succeeds passes through what it meets, and the manifest records what
comes of it. -/
theorem resolve_passes (resolved : project.resolve source before = .ok (manifest, after)) :
    ∃ finish, Walk.Passes (Walk.start project) (project.meetings source before) finish ∧
      finish.pending = [] ∧ Manifest.ofChoices project.directory finish.chosen = .ok manifest := by
  obtain ⟨outcome, memory, ran, records⟩ := Stateful.bind_eq_ok_iff.mp resolved
  cases outcome with
  | none => exact nomatch records
  | some finish =>
      obtain ⟨made, -⟩ := Stateful.ofExcept_eq_ok_iff.mp records
      obtain ⟨passes, done⟩ := Walk.passes_of_run ran
      exact ⟨finish, passes, done, made⟩

/-- The meetings of a run that succeeds are in depth first order.  A place that is settled at
one of them keeps its position: what is settled there is what the manifest begins with, and
the manifest names no place twice.  The places are settled in the order in which they are met
first, where a repeated meeting with a project does not count.  In a source with fixed places
only the meetings with the root do not count. -/
theorem resolve_in_order_of_meetings
    (resolved : project.resolve source before = .ok (manifest, after)) :
    DepthFirst (Requirement.ofProject project) (project.meetings source before) ∧
    (∀ earlier meeting later,
      project.meetings source before = earlier ++ meeting :: later →
        (Association.keys meeting.walk.chosen).map PackageKey.text <+:
          Association.keys manifest.dependencies) ∧
    (Association.keys manifest.dependencies).Nodup ∧
    SettledInOrder (fun meeting => !meeting.isRepeated) (project.meetings source before)
      manifest ∧
    (source.HasFixedPlaces →
      SettledInOrder (fun meeting => !meeting.isOf project) (project.meetings source before)
        manifest) := by
  obtain ⟨finish, passes, done, made⟩ := resolve_passes resolved
  have settled := passes.settledInOrder made
  refine ⟨passes.depthFirst done, ?_, ?_, settled, ?_⟩
  · intro earlier meeting later split
    exact settled.keys_prefix split
  · rw [settled.named]
    exact (nodup_eraseDups _).map fun _ _ same => PackageKey.text_injective same
  · intro fixed
    refine settled.congr fun earlier later split => ?_
    obtain ⟨between, front, -⟩ := (split ▸ passes).of_append
    refine front.eraseDups_keysMet fixed fun meeting among => ?_
    exact Walk.isKnownTo_of_mem_meetings (split ▸ List.mem_append_left later among)

end Project

/-! ## A place that changes hands

A project asks for some birds, for seeds, which list later birds, and for a nest, which is a
project that publishes birds.  The nest depends on the project, which asks for the nest once
more. -/

namespace Aviary

/-- A project that publishes birds. -/
def birdNest : Project where
  directory := ⟨"/work/nest"⟩
  package := some { name := "birds", baseUri := "package://localhost:0/birds", version := "0.9.0" }
  dependencies := [("hatchery", .localProject ⟨"/work/hatchery"⟩)]

/-- The project. -/
def hatchery : Project where
  directory := ⟨"/work/hatchery"⟩
  package := some { name := "hatchery", baseUri := "package://localhost:0/hatchery",
                    version := "1.0.0" }
  dependencies := [("birds", .remote (birds 5 five_lt_limit none)),
    ("seeds", .remote (release "/seeds" isPath_seeds 1 one_lt_limit none)),
    ("nest", .localProject ⟨"/work/nest"⟩), ("again", .localProject ⟨"/work/nest"⟩)]

/-- A server with the birds and the seeds, and the two projects. -/
def hatcherySource : Source (Stateful Unit) where
  describe := source.describe
  load path := return if path = ⟨"/work/nest"⟩ then birdNest else hatchery
  log := source.log

theorem eq_of_loads_hatcherySource {path : Path} {project : Project}
    (loads : hatcherySource.Loads path project) : project = birdNest ∨ project = hatchery := by
  obtain ⟨_, _, loaded⟩ := loads
  obtain ⟨rfl, -⟩ := Stateful.pure_eq_ok_iff.mp loaded
  split
  · exact .inl rfl
  · exact .inr rfl

/-- The two projects are in directories of their own. -/
theorem hatcherySource_isFixed : hatcherySource.IsFixed where
  describes := source_isFixed.describes
  loads loads loads' := by
    obtain ⟨_, _, loaded⟩ := loads
    obtain ⟨_, _, loaded'⟩ := loads'
    obtain ⟨first, -⟩ := Stateful.pure_eq_ok_iff.mp loaded
    obtain ⟨second, -⟩ := Stateful.pure_eq_ok_iff.mp loaded'
    exact first.symm.trans second
  directory loads loads' same := by
    rcases eq_of_loads_hatcherySource loads with rfl | rfl <;>
      rcases eq_of_loads_hatcherySource loads' with rfl | rfl
    · rfl
    · exact absurd same (by decide +kernel)
    · exact absurd same (by decide +kernel)
    · rfl

end Aviary

/-- The place of the birds stays in front of that of the seeds, while later birds and then the
nest take it. -/
theorem Project.resolve_in_order_of_birds :
    ∃ manifest, Aviary.hatchery.resolve Aviary.hatcherySource () = .ok (manifest, ()) ∧
      Association.keys manifest.dependencies =
        ["package://localhost:0/birds@0", "package://localhost:0/seeds@0"] ∧
      SettledInOrder (fun meeting => !meeting.isOf Aviary.hatchery)
        (Aviary.hatchery.meetings Aviary.hatcherySource ()) manifest := by
  have resolves : (Aviary.hatchery.resolve Aviary.hatcherySource ()).map
      (fun pair => Association.keys pair.1.dependencies) =
        .ok ["package://localhost:0/birds@0", "package://localhost:0/seeds@0"] := by
    decide +kernel
  obtain ⟨⟨manifest, ⟨⟩⟩, resolved, names⟩ := Result.map_eq_ok_iff.mp resolves
  obtain ⟨-, -, -, -, fixed⟩ := resolve_in_order_of_meetings resolved
  exact ⟨manifest, resolved, names, fixed Aviary.hatcherySource_isFixed.hasFixedPlaces⟩

/-! ## A directory with two projects

A source knows two projects in one directory.  The first publishes eggs and is visited.  The
second publishes seeds, whose place is settled only when a package asks for it. -/

namespace Aviary

/-- The project that publishes eggs. -/
def eggCoop : Project where
  directory := ⟨"/work/coop"⟩
  package := some { name := "eggs", baseUri := "package://localhost:0/eggs", version := "1.0.0" }
  dependencies := []

/-- The project that publishes seeds. -/
def seedCoop : Project where
  directory := ⟨"/work/coop"⟩
  package := some { name := "seeds", baseUri := "package://localhost:0/seeds", version := "0.9.0" }
  dependencies := []

/-- A project that asks for both of them, and for the birds and the seeds of a server. -/
def flock : Project where
  directory := ⟨"/work/flock"⟩
  package := none
  dependencies := [("eggs", .localProject ⟨"/work/a"⟩), ("grain", .localProject ⟨"/work/b"⟩),
    ("birds", .remote (birds 5 five_lt_limit none)),
    ("seeds", .remote (release "/seeds" isPath_seeds 1 one_lt_limit none))]

/-- A server whose packages list nothing, and the two projects. -/
def coopSource : Source (Stateful Unit) where
  describe _ := return ⟨metadata [], ⟨"c0"⟩⟩
  load path := return if path = ⟨"/work/a"⟩ then eggCoop else seedCoop
  log := source.log

end Aviary

/-- The seeds are met before the birds, when their project is, and named behind them. -/
theorem Project.seeds_met_before_birds :
    ∃ manifest, Aviary.flock.resolve Aviary.coopSource () = .ok (manifest, ()) ∧
      Association.keys manifest.dependencies =
        ["package://localhost:0/eggs@1", "package://localhost:0/birds@0",
          "package://localhost:0/seeds@0"] ∧
      (keysMet (fun meeting => !meeting.isOf Aviary.flock)
        (Aviary.flock.meetings Aviary.coopSource ())).eraseDups.map PackageKey.text =
          ["package://localhost:0/eggs@1", "package://localhost:0/seeds@0",
            "package://localhost:0/birds@0"] := by
  have resolves : (Aviary.flock.resolve Aviary.coopSource ()).map
      (fun pair => Association.keys pair.1.dependencies) =
        .ok ["package://localhost:0/eggs@1", "package://localhost:0/birds@0",
          "package://localhost:0/seeds@0"] := by
    decide +kernel
  obtain ⟨⟨manifest, ⟨⟩⟩, resolved, names⟩ := Result.map_eq_ok_iff.mp resolves
  exact ⟨manifest, resolved, names, by decide +kernel⟩

end PackageResolution
