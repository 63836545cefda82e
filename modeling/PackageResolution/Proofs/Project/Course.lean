import PackageResolution.Proofs.Project.Walk

/-!
# Where a resolution takes its answers from

A walk that follows a source is told nothing but what the source can answer: the metadata
of the package that the requirement at hand asks for, or the project at its path.
`Source.Tells` is what a source can tell of a requirement, whatever its memory, and
`Walk.Course` is a walk all of whose steps are told that.  Whatever comes up in such a walk
is brought up by the root: it is declared there, or required by something that the source
tells of a requirement that was brought up before.
-/

namespace PackageResolution

/-! ## What a source can tell -/

namespace Source

variable {σ : Type}

/-- That a source can describe a package so. -/
def Describes (source : Source (Stateful σ)) (package : PackageUri)
    (description : DescribedPackage) : Prop :=
  ∃ before after, source.describe package before = .ok (description, after)

/-- That a source can load the project from a path. -/
def Loads (source : Source (Stateful σ)) (path : Path) (project : Project) : Prop :=
  ∃ before after, source.load path before = .ok (project, after)

/-- That a source can tell something when a requirement is met. -/
inductive Tells (source : Source (Stateful σ)) : Requirement → Told → Prop
  /-- The metadata of the package that is asked for. -/
  | described {requirement : Requirement} {required : PackageUri}
      {description : DescribedPackage} (asks : requirement.Asks required)
      (describes : source.Describes required.unpinned description) :
      Tells source requirement (.described required.unpinned description)
  /-- The project at the path that is given. -/
  | loaded {path : Path} {project : Project} (loads : source.Loads path project) :
      Tells source (.localProject path) (.loaded project)

theorem Tells.describes {source : Source (Stateful σ)} {requirement : Requirement}
    {package : PackageUri} {description : DescribedPackage}
    (tells : source.Tells requirement (.described package description)) :
    source.Describes package description := by
  cases tells with
  | described asks describes => exact describes

theorem Tells.loads {source : Source (Stateful σ)} {path : Path} {project : Project}
    (tells : source.Tells (.localProject path) (.loaded project)) : source.Loads path project := by
  cases tells with
  | loaded loads => exact loads

end Source

/-! ## What is noted -/

namespace Stateful

variable {σ α β : Type} {allowed : Told → Prop}

/-- That a computation notes only what is allowed, in front of what was noted before. -/
def Notes (allowed : Told → Prop) (computation : Stateful (List Told × σ) α) : Prop :=
  ∀ told before value all after, computation (told, before) = .ok (value, (all, after)) →
    ∃ news, all = news ++ told ∧ ∀ note ∈ news, allowed note

theorem Notes.pure (value : α) :
    Notes allowed (Pure.pure value : Stateful (List Told × σ) α) := by
  intro told before result all after ran
  obtain ⟨-, same⟩ := pure_eq_ok_iff.mp ran
  obtain ⟨rfl, rfl⟩ := Prod.mk.inj same
  exact ⟨[], rfl, fun note noted => nomatch noted⟩

theorem Notes.ofExcept (result : Result α) :
    Notes allowed (MonadExcept.ofExcept result : Stateful (List Told × σ) α) := by
  intro told before value all after ran
  obtain ⟨-, same⟩ := ofExcept_eq_ok_iff.mp ran
  obtain ⟨rfl, rfl⟩ := Prod.mk.inj same
  exact ⟨[], rfl, fun note noted => nomatch noted⟩

theorem Notes.bind {computation : Stateful (List Told × σ) α}
    {next : α → Stateful (List Told × σ) β} (first : Notes allowed computation)
    (second : ∀ value, Notes allowed (next value)) : Notes allowed (computation >>= next) := by
  intro told before value all after ran
  obtain ⟨between, ⟨earlier, memory⟩, ran₁, ran₂⟩ := bind_eq_ok_iff.mp ran
  obtain ⟨news₁, rfl, allowed₁⟩ := first _ _ _ _ _ ran₁
  obtain ⟨news₂, rfl, allowed₂⟩ := second _ _ _ _ _ _ ran₂
  refine ⟨news₂ ++ news₁, (List.append_assoc _ _ _).symm, fun note noted => ?_⟩
  rcases List.mem_append.mp noted with late | early
  · exact allowed₂ note late
  · exact allowed₁ note early

end Stateful

section Sources

open Stateful

variable {σ : Type} (source : Source (Stateful σ))

namespace Source

theorem notes_describe {requirement : Requirement} {required : PackageUri}
    (asks : requirement.Asks required) :
    Notes (source.Tells requirement) (source.recorded.describe required.unpinned) := by
  intro told before description all after answered
  obtain ⟨⟨answer, memory⟩, described, returned⟩ := Result.bind_eq_ok_iff.mp answered
  simp only [Result.pure_eq_ok_iff, Prod.mk.injEq] at returned
  obtain ⟨rfl, rfl, rfl⟩ := returned
  refine ⟨[.described required.unpinned answer], rfl, fun note noted => ?_⟩
  obtain rfl := List.mem_singleton.mp noted
  exact .described asks ⟨before, memory, described⟩

theorem notes_load (path : Path) :
    Notes (source.Tells (.localProject path)) (source.recorded.load path) := by
  intro told before project all after answered
  obtain ⟨⟨answer, memory⟩, loaded, returned⟩ := Result.bind_eq_ok_iff.mp answered
  simp only [Result.pure_eq_ok_iff, Prod.mk.injEq] at returned
  obtain ⟨rfl, rfl, rfl⟩ := returned
  refine ⟨[.loaded answer], rfl, fun note noted => ?_⟩
  obtain rfl := List.mem_singleton.mp noted
  exact .loaded ⟨before, memory, loaded⟩

theorem notes_log (requirement : Requirement) (entry : LogEntry) :
    Notes (source.Tells requirement) (source.recorded.log entry) := by
  intro told before value all after answered
  obtain rfl := Walk.recorded_log_eq_ok answered
  exact ⟨[], rfl, fun note noted => nomatch noted⟩

end Source

namespace Walk

theorem notes_meetPackage (walk : Walk) {requirement : Requirement} {required : PackageUri}
    (asks : requirement.Asks required) :
    Notes (source.Tells requirement) (walk.meetPackage source.recorded required) := by
  refine .bind (.ofExcept _) fun isMet => ?_
  cases isMet with
  | true => exact .pure walk
  | false =>
      refine .bind (source.notes_log requirement _) fun _ => ?_
      refine .bind (source.notes_describe asks) fun described => ?_
      exact .bind (.ofExcept _) fun _ => .pure _

/-- What is noted while a requirement is met is what the source can tell of it. -/
theorem notes_meet (walk : Walk) (requirement : Requirement) :
    Notes (source.Tells requirement) (walk.meet source.recorded requirement) := by
  cases requirement with
  | remote package =>
      have asks : Requirement.Asks (.remote package) package := rfl
      exact walk.notes_meetPackage source asks
  | listed dependency =>
      intro told before next all after ran
      obtain ⟨package, ⟨told₁, memory₁⟩, reads, meets⟩ := bind_eq_ok_iff.mp ran
      obtain ⟨named, same⟩ := ofExcept_eq_ok_iff.mp reads
      obtain ⟨rfl, rfl⟩ := Prod.mk.inj same
      have asks : Requirement.Asks (.listed dependency) package := named
      exact walk.notes_meetPackage source asks _ _ _ _ _ meets
  | localProject path =>
      refine .bind (source.notes_load path) fun project => ?_
      refine .bind (.ofExcept _) fun package => ?_
      refine .bind (.ofExcept _) fun isVisited => ?_
      cases isVisited with
      | true => exact .pure walk
      | false => exact .bind (source.notes_log _ _) fun _ => .pure _

/-- A requirement that is met is met in a step that is told what the source can tell of it. -/
theorem exists_step_of_meet {source : Source (Stateful σ)} {walk next : Walk}
    {requirement : Requirement} {before after : σ}
    (ran : walk.meet source requirement before = .ok (next, after)) :
    ∃ news, Step walk requirement news next ∧ ∀ note ∈ news, source.Tells requirement note := by
  have same := walk.meet_recorded source requirement [] before
  rw [ran, Result.map_eq_ok_iff] at same
  obtain ⟨⟨other, told, memory⟩, recorded, equal⟩ := same
  obtain ⟨rfl, rfl⟩ := Prod.mk.inj equal
  obtain ⟨news, whole, step⟩ := step_of_meet recorded
  obtain ⟨news', whole', tells⟩ := walk.notes_meet source requirement _ _ _ _ _ recorded
  obtain rfl := List.append_cancel_right (whole.symm.trans whole')
  exact ⟨news, step, tells⟩

/-! ## Walks that follow a source -/

/-- That a walk which follows a source leads from one state to another, with what was told
before, latest first. -/
inductive Course (source : Source (Stateful σ)) : Walk → List Told → Walk → List Told → Prop
  | refl (walk : Walk) (told : List Told) : Course source walk told walk told
  | step {walk next finish : Walk} {requirement : Requirement} {rest : List Requirement}
      {told news all : List Told} (pending : walk.pending = requirement :: rest)
      (first : Step { walk with pending := rest } requirement news next)
      (tells : ∀ note ∈ news, source.Tells requirement note)
      (more : Course source next (news ++ told) finish all) : Course source walk told finish all

variable {source}

theorem Course.leads {walk finish : Walk} {told all : List Told}
    (course : Course source walk told finish all) : Leads walk told finish all := by
  induction course with
  | refl walk told => exact .refl walk told
  | step pending first tells more inductionHypothesis =>
      exact .step pending first inductionHypothesis

theorem course_of_run {steps : Nat} {walk finish : Walk} {told all : List Told}
    {before after : σ}
    (ran : run source.recorded steps walk (told, before) = .ok (some finish, (all, after))) :
    Course source walk told finish all ∧ finish.pending = [] := by
  induction steps generalizing walk told before with
  | zero =>
      obtain ⟨impossible, -⟩ := pure_eq_ok_iff.mp ran
      exact nomatch impossible
  | succ steps inductionHypothesis =>
      cases pending : walk.pending with
      | nil =>
          rw [run, pending] at ran
          obtain ⟨same, states⟩ := pure_eq_ok_iff.mp ran
          obtain rfl := Option.some.inj same
          obtain ⟨rfl, rfl⟩ := Prod.mk.inj states
          exact ⟨.refl walk told, pending⟩
      | cons requirement rest =>
          rw [run, pending] at ran
          obtain ⟨next, ⟨told₁, memory₁⟩, meets, met⟩ := bind_eq_ok_iff.mp ran
          obtain ⟨news, rfl, first⟩ := step_of_meet meets
          obtain ⟨news', whole, tells⟩ := notes_meet source _ _ _ _ _ _ _ meets
          obtain rfl := List.append_cancel_right whole
          obtain ⟨more, done⟩ := inductionHypothesis met
          exact ⟨.step pending first tells more, done⟩

end Walk

end Sources

/-! ## What is brought up -/

/-- What something that is told requires. -/
def Told.raises : Told → List Requirement
  | .described _ description =>
      description.metadata.dependencies.map fun entry => .listed entry.2
  | .loaded project => Requirement.ofProject project

/-- What is brought up by a project: what it declares, and whatever is required by something
that the source can tell of what is brought up. -/
inductive Project.BringsUp {σ : Type} (source : Source (Stateful σ)) (project : Project) :
    Requirement → Prop
  | declared {requirement : Requirement}
      (declares : requirement ∈ Requirement.ofProject project) :
      BringsUp source project requirement
  | raised {requirement next : Requirement} {note : Told}
      (earlier : BringsUp source project requirement)
      (tells : source.Tells requirement note) (raises : next ∈ note.raises) :
      BringsUp source project next

section Reach

variable {σ : Type} {source : Source (Stateful σ)}

/-- What is pending after a step was pending before it, or is required by what the step was
told. -/
theorem Walk.Step.pending_raised {walk next : Walk} {requirement : Requirement}
    {news : List Told} (step : Step walk requirement news next) {waiting : Requirement}
    (pending : waiting ∈ next.pending) :
    waiting ∈ walk.pending ∨ ∃ note ∈ news, waiting ∈ note.raises := by
  cases step with
  | met asks isMet => exact .inl pending
  | known published isVisited => exact .inl pending
  | chosen asks isMet description pinned =>
      rcases List.mem_append.mp pending with listed | waiting
      · exact .inr ⟨_, List.mem_singleton_self _, listed⟩
      · exact .inl waiting
  | visited published isVisited =>
      rcases List.mem_append.mp pending with declared | waiting
      · exact .inr ⟨_, List.mem_singleton_self _, declared⟩
      · exact .inl waiting

/-- A step leaves only what is brought up to be met. -/
theorem Walk.Step.bringsUp {project : Project} {walk next : Walk} {requirement : Requirement}
    {rest : List Requirement} {news : List Told} (pending : walk.pending = requirement :: rest)
    (step : Step { walk with pending := rest } requirement news next)
    (tells : ∀ note ∈ news, source.Tells requirement note)
    (broughtUp : ∀ waiting ∈ walk.pending, project.BringsUp source waiting) :
    ∀ waiting ∈ next.pending, project.BringsUp source waiting := by
  intro waiting member
  have first : project.BringsUp source requirement :=
    broughtUp requirement (pending ▸ List.mem_cons_self)
  rcases step.pending_raised member with before | ⟨note, noted, raises⟩
  · exact broughtUp waiting (pending ▸ List.mem_cons_of_mem _ before)
  · exact .raised first (tells note noted) raises

end Reach

/-- A resolution that succeeds is a walk that follows the source to an end, whose choices the
manifest records. -/
theorem Project.resolve_course {σ : Type} {source : Source (Stateful σ)} {project : Project}
    {manifest : Manifest} {before after : σ}
    (resolved : project.resolve source before = .ok (manifest, after)) :
    ∃ finish, Walk.Course source (Walk.start project) [] finish (project.told source before) ∧
      finish.pending = [] ∧ Manifest.ofChoices project.directory finish.chosen = .ok manifest := by
  obtain ⟨outcome, ⟨told, memory⟩, ran, recorded⟩ :=
    Stateful.bind_eq_ok_iff.mp (Project.resolve_told resolved)
  cases outcome with
  | none => exact nomatch recorded
  | some finish =>
      obtain ⟨made, same⟩ := Stateful.ofExcept_eq_ok_iff.mp recorded
      obtain ⟨rfl, rfl⟩ := Prod.mk.inj same
      obtain ⟨course, done⟩ := Walk.course_of_run ran
      exact ⟨finish, course, done, made⟩

end PackageResolution
