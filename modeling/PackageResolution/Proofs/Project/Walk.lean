import PackageResolution.Proofs.Project.Record

/-!
# The steps of a resolution

Meeting a requirement is one of four steps: a requirement for a package is met already, or
its version is chosen; a project was visited before, or it is visited now.  `Walk.Step` says
what each step is told and where it leads, whatever source the walk follows.
-/

namespace PackageResolution

/-- That a requirement is one for a package. -/
def Requirement.Asks : Requirement → PackageUri → Prop
  | .remote package, required => package = required
  | .listed dependency, required => dependency.package = .ok required
  | .localProject _, _ => False

namespace Walk

/-- That meeting a requirement leads from one state of the walk to another, with what is told
on the way. -/
inductive Step (walk : Walk) : Requirement → List Told → Walk → Prop
  /-- The requirement for a package is met by what was chosen. -/
  | met {requirement : Requirement} {required : PackageUri} (asks : requirement.Asks required)
      (isMet : walk.isMet required = .ok true) : Step walk requirement [] walk
  /-- The version that is required is chosen. -/
  | chosen {requirement : Requirement} {required : PackageUri}
      (asks : requirement.Asks required) (isMet : walk.isMet required = .ok false)
      (description : DescribedPackage)
      (pinned : checkPin required description.checksum = .ok ()) :
      Step walk requirement [.described required.unpinned description]
        (walk.choose required.key (.remote required.unpinned description.checksum)
          (Requirement.ofMetadata description.metadata))
  /-- The project was visited before. -/
  | known {path : Path} {project : Project} {package : PackageUri}
      (published : publishedPackage project = .ok package)
      (isVisited : walk.isVisited package.key project.directory = .ok true) :
      Step walk (.localProject path) [.loaded project] walk
  /-- The project is visited. -/
  | visited {path : Path} {project : Project} {package : PackageUri}
      (published : publishedPackage project = .ok package)
      (isVisited : walk.isVisited package.key project.directory = .ok false) :
      Step walk (.localProject path) [.loaded project]
        ({ walk with visited := project.directory :: walk.visited }.choose package.key
          (.localProject package project.directory) (Requirement.ofProject project))

/-- That a walk leads from one state to another, with what was told before, latest first. -/
inductive Leads : Walk → List Told → Walk → List Told → Prop
  | refl (walk : Walk) (told : List Told) : Leads walk told walk told
  | step {walk next finish : Walk} {requirement : Requirement} {rest : List Requirement}
      {told news all : List Told} (pending : walk.pending = requirement :: rest)
      (first : Step { walk with pending := rest } requirement news next)
      (more : Leads next (news ++ told) finish all) : Leads walk told finish all

/-! ## Every walk goes in steps -/

section Sources

open Stateful

variable {σ : Type} {source : Source (Stateful σ)}

theorem recorded_describe_eq_ok {package : PackageUri} {description : DescribedPackage}
    {told all : List Told} {before after : σ}
    (answered : source.recorded.describe package (told, before) =
      .ok (description, (all, after))) :
    all = .described package description :: told := by
  obtain ⟨⟨answer, memory⟩, -, returned⟩ := Result.bind_eq_ok_iff.mp answered
  simp only [Result.pure_eq_ok_iff, Prod.mk.injEq] at returned
  obtain ⟨rfl, rfl, rfl⟩ := returned
  rfl

theorem recorded_load_eq_ok {path : Path} {project : Project} {told all : List Told}
    {before after : σ}
    (answered : source.recorded.load path (told, before) = .ok (project, (all, after))) :
    all = .loaded project :: told := by
  obtain ⟨⟨answer, memory⟩, -, returned⟩ := Result.bind_eq_ok_iff.mp answered
  simp only [Result.pure_eq_ok_iff, Prod.mk.injEq] at returned
  obtain ⟨rfl, rfl, rfl⟩ := returned
  rfl

theorem recorded_log_eq_ok {entry : LogEntry} {told all : List Told} {before after : σ}
    (answered : source.recorded.log entry (told, before) = .ok ((), (all, after))) :
    all = told := by
  obtain ⟨⟨answer, memory⟩, -, returned⟩ := Result.bind_eq_ok_iff.mp answered
  simp only [Result.pure_eq_ok_iff, Prod.mk.injEq] at returned
  obtain ⟨-, rfl, rfl⟩ := returned
  rfl

theorem step_of_meetPackage {walk next : Walk} {requirement : Requirement}
    {required : PackageUri} (asks : requirement.Asks required) {told all : List Told}
    {before after : σ}
    (ran : walk.meetPackage source.recorded required (told, before) = .ok (next, (all, after))) :
    ∃ news, all = news ++ told ∧ Step walk requirement news next := by
  obtain ⟨isMet, ⟨told₁, memory₁⟩, decides, decided⟩ := bind_eq_ok_iff.mp ran
  obtain ⟨met, same⟩ := ofExcept_eq_ok_iff.mp decides
  obtain ⟨rfl, rfl⟩ := Prod.mk.inj same
  cases isMet with
  | true =>
      obtain ⟨rfl, ends⟩ := pure_eq_ok_iff.mp decided
      obtain ⟨rfl, rfl⟩ := Prod.mk.inj ends
      exact ⟨[], rfl, .met asks met⟩
  | false =>
      obtain ⟨⟨⟩, ⟨told₂, memory₂⟩, logs, logged⟩ := bind_eq_ok_iff.mp decided
      obtain ⟨description, ⟨told₃, memory₃⟩, describes, described⟩ :=
        bind_eq_ok_iff.mp logged
      obtain ⟨⟨⟩, ⟨told₄, memory₄⟩, checks, checked⟩ := bind_eq_ok_iff.mp described
      obtain ⟨pinned, unchanged⟩ := ofExcept_eq_ok_iff.mp checks
      obtain ⟨rfl, ends⟩ := pure_eq_ok_iff.mp checked
      obtain rfl := recorded_log_eq_ok logs
      obtain rfl := recorded_describe_eq_ok describes
      obtain ⟨rfl, rfl⟩ := Prod.mk.inj unchanged
      obtain ⟨rfl, rfl⟩ := Prod.mk.inj ends
      exact ⟨[.described required.unpinned description], rfl,
        .chosen asks met description pinned⟩

theorem step_of_meetProject {walk next : Walk} {path : Path} {told all : List Told}
    {before after : σ}
    (ran : walk.meetProject source.recorded path (told, before) = .ok (next, (all, after))) :
    ∃ news, all = news ++ told ∧ Step walk (.localProject path) news next := by
  obtain ⟨project, ⟨told₁, memory₁⟩, loads, loaded⟩ := bind_eq_ok_iff.mp ran
  obtain ⟨package, ⟨told₂, memory₂⟩, publishes, named⟩ := bind_eq_ok_iff.mp loaded
  obtain ⟨isVisited, ⟨told₃, memory₃⟩, decides, decided⟩ := bind_eq_ok_iff.mp named
  obtain ⟨published, unchanged⟩ := ofExcept_eq_ok_iff.mp publishes
  obtain ⟨known, same⟩ := ofExcept_eq_ok_iff.mp decides
  obtain rfl := recorded_load_eq_ok loads
  obtain ⟨rfl, rfl⟩ := Prod.mk.inj unchanged
  obtain ⟨rfl, rfl⟩ := Prod.mk.inj same
  cases isVisited with
  | true =>
      obtain ⟨rfl, ends⟩ := pure_eq_ok_iff.mp decided
      obtain ⟨rfl, rfl⟩ := Prod.mk.inj ends
      exact ⟨[.loaded project], rfl, .known published known⟩
  | false =>
      obtain ⟨⟨⟩, ⟨told₄, memory₄⟩, logs, logged⟩ := bind_eq_ok_iff.mp decided
      obtain ⟨rfl, ends⟩ := pure_eq_ok_iff.mp logged
      obtain rfl := recorded_log_eq_ok logs
      obtain ⟨rfl, rfl⟩ := Prod.mk.inj ends
      exact ⟨[.loaded project], rfl, .visited published known⟩

theorem step_of_meet {walk next : Walk} {requirement : Requirement} {told all : List Told}
    {before after : σ}
    (ran : walk.meet source.recorded requirement (told, before) = .ok (next, (all, after))) :
    ∃ news, all = news ++ told ∧ Step walk requirement news next := by
  cases requirement with
  | remote package =>
      have asks : Requirement.Asks (.remote package) package := rfl
      exact step_of_meetPackage asks ran
  | listed dependency =>
      obtain ⟨package, ⟨told₁, memory₁⟩, reads, meets⟩ := bind_eq_ok_iff.mp ran
      obtain ⟨named, same⟩ := ofExcept_eq_ok_iff.mp reads
      obtain ⟨rfl, rfl⟩ := Prod.mk.inj same
      have asks : Requirement.Asks (.listed dependency) package := named
      exact step_of_meetPackage asks meets
  | localProject path => exact step_of_meetProject ran

end Sources

end Walk

end PackageResolution
