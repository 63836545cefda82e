import Mathlib.Data.Set.Card
import Mathlib.Data.Set.Finite.Lattice
import PackageResolution.Proofs.Download.Pins
import PackageResolution.Proofs.Project.Record
import PackageResolution.Proofs.Project.Settlement

/-!
# The packages that are downloaded

Downloading works on a stack of packages, and passes over what it has seen.  When it succeeds,
it has downloaded each of the packages that are needed once, and nothing else: those that were
named, and with them whatever the metadata of a needed package lists.  It comes to an end if
these are finitely many, however they list each other, since every package that is not passed
over is one that was not seen before.

The loop is followed with any downloader that describes packages by fixed metadata, though it
can fail whenever it likes.
-/

namespace PackageResolution

/-- The packages, without their pins, that are needed for some packages, if `brings` tells what
a package brings along. -/
inductive Needed (brings : PackageUri → List PackageUri → Prop) (packages : List PackageUri) :
    PackageUri → Prop
  | named {package : PackageUri} (among : package ∈ packages) :
      Needed brings packages package.unpinned
  | brought {package dependency : PackageUri} {listed : List PackageUri}
      (needed : Needed brings packages package) (demands : brings package listed)
      (among : dependency ∈ listed) : Needed brings packages dependency.unpinned

/-- What packages bring along by their metadata: the packages that it lists, or nothing if
only the named packages are to be downloaded. -/
def Brings (metadataOf : PackageUri → PackageMetadata) (transitive : Bool)
    (package : PackageUri) (listed : List PackageUri) : Prop :=
  if transitive then (metadataOf package).listedPackages = .ok listed else listed = []

/-- Packages that bring nothing along need nothing else. -/
theorem needed_alone_iff {metadataOf : PackageUri → PackageMetadata} {packages : List PackageUri}
    {package : PackageUri} :
    Needed (Brings metadataOf false) packages package ↔
      package ∈ packages.map PackageUri.unpinned := by
  constructor
  · intro needed
    cases needed with
    | named among => exact List.mem_map_of_mem among
    | brought needed demands among =>
        obtain rfl : _ = [] := demands
        exact nomatch among
  · intro member
    obtain ⟨_, among, rfl⟩ := List.mem_map.mp member
    exact .named among

/-- A package brings along one list of packages. -/
theorem Brings.unique {metadataOf : PackageUri → PackageMetadata} {transitive : Bool}
    {package : PackageUri} {first second : List PackageUri}
    (brings : Brings metadataOf transitive package first)
    (brings' : Brings metadataOf transitive package second) : first = second := by
  unfold Brings at brings brings'
  split at brings <;> rename_i on
  · rw [if_pos on] at brings'
    exact Except.ok.inj (brings.symm.trans brings')
  · rw [if_neg on] at brings'
    exact brings.trans brings'.symm

namespace Downloader

variable {σ : Type}

/-- That a downloader describes packages by fixed metadata. -/
def Describes (downloader : Downloader (Stateful σ))
    (metadataOf : PackageUri → PackageMetadata) : Prop :=
  ∀ package before metadata after, downloader.describe package before = .ok (metadata, after) →
    metadata = metadataOf package.unpinned

/-- The downloader that notes what it is given to download, latest first. -/
def noted (downloader : Downloader (Stateful σ)) :
    Downloader (Stateful (List PackageUri × σ)) where
  download package := fun (given, memory) => do
    let ((), memory) ← downloader.download package memory
    return ((), (package :: given, memory))
  describe package := fun (given, memory) => do
    let (metadata, memory) ← downloader.describe package memory
    return (metadata, (given, memory))

/-- Downloads some packages, if that ends before a number of packages were met. -/
def downloadWithin {m : Type → Type} [Monad m] [MonadExceptOf Error m] (limit : Nat)
    (downloader : Downloader m) (transitive : Bool) (packages : List PackageUri) : m Unit := do
  unless ← Downloads.run downloader transitive limit (.start packages) do
    throw (.packageLoad .endless)

theorem downloadAll_eq_downloadWithin {m : Type → Type} [Monad m] [MonadExceptOf Error m]
    (downloader : Downloader m) (transitive : Bool) (packages : List PackageUri) :
    downloader.downloadAll transitive packages =
      downloader.downloadWithin Downloads.stepLimit transitive packages :=
  rfl

/-- The packages that are given to a downloader, in their order, if downloading succeeds. -/
def downloaded (downloader : Downloader (Stateful σ)) (limit : Nat) (transitive : Bool)
    (packages : List PackageUri) (memory : σ) : List PackageUri :=
  match downloader.noted.downloadWithin limit transitive packages ([], memory) with
  | .ok (_, (given, _)) => given.reverse
  | .error _ => []

section

variable {downloader : Downloader (Stateful σ)} {metadataOf : PackageUri → PackageMetadata}

theorem noted_download_eq_ok {package : PackageUri} {given given' : List PackageUri}
    {before after : σ}
    (ran : downloader.noted.download package (given, before) = .ok ((), (given', after))) :
    given' = package :: given := by
  obtain ⟨⟨⟨⟩, memory⟩, -, returned⟩ := Result.bind_eq_ok_iff.mp ran
  simp only [Result.pure_eq_ok_iff, Prod.mk.injEq] at returned
  exact returned.2.1.symm

theorem noted_describe_eq_ok {package : PackageUri} {metadata : PackageMetadata}
    {given given' : List PackageUri} {before after : σ}
    (ran : downloader.noted.describe package (given, before) = .ok (metadata, (given', after))) :
    given' = given ∧ downloader.describe package before = .ok (metadata, after) := by
  obtain ⟨⟨answer, memory⟩, described, returned⟩ := Result.bind_eq_ok_iff.mp ran
  simp only [Result.pure_eq_ok_iff, Prod.mk.injEq] at returned
  obtain ⟨rfl, rfl, rfl⟩ := returned
  exact ⟨rfl, described⟩

theorem Describes.noted (describes : downloader.Describes metadataOf) :
    downloader.noted.Describes metadataOf := by
  rintro package ⟨given, before⟩ metadata ⟨given', after⟩ ran
  exact describes package before metadata after (noted_describe_eq_ok ran).2

end

end Downloader

/-! ## Steps -/

namespace Downloads

open Stateful

variable {σ : Type} {metadataOf : PackageUri → PackageMetadata} {transitive : Bool}

section

variable {downloader : Downloader (Stateful σ)}

/-- What a package brings along is what its metadata lists. -/
theorem brings_of_broughtAlong (describes : downloader.Describes metadataOf)
    {package : PackageUri} {listed : List PackageUri} {before after : σ}
    (ran : broughtAlong downloader transitive package before = .ok (listed, after)) :
    Brings metadataOf transitive package.unpinned listed := by
  unfold broughtAlong at ran
  cases transitive with
  | false =>
      obtain ⟨rfl, -⟩ := pure_eq_ok_iff.mp ran
      rfl
  | true =>
      obtain ⟨metadata, between, described, lists⟩ := bind_eq_ok_iff.mp ran
      obtain ⟨listed, -⟩ := ofExcept_eq_ok_iff.mp lists
      obtain rfl := describes _ _ _ _ described
      exact listed

theorem given_of_broughtAlong {package : PackageUri} {listed given given' : List PackageUri}
    {before after : σ}
    (ran : broughtAlong downloader.noted transitive package (given, before) =
      .ok (listed, (given', after))) : given' = given := by
  unfold broughtAlong at ran
  cases transitive with
  | false =>
      obtain ⟨-, same⟩ := pure_eq_ok_iff.mp ran
      exact (Prod.mk.inj same).1.symm
  | true =>
      obtain ⟨metadata, ⟨between, memory⟩, described, lists⟩ := bind_eq_ok_iff.mp ran
      obtain ⟨-, same⟩ := ofExcept_eq_ok_iff.mp lists
      obtain ⟨rfl, -⟩ := Prod.mk.inj same
      exact (Downloader.noted_describe_eq_ok described).1

/-- Meeting a package is a step. -/
theorem step_of_meet (describes : downloader.Describes metadataOf) {downloads next : Downloads}
    {package : PackageUri} {before after : σ}
    (ran : downloads.meet downloader transitive package before = .ok (next, after)) :
    Step (fun package => Brings metadataOf transitive package.unpinned) downloads package
      next := by
  unfold meet at ran
  by_cases known : package.unpinned ∈ downloads.seen
  · rw [if_pos (List.contains_iff_mem.mpr known)] at ran
    obtain ⟨rfl, -⟩ := pure_eq_ok_iff.mp ran
    exact .again known
  · rw [if_neg (List.contains_iff_mem.not.mpr known)] at ran
    obtain ⟨⟨⟩, between, -, met⟩ := bind_eq_ok_iff.mp ran
    obtain ⟨listed, memory, brought, ends⟩ := bind_eq_ok_iff.mp met
    obtain ⟨rfl, -⟩ := pure_eq_ok_iff.mp ends
    exact .first known (brings_of_broughtAlong describes brought)

/-- What was given to the downloader is noted in front, and seen from then on. -/
theorem given_of_meet {downloads next : Downloads} {package : PackageUri}
    {given given' : List PackageUri} {before after : σ}
    (ran : downloads.meet downloader.noted transitive package (given, before) =
      .ok (next, (given', after))) :
    ∃ news : List PackageUri, given' = news ++ given ∧
      next.seen = news.map PackageUri.unpinned ++ downloads.seen := by
  unfold meet at ran
  by_cases known : package.unpinned ∈ downloads.seen
  · rw [if_pos (List.contains_iff_mem.mpr known)] at ran
    obtain ⟨rfl, same⟩ := pure_eq_ok_iff.mp ran
    obtain ⟨rfl, -⟩ := Prod.mk.inj same
    exact ⟨[], rfl, rfl⟩
  · rw [if_neg (List.contains_iff_mem.not.mpr known)] at ran
    obtain ⟨⟨⟩, ⟨given₁, memory₁⟩, gives, met⟩ := bind_eq_ok_iff.mp ran
    obtain ⟨listed, ⟨given₂, memory₂⟩, brought, ends⟩ := bind_eq_ok_iff.mp met
    obtain ⟨rfl, same⟩ := pure_eq_ok_iff.mp ends
    obtain ⟨rfl, -⟩ := Prod.mk.inj same
    obtain rfl := Downloader.noted_download_eq_ok gives
    obtain rfl := given_of_broughtAlong brought
    exact ⟨[package], rfl, rfl⟩

end

/-! ## What is gathered -/

/-- That a package was seen or is pending. -/
def Knows (downloads : Downloads) (package : PackageUri) : Prop :=
  package ∈ downloads.seen ∨ package ∈ downloads.pending.map PackageUri.unpinned

theorem Step.knows {lists : PackageUri → List PackageUri → Prop} {rest seen : List PackageUri}
    {package other : PackageUri} {next : Downloads} (step : Step lists ⟨rest, seen⟩ package next)
    (knows : Knows ⟨package :: rest, seen⟩ other) : next.Knows other := by
  cases step with
  | again known =>
      rcases knows with before | pending
      · exact .inl before
      · rcases List.mem_cons.mp pending with rfl | waiting
        · exact .inl known
        · exact .inr waiting
  | first unknown demands =>
      rcases knows with before | pending
      · exact .inl (List.mem_cons_of_mem _ before)
      · rcases List.mem_cons.mp pending with rfl | waiting
        · exact .inl List.mem_cons_self
        · rw [Knows, List.map_append]
          exact .inr (List.mem_append_right _ waiting)

/-- A step leaves only what is needed to be met. -/
theorem Step.needed {packages rest seen : List PackageUri} {package : PackageUri}
    {next : Downloads}
    (step : Step (fun package => Brings metadataOf transitive package.unpinned) ⟨rest, seen⟩
      package next)
    (pending : ∀ waiting ∈ package :: rest,
      Needed (Brings metadataOf transitive) packages waiting.unpinned) :
    ∀ waiting ∈ next.pending,
      Needed (Brings metadataOf transitive) packages waiting.unpinned := by
  intro other among
  cases step with
  | again known => exact pending other (List.mem_cons_of_mem _ among)
  | first unknown demands =>
      rcases List.mem_append.mp among with listed | waiting
      · exact .brought (pending package List.mem_cons_self) demands (List.mem_reverse.mp listed)
      · exact pending other (List.mem_cons_of_mem _ waiting)

/-- What holds at every point of downloading, of what was given to the downloader. -/
structure Gathers (metadataOf : PackageUri → PackageMetadata) (transitive : Bool)
    (packages given : List PackageUri) (downloads : Downloads) : Prop where
  /-- What was seen is what was given. -/
  seen : downloads.seen = given.map PackageUri.unpinned
  /-- Nothing was given twice. -/
  nodup : downloads.seen.Nodup
  /-- What was given is needed. -/
  needed : ∀ package ∈ downloads.seen, Needed (Brings metadataOf transitive) packages package
  /-- What is pending is needed. -/
  pending : ∀ package ∈ downloads.pending,
    Needed (Brings metadataOf transitive) packages package.unpinned
  /-- What was named was given or is pending. -/
  named : ∀ package ∈ packages, downloads.Knows package.unpinned
  /-- What was brought along was given or is pending. -/
  brought : ∀ package ∈ downloads.seen, ∃ listed, Brings metadataOf transitive package listed ∧
    ∀ dependency ∈ listed, downloads.Knows dependency.unpinned

namespace Gathers

variable {packages given : List PackageUri}

theorem start (packages : List PackageUri) :
    Gathers metadataOf transitive packages [] (.start packages) where
  seen := rfl
  nodup := List.nodup_nil
  needed _ among := nomatch among
  pending _ among := .named (List.mem_reverse.mp among)
  named _ among := .inr (List.mem_map_of_mem (List.mem_reverse.mpr among))
  brought _ among := nomatch among

/-- Every step keeps the invariant. -/
theorem step {package : PackageUri} {rest seen news : List PackageUri} {next : Downloads}
    (gathers : Gathers metadataOf transitive packages given ⟨package :: rest, seen⟩)
    (taken : Step (fun package => Brings metadataOf transitive package.unpinned) ⟨rest, seen⟩
      package next) (added : next.seen = news.map PackageUri.unpinned ++ seen) :
    Gathers metadataOf transitive packages (news ++ given) next where
  seen := by rw [added, List.map_append, ← gathers.seen]
  nodup := by
    cases taken with
    | again known => exact gathers.nodup
    | first unknown demands => exact List.nodup_cons.mpr ⟨unknown, gathers.nodup⟩
  needed other among := by
    have first := gathers.pending package List.mem_cons_self
    cases taken with
    | again known => exact gathers.needed other among
    | first unknown demands =>
        rcases List.mem_cons.mp among with rfl | before
        · exact first
        · exact gathers.needed other before
  pending := taken.needed gathers.pending
  named other among := taken.knows (gathers.named other among)
  brought other among := by
    have before (known : other ∈ seen) : ∃ listed, Brings metadataOf transitive other listed ∧
        ∀ dependency ∈ listed, next.Knows dependency.unpinned := by
      obtain ⟨listed, brings, knows⟩ := gathers.brought other known
      exact ⟨listed, brings, fun dependency within => taken.knows (knows dependency within)⟩
    cases taken with
    | again known => exact before among
    | @first listed unknown demands =>
        rcases List.mem_cons.mp among with rfl | known
        · refine ⟨listed, demands, fun dependency within => .inr ?_⟩
          exact List.mem_map_of_mem (List.mem_append_left _ (List.mem_reverse.mpr within))
        · exact before known

/-- Where nothing is pending, exactly what is needed was given. -/
theorem mem_iff {downloads : Downloads}
    (gathers : Gathers metadataOf transitive packages given downloads)
    (done : downloads.pending = []) (package : PackageUri) :
    package ∈ given.map PackageUri.unpinned ↔
      Needed (Brings metadataOf transitive) packages package := by
  have settled {other : PackageUri} (knows : downloads.Knows other) : other ∈ downloads.seen := by
    rcases knows with seen | pending
    · exact seen
    · rw [done] at pending
      exact nomatch pending
  rw [← gathers.seen]
  constructor
  · exact gathers.needed package
  · intro needed
    induction needed with
    | named among => exact settled (gathers.named _ among)
    | brought needed demands among inductionHypothesis =>
        obtain ⟨listed, brings, knows⟩ := gathers.brought _ inductionHypothesis
        obtain rfl := brings.unique demands
        exact settled (knows _ among)

/-- Downloading that comes to its end keeps the invariant. -/
theorem run {downloader : Downloader (Stateful σ)} (describes : downloader.Describes metadataOf)
    {steps : Nat} {downloads : Downloads} {all : List PackageUri} {before after : σ}
    (gathers : Gathers metadataOf transitive packages given downloads)
    (ran : Downloads.run downloader.noted transitive steps downloads (given, before) =
      .ok (true, (all, after))) :
    ∃ finish, Gathers metadataOf transitive packages all finish ∧ finish.pending = [] := by
  induction steps generalizing downloads given before with
  | zero =>
      obtain ⟨impossible, -⟩ := pure_eq_ok_iff.mp ran
      exact nomatch impossible
  | succ steps inductionHypothesis =>
      obtain ⟨_ | ⟨package, rest⟩, seen⟩ := downloads
      · obtain ⟨-, same⟩ := pure_eq_ok_iff.mp ran
        obtain ⟨rfl, -⟩ := Prod.mk.inj same
        exact ⟨_, gathers, rfl⟩
      · obtain ⟨next, ⟨given', memory⟩, met, more⟩ := bind_eq_ok_iff.mp ran
        obtain ⟨news, rfl, added⟩ := given_of_meet met
        have taken := step_of_meet describes.noted met
        exact inductionHypothesis (gathers.step taken added) more

end Gathers

/-! ## Noting changes nothing -/

section

variable (downloader : Downloader (Stateful σ))

theorem noted_download (package : PackageUri) :
    Follows (downloader.noted.download package) (downloader.download package) := by
  intro given memory
  cases answer : downloader.download package memory <;>
    simp [Downloader.noted, answer, bind, Except.bind, pure, Except.pure, Except.map]

theorem noted_describe (package : PackageUri) :
    Follows (downloader.noted.describe package) (downloader.describe package) := by
  intro given memory
  cases answer : downloader.describe package memory <;>
    simp [Downloader.noted, answer, bind, Except.bind, pure, Except.pure, Except.map]

theorem noted_broughtAlong (transitive : Bool) (package : PackageUri) :
    Follows (broughtAlong downloader.noted transitive package)
      (broughtAlong downloader transitive package) := by
  unfold broughtAlong
  cases transitive with
  | false => exact .pure []
  | true => exact .bind (noted_describe downloader package) fun metadata => .ofExcept _

theorem noted_meet (transitive : Bool) (downloads : Downloads) (package : PackageUri) :
    Follows (downloads.meet downloader.noted transitive package)
      (downloads.meet downloader transitive package) := by
  unfold meet
  split
  · exact .pure downloads
  · refine .bind (noted_download downloader package) fun _ => ?_
    exact .bind (noted_broughtAlong downloader transitive package) fun _ => .pure _

theorem noted_run (transitive : Bool) (steps : Nat) (downloads : Downloads) :
    Follows (run downloader.noted transitive steps downloads)
      (run downloader transitive steps downloads) := by
  induction steps generalizing downloads with
  | zero => exact .pure false
  | succ steps inductionHypothesis =>
      obtain ⟨_ | ⟨package, rest⟩, seen⟩ := downloads
      · exact .pure true
      · exact .bind (noted_meet downloader transitive _ package) inductionHypothesis

end

/-! ## Coming to an end -/

/-- That downloading comes to its end, or fails, before a number of packages were met. -/
def Ends (downloader : Downloader (Stateful σ)) (transitive : Bool) (steps : Nat)
    (downloads : Downloads) (memory : σ) : Prop :=
  ∀ after, run downloader transitive steps downloads memory ≠ .ok (false, after)

theorem run_cons (downloader : Downloader (Stateful σ)) (transitive : Bool) (steps : Nat)
    (package : PackageUri) (rest seen : List PackageUri) :
    run downloader transitive (steps + 1) ⟨package :: rest, seen⟩ =
      (meet downloader transitive ⟨rest, seen⟩ package >>= run downloader transitive steps) :=
  rfl

variable {downloader : Downloader (Stateful σ)}

/-- Downloading that comes to its end comes to the same end when it may go further. -/
theorem run_of_le {steps more : Nat} {downloads : Downloads} {memory : σ}
    (ends : Ends downloader transitive steps downloads memory) (le : steps ≤ more) :
    run downloader transitive more downloads memory =
      run downloader transitive steps downloads memory := by
  induction steps generalizing more downloads memory with
  | zero => exact absurd rfl (ends memory)
  | succ steps inductionHypothesis =>
      obtain ⟨more, rfl⟩ : ∃ fewer, more = fewer + 1 := ⟨more - 1, by omega⟩
      obtain ⟨_ | ⟨package, rest⟩, seen⟩ := downloads
      · rfl
      · rw [run_cons, run_cons]
        cases met : meet downloader transitive ⟨rest, seen⟩ package memory with
        | error failure => rw [Stateful.bind_of_error met, Stateful.bind_of_error met]
        | ok pair =>
            rw [Stateful.bind_of_ok met, Stateful.bind_of_ok met]
            refine inductionHypothesis (fun after ran => ends after ?_) (by omega)
            rw [run_cons, Stateful.bind_of_ok met, ran]

/-- How many of the packages that are needed were not seen. -/
noncomputable def remaining (metadataOf : PackageUri → PackageMetadata) (transitive : Bool)
    (packages : List PackageUri) (downloads : Downloads) : Nat :=
  {package | Needed (Brings metadataOf transitive) packages package ∧
    package ∉ downloads.seen}.ncard

/-- A step leaves fewer packages, or as many and nothing new to be met. -/
theorem Step.remaining_lt {packages rest seen : List PackageUri} {package : PackageUri}
    {next : Downloads}
    (finite : {package | Needed (Brings metadataOf transitive) packages package}.Finite)
    (needed : Needed (Brings metadataOf transitive) packages package.unpinned)
    (step : Step (fun package => Brings metadataOf transitive package.unpinned) ⟨rest, seen⟩
      package next) :
    next = ⟨rest, seen⟩ ∨ next.remaining metadataOf transitive packages <
      remaining metadataOf transitive packages ⟨package :: rest, seen⟩ := by
  cases step with
  | again known => exact .inl rfl
  | first unknown demands =>
      refine .inr (Set.ncard_lt_ncard ?_ (finite.subset fun other among => among.1))
      rw [Set.ssubset_iff_exists]
      refine ⟨?_, package.unpinned, ⟨needed, unknown⟩, fun among => ?_⟩
      · exact fun other among =>
          ⟨among.1, fun before => among.2 (List.mem_cons_of_mem _ before)⟩
      · exact among.2 List.mem_cons_self

/-- Downloading of which finitely many packages are needed comes to its end, or fails. -/
theorem exists_ends {packages : List PackageUri} (describes : downloader.Describes metadataOf)
    (finite : {package | Needed (Brings metadataOf transitive) packages package}.Finite)
    (downloads : Downloads) (pending : ∀ package ∈ downloads.pending,
      Needed (Brings metadataOf transitive) packages package.unpinned) (memory : σ) :
    ∃ steps, Ends downloader transitive steps downloads memory :=
  match downloads with
  | ⟨[], seen⟩ => ⟨1, fun after ran => nomatch (pure_eq_ok_iff.mp ran).1⟩
  | ⟨package :: rest, seen⟩ => by
      cases met : meet downloader transitive ⟨rest, seen⟩ package memory with
      | error failure =>
          refine ⟨1, fun after ran => ?_⟩
          rw [run_cons, Stateful.bind_of_error met] at ran
          exact nomatch ran
      | ok pair =>
          obtain ⟨next, between⟩ := pair
          have taken := step_of_meet describes met
          have less := taken.remaining_lt finite (pending package List.mem_cons_self)
          obtain ⟨steps, ends⟩ :=
            exists_ends describes finite next (taken.needed pending) between
          refine ⟨steps + 1, fun after ran => ends after ?_⟩
          rwa [run_cons, Stateful.bind_of_ok met] at ran
termination_by (downloads.remaining metadataOf transitive packages, downloads.pending.length)
decreasing_by
  rcases less with rfl | less
  · exact Prod.Lex.right _ (Nat.lt_succ_self _)
  · exact Prod.Lex.left _ _ less

end Downloads

/-! ## Downloading -/

namespace Downloader

open Stateful

variable {σ : Type} {metadataOf : PackageUri → PackageMetadata} {transitive : Bool}
  {downloader : Downloader (Stateful σ)} {packages : List PackageUri} {limit : Nat}
  {before after : σ}

theorem run_of_downloadWithin
    (done : downloader.downloadWithin limit transitive packages before = .ok ((), after)) :
    Downloads.run downloader transitive limit (.start packages) before = .ok (true, after) := by
  obtain ⟨ended, memory, ran, checked⟩ := bind_eq_ok_iff.mp done
  cases ended with
  | false => exact nomatch checked
  | true =>
      obtain ⟨-, rfl⟩ := pure_eq_ok_iff.mp checked
      exact ran

/-- What is downloaded is what the noting downloader was given. -/
theorem run_noted
    (done : downloader.downloadWithin limit transitive packages before = .ok ((), after)) :
    Downloads.run downloader.noted transitive limit (.start packages) ([], before) =
      .ok (true, ((downloader.downloaded limit transitive packages before).reverse, after)) := by
  have follows := Downloads.noted_run downloader transitive limit (.start packages) [] before
  rw [run_of_downloadWithin done, Result.map_eq_ok_iff] at follows
  obtain ⟨⟨ended, given, memory⟩, ran, same⟩ := follows
  obtain ⟨rfl, rfl⟩ := Prod.mk.inj same
  have noted : downloader.noted.downloadWithin limit transitive packages ([], before) =
      .ok ((), (given, memory)) :=
    bind_of_ok ran
  rw [downloaded, noted, ran, List.reverse_reverse]

/-- If finitely many packages are needed, then downloading comes to an end after a number of
packages, and to the same end whenever it may meet more.  Whenever it succeeds, the packages
that were downloaded differ apart from their pins, and they are those that are needed: exactly
the named ones if nothing else is to be downloaded, and otherwise the least set with the named
ones and with all that the metadata of its members lists. -/
theorem downloadAll_downloads_needed (describes : downloader.Describes metadataOf)
    (packages : List PackageUri) (memory : σ) :
    (∀ transitive,
      {package | Needed (Brings metadataOf transitive) packages package}.Finite →
        ∃ limit, Downloads.Ends downloader transitive limit (.start packages) memory ∧
          (∀ more, limit ≤ more → downloader.downloadWithin more transitive packages memory =
            downloader.downloadWithin limit transitive packages memory) ∧
          (limit ≤ Downloads.stepLimit → downloader.downloadAll transitive packages memory =
            downloader.downloadWithin limit transitive packages memory)) ∧
    ∀ transitive limit after,
      downloader.downloadWithin limit transitive packages memory = .ok ((), after) →
        ((downloader.downloaded limit transitive packages memory).map
          PackageUri.unpinned).Nodup ∧
        ∀ package, package ∈ (downloader.downloaded limit transitive packages memory).map
            PackageUri.unpinned ↔
          if transitive then
            Needed (fun package listed => (metadataOf package).listedPackages = .ok listed)
              packages package
          else package ∈ packages.map PackageUri.unpinned := by
  constructor
  · intro transitive finite
    have named : ∀ package ∈ (Downloads.start packages).pending,
        Needed (Brings metadataOf transitive) packages package.unpinned :=
      fun package among => .named (List.mem_reverse.mp among)
    obtain ⟨limit, ends⟩ := Downloads.exists_ends describes finite _ named memory
    have same (more : Nat) (le : limit ≤ more) :
        downloader.downloadWithin more transitive packages memory =
          downloader.downloadWithin limit transitive packages memory := by
      change Except.bind (Downloads.run downloader transitive more _ memory) _ =
        Except.bind (Downloads.run downloader transitive limit _ memory) _
      rw [Downloads.run_of_le ends le]
    exact ⟨limit, ends, same, same Downloads.stepLimit⟩
  · intro transitive limit after done
    have ran := run_noted done
    obtain ⟨finish, gathers, ended⟩ :=
      (Downloads.Gathers.start packages).run describes ran
    constructor
    · have apart := gathers.nodup
      rwa [gathers.seen, List.map_reverse, List.nodup_reverse] at apart
    · intro package
      have members := gathers.mem_iff ended package
      rw [List.map_reverse, List.mem_reverse] at members
      rw [members]
      cases transitive with
      | false => exact needed_alone_iff
      | true => exact Iff.rfl

end Downloader

/-! ## A cycle

The birds and the seeds list each other, and the seeds are downloaded. -/

namespace Aviary

/-- The seeds. -/
def seedPackage : PackageUri :=
  release "/seeds" isPath_seeds 1 one_lt_limit none

/-- The birds that the seeds list. -/
def birdPackage : PackageUri :=
  birds 6 six_lt_limit none

/-- The metadata of birds and seeds that list each other. -/
def cyclicMetadata (package : PackageUri) : PackageMetadata :=
  if package.path = "/seeds" then metadata [("birds", listedBirds)]
  else metadata [("seeds", listedSeeds)]

/-- A downloader that has them. -/
def downloader : Downloader (Stateful Unit) where
  download _ := return ()
  describe package := return cyclicMetadata package.unpinned

theorem downloader_describes : downloader.Describes cyclicMetadata := by
  intro package before metadata after ran
  exact (Stateful.pure_eq_ok_iff.mp ran).1.symm

theorem seeds_list_birds : (cyclicMetadata seedPackage).listedPackages = .ok [pinnedBirds] := by
  decide +kernel

theorem birds_list_seeds : (cyclicMetadata birdPackage).listedPackages = .ok [seedPackage] := by
  decide +kernel

/-- The cycle needs no other package. -/
theorem mem_of_needed {package : PackageUri}
    (needed : Needed (Brings cyclicMetadata true) [seedPackage] package) :
    package ∈ [seedPackage, birdPackage] := by
  induction needed with
  | named among =>
      obtain rfl := List.mem_singleton.mp among
      exact List.mem_cons_self
  | @brought package dependency listed needed demands among inductionHypothesis =>
      have lists : (cyclicMetadata package).listedPackages = .ok listed := demands
      rcases List.mem_cons.mp inductionHypothesis with rfl | second
      · obtain rfl := Except.ok.inj (seeds_list_birds.symm.trans lists)
        obtain rfl := List.mem_singleton.mp among
        exact List.mem_cons_of_mem _ List.mem_cons_self
      · obtain rfl := List.mem_singleton.mp second
        obtain rfl := Except.ok.inj (birds_list_seeds.symm.trans lists)
        obtain rfl := List.mem_singleton.mp among
        exact List.mem_cons_self

end Aviary

open Aviary in
/-- Both packages of the cycle are downloaded, each of them once. -/
theorem Downloader.downloadAll_downloads_cycle :
    {package | Needed (Brings cyclicMetadata true) [seedPackage] package}.Finite ∧
      (∃ limit, Downloads.Ends downloader true limit (.start [seedPackage]) ()) ∧
      downloader.downloadAll true [seedPackage] () = .ok ((), ()) ∧
      downloader.downloaded Downloads.stepLimit true [seedPackage] () =
        [seedPackage, pinnedBirds] ∧
      Needed (fun package listed => (cyclicMetadata package).listedPackages = .ok listed)
        [seedPackage] birdPackage := by
  have finite : {package | Needed (Brings cyclicMetadata true) [seedPackage] package}.Finite :=
    (List.finite_toSet [seedPackage, birdPackage]).subset fun _ needed => mem_of_needed needed
  have done : downloader.downloadWithin Downloads.stepLimit true [seedPackage] () =
      .ok ((), ()) := by decide +kernel
  have downloaded : downloader.downloaded Downloads.stepLimit true [seedPackage] () =
      [seedPackage, pinnedBirds] := by decide +kernel
  have result := downloadAll_downloads_needed downloader_describes [seedPackage] ()
  obtain ⟨limit, ends, -⟩ := result.1 true finite
  have birds := (result.2 true Downloads.stepLimit () done).2 birdPackage
  rw [downloaded] at birds
  exact ⟨finite, ⟨limit, ends⟩, done, downloaded, birds.mp (by decide)⟩

end PackageResolution
