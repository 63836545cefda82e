import PackageResolution.Proofs.Uri.File
import PackageResolution.Uri.Resolve

/-!
# References inside an archive

An identifier with the scheme of archives leads to an entry after the first exclamation mark of its
path.  A reference that has neither a scheme nor an authority is followed from the entry alone, as
if there were no archive around it.  So however many of them are followed, and wherever they climb
to, the archive is the same, and with it all that is decided by the archive.
-/

namespace PackageResolution.Uri

/-! ## References without scheme and authority -/

/-- That an identifier has neither a scheme nor an authority. -/
structure IsInner (uri : Uri) : Prop where
  scheme : uri.scheme = none
  authority : uri.authority = none

instance (uri : Uri) : Decidable uri.IsInner :=
  decidable_of_iff (uri.scheme = none ∧ uri.authority = none)
    ⟨fun ⟨scheme, authority⟩ => ⟨scheme, authority⟩,
      fun inner => ⟨inner.scheme, inner.authority⟩⟩

variable {base reference entry : Uri}

theorem IsInner.follow (alone : entry.IsInner) (inner : reference.IsInner) :
    (follow entry reference).IsInner := by
  unfold Uri.follow
  rw [inner.authority, if_neg (by simp)]
  split
  · exact ⟨alone.scheme, alone.authority⟩
  · exact ⟨alone.scheme, alone.authority⟩

/-- A reference is followed from an inner identifier like a path from a path. -/
theorem IsInner.resolve_eq (alone : entry.IsInner) (inner : reference.IsInner) :
    resolve entry reference = Uri.follow entry reference := by
  have relative : reference.isAbsolute = false := by rw [isAbsolute, inner.scheme]; rfl
  have hierarchical : entry.isOpaque = false := by rw [isOpaque, alone.scheme]; rfl
  have notArchive : entry.scheme ≠ some "jar" := by rw [alone.scheme]; simp
  rw [resolve, relative, if_neg Bool.false_ne_true, if_neg notArchive, followPlain, hierarchical,
    if_neg Bool.false_ne_true]

theorem IsInner.resolve (alone : entry.IsInner) (inner : reference.IsInner) :
    (resolve entry reference).IsInner := by
  rw [alone.resolve_eq inner]
  exact alone.follow inner

/-- The path that a reference leads to is decided by the authority and the path of the base. -/
theorem path_follow_congr {other : Uri} (authority : base.authority = other.authority)
    (path : base.path = other.path) (reference : Uri) :
    (Uri.follow base reference).path = (Uri.follow other reference).path := by
  unfold Uri.follow merge
  rw [authority, path]
  split
  · rfl
  · split <;> rfl

/-! ## One reference after the other -/

/-- That an identifier leads to an entry of an archive. -/
structure LeadsInto (uri : Uri) (archive entry : String) : Prop where
  scheme : uri.scheme = some "jar"
  path : uri.path = archive ++ "!" ++ entry
  first : '!' ∉ archive.toList

variable {archive : String}

theorem LeadsInto.cut {entry : String} (inside : base.LeadsInto archive entry) :
    Text.cut? '!' base.path = some (archive, entry) :=
  Text.cut?_eq_some_iff.mpr ⟨by simp [inside.path], inside.first⟩

/-- A reference leads to the entry that it leads to from the entry of the base. -/
theorem LeadsInto.resolve (inside : base.LeadsInto archive entry.path) (alone : entry.IsInner)
    (inner : reference.IsInner) :
    (resolve base reference).authority = none ∧
      (resolve base reference).LeadsInto archive (Uri.resolve entry reference).path := by
  have relative : reference.isAbsolute = false := by rw [isAbsolute, inner.scheme]; rfl
  have ofEntry : (entryReference base entry.path).IsInner := ⟨rfl, rfl⟩
  have stays : (Uri.follow (entryReference base entry.path) reference).authority = none :=
    (ofEntry.follow inner).authority
  have samePath : (Uri.follow (entryReference base entry.path) reference).path =
      (Uri.resolve entry reference).path := by
    have sameAuthority : (entryReference base entry.path).authority = entry.authority :=
      alone.authority.symm
    rw [alone.resolve_eq inner]
    exact path_follow_congr sameAuthority rfl reference
  have whole : Uri.resolve base reference =
      { scheme := base.scheme
        authority := none
        path := archive ++ "!" ++ (Uri.resolve entry reference).path
        query := (Uri.follow (entryReference base entry.path) reference).query
        fragment := (Uri.follow (entryReference base entry.path) reference).fragment } := by
    rw [Uri.resolve, relative, if_neg Bool.false_ne_true, if_pos inside.scheme, followInArchive?,
      inside.cut]
    simp only [stays, Option.isSome_none, Bool.false_eq_true, if_false, Option.getD_some, samePath]
  rw [whole]
  exact ⟨rfl, inside.scheme, rfl, inside.first⟩

/-- The identifier that references lead to which are followed one after the other. -/
def resolveAll (base : Uri) (references : List Uri) : Uri :=
  references.foldl resolve base

/-- References that are followed one after the other lead to the entry that they lead to from the
entry of the base. -/
theorem LeadsInto.resolveAll {references : List Uri}
    (inner : ∀ reference ∈ references, reference.IsInner) (moved : references ≠ [])
    (inside : base.LeadsInto archive entry.path) (alone : entry.IsInner) :
    (base.resolveAll references).authority = none ∧
      (base.resolveAll references).LeadsInto archive (entry.resolveAll references).path := by
  -- the base and its entry move together, while the archive stays
  induction references generalizing base entry with
  | nil => exact absurd rfl moved
  | cons reference rest inductionHypothesis =>
      obtain ⟨first, later⟩ := List.forall_mem_cons.mp inner
      have step := inside.resolve alone first
      cases rest with
      | nil => exact step
      | cons next rest =>
          exact inductionHypothesis later (List.cons_ne_nil next rest) step.2 (alone.resolve first)

/-! ## What is decided by the archive -/

variable {uri other : Uri} {name otherName : String}

/-- The archive is what stands before the first exclamation mark. -/
theorem LeadsInto.beforeMark (inside : uri.LeadsInto archive name) :
    (Uri.beforeMark '!' uri.path).1 = archive := by
  rw [Uri.beforeMark, inside.cut]

theorem LeadsInto.archivePath?_eq (inside : uri.LeadsInto archive name)
    (otherInside : other.LeadsInto archive otherName) : uri.archivePath? = other.archivePath? := by
  rw [archivePath?, archivePath?, inside.beforeMark, otherInside.beforeMark]

theorem LeadsInto.hasScheme (inside : uri.LeadsInto archive name) :
    uri.hasScheme "jar" = true := by
  rw [Uri.hasScheme, inside.scheme]
  decide

/-- The root directory is compared with the path of the archive. -/
theorem LeadsInto.confinedPath? (inside : uri.LeadsInto archive name) :
    uri.confinedPath? = .ok uri.archivePath? := by
  have notFile : uri.hasScheme "file" = false := hasScheme_eq_false inside.hasScheme (by decide)
  rw [Uri.confinedPath?, notFile, if_neg Bool.false_ne_true, if_pos inside.hasScheme]

/-- The root directory holds one entry of an archive exactly if it holds another one. -/
theorem LeadsInto.checkRootDirectory_iff (inside : uri.LeadsInto archive name)
    (otherInside : other.LeadsInto archive otherName) (policy : Policy) (access : Access) :
    policy.checkRootDirectory access uri = .ok () ↔
      policy.checkRootDirectory access other = .ok () := by
  unfold Policy.checkRootDirectory
  rw [inside.confinedPath?, otherInside.confinedPath?, inside.archivePath?_eq otherInside]
  cases policy.rootDirectory with
  | none => exact Iff.rfl
  | some root =>
      cases other.archivePath? with
      | none => exact Iff.rfl
      | some path =>
          dsimp only
          split <;> simp

/-- An entry of an archive is trusted like a local file. -/
theorem LeadsInto.trustLevel (inside : uri.LeadsInto archive name) : uri.trustLevel = 30 := by
  have other : ∀ special ∈ ["repl", "file"], uri.hasScheme special = false := by
    intro special member
    have distinct : ∀ special ∈ ["repl", "file"], Text.lower special ≠ Text.lower "jar" := by
      decide
    exact hasScheme_eq_false inside.hasScheme (distinct special member)
  rw [Uri.trustLevel, other "repl" (by simp), other "file" (by simp), inside.hasScheme]
  rfl

/-- References without scheme and authority that are followed one after the other from an entry of
an archive lead to entries of the same archive: after each of them the entry is the one that they
lead to from the path of the first entry alone, and neither the root directory nor the trust tells
the identifier from the first one. -/
theorem references_stay_in_archive (jar : base.scheme = some "jar")
    (marked : '!' ∈ base.path.toList) :
    ∃ archive entry, base.path = archive ++ "!" ++ entry ∧ '!' ∉ archive.toList ∧
      ∀ references : List Uri, (∀ reference ∈ references, reference.IsInner) →
        ∀ followed, followed <+: references → followed ≠ [] →
          (base.resolveAll followed).scheme = some "jar" ∧
          (base.resolveAll followed).authority = none ∧
          (base.resolveAll followed).path =
            archive ++ "!" ++ (resolveAll ⟨none, none, entry, none, none⟩ followed).path ∧
          (base.resolveAll followed).archivePath? = base.archivePath? ∧
          (base.resolveAll followed).trustLevel = base.trustLevel ∧
          ∀ policy : Policy, ∀ access,
            policy.checkRootDirectory access (base.resolveAll followed) = .ok () ↔
              policy.checkRootDirectory access base = .ok () := by
  cases cut : Text.cut? '!' base.path with
  | none => exact absurd marked (Text.cut?_eq_none_iff.mp cut)
  | some parts =>
      obtain ⟨archive, entry⟩ := parts
      obtain ⟨chars, first⟩ := Text.cut?_eq_some_iff.mp cut
      have path : base.path = archive ++ "!" ++ entry :=
        String.toList_injective (by simpa using chars)
      refine ⟨archive, entry, path, first, ?_⟩
      intro references inner followed start moved
      have inside : base.LeadsInto archive entry := ⟨jar, path, first⟩
      obtain ⟨authority, stays⟩ := LeadsInto.resolveAll
        (fun reference member => inner reference (start.subset member)) moved inside
        (⟨rfl, rfl⟩ : IsInner ⟨none, none, entry, none, none⟩)
      exact ⟨stays.scheme, authority, stays.path, stays.archivePath?_eq inside,
        stays.trustLevel.trans inside.trustLevel.symm, stays.checkRootDirectory_iff inside⟩

/-- Neither a climb above the root of the archive nor an exclamation mark in a reference leads out
of the archive. -/
theorem egg_stays_in_archive :
    ∃ base climb absolute, parse "jar:file:///work/birds.jar!/nest/twig?q" = .ok base ∧
      base.scheme = some "jar" ∧ '!' ∈ base.path.toList ∧
      parse "../../../work/egg!/./x" = .ok climb ∧ parse "/..//feather#f" = .ok absolute ∧
      (∀ reference ∈ [climb, absolute], reference.IsInner) ∧
      (base.resolveAll [climb]).text = "jar:file:///work/birds.jar!/work/egg!/x" ∧
      (base.resolveAll [climb, absolute]).text = "jar:file:///work/birds.jar!//feather#f" ∧
      (base.resolveAll [climb, absolute]).archivePath? = some ⟨"/work/birds.jar"⟩ ∧
      (base.resolveAll [climb, absolute]).trustLevel = base.trustLevel ∧
      ∀ policy : Policy, ∀ access,
        policy.checkRootDirectory access (base.resolveAll [climb, absolute]) = .ok () ↔
          policy.checkRootDirectory access base = .ok () := by
  have readBase : parse "jar:file:///work/birds.jar!/nest/twig?q" =
      .ok ⟨some "jar", none, "file:///work/birds.jar!/nest/twig", some "q", none⟩ := rfl
  have readClimb : parse "../../../work/egg!/./x" =
      .ok ⟨none, none, "../../../work/egg!/./x", none, none⟩ := rfl
  have readAbsolute : parse "/..//feather#f" =
      .ok ⟨none, none, "/..//feather", none, some "f"⟩ := rfl
  refine ⟨_, _, _, readBase, rfl, by decide, readClimb, readAbsolute, by decide,
    by decide +kernel, by decide +kernel, ?_⟩
  have inner : ∀ reference ∈ [(⟨none, none, "../../../work/egg!/./x", none, none⟩ : Uri),
      ⟨none, none, "/..//feather", none, some "f"⟩], reference.IsInner := by decide
  obtain ⟨archive, entry, -, -, stays⟩ := references_stay_in_archive
    (rfl : (⟨some "jar", none, "file:///work/birds.jar!/nest/twig", some "q", none⟩ : Uri).scheme =
      some "jar") (by decide)
  obtain ⟨-, -, -, sameArchive, sameTrust, sameChecks⟩ :=
    stays _ inner _ (List.prefix_refl _) (by simp)
  exact ⟨sameArchive.trans (by decide +kernel), sameTrust, sameChecks⟩

end PackageResolution.Uri
