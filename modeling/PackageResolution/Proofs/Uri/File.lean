import PackageResolution.Proofs.Text.Percent
import PackageResolution.Security

/-!
# Which identifiers lead to local files

An identifier names a local file if its scheme is `file`, its path begins with a slash and
its authority is that of the local host.  The path that it names is then an absolute one.
An identifier with the scheme `jar` leads to the archive that it looks into.
-/

namespace PackageResolution.Uri

variable {uri : Uri} {path : Path}

/-- An identifier has no second scheme. -/
theorem hasScheme_eq_false {scheme other : String} (has : uri.hasScheme scheme = true)
    (different : Text.lower other ≠ Text.lower scheme) : uri.hasScheme other = false := by
  rw [hasScheme, Option.any_eq_true] at has
  rcases has with ⟨written, present, same⟩
  rw [Text.sameIgnoringCase, beq_iff_eq] at same
  rw [hasScheme, present, Option.any_some, Text.sameIgnoringCase, beq_eq_false_iff_ne, ← same]
  exact different

/-- The identifiers of local files, and the paths that they name. -/
theorem toPath_eq_some_iff : uri.toPath = .ok (some path) ↔
    uri.scheme = some "file" ∧ Text.beginsWith '/' uri.path = true ∧
      isLocalAuthority uri.authority = true ∧ Percent.decode uri.path = .ok path.text := by
  constructor
  · intro leads
    unfold toPath at leads
    split at leads
    · exact nomatch leads
    split at leads
    · rename_i conditions
      rw [Bool.and_eq_true, Bool.and_eq_true, decide_eq_true_eq] at conditions
      cases read : Percent.decode uri.path with
      | error cause =>
          rw [read] at leads
          exact nomatch leads
      | ok text =>
          rw [read] at leads
          obtain rfl : path = ⟨text⟩ := (Option.some.inj (Except.ok.inj leads)).symm
          exact ⟨conditions.1.1, conditions.1.2, conditions.2, rfl⟩
    · exact nomatch leads
  · rintro ⟨scheme, begun, isLocal, read⟩
    simp [toPath, isAbsolute, scheme, begun, isLocal, read]

/-- An identifier names an absolute path. -/
theorem isAbsolute_of_toPath (leads : uri.toPath = .ok (some path)) :
    path.isAbsolute = true := by
  rcases toPath_eq_some_iff.mp leads with ⟨-, begun, -, read⟩
  exact Percent.beginsWith_of_decode begun read

/-- That an identifier leads to a local file: the one that it names, or the archive that it
looks into. -/
inductive LeadsTo (uri : Uri) (path : Path) : Prop
  /-- The file that the identifier names. -/
  | file (scheme : uri.hasScheme "file" = true) (leads : uri.toPath = .ok (some path))
  /-- The archive before the first exclamation mark. -/
  | archive {archive : Uri} (scheme : uri.hasScheme "jar" = true)
      (read : Uri.parse (Uri.beforeMark '!' uri.path).1 = .ok archive)
      (leads : archive.toPath = .ok (some path))

theorem LeadsTo.isAbsolute (leads : uri.LeadsTo path) : path.isAbsolute = true := by
  cases leads with
  | file _ leads => exact isAbsolute_of_toPath leads
  | archive _ _ leads => exact isAbsolute_of_toPath leads

/-- The root directory is compared with the file that an identifier leads to. -/
theorem LeadsTo.confinedPath? (leads : uri.LeadsTo path) :
    uri.confinedPath? = .ok (some path) := by
  cases leads with
  | file scheme leads => rw [Uri.confinedPath?, if_pos scheme, leads]
  | archive scheme read leads =>
      have other : uri.hasScheme "file" = false := hasScheme_eq_false scheme (by decide)
      rw [Uri.confinedPath?, other, if_neg Bool.false_ne_true, if_pos scheme, archivePath?, read]
      simp only [leads]

end PackageResolution.Uri
