import PackageResolution.Proofs.Uri.Rooted
import PackageResolution.Proofs.Uri.Written

/-!
# Identifiers that are hierarchies of names

What is read from a text with an authority has an empty path or one from the root, and the path
of any other hierarchy begins at the root.  So a relative path that is taken from a hierarchy
becomes one from the root.
-/

namespace PackageResolution.Uri

/-- The path after an authority is empty or begins with a slash. -/
theorem path_of_authority {text : String} {uri : Uri} (read : parse text = .ok uri)
    (placed : uri.authority.isSome) : uri.path = "" ∨ Text.beginsWith '/' uri.path = true :=
  (isWritten_of_parse read).1.rooted placed

/-- That an identifier is one to take references from: it has a scheme other than that of
archives, and its body is a hierarchy of names. -/
structure IsBase (uri : Uri) : Prop where
  absolute : uri.isAbsolute = true
  hierarchical : uri.isOpaque = false
  notArchive : uri.scheme ≠ some "jar"

instance (uri : Uri) : Decidable uri.IsBase :=
  decidable_of_iff (uri.isAbsolute = true ∧ uri.isOpaque = false ∧ uri.scheme ≠ some "jar")
    ⟨fun ⟨absolute, hierarchical, notArchive⟩ => ⟨absolute, hierarchical, notArchive⟩,
      fun base => ⟨base.absolute, base.hierarchical, base.notArchive⟩⟩

/-- That the path of an identifier is empty after an authority, or begins with a slash. -/
def IsRooted (uri : Uri) : Prop :=
  uri.authority.isSome = true ∧ uri.path = "" ∨ Text.beginsWith '/' uri.path = true

theorem isRooted_of_parse {text : String} {uri : Uri} (read : parse text = .ok uri)
    (absolute : uri.isAbsolute = true) (hierarchical : uri.isOpaque = false) : uri.IsRooted := by
  rw [isAbsolute] at absolute
  cases authority : uri.authority with
  | none =>
      right
      simpa [isOpaque, absolute, authority] using hierarchical
  | some authority' =>
      have placed : uri.authority.isSome = true := by rw [authority]; rfl
      exact (path_of_authority read placed).imp_left fun empty => ⟨placed, empty⟩

/-- The path of a base is empty after an authority, or begins with a slash. -/
theorem IsBase.path {text : String} {uri : Uri} (read : parse text = .ok uri)
    (base : uri.IsBase) :
    uri.authority.isSome = true ∧ uri.path = "" ∨ Text.beginsWith '/' uri.path = true :=
  isRooted_of_parse read base.absolute base.hierarchical

/-- A relative path that is taken from a rooted identifier is a path from the root. -/
theorem IsRooted.beginsWith_merge {uri : Uri} (rooted : uri.IsRooted) (path : String) :
    Text.beginsWith '/' (merge uri path) = true := by
  unfold merge
  split
  · simp [Text.beginsWith]
  · rename_i filled
    rcases rooted with ⟨placed, empty⟩ | begun
    · exact absurd (by simp [placed, empty]) filled
    · rw [UriPath.directoryOf_eq_trail begun]
      exact UriPath.beginsWith_trail_append _ _

/-- A reference without scheme is followed from a base. -/
theorem IsBase.resolve {uri reference : Uri} (base : uri.IsBase)
    (relative : reference.isAbsolute = false) :
    Uri.resolve uri reference = follow uri reference := by
  rw [Uri.resolve, if_neg (by simp [relative]), if_neg base.notArchive, followPlain,
    if_neg (by simp [base.hierarchical])]

end PackageResolution.Uri
