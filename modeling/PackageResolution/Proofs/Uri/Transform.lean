import PackageResolution.Proofs.Uri.Buffers
import PackageResolution.Proofs.Uri.Hierarchy

/-!
# References followed as in RFC 3986

`Uri.transform` is the transform of section 5.2.2, with the merge of section 5.2.3 and the two
buffers of section 5.2.4.  A reference without scheme that is followed from a base gives what the
transform gives, unless the path that it leads to ends in a dot segment after an empty one: then
the last slash is missing.
-/

namespace PackageResolution.Uri

open UriPath (removeDots)
open UriPath.Buffers (removeDotSegments EndsDouble)

/-! ## The transform -/

/-- The path of a reference after all but the last segment of the path of the base. -/
def mergePaths (base : Uri) (path : String) : String :=
  if base.authority.isSome && base.path = "" then "/" ++ path
  else String.ofList (base.path.toList.rdropWhile (· != '/')) ++ path

/-- The identifier that a reference stands for where `base` is read. -/
def transform (base reference : Uri) : Uri :=
  if reference.scheme.isSome then
    { reference with path := removeDotSegments reference.path }
  else if reference.authority.isSome then
    { reference with scheme := base.scheme, path := removeDotSegments reference.path }
  else if reference.path = "" then
    { scheme := base.scheme
      authority := base.authority
      path := base.path
      query := if reference.query.isSome then reference.query else base.query
      fragment := reference.fragment }
  else if Text.beginsWith '/' reference.path then
    { reference with
      scheme := base.scheme, authority := base.authority
      path := removeDotSegments reference.path }
  else
    { reference with
      scheme := base.scheme, authority := base.authority
      path := removeDotSegments (mergePaths base reference.path) }

/-- The path that is freed of its dot segments where a reference without scheme is followed; none
if the path of the base stays. -/
def targetPath? (base reference : Uri) : Option String :=
  if reference.authority.isSome then some reference.path
  else if reference.path = "" then none
  else if Text.beginsWith '/' reference.path then some reference.path
  else some (mergePaths base reference.path)

/-- That a reference leads to a path that ends in a dot segment and leaves two slashes at the
end. -/
def LeavesDouble (base reference : Uri) : Prop :=
  ∃ path, targetPath? base reference = some path ∧ EndsDouble path

/-- The last segment is what follows the last slash. -/
theorem directoryOf_eq_rdropWhile (path : String) :
    directoryOf path = String.ofList (path.toList.rdropWhile (· != '/')) := by
  unfold directoryOf
  split
  · rename_i before after cut
    obtain ⟨whole, unmarked⟩ := Text.cutLast?_eq_some_iff.mp cut
    have all := Text.bne_of_not_mem (mt List.mem_reverse.mp unmarked)
    have turned : path.toList.reverse = after.toList.reverse ++ '/' :: before.toList.reverse := by
      rw [whole]
      simp
    apply String.toList_injective
    rw [String.toList_ofList, List.rdropWhile, turned,
      Text.dropWhile_append_of_endsRun all (Text.endsRun_cons (by decide) _)]
    simp
  · rename_i cut
    have unmarked := Text.cutLast?_eq_none_iff.mp cut
    have all : path.toList.rdropWhile (· != '/') = [] :=
      List.rdropWhile_eq_nil_iff.mpr (Text.bne_of_not_mem unmarked)
    rw [all]

theorem merge_eq_mergePaths (base : Uri) (path : String) :
    merge base path = mergePaths base path := by
  rw [merge, mergePaths, directoryOf_eq_rdropWhile]

/-! ## The two ways compared -/

/-- A reference followed part by part, where `clean` frees a path of its dot segments. -/
def followWith (clean : String → String) (base reference : Uri) : Uri where
  scheme := base.scheme
  authority := reference.authority.or base.authority
  path := ((targetPath? base reference).map clean).getD base.path
  query :=
    if (targetPath? base reference).isSome then reference.query
    else reference.query.or base.query
  fragment := reference.fragment

theorem follow_eq_followWith (base reference : Uri) :
    follow base reference = followWith removeDots base reference := by
  cases placed : reference.authority with
  | some authority => simp [follow, followWith, targetPath?, placed]
  | none =>
      by_cases empty : reference.path = ""
      · simp [follow, followWith, targetPath?, placed, empty]
      by_cases rooted : Text.beginsWith '/' reference.path = true
      · simp [follow, followWith, targetPath?, placed, empty, rooted]
      · simp [follow, followWith, targetPath?, placed, empty, rooted, merge_eq_mergePaths]

theorem transform_eq_followWith {reference : Uri} (relative : reference.isAbsolute = false)
    (base : Uri) : transform base reference = followWith removeDotSegments base reference := by
  have bare : reference.scheme.isSome = false := relative
  cases placed : reference.authority with
  | some authority => simp [transform, followWith, targetPath?, bare, placed]
  | none =>
      by_cases empty : reference.path = ""
      · cases query : reference.query <;>
          simp [transform, followWith, targetPath?, bare, placed, empty, query]
      by_cases rooted : Text.beginsWith '/' reference.path = true
      · simp [transform, followWith, targetPath?, bare, placed, empty, rooted]
      · simp [transform, followWith, targetPath?, bare, placed, empty, rooted]

/-- A reference that is taken from a rooted identifier leads to a path from the root, or to an
empty one after its own authority. -/
theorem IsRooted.targetPath?_shape {base reference : Uri} (rooted : base.IsRooted)
    {referenceText : String} (readReference : parse referenceText = .ok reference) {path : String}
    (target : targetPath? base reference = some path) :
    reference.authority.isSome = true ∧ path = "" ∨ Text.beginsWith '/' path = true := by
  unfold targetPath? at target
  split at target
  · rename_i placed
    obtain rfl := Option.some.inj target
    exact (path_of_authority readReference placed).imp_left fun empty => ⟨placed, empty⟩
  · split at target
    · exact nomatch target
    split at target
    · rename_i begun
      obtain rfl := Option.some.inj target
      exact .inr begun
    · obtain rfl := Option.some.inj target
      rw [← merge_eq_mergePaths]
      exact .inr (rooted.beginsWith_merge _)

theorem not_endsDouble_empty : ¬ EndsDouble "" := by
  rintro ⟨dots, -⟩
  exact absurd dots (by decide)

/-- The two ways to remove dot segments differ by the slash at the end of some paths. -/
theorem removeDotSegments_eq_removeDots {path : String}
    (shape : path = "" ∨ Text.beginsWith '/' path = true) (single : ¬ EndsDouble path) :
    removeDotSegments path = removeDots path := by
  rcases shape with rfl | rooted
  · have nothing : removeDotSegments "" = "" := by
      rw [removeDotSegments, String.toList_empty, UriPath.Buffers.run_nil, String.ofList_nil]
    rw [nothing]
    decide
  · exact UriPath.Buffers.removeDotSegments_of_not_endsDouble rooted single

/-- A reference without scheme that is followed from a base gives what the transform of RFC 3986
gives, unless it leads to a path that leaves two slashes after a dot segment at its end; then the
parts are the same but for the last slash, which is missing. -/
theorem resolve_eq_transform_iff {baseText referenceText : String} {base reference : Uri}
    (readBase : parse baseText = .ok base) (isBase : base.IsBase)
    (readReference : parse referenceText = .ok reference)
    (relative : reference.isAbsolute = false) :
    (resolve base reference = transform base reference ↔ ¬ LeavesDouble base reference) ∧
      (LeavesDouble base reference →
        transform base reference =
          { resolve base reference with path := (resolve base reference).path ++ "/" }) := by
  have missing (leaves : LeavesDouble base reference) :
      transform base reference =
        { resolve base reference with path := (resolve base reference).path ++ "/" } := by
    obtain ⟨path, target, double⟩ := leaves
    have rooted : Text.beginsWith '/' path = true := by
      rcases IsRooted.targetPath?_shape (isBase.path readBase) readReference target with
        ⟨-, rfl⟩ | rooted
      · exact absurd double not_endsDouble_empty
      · exact rooted
    have slash := UriPath.Buffers.removeDotSegments_of_endsDouble rooted double
    rw [isBase.resolve relative, follow_eq_followWith, transform_eq_followWith relative]
    simp [followWith, target, slash]
  refine ⟨⟨fun same leaves => ?_, fun single => ?_⟩, missing⟩
  · have longer := congrArg Uri.path (missing leaves)
    rw [← same] at longer
    exact Text.ne_append (by decide) _ longer
  · rw [isBase.resolve relative, follow_eq_followWith, transform_eq_followWith relative]
    cases target : targetPath? base reference with
    | none => simp [followWith, target]
    | some path =>
        have shape := IsRooted.targetPath?_shape (isBase.path readBase) readReference target
        have cleaned := removeDotSegments_eq_removeDots (shape.imp_left And.right) fun double =>
          single ⟨path, target, double⟩
        simp [followWith, target, cleaned]

theorem nest_resolves_to_transform :
    ∃ base reference, parse "https://localhost/birds/twig" = .ok base ∧ base.IsBase ∧
      parse "../nest/." = .ok reference ∧ reference.isAbsolute = false ∧
      ¬ LeavesDouble base reference ∧
      (resolve base reference).text = "https://localhost/nest/" := by
  refine ⟨_, _, rfl, by decide, rfl, rfl, ?_, by decide⟩
  have readBase : parse "https://localhost/birds/twig" =
      .ok ⟨some "https", some "localhost", "/birds/twig", none, none⟩ := rfl
  have readReference : parse "../nest/." = .ok ⟨none, none, "../nest/.", none, none⟩ := rfl
  exact (resolve_eq_transform_iff readBase (by decide) readReference rfl).1.mp
    (by decide +kernel)

/-- The dot of `/nest//.` follows an empty segment, and the slash after it is lost. -/
theorem slash_lost_after_empty_segment :
    ∃ base reference, parse "https://localhost/birds" = .ok base ∧ base.IsBase ∧
      parse "/nest//." = .ok reference ∧ reference.isAbsolute = false ∧
      (resolve base reference).path = "/nest/" ∧ (transform base reference).path = "/nest//" :=
  ⟨_, _, rfl, by decide, rfl, rfl, by decide, by decide +kernel⟩

end PackageResolution.Uri
