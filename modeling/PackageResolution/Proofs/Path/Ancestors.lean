import Mathlib.Data.List.Infix
import PackageResolution.Proofs.FileTree.Descent

/-!
# The directories above a path

The path above a path is the start of its text, so there are no more paths above one than its text
is long.  Their ways are the beginnings of its way, from the longest to the empty one.
-/

namespace PackageResolution.Path

variable {path above : Path}

/-! ## The text of the path above -/

theorem exists_intercalate_append {kept pieces : List String} (first : kept <+: pieces) :
    ∃ suffix, "/".intercalate pieces = "/".intercalate kept ++ suffix := by
  obtain ⟨others, rfl⟩ := first
  by_cases nothing : kept = []
  · exact ⟨"/".intercalate others, by simp [nothing]⟩
  by_cases whole : others = []
  · exact ⟨"", by simp [whole]⟩
  refine ⟨"/" ++ "/".intercalate others, ?_⟩
  rw [String.intercalate_append_of_ne_nil nothing whole, String.append_assoc]

/-- A path is its start and its pieces after the start. -/
theorem text_eq (path : Path) :
    path.text = path.bodyReversed.1 ++ "/".intercalate path.bodyReversed.2.reverse := by
  have whole (text : String) : "/".intercalate (Text.fields '/' text) = text :=
    Text.intercalate_fields '/' text
  rcases path.bodyReversed_cases with ⟨rest, text, body⟩ | ⟨rest, pieces, body⟩ | ⟨-, body⟩
  · rw [body, List.reverse_reverse, whole, text]
  · rw [body, List.reverse_reverse, ← whole path.text, pieces]
    cases rest with
    | nil => rfl
    | cons piece rest =>
        rw [String.intercalate_cons_cons, String.intercalate_cons_cons, String.empty_append,
          String.append_assoc]
  · rw [body, List.reverse_reverse, whole, String.empty_append]

/-- The path above a path is the start of its text. -/
theorem exists_append_of_parent? (found : path.parent? = some above) :
    ∃ suffix, path.text = above.text ++ suffix := by
  simp only [parent?] at found
  cases cut : path.bodyReversed.2.dropWhile isIdle with
  | nil =>
      rw [cut] at found
      dsimp only at found
      split at found
      · obtain rfl := Option.some.inj found
        exact ⟨path.text, by rw [String.empty_append]⟩
      · cases found
  | cons last before =>
      rw [cut] at found
      obtain rfl := Option.some.inj found
      rw [← List.reverse_reverse path.bodyReversed.2] at cut
      obtain ⟨suffix, whole⟩ := exists_intercalate_append (exists_filterMap_append cut).1
      refine ⟨suffix, ?_⟩
      rw [String.append_assoc, ← whole, ← text_eq]

theorem length_lt_of_parent? (found : path.parent? = some above) :
    above.text.length < path.text.length := by
  obtain ⟨suffix, whole⟩ := exists_append_of_parent? found
  obtain ⟨component, split⟩ := components_of_parent? found
  have filled : suffix ≠ "" := by
    rintro rfl
    rw [String.append_empty] at whole
    obtain rfl : path = above := by
      cases path
      exact congrArg Path.mk whole
    exact absurd split (by simp)
  rw [whole, String.length_append]
  have long : suffix.length ≠ 0 := by simpa using filled
  omega

/-- What holds of a path if it holds of the path above holds of every path. -/
theorem induction_above {motive : Path → Prop}
    (next : ∀ path : Path, (∀ above, path.parent? = some above → motive above) → motive path)
    (path : Path) : motive path := by
  induction long : path.text.length using Nat.strong_induction_on generalizing path with
  | _ _ inductionHypothesis =>
      subst long
      apply next
      intro above found
      exact inductionHypothesis _ (length_lt_of_parent? found) above rfl

/-! ## All paths above -/

theorem ancestors_go_of_parent?_eq_none (top : path.parent? = none) (count : Nat) :
    ancestors.go count path = [] := by
  cases count with
  | zero => rfl
  | succ count => rw [ancestors.go, top]

/-- How many paths above are looked for does not matter, if they are enough. -/
theorem ancestors_go_eq {count other : Nat} (enough : path.text.length ≤ count)
    (likewise : path.text.length ≤ other) :
    ancestors.go count path = ancestors.go other path := by
  induction count generalizing path other with
  | zero =>
      cases found : path.parent? with
      | none => rw [ancestors_go_of_parent?_eq_none found, ancestors_go_of_parent?_eq_none found]
      | some above => exact absurd (length_lt_of_parent? found) (by omega)
  | succ count inductionHypothesis =>
      cases found : path.parent? with
      | none => rw [ancestors_go_of_parent?_eq_none found, ancestors_go_of_parent?_eq_none found]
      | some above =>
          have shorter := length_lt_of_parent? found
          cases other with
          | zero => omega
          | succ other =>
              have onward : ancestors.go count above = ancestors.go other above :=
                inductionHypothesis (by omega) (by omega)
              rw [ancestors.go, ancestors.go, found]
              exact congrArg (above :: ·) onward

theorem ancestors_of_parent?_eq_none (top : path.parent? = none) : path.ancestors = [] :=
  ancestors_go_of_parent?_eq_none top _

/-- The paths above a path are the next one and those above that. -/
theorem ancestors_of_parent? (found : path.parent? = some above) :
    path.ancestors = above :: above.ancestors := by
  have shorter := length_lt_of_parent? found
  rw [ancestors, ancestors_go_eq (Nat.le_refl _) (Nat.le_succ _), ancestors.go, found]
  dsimp only
  rw [ancestors, ancestors_go_eq (Nat.le_of_lt shorter) (Nat.le_refl _)]

/-- Every path above a path is the start of its text. -/
theorem exists_append_of_mem_ancestors (among : above ∈ path.ancestors) :
    ∃ suffix, path.text = above.text ++ suffix := by
  induction path using induction_above with
  | next path inductionHypothesis =>
      cases found : path.parent? with
      | none => exact absurd (ancestors_of_parent?_eq_none found ▸ among) List.not_mem_nil
      | some nearest =>
          rw [ancestors_of_parent? found] at among
          obtain ⟨suffix, whole⟩ := exists_append_of_parent? found
          rcases List.mem_cons.mp among with rfl | among
          · exact ⟨suffix, whole⟩
          · obtain ⟨rest, start⟩ := inductionHypothesis nearest found among
            exact ⟨rest ++ suffix, by rw [whole, start, String.append_assoc]⟩

/-- What is joined to a path follows it after at most one slash. -/
theorem exists_text_join (base : Path) {more : Path} (relative : more.isAbsolute = false) :
    ∃ between, (between = "" ∨ between = "/") ∧
      (base.join more).text = base.text ++ between ++ more.text := by
  rw [join, relative, Bool.false_or]
  split
  · rename_i empty
    exact ⟨"", .inl rfl, by simp [of_decide_eq_true empty]⟩
  split
  · exact ⟨"", .inl rfl, by rw [String.append_empty]⟩
  · exact ⟨"/", .inr rfl, rfl⟩

/-- A name can be looked for from the start of a path if it can from the path. -/
theorem isAccepted_join_of_append {base : Path} {suffix name : String} (isName : IsName name)
    (plain : '/' ∉ name.toList) (whole : path.text = base.text ++ suffix)
    (accepted : (path.join ⟨name⟩).IsAccepted) : (base.join ⟨name⟩).IsAccepted := by
  by_cases nothing : suffix = ""
  · obtain rfl : path = base := by
      cases path
      rw [nothing, String.append_empty] at whole
      exact congrArg Path.mk whole
    exact accepted
  have relative : isAbsolute ⟨name⟩ = false := isAbsolute_of_not_mem plain
  obtain ⟨between, slash, text⟩ := exists_text_join base relative
  obtain ⟨other, -, longer⟩ := exists_text_join path relative
  rw [whole] at longer
  constructor
  · have nulFree := accepted.nulFree
    rw [longer] at nulFree
    rw [text]
    rcases slash with rfl | rfl <;> simp_all [Text.has]
  · rw [text]
    intro empty
    exact isName.1 (by simpa using (String.append_eq_empty_iff.mp empty).2)
  · have short := accepted.short
    have filled : suffix.utf8ByteSize ≠ 0 := by simpa using nothing
    have slashSize : between.utf8ByteSize ≤ 1 := by rcases slash with rfl | rfl <;> decide
    rw [longer] at short
    rw [text]
    simp only [String.utf8ByteSize_append] at short ⊢
    omega

/-! ## The ways of the paths above -/

theorem way_eq_filter_components (path : Path) :
    path.way =
      (path.components.filter fun component => !component.isMark).map Component.piece := by
  rw [way_eq_map, steps_eq_filter]

theorem way_of_parent?_eq_none (top : path.parent? = none) : path.way = [] := by
  cases cut : path.bodyReversed.2.dropWhile isIdle with
  | nil =>
      have dropped : path.start.filter (fun component => !component.isMark) = [] :=
        List.filter_eq_nil_iff.mpr fun _ member => by simp [isMark_of_mem_start member]
      rw [way_eq_filter_components, components_of_idle cut, dropped, List.map_nil]
  | cons last before =>
      simp only [parent?, cut] at top
      cases top

/-- The path above a path has its way, or all of that but the last name. -/
theorem way_of_parent? (found : path.parent? = some above) :
    path.way = above.way ∨ ∃ name, path.way = above.way ++ [name] := by
  obtain ⟨component, split⟩ := components_of_parent? found
  rw [way_eq_filter_components, way_eq_filter_components above, split, List.filter_append,
    List.map_append]
  cases marked : component.isMark with
  | true => exact .inl (by simp [marked])
  | false => exact .inr ⟨component.piece, by simp [marked]⟩

theorem inits_reverse_concat {α : Type} (before : List α) (last : α) :
    (before ++ [last]).inits.reverse = (before ++ [last]) :: before.inits.reverse := by
  rw [List.inits_append]
  simp

/-- The longest beginning of a list is the list. -/
theorem exists_inits_reverse_eq_cons {α : Type} (whole : List α) :
    ∃ shorter, whole.inits.reverse = whole :: shorter := by
  rcases List.eq_nil_or_concat whole with rfl | ⟨before, last, rfl⟩
  · exact ⟨[], rfl⟩
  · rw [List.concat_eq_append, inits_reverse_concat]
    exact ⟨_, rfl⟩

/-- A search through a path and those above it is one through the beginnings of its way, from the
longest to the empty one. -/
theorem find?_map_way (has : List String → Bool) (path : Path) :
    ((path :: path.ancestors).map way).find? has = path.way.inits.reverse.find? has := by
  induction path using induction_above with
  | next path inductionHypothesis =>
      cases found : path.parent? with
      | none =>
          rw [ancestors_of_parent?_eq_none found, List.map_singleton, way_of_parent?_eq_none found]
          rfl
      | some above =>
          rw [ancestors_of_parent? found, List.map_cons, List.find?_cons,
            inductionHypothesis above found]
          rcases way_of_parent? found with same | ⟨name, longer⟩
          · obtain ⟨shorter, first⟩ := exists_inits_reverse_eq_cons above.way
            rw [same, first, List.find?_cons]
            cases has above.way <;> rfl
          · rw [longer, inits_reverse_concat, List.find?_cons]

end PackageResolution.Path
