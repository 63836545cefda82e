import PackageResolution.Proofs.Path.Normalization

/-!
# The path above a path

The parent of a path is cut out of its text, yet it has the components of the path without
the last one.  So a name that is put in place of the last one leads to a neighbour.
-/

namespace PackageResolution.Path

/-! ## Paths by their pieces -/

/-- Where a path with the given pieces starts. -/
def startOf : List String → List Component
  | "" :: _ :: _ => [.root]
  | "." :: _ => [.current]
  | _ => []

theorem isAbsolute_iff {path : Path} :
    path.isAbsolute = true ↔ ∃ piece rest, Text.fields '/' path.text = "" :: piece :: rest := by
  constructor
  · intro absolute
    rcases Text.exists_of_beginsWith absolute with ⟨rest, whole⟩
    have slash : String.singleton '/' = "/" := rfl
    rw [whole, slash, Text.fields_slash_append]
    cases pieces : Text.fields '/' rest with
    | nil => exact absurd pieces (Text.fields_ne_nil '/' rest)
    | cons piece others => exact ⟨piece, others, rfl⟩
  · rintro ⟨piece, rest, pieces⟩
    have whole := Text.intercalate_fields '/' path.text
    rw [pieces] at whole
    rw [isAbsolute, Text.beginsWith, ← whole, String.toList_intercalate]
    simp

theorem start_eq (path : Path) : path.start = startOf (Text.fields '/' path.text) := by
  by_cases absolute : path.isAbsolute = true
  · rcases isAbsolute_iff.mp absolute with ⟨piece, rest, pieces⟩
    rw [start, if_pos absolute, pieces, startOf]
  · rw [start, if_neg absolute]
    cases pieces : Text.fields '/' path.text with
    | nil => rfl
    | cons first rest =>
        by_cases dot : first = "."
        · subst dot
          rfl
        · rw [List.head?_cons, if_neg (by simpa using dot)]
          cases rest with
          | nil => simp [startOf, dot]
          | cons second rest =>
              have filled : first ≠ "" := by
                rintro rfl
                exact absolute (isAbsolute_iff.mpr ⟨second, rest, pieces⟩)
              simp [startOf, dot, filled]

theorem startOf_of_prefix {pieces kept : List String} (nowhere : startOf pieces = [])
    (start : kept <+: pieces) : startOf kept = [] := by
  rcases start with ⟨others, rfl⟩
  cases kept with
  | nil => rfl
  | cons first rest =>
      by_cases dot : first = "."
      · subst dot
        exact nomatch nowhere
      · cases rest with
        | nil => simp [startOf, dot]
        | cons second rest =>
            by_cases empty : first = ""
            · subst empty
              exact nomatch nowhere
            · simp [startOf, dot, empty]

theorem steps_intercalate {pieces : List String} (closed : ∀ piece ∈ pieces, '/' ∉ piece.toList) :
    steps ⟨"/".intercalate pieces⟩ = pieces.filterMap component? := by
  cases pieces with
  | nil => rfl
  | cons piece pieces => rw [steps, Text.fields_intercalate (List.cons_ne_nil _ _) closed]

/-! ## Cutting off the last component -/

theorem component?_eq_none_iff {piece : String} :
    component? piece = none ↔ isIdle piece = true := by
  unfold component? isIdle
  split
  · rename_i idle
    simp [idle]
  · rename_i busy
    split <;> simp [busy]

theorem filterMap_dropWhile_isIdle (pieces : List String) :
    (pieces.dropWhile isIdle).filterMap component? = pieces.filterMap component? := by
  induction pieces with
  | nil => rfl
  | cons piece pieces inductionHypothesis =>
      cases idle : isIdle piece with
      | true =>
          rw [List.dropWhile_cons_of_pos idle, inductionHypothesis, List.filterMap_cons,
            component?_eq_none_iff.mpr idle]
      | false => rw [List.dropWhile_cons_of_neg (by simp [idle])]

/-- What is left of some pieces without the last that stands for a component. -/
theorem exists_filterMap_append {body before : List String} {last : String}
    (found : body.reverse.dropWhile isIdle = last :: before) :
    (before.dropWhile isIdle).reverse <+: body ∧ ∃ component,
      body.filterMap component? =
        (before.dropWhile isIdle).reverse.filterMap component? ++ [component] := by
  have busy : isIdle last = false := by
    have kept := List.head?_dropWhile_not isIdle body.reverse
    rw [found] at kept
    simpa using kept
  cases stands : component? last with
  | none =>
      rw [component?_eq_none_iff, busy] at stands
      exact nomatch stands
  | some component =>
      constructor
      · rw [← List.reverse_suffix, List.reverse_reverse]
        have rest : last :: before <:+ body.reverse := found ▸ List.dropWhile_suffix _
        exact (List.dropWhile_suffix _).trans ((List.suffix_cons last before).trans rest)
      · refine ⟨component, ?_⟩
        have turned := filterMap_dropWhile_isIdle body.reverse
        rw [found, List.filterMap_cons, stands, List.filterMap_reverse] at turned
        simp only at turned
        rw [List.filterMap_reverse, filterMap_dropWhile_isIdle, ← List.reverse_cons, turned,
          List.reverse_reverse]

/-- The start of a path and its pieces after the start, in the three forms that a path can
have. -/
theorem bodyReversed_cases (path : Path) :
    (∃ rest, path.text = "/" ++ rest ∧
      path.bodyReversed = ("/", (Text.fields '/' rest).reverse)) ∨
    (∃ rest, Text.fields '/' path.text = "." :: rest ∧
      path.bodyReversed = (".", ("" :: rest).reverse)) ∨
    (startOf (Text.fields '/' path.text) = [] ∧
      path.bodyReversed = ("", (Text.fields '/' path.text).reverse)) := by
  by_cases absolute : path.isAbsolute = true
  · left
    rcases Text.exists_of_beginsWith absolute with ⟨rest, whole⟩
    refine ⟨rest, whole, ?_⟩
    have slash : String.singleton '/' = "/" := rfl
    rw [bodyReversed, if_pos absolute, whole, slash, Text.fields_slash_append]
    rfl
  · right
    by_cases dot : (Text.fields '/' path.text).head? = some "."
    · left
      rcases List.head?_eq_some_iff.mp dot with ⟨rest, pieces⟩
      refine ⟨rest, pieces, ?_⟩
      simp only [bodyReversed, if_neg absolute, pieces, List.head?_cons, if_true, List.tail_cons]
    · right
      constructor
      · rw [← start_eq, start, if_neg absolute, if_neg dot]
      · simp only [bodyReversed, if_neg absolute, if_neg dot]

theorem components_eq_start_append (path : Path) :
    path.components = path.start ++ path.bodyReversed.2.reverse.filterMap component? := by
  rw [components_eq]
  rcases path.bodyReversed_cases with ⟨rest, whole, body⟩ | ⟨rest, pieces, body⟩ | ⟨-, body⟩
  · rw [body, List.reverse_reverse, steps, whole, Text.fields_slash_append]
    rfl
  · rw [body, List.reverse_reverse, steps, pieces]
    rfl
  · rw [body, List.reverse_reverse, steps]

/-- A path that is put together from the start of another one and some of its pieces begins
where the other one does. -/
theorem components_of_prefix {path : Path} {kept : List String}
    (first : kept <+: path.bodyReversed.2.reverse) :
    components ⟨path.bodyReversed.1 ++ "/".intercalate kept⟩ =
      path.start ++ kept.filterMap component? := by
  rw [components_eq]
  rcases path.bodyReversed_cases with ⟨rest, whole, body⟩ | ⟨rest, pieces, body⟩ | ⟨start, body⟩
  · rw [body, List.reverse_reverse] at first
    have closed : ∀ piece ∈ kept, '/' ∉ piece.toList :=
      fun piece member => Text.not_mem_of_mem_fields (first.subset member)
    have begun : Path.start ⟨"/" ++ "/".intercalate kept⟩ = path.start := by
      have split (after : String) : "/" ++ after = "" ++ "/" ++ after := by
        rw [String.empty_append]
      obtain rfl : path = ⟨"/" ++ rest⟩ := by rw [← whole]
      rw [split, split, start_append_eq]
    rw [body, begun, steps_slash_append, steps_intercalate closed]
  · rw [body, List.reverse_reverse] at first
    have begun : path.start = [.current] := by
      rw [start_eq, pieces, startOf]
    have dot : Path.start ⟨"."⟩ ++ steps ⟨"."⟩ = [.current] := by decide
    rw [body, begun]
    cases kept with
    | nil =>
        rw [String.intercalate_nil, String.append_empty, dot]
        rfl
    | cons empty kept =>
        rw [List.cons_prefix_cons] at first
        rcases first with ⟨rfl, first⟩
        cases kept with
        | nil =>
            rw [String.intercalate_singleton, String.append_empty, dot]
            rfl
        | cons piece kept =>
            have closed : ∀ other ∈ piece :: kept, '/' ∉ other.toList := by
              intro other member
              have among : other ∈ Text.fields '/' path.text := by
                rw [pieces]
                exact List.mem_cons_of_mem _ (first.subset member)
              exact Text.not_mem_of_mem_fields among
            have split : "." ++ "/".intercalate ("" :: piece :: kept) =
                "." ++ "/" ++ "/".intercalate (piece :: kept) := by
              rw [String.intercalate_cons_cons, String.empty_append, String.append_assoc]
            rw [split, start_append (by decide), steps_append, steps_intercalate closed]
            rfl
  · rw [body, List.reverse_reverse] at first
    have closed : ∀ piece ∈ kept, '/' ∉ piece.toList :=
      fun piece member => Text.not_mem_of_mem_fields (first.subset member)
    rw [body, String.empty_append, steps_intercalate closed, start_eq, start_eq, start]
    cases kept with
    | nil => rfl
    | cons piece kept =>
        rw [Text.fields_intercalate (List.cons_ne_nil _ _) closed, startOf_of_prefix start first]

/-- A path whose pieces after the start are all idle has no component after the start. -/
theorem components_of_idle {path : Path} (idle : path.bodyReversed.2.dropWhile isIdle = []) :
    path.components = path.start := by
  have nothing := filterMap_dropWhile_isIdle path.bodyReversed.2
  rw [idle, List.filterMap_nil] at nothing
  rw [components_eq_start_append, List.filterMap_reverse, ← nothing]
  exact List.append_nil _

/-- The components of a path are those of its parent and one more. -/
theorem components_of_parent? {path above : Path} (found : path.parent? = some above) :
    ∃ component, path.components = above.components ++ [component] := by
  simp only [parent?] at found
  cases cut : path.bodyReversed.2.dropWhile isIdle with
  | nil =>
      -- only the `.` at the start of a relative path can be cut off here
      rw [cut] at found
      rw [components_of_idle cut]
      rcases path.bodyReversed_cases with ⟨rest, -, body⟩ | ⟨rest, pieces, body⟩ | ⟨-, body⟩
      · rw [body] at found
        exact nomatch found
      · rw [body] at found
        obtain rfl : (⟨""⟩ : Path) = above := Option.some.inj found
        refine ⟨.current, ?_⟩
        rw [start_eq, pieces]
        rfl
      · rw [body] at found
        exact nomatch found
  | cons last before =>
      rw [cut] at found
      obtain rfl := Option.some.inj found
      rw [← List.reverse_reverse path.bodyReversed.2] at cut
      rcases exists_filterMap_append cut with ⟨first, component, split⟩
      refine ⟨component, ?_⟩
      rw [components_eq_start_append, split, components_of_prefix first, List.append_assoc]

/-- A path that ends with a name has a parent, and the name follows it. -/
theorem exists_parent? {path : Path} {name : String} {front : List Component}
    (split : path.components = front ++ [.named name]) :
    ∃ above, path.parent? = some above ∧ above.components = front := by
  cases found : path.parent? with
  | none =>
      cases cut : path.bodyReversed.2.dropWhile isIdle with
      | nil =>
          have last := List.getLast?_concat (l := front) (a := Component.named name)
          rw [← split, components_of_idle cut, start] at last
          split at last
          · cases last
          · split at last
            · cases last
            · cases last
      | cons other before =>
          simp only [parent?, cut] at found
          cases found
  | some above =>
      rcases components_of_parent? found with ⟨component, whole⟩
      rw [split] at whole
      exact ⟨above, rfl, (List.append_inj' whole rfl).1.symm⟩

/-- A name in place of the last one leads to a neighbour. -/
theorem components_withFileName {path : Path} {name other : String} {front : List Component}
    (split : path.components = front ++ [.named name]) (filled : front ≠ [])
    (relative : isAbsolute ⟨other⟩ = false) :
    (path.withFileName other).components = front ++ steps ⟨other⟩ := by
  have ends : path.fileName? = some name := by
    rw [fileName?, split, List.getLast?_concat]
  rcases exists_parent? split with ⟨above, found, rfl⟩
  have text : above.text ≠ "" := by
    intro empty
    obtain rfl : above = ⟨""⟩ := by rw [← empty]
    exact filled rfl
  rw [withFileName, ends]
  simp only [found, Option.getD_some]
  exact components_join relative text

theorem isAbsolute_of_parent? {path above : Path} (found : path.parent? = some above)
    (absolute : path.isAbsolute = true) : above.isAbsolute = true := by
  have mark : path.bodyReversed.1 = "/" := by
    rw [bodyReversed, if_pos absolute]
  simp only [parent?, mark] at found
  split at found
  · exact nomatch found
  · obtain rfl := Option.some.inj found
    simp [isAbsolute, Text.beginsWith]

end PackageResolution.Path
