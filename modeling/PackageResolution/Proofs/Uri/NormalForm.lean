import PackageResolution.Proofs.Uri.Rooted

/-!
# Paths in normal form

A path is in normal form if no piece of it is `.` and `..` stands only before all other pieces.
Removing dot segments gives such a path, whether the path begins at the root or not, and leaves
such a path as it is.  The strict reading gives the same path, unless a path from the root climbs
above the root.
-/

namespace PackageResolution.UriPath

/-- That `..` stands only before all other pieces of a path, of which there are some, and `.`
nowhere. -/
def IsNormal (pieces : List String) : Prop :=
  ∃ count names, pieces = List.replicate count ".." ++ names ∧ names ≠ [] ∧
    ∀ name ∈ names, IsPlain name

/-- That `..` stands only below all other segments of a stack, and `.` nowhere. -/
def IsReduced (stack : List String) : Prop :=
  ∃ count names, stack = names ++ List.replicate count ".." ∧ ∀ name ∈ names, IsPlain name

/-! ## Stacks of relative paths -/

theorem isExhausted_replicate (count : Nat) : isExhausted (List.replicate count "..") = true := by
  cases count with
  | zero => rfl
  | succ count => exact decide_eq_true (rfl : ".." = "..")

/-- One segment more leaves a stack reduced. -/
theorem IsReduced.step {stack : List String} (reduced : IsReduced stack) (segment : String) :
    IsReduced (UriPath.step false stack segment) := by
  obtain ⟨count, names, rfl, plain⟩ := reduced
  by_cases single : segment = "."
  · rw [UriPath.step, if_pos single]
    exact ⟨count, names, rfl, plain⟩
  by_cases double : segment = ".."
  · rw [UriPath.step, if_neg single, if_pos double]
    cases names with
    | nil =>
        rw [List.nil_append, if_pos (isExhausted_replicate count), if_neg Bool.false_ne_true]
        exact ⟨count + 1, [], rfl, by simp⟩
    | cons name names =>
        obtain ⟨first, plain⟩ := List.forall_mem_cons.mp plain
        rw [List.cons_append, if_neg (by simp [isExhausted, first.2])]
        exact ⟨count, names, rfl, plain⟩
  · rw [UriPath.step, if_neg single, if_neg double]
    exact ⟨count, segment :: names, rfl, List.forall_mem_cons.mpr ⟨⟨single, double⟩, plain⟩⟩

theorem isReduced_foldl {stack : List String} (reduced : IsReduced stack)
    (segments : List String) : IsReduced (segments.foldl (step false) stack) := by
  induction segments generalizing stack with
  | nil => exact reduced
  | cons segment rest inductionHypothesis => exact inductionHypothesis (reduced.step segment)

/-- A path that does not end in a dot segment leaves its last segment on top of the stack. -/
theorem exists_foldl_eq_cons {segments : List String} (filled : segments ≠ [])
    (shut : endsInDots segments = false) :
    ∃ last rest, segments.foldl (step false) [] = last :: rest ∧ IsPlain last := by
  obtain ⟨others, last, rfl⟩ : ∃ others last, segments = others ++ [last] :=
    ⟨_, _, (List.dropLast_append_getLast filled).symm⟩
  have plain : IsPlain last := by simpa [endsInDots, IsPlain] using shut
  rw [List.foldl_append, List.foldl_cons, List.foldl_nil, step, if_neg plain.1, if_neg plain.2]
  exact ⟨last, _, rfl, plain⟩

/-! ## Removing dot segments gives a normal form -/

/-- What is put together from a reduced stack is in normal form, if a slash follows its last segment
or that is plain. -/
theorem isNormal_assemble {isOpen : Bool} {stack : List String} (reduced : IsReduced stack)
    (closed : AreClosed stack)
    (shut : isOpen = false → ∃ last rest, stack = last :: rest ∧ IsPlain last) :
    IsNormal (Text.fields '/' (assemble false isOpen stack)) := by
  by_cases empty : stack = []
  · subst empty
    have nothing : assemble false isOpen [] = "" := by cases isOpen <;> rfl
    rw [nothing]
    exact ⟨0, [""], rfl, by simp, by decide⟩
  obtain ⟨count, names, whole, plain⟩ := reduced
  have turned : ∀ name ∈ names.reverse, IsPlain name :=
    fun name member => plain name (List.mem_reverse.mp member)
  have pieces : Text.fields '/' ("/".intercalate stack.reverse) =
      List.replicate count ".." ++ names.reverse := by
    rw [Text.fields_intercalate (by simpa using empty)
      fun piece member => closed piece (List.mem_reverse.mp member), whole, List.reverse_append,
      List.reverse_replicate]
  simp only [assemble, Bool.false_eq_true, if_false]
  split
  · refine ⟨count, names.reverse ++ [""], ?_, by simp, ?_⟩
    · rw [Text.fields_append_slash, pieces, List.append_assoc]
    · exact List.forall_mem_append.mpr ⟨turned, by decide⟩
  · rename_i bare
    refine ⟨count, names.reverse, pieces, ?_, turned⟩
    intro none
    rw [List.reverse_eq_nil_iff.mp none, List.nil_append] at whole
    rw [none, List.append_nil] at pieces
    cases isOpen with
    | false =>
        obtain ⟨last, rest, top, ⟨-, double⟩⟩ := shut rfl
        have member : last ∈ stack := by rw [top]; exact List.mem_cons_self
        rw [whole] at member
        exact double (List.eq_of_mem_replicate member)
    | true =>
        have ends : Text.endsWith '/' ("/".intercalate stack.reverse) = true := by
          simpa [empty] using bare
        have member := Text.mem_fields_of_endsWith ends
        rw [pieces] at member
        exact absurd (List.eq_of_mem_replicate member) (by decide)

/-- Removing dot segments gives a path in normal form. -/
theorem isNormal_removeDots (path : String) : IsNormal (Text.fields '/' (removeDots path)) := by
  cases rooted : Text.beginsWith '/' path with
  | true =>
      refine ⟨0, "" :: cleaned (segments path), ?_, by simp, ?_⟩
      · rw [fields_eq_cons_segments (beginsWith_removeDots rooted), segments_removeDots rooted]
        rfl
      · exact List.forall_mem_cons.mpr ⟨by decide, fun _ => isPlain_of_mem_cleaned⟩
  | false =>
      have closed : AreClosed ((segments path).foldl (step false) []) := by
        intro segment member
        rcases mem_of_mem_foldl_step member with impossible | among
        · exact absurd impossible List.not_mem_nil
        · exact areClosed_segments path segment among
      rw [removeDots, rooted]
      exact isNormal_assemble (isReduced_foldl ⟨0, [], rfl, by simp⟩ _) closed
        fun shut => exists_foldl_eq_cons (segments_ne_nil path) shut

/-! ## A normal form is left as it is -/

theorem foldl_step_doubles (count : Nat) :
    (List.replicate count "..").foldl (step false) [] = List.replicate count ".." := by
  induction count with
  | zero => rfl
  | succ count inductionHypothesis =>
      rw [List.replicate_succ', List.foldl_append, inductionHypothesis, List.foldl_cons,
        List.foldl_nil, step, if_neg (by decide), if_pos rfl, if_pos (isExhausted_replicate count),
        if_neg Bool.false_ne_true, ← List.replicate_succ', List.replicate_succ]

/-- The segments of a relative path are its pieces. -/
theorem segments_eq_fields {path : String} (relative : Text.beginsWith '/' path = false) :
    segments path = Text.fields '/' path := by
  rw [segments]
  cases cut : Text.dropStart? "/" path with
  | none => rfl
  | some rest =>
      obtain rfl := Text.dropStart?_eq_some_iff.mp cut
      exact absurd relative (by simp [Text.beginsWith])

/-- A path in normal form has no dot segments to remove. -/
theorem removeDots_of_isNormal {path : String} (normal : IsNormal (Text.fields '/' path)) :
    removeDots path = path := by
  obtain ⟨count, names, pieces, filled, plain⟩ := normal
  cases rooted : Text.beginsWith '/' path with
  | true =>
      apply removeDots_eq_self rooted
      rw [fields_eq_cons_segments rooted] at pieces
      cases count with
      | zero =>
          rw [List.replicate_zero, List.nil_append] at pieces
          rw [← pieces] at plain
          exact (List.forall_mem_cons.mp plain).2
      | succ count => exact absurd (List.cons.inj pieces).1 (by decide)
  | false =>
      have relative := segments_eq_fields rooted
      have ends : endsInDots (segments path) = false := by
        rw [relative, pieces, endsInDots_append_of_isPlain _ filled plain]
      have stack : (segments path).foldl (step false) [] = (Text.fields '/' path).reverse := by
        rw [relative, pieces, List.foldl_append, foldl_step_doubles, foldl_step_of_isPlain plain,
          List.reverse_append, List.reverse_replicate]
      have whole := Text.intercalate_fields '/' path
      rw [removeDots, rooted, ends, stack]
      simpa [assemble] using whole

/-- Dot segments are removed once and for all. -/
theorem removeDots_removeDots (path : String) : removeDots (removeDots path) = removeDots path :=
  removeDots_of_isNormal (isNormal_removeDots path)

/-! ## The strict reading -/

/-- Above the start of a relative path every `..` is kept, so the strict reading never gives up. -/
theorem foldlM_strictStep_relative (segments stack : List String) :
    segments.foldlM (strictStep false) stack = some (segments.foldl (step false) stack) := by
  induction segments generalizing stack with
  | nil => rfl
  | cons segment rest inductionHypothesis =>
      have taken : strictStep false stack segment = some (step false stack segment) := by
        rw [strictStep, if_neg (by simp)]
      rw [List.foldlM_cons, taken, Option.bind_eq_bind, Option.bind_some, inductionHypothesis,
        List.foldl_cons]

theorem normalize?_of_relative {path : String} (relative : Text.beginsWith '/' path = false) :
    normalize? path = some (removeDots path) := by
  rw [normalize?, removeDots, relative, foldlM_strictStep_relative, Option.map_some]

/-- Removing dot segments gives a normal form: it changes nothing exactly if a path is in normal
form, and what it gives is.  A path from the root stays one and has no dot segment left, and a
relative one has `..` only at its start.  The strict reading gives up exactly if a path from the
root climbs above the root, and gives the same path otherwise. -/
theorem removeDots_gives_normal_form (path : String) :
    removeDots (removeDots path) = removeDots path ∧
      (removeDots path = path ↔ IsNormal (Text.fields '/' path)) ∧
      (Text.beginsWith '/' path = true → Text.beginsWith '/' (removeDots path) = true ∧
        ∀ piece ∈ Text.fields '/' (removeDots path), IsPlain piece) ∧
      (Text.beginsWith '/' path = false → IsNormal (Text.fields '/' (removeDots path))) ∧
      (normalize? path = none ↔ Text.beginsWith '/' path = true ∧ Climbs (segments path)) ∧
      (normalize? path ≠ none → normalize? path = some (removeDots path)) := by
  refine ⟨removeDots_removeDots path, ⟨fun same => ?_, removeDots_of_isNormal⟩,
    fun rooted => ⟨beginsWith_removeDots rooted, fun _ => isPlain_of_removeDots rooted⟩,
    fun _ => isNormal_removeDots path, ?_, ?_⟩
  · rw [← same]
    exact isNormal_removeDots path
  · cases rooted : Text.beginsWith '/' path with
    | true => rw [normalize?_eq_none_iff rooted, and_iff_right rfl]
    | false => exact iff_of_false (by simp [normalize?_of_relative rooted]) (by simp)
  · intro accepted
    obtain ⟨result, found⟩ := Option.ne_none_iff_exists'.mp accepted
    rw [found, removeDots_of_normalize? found]

/-- A relative path can become one from the root. -/
example : removeDots "nest/..//egg/." = "/egg/" := by decide +kernel

end PackageResolution.UriPath
