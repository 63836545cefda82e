import PackageResolution.Path
import PackageResolution.Proofs.Text.Cut

/-!
# Normalized paths

A relative path that is joined to a directory goes on from where the directory leads to:
its steps are taken after those of the directory.  So whether the joined path stays below
the directory depends on the relative path alone, and it does for every directory exactly
if the path is confined: nowhere on the way are there more `..` than names.
-/

namespace PackageResolution

namespace Path

/-- The steps of a path after its start. -/
def steps (path : Path) : List Component :=
  (Text.fields '/' path.text).filterMap component?

/-- Where a path starts. -/
def start (path : Path) : List Component :=
  if path.isAbsolute then [.root]
  else if (Text.fields '/' path.text).head? = some "." then [.current]
  else []

theorem components_eq (path : Path) : path.components = path.start ++ path.steps := rfl

/-- Where a path leads to: the normalized components, from the last. -/
def reached (path : Path) : List Component :=
  path.components.foldl normalized.step []

theorem normalized_eq (path : Path) : path.normalized = path.reached.reverse := rfl

theorem steps_append (before after : String) :
    steps ⟨before ++ "/" ++ after⟩ = steps ⟨before⟩ ++ steps ⟨after⟩ := by
  rw [steps, Text.fields_append, List.filterMap_append]
  rfl

theorem start_append {before : String} (filled : before ≠ "") (after : String) :
    start ⟨before ++ "/" ++ after⟩ = start ⟨before⟩ := by
  have begun : isAbsolute ⟨before ++ "/" ++ after⟩ = isAbsolute ⟨before⟩ := by
    cases chars : before.toList with
    | nil => exact absurd (String.toList_eq_nil_iff.mp chars) filled
    | cons first rest => simp [isAbsolute, Text.beginsWith, chars]
  have first : (Text.fields '/' (before ++ "/" ++ after)).head? =
      (Text.fields '/' before).head? := by
    rw [Text.fields_append]
    cases pieces : Text.fields '/' before with
    | nil => exact absurd pieces (Text.fields_ne_nil '/' before)
    | cons piece rest => rfl
  rw [start, start, begun, first]

/-- What stands after a slash does not change where a path starts. -/
theorem start_append_eq (before after other : String) :
    start ⟨before ++ "/" ++ after⟩ = start ⟨before ++ "/" ++ other⟩ := by
  by_cases filled : before = ""
  · subst filled
    simp [start, isAbsolute, Text.beginsWith]
  · rw [start_append filled, start_append filled]

@[simp]
theorem steps_empty : steps ⟨""⟩ = [] := rfl

/-- The components of a relative path follow those of the directory that it is joined
to. -/
theorem components_join {base path : Path} (relative : path.isAbsolute = false)
    (filled : base.text ≠ "") : (base.join path).components = base.components ++ path.steps := by
  rw [join, relative, Bool.false_or, if_neg (by simpa using filled)]
  by_cases closed : Text.endsWith '/' base.text = true
  · obtain ⟨before, split⟩ : ∃ before, base.text = before ++ "/" := by
      obtain ⟨chars, split⟩ := List.getLast?_eq_some_iff.mp (beq_iff_eq.mp closed)
      exact ⟨String.ofList chars, String.toList_injective (by simpa using split)⟩
    have written : base = ⟨before ++ "/" ++ ""⟩ := by rw [String.append_empty, ← split]
    rw [if_pos closed, components_eq, components_eq, written, steps_append,
      String.append_empty, steps_append, start_append_eq before path.text "",
      String.append_empty, steps_empty, List.append_nil, List.append_assoc]
  · rw [if_neg closed, components_eq, components_eq, start_append filled, steps_append,
      List.append_assoc]

/-- A relative path goes on from where the directory leads to. -/
theorem reached_join {base path : Path} (relative : path.isAbsolute = false) :
    (base.join path).reached = path.steps.foldl normalized.step base.reached := by
  by_cases filled : base.text = ""
  · obtain rfl : base = ⟨""⟩ := by cases base; rw [← filled]
    have start_idle : path.start.foldl normalized.step [] = [] := by
      simp only [start, relative, Bool.false_eq_true, if_false]
      split <;> rfl
    rw [join, if_pos (by simp), reached, components_eq, List.foldl_append, start_idle]
    rfl
  · rw [reached, components_join relative filled, List.foldl_append]
    rfl

theorem steps_slash_append (text : String) : steps ⟨"/" ++ text⟩ = steps ⟨text⟩ := by
  rw [steps, Text.fields_slash_append]
  rfl

theorem steps_append_slash (text : String) : steps ⟨text ++ "/"⟩ = steps ⟨text⟩ := by
  rw [steps, Text.fields_append_slash, List.filterMap_append]
  exact List.append_nil _

theorem steps_replicate_append (count : Nat) (chars : List Char) :
    steps ⟨String.ofList (List.replicate count '/' ++ chars)⟩ =
      steps ⟨String.ofList chars⟩ := by
  induction count with
  | zero => rfl
  | succ count inductionHypothesis =>
      rw [List.replicate_succ, List.cons_append, ← List.singleton_append,
        String.ofList_append, ← inductionHypothesis]
      exact steps_slash_append _

theorem steps_append_replicate (chars : List Char) (count : Nat) :
    steps ⟨String.ofList (chars ++ List.replicate count '/')⟩ =
      steps ⟨String.ofList chars⟩ := by
  induction count with
  | zero => rw [List.replicate_zero, List.append_nil]
  | succ count inductionHypothesis =>
      rw [List.replicate_succ', ← List.append_assoc, String.ofList_append,
        ← inductionHypothesis]
      exact steps_append_slash _

/-- Slashes at the ends of a path do not count as steps. -/
theorem steps_trim (text : String) : steps ⟨Text.trim '/' text⟩ = steps ⟨text⟩ := by
  obtain ⟨before, after, whole⟩ := Text.exists_trim '/' text
  calc
    steps ⟨Text.trim '/' text⟩ = steps ⟨String.ofList (Text.trim '/' text).toList⟩ := by
      rw [String.ofList_toList]
    _ = steps ⟨String.ofList text.toList⟩ := by
      rw [whole, steps_replicate_append, steps_append_replicate]
    _ = steps ⟨text⟩ := by
      rw [String.ofList_toList]

/-! ## Paths that stay below a directory -/

/-- That a path leads to a directory or to something below it. -/
def LiesWithin (path base : Path) : Prop :=
  base.normalized <+: path.normalized

instance (path base : Path) : Decidable (path.LiesWithin base) :=
  inferInstanceAs (Decidable (base.normalized <+: path.normalized))

/-- Whether some steps, taken from `depth` names below a directory, never lead above the
directory. -/
def staysBelow : Nat → List Component → Bool
  | _, [] => true
  | depth, .named _ :: steps => staysBelow (depth + 1) steps
  | 0, .parent :: _ => false
  | depth + 1, .parent :: steps => staysBelow depth steps
  | depth, .current :: steps => staysBelow depth steps
  | _, .root :: _ => false

/-- That a path does not lead out of the directory that it is taken from. -/
def IsConfined (path : Path) : Prop :=
  path.isAbsolute = false ∧ staysBelow 0 path.steps = true

instance (path : Path) : Decidable path.IsConfined :=
  inferInstanceAs (Decidable (_ ∧ _))

theorem component?_eq_parent_iff {piece : String} :
    component? piece = some .parent ↔ piece = ".." := by
  unfold component?
  split
  · rename_i idle
    constructor
    · exact fun found => nomatch found
    · rintro rfl
      exact absurd idle (by decide)
  · split <;> simp_all

theorem parent_mem_steps_iff {path : Path} :
    .parent ∈ path.steps ↔ ".." ∈ Text.fields '/' path.text := by
  simp only [steps, List.mem_filterMap, component?_eq_parent_iff, exists_eq_right]

theorem root_not_mem_steps (path : Path) : Component.root ∉ path.steps := by
  intro member
  obtain ⟨piece, -, found⟩ := List.mem_filterMap.mp member
  unfold component? at found
  split at found
  · exact nomatch found
  · split at found <;> exact nomatch found

/-- Steps none of which leads back stay below. -/
theorem staysBelow_of_not_mem {steps : List Component} (rootless : .root ∉ steps)
    (onward : .parent ∉ steps) (depth : Nat) : staysBelow depth steps = true := by
  induction steps generalizing depth with
  | nil => rfl
  | cons component steps inductionHypothesis =>
      rw [List.mem_cons, not_or] at rootless onward
      cases component with
      | root => exact absurd rfl rootless.1
      | parent => exact absurd rfl onward.1
      | current => exact inductionHypothesis rootless.2 onward.2 depth
      | named name => exact inductionHypothesis rootless.2 onward.2 (depth + 1)

/-- Steps that stay below a directory leave alone what leads to the directory. -/
theorem exists_foldl_step (names : List String) {steps : List Component}
    (stays : staysBelow names.length steps = true) (below : List Component) :
    ∃ above, steps.foldl normalized.step (names.map .named ++ below) = above ++ below := by
  induction steps generalizing names with
  | nil => exact ⟨names.map .named, rfl⟩
  | cons component steps inductionHypothesis =>
      cases component with
      | root => exact nomatch stays
      | current => exact inductionHypothesis names stays
      | named name => exact inductionHypothesis (name :: names) stays
      | parent =>
          cases names with
          | nil => exact nomatch stays
          | cons last names => exact inductionHypothesis names stays

/-- A confined path leads to the directory or to something below it, whatever the directory
is. -/
theorem IsConfined.liesWithin {path : Path} (confined : path.IsConfined) (base : Path) :
    (base.join path).LiesWithin base := by
  obtain ⟨above, leads⟩ := exists_foldl_step [] confined.2 base.reached
  rw [LiesWithin, normalized_eq, normalized_eq, reached_join confined.1]
  rw [List.map_nil, List.nil_append] at leads
  rw [leads, List.reverse_append]
  exact List.prefix_append _ _

theorem mem_of_mem_step {component other : Component} {stack : List Component}
    (member : other ∈ normalized.step stack component) : other ∈ component :: stack := by
  unfold normalized.step at member
  split at member
  · exact List.mem_cons_of_mem _ member
  · exact List.mem_cons_of_mem _ member
  · exact List.mem_cons_of_mem _ (List.mem_cons_of_mem _ member)
  · exact nomatch member
  · exact member

/-- What is neither there nor among the steps is not reached. -/
theorem not_mem_foldl_step (stack : List Component) {component : Component}
    {steps : List Component} (unnamed : component ∉ steps) (absent : component ∉ stack) :
    component ∉ steps.foldl normalized.step stack := by
  induction steps generalizing stack with
  | nil => exact absent
  | cons first steps inductionHypothesis =>
      rw [List.mem_cons, not_or] at unnamed
      refine inductionHypothesis _ unnamed.2 fun member => ?_
      rcases List.mem_cons.mp (mem_of_mem_step member) with same | member
      · exact unnamed.1 same
      · exact absent member

/-- Steps that lead above a directory take back its name. -/
theorem not_mem_foldl_step_of_climb (names : List String) {name : String}
    {steps below : List Component} (rootless : .root ∉ steps) (unnamed : .named name ∉ steps)
    (fresh : .named name ∉ names.map .named ++ below)
    (climbs : staysBelow names.length steps = false) :
    .named name ∉ steps.foldl normalized.step (names.map .named ++ .named name :: below) := by
  induction steps generalizing names with
  | nil => exact nomatch climbs
  | cons component steps inductionHypothesis =>
      rw [List.mem_cons, not_or] at rootless unnamed
      cases component with
      | root => exact absurd rfl rootless.1
      | current => exact inductionHypothesis names rootless.2 unnamed.2 fresh climbs
      | named other =>
          refine inductionHypothesis (other :: names) rootless.2 unnamed.2 ?_ climbs
          rw [List.map_cons, List.cons_append, List.mem_cons, not_or]
          exact ⟨unnamed.1, fresh⟩
      | parent =>
          cases names with
          | nil => exact not_mem_foldl_step below unnamed.2 fresh
          | cons last names =>
              refine inductionHypothesis names rootless.2 unnamed.2 ?_ climbs
              exact fun member => fresh (List.mem_cons_of_mem _ member)

/-- A length that no name among the components exceeds. -/
def nameBound : List Component → Nat
  | [] => 0
  | .named name :: components => max name.length (nameBound components)
  | _ :: components => nameBound components

theorem length_le_nameBound {name : String} {components : List Component}
    (member : .named name ∈ components) : name.length ≤ nameBound components := by
  induction components with
  | nil => exact absurd member List.not_mem_nil
  | cons component components inductionHypothesis =>
      rcases List.mem_cons.mp member with rfl | among
      · exact Nat.le_max_left _ _
      · have bound := inductionHypothesis among
        cases component with
        | named other => exact Nat.le_trans bound (Nat.le_max_right _ _)
        | root | current | parent => exact bound

/-- A name that no component is. -/
def freshName (components : List Component) : String :=
  String.ofList (List.replicate (nameBound components + 1) 'x')

theorem freshName_not_mem (components : List Component) :
    .named (freshName components) ∉ components := by
  intro member
  have short := length_le_nameBound member
  rw [freshName, String.length_ofList, List.length_replicate] at short
  exact Nat.not_succ_le_self _ short

theorem steps_freshName (components : List Component) :
    steps ⟨freshName components⟩ = [.named (freshName components)] := by
  have slashless : '/' ∉ (freshName components).toList := by
    simp [freshName]
  have plain : component? (freshName components) = some (.named (freshName components)) := by
    simp [component?, freshName, ← String.toList_inj, List.replicate_succ]
  rw [steps, Text.fields, List.splitOn_eq_singleton slashless]
  simp [plain]

/-- A path that is not confined leads out of some directory. -/
theorem exists_not_liesWithin {path : Path} (free : ¬ path.IsConfined) :
    ∃ base : Path, ¬ (base.join path).LiesWithin base := by
  obtain ⟨name, named⟩ : ∃ name, name = freshName (path.components ++ path.steps) := ⟨_, rfl⟩
  have unnamed : .named name ∉ path.components ++ path.steps := named ▸ freshName_not_mem _
  have single : steps ⟨name⟩ = [.named name] := named ▸ steps_freshName _
  rw [List.mem_append, not_or] at unnamed
  have there : reached ⟨"" ++ "/" ++ name⟩ = [.named name, .root] := by
    rw [reached, components_eq, steps_append, single, start_append_eq "" name ""]
    rfl
  refine ⟨⟨"" ++ "/" ++ name⟩, fun inside => ?_⟩
  have kept : .named name ∈ (join ⟨"" ++ "/" ++ name⟩ path).reached := by
    have member : .named name ∈ reached ⟨"" ++ "/" ++ name⟩ := by
      rw [there]
      exact List.mem_cons_self
    exact List.mem_reverse.mp (inside.subset (List.mem_reverse.mpr member))
  by_cases relative : path.isAbsolute = false
  · have climbs : staysBelow 0 path.steps = false := by
      simpa [IsConfined, relative] using free
    rw [reached_join relative, there] at kept
    exact not_mem_foldl_step_of_climb [] path.root_not_mem_steps unnamed.2
      (by simp) climbs kept
  · rw [join, Bool.not_eq_false _ |>.mp relative, Bool.true_or, if_pos rfl] at kept
    exact not_mem_foldl_step [] unnamed.1 List.not_mem_nil kept

/-- Exactly the confined paths stay below every directory that they are taken from. -/
theorem liesWithin_iff_isConfined {path : Path} :
    (∀ base : Path, (base.join path).LiesWithin base) ↔ path.IsConfined := by
  constructor
  · intro inside
    by_contra free
    obtain ⟨base, outside⟩ := exists_not_liesWithin free
    exact outside (inside base)
  · exact fun confined base => confined.liesWithin base

/-! ## Paths from the root -/

theorem getLast?_step {stack : List Component} (rooted : stack.getLast? = some .root)
    (component : Component) : (normalized.step stack component).getLast? = some .root := by
  cases stack with
  | nil => exact nomatch rooted
  | cons last rest =>
      cases component with
      | current => exact rooted
      | root => exact rooted
      | named name => exact rooted
      | parent =>
          -- the root itself is never taken back
          cases last with
          | root => exact rooted
          | current | parent | named =>
              cases rest with
              | nil => exact absurd rooted (by simp)
              | cons next rest => exact rooted

theorem getLast?_foldl_step {stack : List Component} (rooted : stack.getLast? = some .root)
    (steps : List Component) : (steps.foldl normalized.step stack).getLast? = some .root := by
  induction steps generalizing stack with
  | nil => exact rooted
  | cons component steps inductionHypothesis =>
      exact inductionHypothesis (getLast?_step rooted component)

/-- An absolute path leads somewhere below the root. -/
theorem head?_normalized {path : Path} (absolute : path.isAbsolute = true) :
    path.normalized.head? = some .root := by
  rw [normalized_eq, List.head?_reverse, reached, components_eq, start, if_pos absolute]
  exact getLast?_foldl_step rfl path.steps

/-- A relative path does not lead to the root. -/
theorem root_not_mem_normalized {path : Path} (relative : path.isAbsolute = false) :
    .root ∉ path.normalized := by
  rw [normalized_eq, List.mem_reverse]
  apply not_mem_foldl_step [] _ List.not_mem_nil
  rw [components_eq, List.mem_append, not_or]
  constructor
  · rw [start, relative, if_neg Bool.false_ne_true]
    split <;> simp
  · exact path.root_not_mem_steps

theorem root_mem_normalized_iff {path : Path} :
    .root ∈ path.normalized ↔ path.isAbsolute = true := by
  constructor
  · intro member
    by_contra relative
    exact root_not_mem_normalized (Bool.not_eq_true _ ▸ relative) member
  · intro absolute
    exact List.mem_of_head? (head?_normalized absolute)

/-- No step takes back more than one component. -/
theorem length_le_length_step (stack : List Component) (component : Component) :
    stack.length ≤ (normalized.step stack component).length + 1 := by
  unfold normalized.step
  split <;> simp +arith

theorem length_le_length_foldl_step (stack steps : List Component) :
    stack.length ≤ (steps.foldl normalized.step stack).length + steps.length := by
  induction steps generalizing stack with
  | nil => exact Nat.le_refl _
  | cons component steps inductionHypothesis =>
      have first := length_le_length_step stack component
      have others := inductionHypothesis (normalized.step stack component)
      rw [List.foldl_cons, List.length_cons]
      omega

/-- A directory with the given number of names below the root. -/
def descent : Nat → Path
  | 0 => ⟨"/"⟩
  | depth + 1 => (descent depth).join ⟨"d"⟩

theorem reached_descent (depth : Nat) :
    (descent depth).reached = List.replicate depth (.named "d") ++ [.root] := by
  induction depth with
  | zero => rfl
  | succ depth inductionHypothesis =>
      rw [descent, reached_join rfl, inductionHypothesis]
      rfl

theorem isAbsolute_descent (depth : Nat) : (descent depth).isAbsolute = true := by
  rw [← root_mem_normalized_iff, normalized_eq, reached_descent]
  simp

end Path

end PackageResolution
