import PackageResolution.Proofs.Path.Parent

/-!
# Paths of names

Most paths are made of plain names, without `.` and `..` between the slashes.  Such a path
leads to the place of its names, and so does every path above it.
-/

namespace PackageResolution.Path

/-! ## Names -/

/-- That a piece between slashes is a name. -/
def IsName (piece : String) : Prop :=
  piece ≠ "" ∧ piece ≠ "." ∧ piece ≠ ".."

instance (piece : String) : Decidable (IsName piece) :=
  inferInstanceAs (Decidable (_ ∧ _))

theorem IsName.component? {piece : String} (isName : IsName piece) :
    Path.component? piece = some (.named piece) := by
  rcases isName with ⟨filled, single, double⟩
  simp [Path.component?, filled, single, double]

/-- A piece in which something else than a dot stands is a name. -/
theorem isName_of_mem {piece : String} {c : Char} (member : c ∈ piece.toList) (other : c ≠ '.') :
    IsName piece := by
  have among : c ∈ piece.toList.filter (· ≠ '.') := by simp [member, other]
  refine ⟨?_, ?_, ?_⟩
  · rintro rfl
    exact absurd among List.not_mem_nil
  · rintro rfl
    exact absurd among List.not_mem_nil
  · rintro rfl
    exact absurd among List.not_mem_nil

theorem filterMap_component?_of_isName {pieces : List String}
    (names : ∀ piece ∈ pieces, IsName piece) :
    pieces.filterMap Path.component? = pieces.map .named := by
  rw [← List.filterMap_eq_map]
  apply List.filterMap_congr
  intro piece member
  exact (names piece member).component?

/-- The steps of a path whose pieces are names. -/
theorem steps_eq_map_named {text : String}
    (names : ∀ piece ∈ Text.fields '/' text, IsName piece) :
    steps ⟨text⟩ = (Text.fields '/' text).map .named :=
  filterMap_component?_of_isName names

theorem steps_of_isName {piece : String} (isName : IsName piece) (plain : '/' ∉ piece.toList) :
    steps ⟨piece⟩ = [.named piece] := by
  rw [steps, Text.fields_of_not_mem plain]
  simp only [List.filterMap_cons, isName.component?, List.filterMap_nil]

theorem isAbsolute_of_not_mem {piece : String} (plain : '/' ∉ piece.toList) :
    isAbsolute ⟨piece⟩ = false := by
  rw [isAbsolute, Text.beginsWith, beq_eq_false_iff_ne]
  intro first
  exact plain (List.mem_of_head? first)

/-- Steps that are names are all kept. -/
theorem foldl_step_named (names : List String) (stack : List Component) :
    (names.map .named).foldl normalized.step stack = (names.map .named).reverse ++ stack := by
  induction names generalizing stack with
  | nil => rfl
  | cons name names inductionHypothesis =>
      have taken : normalized.step stack (.named name) = .named name :: stack := by
        unfold normalized.step
        split <;> simp_all
      rw [List.map_cons, List.foldl_cons, taken, inductionHypothesis, List.reverse_cons,
        List.append_assoc]
      rfl

/-- Steps none of which leads back are names. -/
theorem exists_names {path : Path} (onward : .parent ∉ path.steps) :
    ∃ names : List String, path.steps = names.map .named := by
  have each (pieces : List String) (onward : .parent ∉ pieces.filterMap Path.component?) :
      ∃ names : List String, pieces.filterMap Path.component? = names.map .named := by
    induction pieces with
    | nil => exact ⟨[], rfl⟩
    | cons piece pieces inductionHypothesis =>
        rw [List.filterMap_cons] at onward ⊢
        cases stands : Path.component? piece with
        | none =>
            rw [stands] at onward
            exact inductionHypothesis onward
        | some component =>
            simp only [stands, List.mem_cons, not_or] at onward
            rcases inductionHypothesis onward.2 with ⟨names, rest⟩
            have name : component = .named piece := by
              unfold Path.component? at stands
              split at stands
              · exact nomatch stands
              · split at stands
                · exact absurd (Option.some.inj stands) onward.1
                · exact (Option.some.inj stands).symm
            exact ⟨piece :: names, by rw [rest, name, List.map_cons]⟩
  exact each _ onward

/-! ## Paths that are written as names from the root -/

/-- That a path is absolute and its components after the root are the given names. -/
def IsAt (path : Path) (names : List String) : Prop :=
  path.components = .root :: names.map .named

instance (path : Path) (names : List String) : Decidable (path.IsAt names) :=
  inferInstanceAs (Decidable (_ = _))

variable {path base : Path} {names : List String}

theorem IsAt.isAbsolute (written : path.IsAt names) : path.isAbsolute = true := by
  by_contra relative
  have member : .root ∈ path.components := by
    rw [written]
    exact List.mem_cons_self
  rw [components_eq, List.mem_append, start, if_neg relative] at member
  rcases member with among | among
  · split at among
    · cases List.mem_singleton.mp among
    · exact absurd among List.not_mem_nil
  · exact path.root_not_mem_steps among

theorem IsAt.steps_eq (written : path.IsAt names) : path.steps = names.map .named := by
  have whole : path.start ++ path.steps = .root :: names.map .named := written
  rw [start, if_pos written.isAbsolute] at whole
  exact (List.cons.inj whole).2

theorem IsAt.text_ne_empty (written : path.IsAt names) : path.text ≠ "" := by
  intro empty
  obtain rfl : path = ⟨""⟩ := by rw [← empty]
  exact nomatch written

/-- A path of names that is taken from a path of names. -/
theorem IsAt.join (written : base.IsAt names) {others : List String}
    (relative : path.isAbsolute = false) (steps : path.steps = others.map .named) :
    (base.join path).IsAt (names ++ others) := by
  rw [IsAt, components_join relative written.text_ne_empty, written, steps, List.map_append]
  rfl

theorem IsAt.join_name (written : base.IsAt names) {name : String} (isName : IsName name)
    (plain : '/' ∉ name.toList) : (base.join ⟨name⟩).IsAt (names ++ [name]) :=
  written.join (isAbsolute_of_not_mem plain) (steps_of_isName isName plain)

theorem IsAt.normalized (written : path.IsAt names) :
    path.normalized = .root :: names.map .named := by
  have rooted : normalized.step [] .root = [.root] := rfl
  rw [normalized_eq, reached, written, List.foldl_cons, rooted, foldl_step_named,
    List.reverse_append, List.reverse_reverse]
  rfl

theorem named_injective : Function.Injective Component.named :=
  fun _ _ same => Component.named.inj same

theorem IsAt.unique (written : path.IsAt names) {others : List String}
    (again : path.IsAt others) : names = others := by
  have same : Component.root :: names.map .named = .root :: others.map .named :=
    written.symm.trans again
  exact named_injective.list_map (List.cons.inj same).2

/-- One path of names leads below another one exactly if the names say so. -/
theorem IsAt.liesWithin_iff (written : path.IsAt names) {others : List String}
    (baseWritten : base.IsAt others) : path.LiesWithin base ↔ others <+: names := by
  rw [LiesWithin, written.normalized, baseWritten.normalized, List.cons_prefix_cons,
    List.prefix_map_iff_of_injective named_injective]
  exact and_iff_right rfl

/-- What is above a path of names is written as some of these names. -/
theorem IsAt.of_parent? {above : Path} (written : path.IsAt names)
    (found : path.parent? = some above) : ∃ others, above.IsAt others ∧ others <+: names := by
  rcases components_of_parent? found with ⟨component, split⟩
  have absolute := isAbsolute_of_parent? found written.isAbsolute
  rw [written] at split
  rw [components_eq, start, if_pos absolute, List.append_assoc, List.singleton_append,
    List.cons.injEq] at split
  rcases List.map_eq_append_iff.mp split.2 with ⟨others, rest, rfl, steps, -⟩
  refine ⟨others, ?_, List.prefix_append _ _⟩
  rw [IsAt, components_eq, start, if_pos absolute, ← steps]
  rfl

theorem IsAt.of_mem_ancestors {above : Path} (written : path.IsAt names)
    (among : above ∈ path.ancestors) : ∃ others, above.IsAt others ∧ others <+: names := by
  have climb (count : Nat) (path : Path) (names : List String) (written : path.IsAt names)
      (among : above ∈ ancestors.go count path) :
      ∃ others, above.IsAt others ∧ others <+: names := by
    induction count generalizing path names with
    | zero => exact nomatch among
    | succ count inductionHypothesis =>
        rw [ancestors.go] at among
        cases found : path.parent? with
        | none =>
            rw [found] at among
            exact nomatch among
        | some nearest =>
            rw [found] at among
            rcases written.of_parent? found with ⟨others, nearer, start⟩
            rcases List.mem_cons.mp among with rfl | among
            · exact ⟨others, nearer, start⟩
            · rcases inductionHypothesis nearest others nearer among with ⟨first, there, begun⟩
              exact ⟨first, there, begun.trans start⟩
  exact climb _ path names written among

end PackageResolution.Path
