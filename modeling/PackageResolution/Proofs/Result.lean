import Mathlib.Data.List.Forall2

/-!
# Results that succeed

When a computation that can fail succeeds, so did each of its parts.
-/

namespace PackageResolution.Result

variable {ε α β : Type}

theorem ok_bind (value : α) (next : α → Except ε β) : (Except.ok value >>= next) = next value :=
  rfl

theorem bind_eq_ok_iff {result : Except ε α} {next : α → Except ε β} {value : β} :
    (result >>= next) = .ok value ↔ ∃ first, result = .ok first ∧ next first = .ok value := by
  cases result with
  | error failure => simp [bind, Except.bind]
  | ok first => simp [bind, Except.bind]

theorem map_eq_ok_iff {result : Except ε α} {function : α → β} {value : β} :
    result.map function = .ok value ↔ ∃ first, result = .ok first ∧ function first = value := by
  cases result with
  | error failure => simp [Except.map]
  | ok first => simp [Except.map]

theorem mapError_eq_ok_iff {ε' : Type} {result : Except ε α} {function : ε → ε'} {value : α} :
    result.mapError function = .ok value ↔ result = .ok value := by
  cases result with
  | error failure => simp [Except.mapError]
  | ok first => simp [Except.mapError]

/-- What is made of a list one by one corresponds to it one by one. -/
theorem forall₂_of_mapM {function : α → Except ε β} {list : List α} {values : List β}
    (made : list.mapM function = .ok values) :
    List.Forall₂ (fun item value => function item = .ok value) list values := by
  induction list generalizing values with
  | nil =>
      obtain rfl : [] = values := by simpa [pure, Except.pure] using made
      exact .nil
  | cons item rest inductionHypothesis =>
      rw [List.mapM_cons, bind_eq_ok_iff] at made
      obtain ⟨value, made, more⟩ := made
      obtain ⟨later, restMade, same⟩ := bind_eq_ok_iff.mp more
      obtain rfl : value :: later = values := by simpa [pure, Except.pure] using same
      exact .cons made (inductionHypothesis restMade)

/-- Whatever is among what is made of a list is made of one of its items. -/
theorem exists_of_mem_mapM {function : α → Except ε β} {list : List α} {values : List β}
    (made : list.mapM function = .ok values) {value : β} (member : value ∈ values) :
    ∃ item ∈ list, function item = .ok value := by
  have pairs := forall₂_of_mapM made
  clear made
  induction pairs with
  | nil => exact nomatch member
  | cons first more inductionHypothesis =>
      rcases List.mem_cons.mp member with rfl | later
      · exact ⟨_, List.mem_cons_self, first⟩
      · obtain ⟨item, among, made⟩ := inductionHypothesis later
        exact ⟨item, List.mem_cons_of_mem _ among, made⟩

theorem map_injective {function : α → β} (injective : Function.Injective function) :
    Function.Injective (Except.map function : Except ε α → Except ε β) := by
  intro first second same
  cases first with
  | error failure =>
      cases second with
      | error other => rw [Except.error.inj same]
      | ok value => exact nomatch same
  | ok value =>
      cases second with
      | error failure => exact nomatch same
      | ok other => rw [injective (Except.ok.inj same)]

@[simp]
theorem pure_eq_ok_iff {first value : α} :
    (pure first : Except ε α) = .ok value ↔ first = value := by
  simp [pure, Except.pure]

end PackageResolution.Result
