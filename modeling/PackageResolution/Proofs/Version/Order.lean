import PackageResolution.Proofs.Text.Cut
import PackageResolution.Version.Order

/-!
# The order of versions is total

Each of the comparisons that the order of versions is made of is reversed when its sides
are exchanged, can be chained, and takes only equal texts as equal.  So of any two versions
one is at least the other, and versions that are at least each other are equal.
-/

namespace PackageResolution.Version

open Std

/-! ## Comparing by a part -/

section Along

variable {α β : Type} (part : α → β) (compareOne : β → β → Ordering)

/-- The order of two things by one of their parts. -/
def compareBy (a b : α) : Ordering :=
  compareOne (part a) (part b)

instance [TransCmp compareOne] : TransCmp (compareBy part compareOne) where
  eq_swap := (inferInstance : OrientedCmp compareOne).eq_swap
  isLE_trans first second := (inferInstance : TransCmp compareOne).isLE_trans first second

end Along

/-! ## Identifiers -/

section Identifiers

variable (compareOne : String → String → Ordering)

theorem compareAlong_eq_compareLex : compareAlong compareOne = List.compareLex compareOne := by
  funext first second
  induction first generalizing second with
  | nil => cases second <;> rfl
  | cons a first inductionHypothesis =>
      cases second with
      | nil => rfl
      | cons b second =>
          rw [compareAlong, List.compareLex_cons_cons, inductionHypothesis]

instance [TransCmp compareOne] : TransCmp (compareAlong compareOne) := by
  rw [compareAlong_eq_compareLex]
  infer_instance

instance [LawfulEqCmp compareOne] : LawfulEqCmp (compareAlong compareOne) := by
  rw [compareAlong_eq_compareLex]
  infer_instance

instance [TransCmp compareOne] : TransCmp (compareSegments compareOne) where
  eq_swap {a b} := by
    cases first : Text.isDigits a <;> cases second : Text.isDigits b <;>
      simp only [compareSegments, first, second]
    · exact OrientedOrd.eq_swap
    · rfl
    · rfl
    · exact OrientedCmp.eq_swap
  isLE_trans {a b c} below above := by
    cases first : Text.isDigits a <;> cases second : Text.isDigits b <;>
      cases third : Text.isDigits c <;>
      simp only [compareSegments, first, second, third] at below above ⊢
    all_goals first | exact TransCmp.isLE_trans below above | contradiction | rfl

instance [LawfulEqCmp compareOne] : LawfulEqCmp (compareSegments compareOne) where
  compare_self {a} := by
    cases digits : Text.isDigits a <;> simp only [compareSegments, digits]
    · exact ReflOrd.compare_self
    · exact ReflCmp.compare_self
  eq_of_compare {a b} same := by
    cases first : Text.isDigits a <;> cases second : Text.isDigits b <;>
      simp only [compareSegments, first, second] at same
    · exact LawfulEqOrd.eq_of_compare same
    · exact nomatch same
    · exact nomatch same
    · exact LawfulEqCmp.eq_of_compare same

instance : TransCmp compareNumerals :=
  inferInstanceAs (TransCmp (compareLex (compareOn String.length) compare))

instance : LawfulEqCmp compareNumerals where
  compare_self {a} := by simp [compareNumerals]
  eq_of_compare {a b} same := by
    rw [compareNumerals, Ordering.then_eq_eq] at same
    exact LawfulEqOrd.eq_of_compare same.2

instance : TransCmp comparePadded :=
  inferInstanceAs (TransCmp
    (compareLex (compareBy (Text.trimStart '0') compareNumerals) (compareOn String.length)))

/-- A text is determined by its length and what trimming leaves of it. -/
theorem eq_of_trimStart_eq {a b : String} (same : Text.trimStart '0' a = Text.trimStart '0' b)
    (long : a.length = b.length) : a = b := by
  obtain ⟨before, first⟩ := Text.exists_dropWhile '0' a.toList
  obtain ⟨before', second⟩ := Text.exists_dropWhile '0' b.toList
  have rest := String.ofList_injective same
  rw [← rest] at second
  have counts := long
  rw [← String.length_toList, ← String.length_toList, first, second, List.length_append,
    List.length_append, List.length_replicate, List.length_replicate] at counts
  obtain rfl : before = before' := Nat.add_right_cancel counts
  exact String.toList_injective (first.trans second.symm)

instance : LawfulEqCmp comparePadded where
  compare_self {a} := by simp [comparePadded, ReflCmp.compare_self]
  eq_of_compare {a b} same := by
    rw [comparePadded, Ordering.then_eq_eq] at same
    exact eq_of_trimStart_eq (LawfulEqCmp.eq_of_compare same.1)
      (LawfulEqOrd.eq_of_compare same.2)

end Identifiers

/-! ## Versions -/

instance : TransCmp comparePreRelease where
  eq_swap {a b} := by
    unfold comparePreRelease
    split <;> split <;> try rfl
    exact OrientedCmp.eq_swap
  isLE_trans {a b c} below above := by
    unfold comparePreRelease at below above ⊢
    by_cases first : a = "" <;> by_cases second : b = "" <;> by_cases third : c = "" <;>
      simp only [first, second, third, if_true, if_false] at below above ⊢
    all_goals first | exact TransCmp.isLE_trans below above | contradiction | rfl

instance : LawfulEqCmp comparePreRelease where
  compare_self {a} := by
    unfold comparePreRelease
    split
    · rfl
    · exact ReflCmp.compare_self
  eq_of_compare {a b} same := by
    unfold comparePreRelease at same
    split at same
    · split at same
      · simp_all
      · exact nomatch same
    · split at same
      · exact nomatch same
      · exact Text.fields_injective (LawfulEqCmp.eq_of_compare same)

instance : TransCmp compareBuild :=
  inferInstanceAs (TransCmp
    (compareBy (Text.fields '.') (compareAlong (compareSegments comparePadded))))

instance : LawfulEqCmp compareBuild where
  compare_self :=
    (inferInstance : ReflCmp (compareAlong (compareSegments comparePadded))).compare_self
  eq_of_compare same := Text.fields_injective (LawfulEqCmp.eq_of_compare same)

instance : TransCmp Version.compare :=
  inferInstanceAs (TransCmp
    (compareLex (compareOn Version.major) (compareLex (compareOn Version.minor)
      (compareLex (compareOn Version.patch)
        (compareLex (compareBy Version.preRelease comparePreRelease)
          (compareBy Version.build compareBuild))))))

instance : LawfulEqCmp Version.compare where
  compare_self {a} := by simp [Version.compare, ReflCmp.compare_self]
  eq_of_compare {a b} same := by
    simp only [Version.compare, Ordering.then_eq_eq, LawfulEqCmp.compare_eq_iff_eq] at same
    obtain ⟨major, minor, patch, preRelease, build⟩ := same
    cases a
    cases b
    simp_all

theorem atLeast_iff {a b : Version} : a.atLeast b = true ↔ (b.compare a).isLE = true := by
  have swapped : a.compare b = (b.compare a).swap := OrientedCmp.eq_swap
  rw [atLeast, swapped]
  cases b.compare a <;> decide

@[simp]
theorem atLeast_self (version : Version) : version.atLeast version = true :=
  atLeast_iff.mpr ReflCmp.isLE_rfl

theorem atLeast_trans {a b c : Version} (above : a.atLeast b = true)
    (below : b.atLeast c = true) : a.atLeast c = true :=
  atLeast_iff.mpr (TransCmp.isLE_trans (atLeast_iff.mp below) (atLeast_iff.mp above))

/-- Versions that are at least each other are equal. -/
theorem atLeast_antisymm {a b : Version} (above : a.atLeast b = true)
    (below : b.atLeast a = true) : a = b :=
  LawfulEqCmp.eq_of_compare
    (OrientedCmp.isLE_antisymm (atLeast_iff.mp below) (atLeast_iff.mp above))

/-- Of two versions one is at least the other. -/
theorem atLeast_of_not_atLeast {a b : Version} (less : a.atLeast b = false) :
    b.atLeast a = true := by
  rw [atLeast_iff]
  rw [atLeast, bne_eq_false_iff_eq] at less
  rw [less]
  rfl

end PackageResolution.Version
