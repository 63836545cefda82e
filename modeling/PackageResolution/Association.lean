/-!
# Ordered associations

A list of pairs gives each of its keys a value, the first one that stands with it.
`Association.set` gives a key a new value at the key's place, so the order of the keys
is the order in which they were met, however often their values change.
-/

namespace PackageResolution.Association

/-- The keys in their order. -/
def keys {κ α : Type} (pairs : List (κ × α)) : List κ :=
  pairs.map Prod.fst

@[simp]
theorem keys_nil {κ α : Type} : keys ([] : List (κ × α)) = [] := rfl

@[simp]
theorem keys_cons {κ α : Type} (pair : κ × α) (rest : List (κ × α)) :
    keys (pair :: rest) = pair.1 :: keys rest := rfl

variable {κ α : Type} [BEq κ]

/-- The pairs with the value of a key set: in its place if the key has one, and at the
end otherwise. -/
def set (key : κ) (value : α) : List (κ × α) → List (κ × α)
  | [] => [(key, value)]
  | (other, old) :: rest =>
      if other == key then (other, value) :: rest else (other, old) :: set key value rest

variable [LawfulBEq κ]

/-- After a value is set, it is the one that is found. -/
@[simp]
theorem lookup_set_self (key : κ) (value : α) (pairs : List (κ × α)) :
    (set key value pairs).lookup key = some value := by
  induction pairs with
  | nil => simp [set]
  | cons pair rest inductionHypothesis =>
      obtain ⟨other, old⟩ := pair
      by_cases here : other = key
      · simp [set, here]
      · have unequal : (key == other) = false := by simpa using Ne.symm here
        have unequal' : (other == key) = false := by simpa using here
        simp [set, unequal', List.lookup_cons, unequal, inductionHypothesis]

/-- The values of the other keys stay as they are. -/
theorem lookup_set_of_ne {key other : κ} (value : α) (pairs : List (κ × α))
    (different : other ≠ key) : (set key value pairs).lookup other = pairs.lookup other := by
  have unequal : (other == key) = false := by simpa using different
  induction pairs with
  | nil => simp [set, List.lookup_cons, unequal]
  | cons pair rest inductionHypothesis =>
      obtain ⟨first, old⟩ := pair
      by_cases here : first = key
      · simp [set, here, List.lookup_cons, unequal]
      · have unequal' : (first == key) = false := by simpa using here
        simp [set, unequal', List.lookup_cons, inductionHypothesis]

/-- A key that is known keeps its place, and a new one comes last. -/
theorem keys_set (key : κ) (value : α) (pairs : List (κ × α)) :
    keys (set key value pairs) =
      if key ∈ keys pairs then keys pairs else keys pairs ++ [key] := by
  induction pairs with
  | nil => simp [set]
  | cons pair rest inductionHypothesis =>
      obtain ⟨first, old⟩ := pair
      by_cases here : first = key
      · simp [set, here]
      · have unequal : (first == key) = false := by simpa using here
        have absent : key ≠ first := Ne.symm here
        by_cases known : key ∈ keys rest <;>
          simp [set, unequal, inductionHypothesis, known, absent]

/-- What has a value is among the keys. -/
theorem mem_keys_of_lookup {key : κ} {value : α} {pairs : List (κ × α)}
    (found : pairs.lookup key = some value) : key ∈ keys pairs := by
  obtain ⟨front, back, rfl, -⟩ := List.lookup_eq_some_iff.mp found
  simp [keys]

/-- A pair in front does not matter to the other keys. -/
theorem lookup_cons_of_ne {key other : κ} (different : other ≠ key) (value : α)
    (pairs : List (κ × α)) : ((key, value) :: pairs).lookup other = pairs.lookup other := by
  rw [List.lookup_cons, beq_eq_false_iff_ne.mpr different]

/-- What is known stays so, if a new key is put in front. -/
theorem lookup_cons_of_known {key other : κ} {held : α} {pairs : List (κ × α)}
    (unknown : pairs.lookup key = none) (known : pairs.lookup other = some held) (value : α) :
    ((key, value) :: pairs).lookup other = some held := by
  have different : other ≠ key := by
    rintro rfl
    rw [unknown] at known
    cases known
  rw [lookup_cons_of_ne different, known]

/-- What is held of a key is found among the pairs that are kept. -/
theorem lookup_filter {key : κ} {keep : κ × α → Bool} (held : ∀ value, keep (key, value) = true)
    (pairs : List (κ × α)) : (pairs.filter keep).lookup key = pairs.lookup key := by
  induction pairs with
  | nil => rfl
  | cons pair rest inductionHypothesis =>
      obtain ⟨first, value⟩ := pair
      by_cases here : key = first
      · subst here
        rw [List.filter_cons_of_pos (held value), List.lookup_cons_self, List.lookup_cons_self]
      · have unequal : (key == first) = false := by simpa using here
        rw [List.lookup_cons, unequal, ← inductionHypothesis, List.filter_cons]
        split
        · rw [List.lookup_cons, unequal]
        · rfl

end PackageResolution.Association
