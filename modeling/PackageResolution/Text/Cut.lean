/-!
# Cutting text at a mark

Identifiers of packages and modules are read by cutting text at one character:
at its first place, at its last place, or at all of them.  Every operation is
given by its effect on the list of characters of the text, and the lemmas beside
it say that a cut loses nothing and that the mark does not occur on the side
where it was looked for.
-/

namespace PackageResolution.Text

/-- A list of characters cut at the first `mark`. -/
def cutList? (mark : Char) : List Char → Option (List Char × List Char)
  | [] => none
  | c :: rest =>
      if c = mark then some ([], rest)
      else (cutList? mark rest).map fun parts => (c :: parts.1, parts.2)

/-- The text before the first `mark` and the text after it, if `mark` occurs. -/
def cut? (mark : Char) (text : String) : Option (String × String) :=
  (cutList? mark text.toList).map fun parts =>
    (String.ofList parts.1, String.ofList parts.2)

/-- The text before the last `mark` and the text after it, if `mark` occurs. -/
def cutLast? (mark : Char) (text : String) : Option (String × String) :=
  (cutList? mark text.toList.reverse).map fun parts =>
    (String.ofList parts.2.reverse, String.ofList parts.1.reverse)

/-- All pieces of `text` between its marks.  There is one piece more than there
are marks, so the list is never empty. -/
def fields (mark : Char) (text : String) : List String :=
  (text.toList.splitOn mark).map String.ofList

/-- Whether `text` begins with `start`. -/
def startsWith (start text : String) : Bool :=
  start.toList.isPrefixOf text.toList

/-- The rest of `text` after `start`, if `text` begins with it. -/
def dropStart? (start text : String) : Option String :=
  if startsWith start text then
    some (String.ofList (text.toList.drop start.toList.length))
  else none

/-- Whether `text` ends with the character `last`. -/
def endsWith (last : Char) (text : String) : Bool :=
  text.toList.getLast? == some last

/-- Whether `text` begins with the character `first`. -/
def beginsWith (first : Char) (text : String) : Bool :=
  text.toList.head? == some first

/-- Whether the character `mark` occurs in `text`. -/
def has (mark : Char) (text : String) : Bool :=
  text.toList.contains mark

/-- `text` without the marks at its start. -/
def trimStart (mark : Char) (text : String) : String :=
  String.ofList (text.toList.dropWhile (· == mark))

/-- `text` without the marks at its end. -/
def trimEnd (mark : Char) (text : String) : String :=
  String.ofList (text.toList.reverse.dropWhile (· == mark)).reverse

/-- `text` without the marks at either end. -/
def trim (mark : Char) (text : String) : String :=
  trimEnd mark (trimStart mark text)

/-- `text` with every `mark` replaced by `other`. -/
def replace (mark other : Char) (text : String) : String :=
  String.ofList (text.toList.map fun c => if c = mark then other else c)

/-- The last piece of `text` between its marks. -/
def lastField (mark : Char) (text : String) : String :=
  match cutLast? mark text with
  | none => text
  | some (_, last) => last

/-! ## What a cut gives back -/

theorem cutList?_eq_some_iff {mark : Char} {text before after : List Char} :
    cutList? mark text = some (before, after) ↔
      text = before ++ mark :: after ∧ mark ∉ before := by
  induction text generalizing before with
  | nil => simp [cutList?]
  | cons c rest inductionHypothesis =>
      by_cases equal : c = mark
      · subst equal
        cases before with
        | nil => simp [cutList?]
        | cons d before =>
            simp only [cutList?, if_true, Option.some.injEq, Prod.mk.injEq,
              List.cons_append, List.cons.injEq, List.mem_cons, not_or]
            constructor
            · rintro ⟨impossible, -⟩
              exact absurd impossible (by simp)
            · rintro ⟨⟨rfl, -⟩, different, -⟩
              exact absurd rfl different
      · cases before with
        | nil => simp [cutList?, equal]
        | cons d before =>
            simp only [cutList?, if_neg equal, Option.map_eq_some_iff,
              Prod.exists, Prod.mk.injEq, List.cons.injEq, List.cons_append,
              List.mem_cons, not_or]
            constructor
            · rintro ⟨first, second, found, ⟨rfl, rfl⟩, rfl⟩
              have whole := inductionHypothesis.mp found
              exact ⟨⟨rfl, whole.1⟩, fun same => equal same.symm, whole.2⟩
            · rintro ⟨⟨rfl, whole⟩, -, missing⟩
              exact ⟨before, after, inductionHypothesis.mpr ⟨whole, missing⟩,
                ⟨rfl, rfl⟩, rfl⟩

theorem cutList?_eq_none_iff {mark : Char} {text : List Char} :
    cutList? mark text = none ↔ mark ∉ text := by
  induction text with
  | nil => simp [cutList?]
  | cons c rest inductionHypothesis =>
      by_cases equal : c = mark
      · simp [cutList?, equal]
      · simp [cutList?, equal, inductionHypothesis, Ne.symm equal]

theorem cut?_eq_some_iff {mark : Char} {text before after : String} :
    cut? mark text = some (before, after) ↔
      text.toList = before.toList ++ mark :: after.toList ∧
        mark ∉ before.toList := by
  simp only [cut?, Option.map_eq_some_iff, Prod.exists, Prod.mk.injEq]
  constructor
  · rintro ⟨first, second, found, rfl, rfl⟩
    simpa using cutList?_eq_some_iff.mp found
  · intro whole
    exact ⟨before.toList, after.toList, cutList?_eq_some_iff.mpr whole,
      String.ofList_toList, String.ofList_toList⟩

theorem cut?_eq_none_iff {mark : Char} {text : String} :
    cut? mark text = none ↔ mark ∉ text.toList := by
  simp [cut?, cutList?_eq_none_iff]

theorem cutLast?_eq_some_iff {mark : Char} {text before after : String} :
    cutLast? mark text = some (before, after) ↔
      text.toList = before.toList ++ mark :: after.toList ∧
        mark ∉ after.toList := by
  simp only [cutLast?, Option.map_eq_some_iff, Prod.exists, Prod.mk.injEq]
  constructor
  · rintro ⟨first, second, found, rfl, rfl⟩
    have whole := cutList?_eq_some_iff.mp found
    have turned := congrArg List.reverse whole.1
    simp only [List.reverse_reverse, List.reverse_append, List.reverse_cons,
      List.append_assoc, List.singleton_append] at turned
    simpa using ⟨turned, whole.2⟩
  · rintro ⟨whole, missing⟩
    refine ⟨after.toList.reverse, before.toList.reverse,
      cutList?_eq_some_iff.mpr ⟨?_, by simpa using missing⟩, by simp, by simp⟩
    simp [whole]

theorem cutLast?_eq_none_iff {mark : Char} {text : String} :
    cutLast? mark text = none ↔ mark ∉ text.toList := by
  simp [cutLast?, cutList?_eq_none_iff]

@[simp]
theorem intercalate_fields (mark : Char) (text : String) :
    (String.singleton mark).intercalate (fields mark text) = text := by
  apply String.toList_injective
  simp [fields, String.toList_intercalate, List.map_map, Function.comp_def,
    List.intercalate_splitOn]

theorem fields_ne_nil (mark : Char) (text : String) : fields mark text ≠ [] := by
  simp [fields]

end PackageResolution.Text
