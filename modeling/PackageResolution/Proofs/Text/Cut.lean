import Mathlib.Data.List.DropRight
import PackageResolution.Text.Cut

/-!
# The pieces of a text

Cutting at a mark takes apart what was put together with the mark between, and no piece
holds the mark.
-/

namespace PackageResolution.Text

theorem fields_injective {mark : Char} {first second : String}
    (same : fields mark first = fields mark second) : first = second := by
  rw [← intercalate_fields mark first, same, intercalate_fields]

theorem fields_append (before after : String) :
    fields '/' (before ++ "/" ++ after) = fields '/' before ++ fields '/' after := by
  have marked : (before ++ "/" ++ after).toList = before.toList ++ '/' :: after.toList := by
    simp
  rw [fields, marked, List.splitOn_append_cons_self, List.map_append]
  rfl

theorem fields_slash_append (after : String) :
    fields '/' ("/" ++ after) = "" :: fields '/' after := by
  have whole : "/" ++ after = "" ++ "/" ++ after := by rw [String.empty_append]
  rw [whole, fields_append]
  rfl

theorem fields_append_slash (before : String) :
    fields '/' (before ++ "/") = fields '/' before ++ [""] := by
  have whole : before ++ "/" = before ++ "/" ++ "" := by rw [String.append_empty]
  rw [whole, fields_append]
  rfl

theorem fields_intercalate {pieces : List String} (filled : pieces ≠ [])
    (closed : ∀ piece ∈ pieces, '/' ∉ piece.toList) :
    fields '/' ("/".intercalate pieces) = pieces := by
  have chars : ("/".intercalate pieces).toList =
      ['/'].intercalate (pieces.map String.toList) := by
    rw [String.toList_intercalate]
    rfl
  rw [fields, chars, List.splitOn_intercalate _ (by simpa using closed) (by simpa using filled),
    List.map_map]
  exact (congrArg (List.map · pieces) (funext fun _ => String.ofList_toList)).trans
    (List.map_id _)

theorem length_fields_le (mark : Char) (text : String) :
    (fields mark text).length ≤ text.length + 1 := by
  have pieces (chars : List Char) : (chars.splitOn mark).length ≤ chars.length + 1 := by
    induction chars with
    | nil => rw [List.splitOn_nil]; exact Nat.le_refl _
    | cons c rest inductionHypothesis =>
        rw [List.splitOn_cons_eq_if_modifyHead]
        split
        · exact Nat.succ_le_succ inductionHypothesis
        · rw [List.length_modifyHead]
          exact Nat.le_succ_of_le inductionHypothesis
  rw [fields, List.length_map, ← String.length_toList]
  exact pieces text.toList

theorem not_mem_of_mem_splitOn {mark : Char} {text piece : List Char}
    (member : piece ∈ text.splitOn mark) : mark ∉ piece := by
  induction text generalizing piece with
  | nil =>
      rw [List.splitOn_nil, List.mem_singleton] at member
      exact member ▸ List.not_mem_nil
  | cons c rest inductionHypothesis =>
      rw [List.splitOn_cons_eq_if_modifyHead] at member
      split at member
      · rcases List.mem_cons.mp member with rfl | member
        · exact List.not_mem_nil
        · exact inductionHypothesis member
      · rename_i different
        cases pieces : rest.splitOn mark with
        | nil => exact absurd pieces (List.splitOn_ne_nil mark rest)
        | cons first pieces =>
            rw [pieces, List.modifyHead_cons, List.mem_cons] at member
            have present : first ∈ rest.splitOn mark := by
              rw [pieces]
              exact List.mem_cons_self
            rcases member with rfl | member
            · rw [List.mem_cons, not_or]
              exact ⟨fun same => different (beq_iff_eq.mpr same.symm),
                inductionHypothesis present⟩
            · refine inductionHypothesis ?_
              rw [pieces]
              exact List.mem_cons_of_mem _ member

/-- No piece holds the mark. -/
theorem not_mem_of_mem_fields {mark : Char} {text piece : String}
    (member : piece ∈ fields mark text) : mark ∉ piece.toList := by
  obtain ⟨chars, among, rfl⟩ := List.mem_map.mp member
  rw [String.toList_ofList]
  exact not_mem_of_mem_splitOn among

theorem exists_mem_splitOn_iff {mark c : Char} {text : List Char} :
    (∃ piece ∈ text.splitOn mark, c ∈ piece) ↔ c ∈ text ∧ c ≠ mark := by
  induction text with
  | nil => simp [List.splitOn_nil]
  | cons first rest inductionHypothesis =>
      rw [List.splitOn_cons_eq_if_modifyHead]
      split
      · rename_i same
        obtain rfl := beq_iff_eq.mp same
        simp only [List.mem_cons, exists_eq_or_imp, inductionHypothesis]
        constructor
        · rintro (impossible | ⟨member, other⟩)
          · exact nomatch impossible
          · exact ⟨.inr member, other⟩
        · rintro ⟨same | member, other⟩
          · exact absurd same other
          · exact .inr ⟨member, other⟩
      · rename_i different
        cases pieces : rest.splitOn mark with
        | nil => exact absurd pieces (List.splitOn_ne_nil mark rest)
        | cons piece pieces =>
            simp only [pieces, List.mem_cons, exists_eq_or_imp] at inductionHypothesis
            simp only [List.modifyHead_cons, List.mem_cons, exists_eq_or_imp, or_assoc,
              inductionHypothesis]
            have first_ne : c = first → c ≠ mark := by
              rintro rfl same
              exact different (beq_iff_eq.mpr same)
            rw [or_and_right, and_iff_left_of_imp first_ne]

/-- The characters of the pieces are those of the text without the mark. -/
theorem exists_mem_fields_iff {mark c : Char} {text : String} :
    (∃ piece ∈ fields mark text, c ∈ piece.toList) ↔ c ∈ text.toList ∧ c ≠ mark := by
  rw [← exists_mem_splitOn_iff]
  simp [fields]

theorem fields_of_not_mem {mark : Char} {text : String} (unmarked : mark ∉ text.toList) :
    fields mark text = [text] := by
  rw [fields, List.splitOn_eq_singleton unmarked, List.map_singleton, String.ofList_toList]

/-- What is written after a text without a slash belongs to the last piece. -/
theorem exists_fields_append (text : String) : ∃ start last, fields '/' text = start ++ [last] ∧
    ∀ suffix : String, '/' ∉ suffix.toList →
      fields '/' (text ++ suffix) = start ++ [last ++ suffix] := by
  cases cut : cutLast? '/' text with
  | none =>
      have unmarked := cutLast?_eq_none_iff.mp cut
      refine ⟨[], text, fields_of_not_mem unmarked, ?_⟩
      intro suffix plain
      apply fields_of_not_mem
      rw [String.toList_append, List.mem_append, not_or]
      exact ⟨unmarked, plain⟩
  | some parts =>
      rcases parts with ⟨before, last⟩
      rcases cutLast?_eq_some_iff.mp cut with ⟨chars, unmarked⟩
      obtain rfl : text = before ++ "/" ++ last := String.toList_injective (by simpa using chars)
      refine ⟨fields '/' before, last, ?_, ?_⟩
      · rw [fields_append, fields_of_not_mem unmarked]
      · intro suffix plain
        have joined : '/' ∉ (last ++ suffix).toList := by
          rw [String.toList_append, List.mem_append, not_or]
          exact ⟨unmarked, plain⟩
        rw [String.append_assoc, fields_append, fields_of_not_mem joined]

theorem lastField_of_fields {text last : String} {start : List String}
    (pieces : fields '/' text = start ++ [last]) : lastField '/' text = last := by
  unfold lastField
  cases cut : cutLast? '/' text with
  | none =>
      rw [fields_of_not_mem (cutLast?_eq_none_iff.mp cut)] at pieces
      have whole : [] ++ [text] = start ++ [last] := pieces
      exact List.singleton_inj.mp (List.append_inj' whole rfl).2
  | some parts =>
      rcases parts with ⟨before, rest⟩
      rcases cutLast?_eq_some_iff.mp cut with ⟨chars, unmarked⟩
      obtain rfl : text = before ++ "/" ++ rest := String.toList_injective (by simpa using chars)
      rw [fields_append, fields_of_not_mem unmarked] at pieces
      exact List.singleton_inj.mp (List.append_inj' pieces rfl).2

/-- The pieces of one text are the first pieces of another exactly if the other one is the
same or goes on with a slash. -/
theorem fields_prefix_iff {before text : String} : fields '/' before <+: fields '/' text ↔
    text = before ∨ ∃ rest, text = before ++ "/" ++ rest := by
  constructor
  · rintro ⟨others, whole⟩
    cases others with
    | nil =>
        rw [List.append_nil] at whole
        exact .inl (fields_injective whole.symm)
    | cons piece others =>
        right
        refine ⟨"/".intercalate (piece :: others), ?_⟩
        apply fields_injective
        rw [fields_append, fields_intercalate (List.cons_ne_nil _ _), whole]
        intro other member
        apply not_mem_of_mem_fields
        rw [← whole]
        exact List.mem_append_right _ member
  · rintro (rfl | ⟨rest, rfl⟩)
    · exact List.prefix_refl _
    · rw [fields_append]
      exact List.prefix_append _ _

/-- The first pieces of a text, put together, are its start. -/
theorem exists_append_of_prefix {text : String} {pieces : List String}
    (start : pieces <+: fields '/' text) :
    ∃ suffix, text = "/".intercalate pieces ++ suffix := by
  cases pieces with
  | nil => exact ⟨text, by rw [String.intercalate_nil, String.empty_append]⟩
  | cons piece pieces =>
      have closed : ∀ other ∈ piece :: pieces, '/' ∉ other.toList :=
        fun other member => not_mem_of_mem_fields (start.subset member)
      rw [← fields_intercalate (List.cons_ne_nil piece pieces) closed] at start
      rcases fields_prefix_iff.mp start with same | ⟨rest, whole⟩
      · exact ⟨"", by rw [String.append_empty, ← same]⟩
      · exact ⟨"/" ++ rest, by rw [whole, String.append_assoc]⟩

theorem ne_append {rest : String} (filled : rest ≠ "") (text : String) : text ≠ text ++ rest := by
  intro same
  have long := congrArg String.length same
  rw [String.length_append] at long
  exact filled (String.length_eq_zero_iff.mp (Nat.left_eq_add.mp long))

/-- What is written after a text without a slash is not where the text goes on after one. -/
theorem exists_append_slash_iff {text start suffix : String} (plain : '/' ∉ suffix.toList) :
    (∃ rest, text ++ suffix = start ++ "/" ++ rest) ↔ ∃ rest, text = start ++ "/" ++ rest := by
  constructor
  · rintro ⟨rest, whole⟩
    rcases exists_fields_append text with ⟨above, last, pieces, extended⟩
    have cut := extended suffix plain
    rw [whole, fields_append] at cut
    rcases List.eq_nil_or_concat (fields '/' rest) with none | ⟨others, final, split⟩
    · exact absurd none (fields_ne_nil '/' rest)
    · rw [List.concat_eq_append] at split
      rw [split, ← List.append_assoc] at cut
      rw [← (List.append_inj' cut rfl).1] at pieces
      have begun : fields '/' start <+: fields '/' text := by
        rw [pieces, List.append_assoc]
        exact List.prefix_append _ _
      rcases fields_prefix_iff.mp begun with rfl | continues
      · have long := congrArg List.length pieces
        rw [List.length_append, List.length_append, List.length_singleton] at long
        omega
      · exact continues
  · rintro ⟨rest, rfl⟩
    exact ⟨rest ++ suffix, String.append_assoc⟩

@[simp]
theorem dropStart?_append (start rest : String) : dropStart? start (start ++ rest) = some rest := by
  have begun : startsWith start (start ++ rest) = true := by
    rw [startsWith, String.toList_append]
    exact List.isPrefixOf_iff_prefix.mpr (List.prefix_append _ _)
  rw [dropStart?, if_pos begun, String.toList_append, List.drop_left, String.ofList_toList]

theorem dropStart?_eq_some_iff {start text rest : String} :
    dropStart? start text = some rest ↔ text = start ++ rest := by
  constructor
  · intro dropped
    unfold dropStart? at dropped
    split at dropped
    · rename_i begun
      obtain ⟨chars, whole⟩ := List.isPrefixOf_iff_prefix.mp begun
      rw [← whole, List.drop_left, Option.some.injEq] at dropped
      apply String.toList_injective
      rw [← whole, String.toList_append, ← dropped, String.toList_ofList]
    · exact nomatch dropped
  · rintro rfl
    exact dropStart?_append start rest

/-- A text that begins with a character is that character and a rest. -/
theorem exists_of_beginsWith {first : Char} {text : String}
    (begun : beginsWith first text = true) :
    ∃ rest, text = String.singleton first ++ rest := by
  rw [beginsWith, beq_iff_eq, List.head?_eq_some_iff] at begun
  rcases begun with ⟨chars, whole⟩
  exact ⟨String.ofList chars, String.toList_injective (by simpa using whole)⟩

/-- After a slash at the end of a text there is an empty piece. -/
theorem mem_fields_of_endsWith {text : String} (ends : endsWith '/' text = true) :
    "" ∈ fields '/' text := by
  rw [endsWith, beq_iff_eq] at ends
  obtain ⟨before, chars⟩ := List.getLast?_eq_some_iff.mp ends
  obtain rfl : text = String.ofList before ++ "/" := String.toList_injective (by simp [chars])
  rw [fields_append_slash]
  exact List.mem_concat_self

/-! ## Replacing -/

theorem not_mem_replace {mark other : Char} (different : mark ≠ other) (text : String) :
    mark ∉ (replace mark other text).toList := by
  rw [replace, String.toList_ofList, List.mem_map]
  rintro ⟨c, -, replaced⟩
  split at replaced
  · exact different replaced.symm
  · rename_i kept
    exact kept replaced

theorem replace_eq_self {mark other : Char} {text : String} (unmarked : mark ∉ text.toList) :
    replace mark other text = text := by
  have kept : text.toList.map (fun c => if c = mark then other else c) = text.toList.map id := by
    apply List.map_congr_left
    rintro c member
    apply if_neg
    rintro rfl
    exact unmarked member
  rw [replace, kept, List.map_id, String.ofList_toList]

/-! ## Runs of characters -/

/-- That some characters do not continue a run of characters of a class. -/
def EndsRun {α : Type} (within : α → Bool) (rest : List α) : Prop :=
  ∀ c, rest.head? = some c → within c = false

theorem takeWhile_append_of_endsRun {α : Type} {within : α → Bool} {run rest : List α}
    (all : ∀ c ∈ run, within c = true) (ends : EndsRun within rest) :
    (run ++ rest).takeWhile within = run := by
  rw [List.takeWhile_append_of_pos all]
  cases rest with
  | nil => rw [List.takeWhile_nil, List.append_nil]
  | cons c rest =>
      rw [List.takeWhile_cons_of_neg (by rw [ends c rfl]; decide), List.append_nil]

theorem dropWhile_append_of_endsRun {α : Type} {within : α → Bool} {run rest : List α}
    (all : ∀ c ∈ run, within c = true) (ends : EndsRun within rest) :
    (run ++ rest).dropWhile within = rest := by
  rw [List.dropWhile_append_of_pos all]
  cases rest with
  | nil => rfl
  | cons c rest => rw [List.dropWhile_cons_of_neg (by rw [ends c rfl]; decide)]

/-- Where a mark is missing, every character is another one. -/
theorem bne_of_not_mem {mark : Char} {chars : List Char} (unmarked : mark ∉ chars) :
    ∀ c ∈ chars, (c != mark) = true := by
  intro c member
  rw [bne_iff_ne]
  rintro rfl
  exact unmarked member

theorem endsRun_nil {α : Type} (within : α → Bool) : EndsRun within [] :=
  fun _ first => nomatch first

theorem endsRun_cons {α : Type} {within : α → Bool} {c : α} (outside : within c = false)
    (rest : List α) : EndsRun within (c :: rest) :=
  fun _ first => Option.some.inj first ▸ outside

/-! ## Trimming -/

/-- The marks at the start of a text, and the rest. -/
theorem exists_dropWhile (mark : Char) (chars : List Char) :
    ∃ count, chars = List.replicate count mark ++ chars.dropWhile (· == mark) := by
  refine ⟨(chars.takeWhile (· == mark)).length, ?_⟩
  have marks : chars.takeWhile (· == mark) =
      List.replicate (chars.takeWhile (· == mark)).length mark := by
    refine List.eq_replicate_iff.mpr ⟨rfl, fun c member => ?_⟩
    exact beq_iff_eq.mp (List.mem_takeWhile_imp (p := (· == mark)) member)
  rw [← marks, List.takeWhile_append_dropWhile]

/-- A text is what trimming leaves of it between marks. -/
theorem exists_trim (mark : Char) (text : String) :
    ∃ before after, text.toList =
      List.replicate before mark ++ ((trim mark text).toList ++ List.replicate after mark) := by
  obtain ⟨before, start⟩ := exists_dropWhile mark text.toList
  obtain ⟨after, finish⟩ := exists_dropWhile mark (text.toList.dropWhile (· == mark)).reverse
  refine ⟨before, after, ?_⟩
  have turned := congrArg List.reverse finish
  rw [List.reverse_reverse, List.reverse_append, List.reverse_replicate] at turned
  rw [trim, trimEnd, trimStart, String.toList_ofList, String.toList_ofList, ← turned]
  exact start

theorem mem_of_mem_trim {mark c : Char} {text : String}
    (member : c ∈ (trim mark text).toList) : c ∈ text.toList := by
  obtain ⟨before, after, whole⟩ := exists_trim mark text
  rw [whole]
  exact List.mem_append_right _ (List.mem_append_left _ member)

theorem beginsWith_trimStart (mark : Char) (text : String) :
    beginsWith mark (trimStart mark text) = false := by
  rw [beginsWith, trimStart, String.toList_ofList, beq_eq_false_iff_ne]
  intro first
  have kept := List.head?_dropWhile_not (· == mark) text.toList
  rw [first] at kept
  simp at kept

theorem beginsWith_trim (mark : Char) (text : String) :
    beginsWith mark (trim mark text) = false := by
  have start : (trim mark text).toList <+: (trimStart mark text).toList := by
    rw [trim, trimEnd, String.toList_ofList]
    exact List.rdropWhile_prefix _ _
  rw [Bool.eq_false_iff]
  intro begun
  obtain ⟨rest, trimmed⟩ := exists_of_beginsWith begun
  obtain ⟨more, whole⟩ := start
  have kept := beginsWith_trimStart mark text
  rw [beginsWith, ← whole, trimmed] at kept
  simp at kept

theorem trimEnd_append_slash {text : String} (shut : endsWith '/' text = false) :
    trimEnd '/' (text ++ "/") = text := by
  have turned : (text ++ "/").toList.reverse = '/' :: text.toList.reverse := by simp
  have kept : text.toList.reverse.dropWhile (· == '/') = text.toList.reverse := by
    rw [endsWith, ← List.head?_reverse] at shut
    cases whole : text.toList.reverse with
    | nil => rfl
    | cons c rest =>
        rw [whole] at shut
        exact List.dropWhile_cons_of_neg (by simpa using shut)
  rw [trimEnd, turned, List.dropWhile_cons_of_pos (by decide), kept, List.reverse_reverse,
    String.ofList_toList]

theorem mem_fields_replicate_append {piece : String} {count : Nat} {chars : List Char}
    (member : piece ∈ fields '/' (String.ofList chars)) :
    piece ∈ fields '/' (String.ofList (List.replicate count '/' ++ chars)) := by
  induction count with
  | zero => exact member
  | succ count inductionHypothesis =>
      have slash : String.ofList ['/'] = "/" := rfl
      rw [List.replicate_succ, List.cons_append, ← List.singleton_append, String.ofList_append,
        slash, fields_slash_append]
      exact List.mem_cons_of_mem _ inductionHypothesis

/-- The pieces of a text without the slashes at its start are those of the text, beside empty
ones. -/
theorem mem_fields_trimStart_iff {piece : String} (filled : piece ≠ "") (text : String) :
    piece ∈ fields '/' (trimStart '/' text) ↔ piece ∈ fields '/' text := by
  obtain ⟨count, whole⟩ := exists_dropWhile '/' text.toList
  have written : text = String.ofList (List.replicate count '/' ++
      text.toList.dropWhile (· == '/')) := by
    rw [← whole, String.ofList_toList]
  constructor
  · intro member
    rw [written]
    exact mem_fields_replicate_append member
  · intro member
    rw [written] at member
    rw [trimStart]
    generalize text.toList.dropWhile (· == '/') = chars at member
    clear whole written
    induction count with
    | zero => exact member
    | succ count inductionHypothesis =>
        have slash : String.ofList ['/'] = "/" := rfl
        rw [List.replicate_succ, List.cons_append, ← List.singleton_append, String.ofList_append,
          slash, fields_slash_append, List.mem_cons, or_iff_right filled] at member
        exact inductionHypothesis member

theorem mem_fields_append_replicate {piece : String} {count : Nat} {chars : List Char}
    (member : piece ∈ fields '/' (String.ofList chars)) :
    piece ∈ fields '/' (String.ofList (chars ++ List.replicate count '/')) := by
  induction count with
  | zero => rwa [List.replicate_zero, List.append_nil]
  | succ count inductionHypothesis =>
      have slash : String.ofList ['/'] = "/" := rfl
      rw [List.replicate_succ', ← List.append_assoc, String.ofList_append, slash,
        fields_append_slash]
      exact List.mem_append_left _ inductionHypothesis

/-- The pieces of a text without the slashes at its ends are pieces of the text. -/
theorem mem_fields_of_mem_fields_trim {piece text : String}
    (member : piece ∈ fields '/' (trim '/' text)) : piece ∈ fields '/' text := by
  obtain ⟨before, after, whole⟩ := exists_trim '/' text
  rw [← String.ofList_toList (s := text), whole]
  apply mem_fields_replicate_append
  apply mem_fields_append_replicate
  rwa [String.ofList_toList]

theorem endsWith_trim (mark : Char) (text : String) : endsWith mark (trim mark text) = false := by
  rw [endsWith, trim, trimEnd, String.toList_ofList, List.getLast?_reverse, beq_eq_false_iff_ne]
  intro last
  have kept := List.head?_dropWhile_not (· == mark) (trimStart mark text).toList.reverse
  rw [last] at kept
  simp at kept

end PackageResolution.Text
