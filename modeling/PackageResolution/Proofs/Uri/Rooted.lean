import PackageResolution.Proofs.Uri.DotSegments
import PackageResolution.Uri.Resolve

/-!
# Paths from the root as lists of segments

A path that begins with the root slash is its segments with a slash before each.  Its directory
is what is left without the last segment, and removing its dot segments leaves the segments that
are kept, with one exception: where the path ends in a dot segment, a slash follows them unless
the last one is empty.
-/

namespace PackageResolution.UriPath

/-- Some segments with a slash before each. -/
def trail (segments : List String) : String :=
  String.join (segments.map ("/" ++ ·))

/-- That no segment holds a slash. -/
def AreClosed (segments : List String) : Prop :=
  ∀ segment ∈ segments, '/' ∉ segment.toList

@[simp]
theorem trail_nil : trail [] = "" := rfl

theorem trail_cons (segment : String) (segments : List String) :
    trail (segment :: segments) = "/" ++ segment ++ trail segments := by
  rw [trail, List.map_cons, String.join_cons, trail]

theorem trail_append (first second : List String) :
    trail (first ++ second) = trail first ++ trail second := by
  rw [trail, List.map_append, String.join_append, trail, trail]

theorem trail_concat (segments : List String) (last : String) :
    trail (segments ++ [last]) = trail segments ++ "/" ++ last := by
  rw [trail_append, trail_cons, trail_nil, String.append_empty, String.append_assoc]

theorem trail_concat_empty (segments : List String) :
    trail (segments ++ [""]) = trail segments ++ "/" := by
  rw [trail_concat, String.append_empty]

theorem beginsWith_trail {segments : List String} (filled : segments ≠ []) :
    Text.beginsWith '/' (trail segments) = true := by
  cases segments with
  | nil => exact absurd rfl filled
  | cons segment segments => simp [trail_cons, Text.beginsWith]

theorem trail_ne_empty {segments : List String} (filled : segments ≠ []) : trail segments ≠ "" := by
  intro empty
  have begun := beginsWith_trail filled
  rw [empty] at begun
  exact absurd begun (by decide)

theorem length_le_length_trail (segments : List String) :
    segments.length ≤ (trail segments).length := by
  induction segments with
  | nil => exact Nat.zero_le _
  | cons segment segments inductionHypothesis =>
      have slash : "/".length = 1 := by decide
      rw [trail_cons, String.length_append, String.length_append, slash, List.length_cons]
      omega

/-- The pieces of a trail are its segments after an empty piece before the first slash. -/
theorem fields_trail {segments : List String} (closed : AreClosed segments) :
    Text.fields '/' (trail segments) = "" :: segments := by
  induction segments using List.reverseRecOn with
  | nil => rfl
  | append_singleton segments last inductionHypothesis =>
      rw [AreClosed, List.forall_mem_append, List.forall_mem_singleton] at closed
      rw [trail_concat, Text.fields_append, inductionHypothesis closed.1,
        Text.fields_of_not_mem closed.2]
      rfl

theorem areClosed_segments (path : String) : AreClosed (segments path) :=
  fun _ => Text.not_mem_of_mem_fields

theorem segments_ne_nil (path : String) : segments path ≠ [] :=
  Text.fields_ne_nil '/' _

theorem fields_eq_cons_segments {path : String} (rooted : Text.beginsWith '/' path = true) :
    Text.fields '/' path = "" :: segments path := by
  obtain ⟨rest, rfl⟩ : ∃ rest, path = "/" ++ rest := Text.exists_of_beginsWith rooted
  rw [Text.fields_slash_append, segments_slash_append]

/-- A path from the root is the trail of its segments. -/
theorem trail_segments {path : String} (rooted : Text.beginsWith '/' path = true) :
    trail (segments path) = path := by
  apply Text.fields_injective
  rw [fields_trail (areClosed_segments path), fields_eq_cons_segments rooted]

theorem segments_trail {segments : List String} (filled : segments ≠ [])
    (closed : AreClosed segments) : UriPath.segments (trail segments) = segments := by
  have pieces := fields_trail closed
  rw [fields_eq_cons_segments (beginsWith_trail filled)] at pieces
  exact (List.cons.inj pieces).2

theorem trail_inj {first second : List String} (closed : AreClosed first)
    (otherClosed : AreClosed second) : trail first = trail second ↔ first = second := by
  constructor
  · intro same
    have pieces := fields_trail closed
    rw [same, fields_trail otherClosed] at pieces
    exact (List.cons.inj pieces).2.symm
  · exact congrArg trail

/-! ## Directories -/

theorem directoryOf_append {name : String} (closed : '/' ∉ name.toList) (before : String) :
    Uri.directoryOf (before ++ "/" ++ name) = before ++ "/" := by
  have cut : Text.cutLast? '/' (before ++ "/" ++ name) = some (before, name) :=
    Text.cutLast?_eq_some_iff.mpr ⟨by simp, closed⟩
  rw [Uri.directoryOf, cut]

theorem directoryOf_trail_concat (segments : List String) {last : String}
    (closed : '/' ∉ last.toList) :
    Uri.directoryOf (trail (segments ++ [last])) = trail segments ++ "/" := by
  rw [trail_concat, directoryOf_append closed]

/-- The directory of a path from the root is all but its last segment. -/
theorem directoryOf_eq_trail {path : String} (rooted : Text.beginsWith '/' path = true) :
    Uri.directoryOf path = trail (segments path).dropLast ++ "/" := by
  have closed : '/' ∉ ((segments path).getLast (segments_ne_nil path)).toList :=
    areClosed_segments path _ (List.getLast_mem _)
  rw [← directoryOf_trail_concat _ closed, List.dropLast_append_getLast, trail_segments rooted]

theorem beginsWith_trail_append (segments : List String) (rest : String) :
    Text.beginsWith '/' (trail segments ++ "/" ++ rest) = true := by
  cases segments <;> simp [trail_cons, Text.beginsWith]

/-- What is taken from a directory has the segments of the directory and its own pieces. -/
theorem segments_trail_append {segments : List String} (closed : AreClosed segments)
    (rest : String) :
    UriPath.segments (trail segments ++ "/" ++ rest) = segments ++ Text.fields '/' rest := by
  have pieces := fields_eq_cons_segments (beginsWith_trail_append segments rest)
  rw [Text.fields_append, fields_trail closed, List.cons_append] at pieces
  exact (List.cons.inj pieces).2.symm

/-! ## Removing dot segments -/

/-- The segments that are kept of a path from the root. -/
def kept (segments : List String) : List String :=
  (segments.foldl (step true) []).reverse

/-- The segments of a path from the root without its dot segments: those that are kept, and an
empty one after a dot segment at the end unless there is one already. -/
def cleaned (segments : List String) : List String :=
  if endsInDots segments ∧ (kept segments).getLast? ≠ some "" then kept segments ++ [""]
  else kept segments

theorem isPlain_of_mem_kept {segments : List String} {segment : String}
    (member : segment ∈ kept segments) : IsPlain segment ∧ segment ∈ segments := by
  obtain ⟨plain, impossible | among⟩ := foldl_step_kept (by simp) (List.mem_reverse.mp member)
  · exact absurd impossible List.not_mem_nil
  · exact ⟨plain, among⟩

theorem areClosed_kept {segments : List String} (closed : AreClosed segments) :
    AreClosed (kept segments) :=
  fun segment member => closed segment (isPlain_of_mem_kept member).2

theorem isPlain_of_mem_cleaned {segments : List String} {segment : String}
    (member : segment ∈ cleaned segments) : IsPlain segment := by
  unfold cleaned at member
  split at member
  · rcases List.mem_append.mp member with member | member
    · exact (isPlain_of_mem_kept member).1
    · obtain rfl := List.mem_singleton.mp member
      decide
  · exact (isPlain_of_mem_kept member).1

theorem areClosed_cleaned {segments : List String} (closed : AreClosed segments) :
    AreClosed (cleaned segments) := by
  unfold cleaned
  split
  · exact List.forall_mem_append.mpr ⟨areClosed_kept closed, by simp⟩
  · exact areClosed_kept closed

theorem kept_concat_of_isPlain (segments : List String) {last : String} (plain : IsPlain last) :
    kept (segments ++ [last]) = kept segments ++ [last] := by
  simp [kept, List.foldl_append, step, plain.1, plain.2]

theorem kept_concat_single (segments : List String) : kept (segments ++ ["."]) = kept segments := by
  simp [kept, List.foldl_append, step]

/-- A `..` takes back the last segment that was kept, if there is one. -/
theorem step_double {stack : List String} (plain : ∀ segment ∈ stack, IsPlain segment) :
    step true stack ".." = stack.tail := by
  cases stack with
  | nil => rfl
  | cons previous stack =>
      have other := (List.forall_mem_cons.mp plain).1.2
      simp [step, isExhausted, other]

theorem kept_concat_double (segments : List String) :
    kept (segments ++ [".."]) = (kept segments).dropLast := by
  have plain : ∀ segment ∈ segments.foldl (step true) [], IsPlain segment :=
    fun segment member => (isPlain_of_mem_kept (List.mem_reverse.mpr member)).1
  rw [kept, List.foldl_append, List.foldl_cons, List.foldl_nil, step_double plain, kept,
    List.dropLast_reverse]

theorem endsInDots_cons {segment : String} {rest : List String} (filled : rest ≠ []) :
    endsInDots (segment :: rest) = endsInDots rest := by
  rw [endsInDots, List.getLast?_cons_of_ne_nil filled, endsInDots]

theorem cleaned_of_endsInDots_false {segments : List String} (shut : endsInDots segments = false) :
    cleaned segments = kept segments := by
  rw [cleaned, if_neg fun both => Bool.false_ne_true (shut ▸ both.1)]

theorem cleaned_concat_of_isPlain (segments : List String) {last : String}
    (plain : IsPlain last) : cleaned (segments ++ [last]) = kept segments ++ [last] := by
  have shut : endsInDots (segments ++ [last]) = false := by
    simp [endsInDots, plain.1, plain.2]
  rw [cleaned_of_endsInDots_false shut, kept_concat_of_isPlain segments plain]

/-- Something is left of every path. -/
theorem cleaned_ne_nil {segments : List String} (filled : segments ≠ []) :
    cleaned segments ≠ [] := by
  rcases List.eq_nil_or_concat segments with none | ⟨others, last, rfl⟩
  · exact absurd none filled
  rw [List.concat_eq_append]
  by_cases plain : IsPlain last
  · rw [cleaned_concat_of_isPlain others plain]
    simp
  · have dots : endsInDots (others ++ [last]) = true := by
      simp only [IsPlain, not_and_or, not_not] at plain
      simpa [endsInDots] using plain
    unfold cleaned
    split
    · simp
    · rename_i shut
      intro none
      exact shut ⟨dots, by simp [none]⟩

theorem endsWith_trail_concat (segments : List String) {last : String}
    (closed : '/' ∉ last.toList) :
    Text.endsWith '/' (trail (segments ++ [last])) = decide (last = "") := by
  rw [trail_concat]
  by_cases empty : last = ""
  · subst empty
    simp [Text.endsWith]
  · have filled : last.toList ≠ [] := fun none => empty (String.toList_eq_nil_iff.mp none)
    have different : last.toList.getLast filled ≠ '/' := fun same =>
      closed (same ▸ List.getLast_mem filled)
    rw [Text.endsWith, String.toList_append, List.getLast?_append_of_ne_nil _ filled,
      List.getLast?_eq_some_getLast filled, decide_eq_false empty, beq_eq_false_iff_ne]
    exact fun same => different (Option.some.inj same)

theorem trail_eq_slash_append {segments : List String} (filled : segments ≠ []) :
    trail segments = "/" ++ "/".intercalate segments := by
  induction segments with
  | nil => exact absurd rfl filled
  | cons segment segments inductionHypothesis =>
      rw [trail_cons]
      by_cases none : segments = []
      · subst none
        rw [trail_nil, String.append_empty, String.intercalate_singleton]
      · rw [inductionHypothesis none, String.intercalate_cons_of_ne_nil none]
        simp [String.append_assoc]

/-- The path that is put together from some segments. -/
theorem assemble_reverse_concat (isOpen : Bool) (segments : List String) {last : String}
    (closed : '/' ∉ last.toList) :
    assemble true isOpen (segments ++ [last]).reverse =
      trail (segments ++ [last]) ++ if isOpen ∧ last ≠ "" then "/" else "" := by
  have filled : segments ++ [last] ≠ [] := by simp
  simp only [assemble, if_true, List.reverse_reverse, ← trail_eq_slash_append filled,
    endsWith_trail_concat segments closed]
  by_cases conditions : isOpen ∧ last ≠ ""
  · simp [conditions]
  · simp [conditions]

/-- Removing the dot segments of a path from the root. -/
theorem removeDots_eq_trail {path : String} (rooted : Text.beginsWith '/' path = true) :
    removeDots path = trail (cleaned (segments path)) := by
  have whole : removeDots path =
      assemble true (endsInDots (segments path)) (kept (segments path)).reverse := by
    rw [removeDots, rooted, kept, List.reverse_reverse]
  have filled := cleaned_ne_nil (segments_ne_nil path)
  rw [whole]
  rcases List.eq_nil_or_concat (kept (segments path)) with none | ⟨others, last, split⟩
  · rw [cleaned, none, List.getLast?_nil] at filled ⊢
    by_cases dots : endsInDots (segments path) = true
    · rw [if_pos ⟨dots, by simp⟩, dots]
      simp [assemble, trail_cons]
    · rw [if_neg fun both => dots both.1] at filled
      exact absurd rfl filled
  · rw [List.concat_eq_append] at split
    have closed : '/' ∉ last.toList := by
      apply areClosed_kept (areClosed_segments path)
      rw [split]
      simp
    rw [split, assemble_reverse_concat _ _ closed, cleaned, split, List.getLast?_concat]
    by_cases conditions : endsInDots (segments path) = true ∧ last ≠ ""
    · rw [if_pos conditions, if_pos ⟨conditions.1, by simpa using conditions.2⟩, trail_concat _ ""]
      simp
    · rw [if_neg conditions, if_neg (by simpa using conditions), String.append_empty]

/-- A path from the root without dot segments is left as it is. -/
theorem removeDots_eq_self {path : String} (rooted : Text.beginsWith '/' path = true)
    (plain : ∀ segment ∈ segments path, IsPlain segment) : removeDots path = path := by
  apply removeDots_of_normalize?
  apply normalize?_eq_self rooted
  rw [fields_eq_cons_segments rooted, List.forall_mem_cons]
  exact ⟨by decide, plain⟩

/-- The segments of a path from the root without its dot segments. -/
theorem segments_removeDots {path : String} (rooted : Text.beginsWith '/' path = true) :
    segments (removeDots path) = cleaned (segments path) := by
  rw [removeDots_eq_trail rooted, segments_trail (cleaned_ne_nil (segments_ne_nil path))
    (areClosed_cleaned (areClosed_segments path))]

end PackageResolution.UriPath
