import PackageResolution.Proofs.Uri.Rooted

/-!
# Removing dot segments with two buffers

RFC 3986 removes the dot segments of a path while it moves the path from an input buffer to an
output buffer.  On a path from the root the output buffer holds the segments kept so far.  What
is left is the segments that are kept in the end, with one slash more wherever the path ends in
a dot segment.  `removeDots` leaves that slash out if the last segment that is kept is empty.
-/

namespace PackageResolution.UriPath.Buffers

/-- The output buffer without its last segment and the slash before it. -/
def withoutLast (output : List Char) : List Char :=
  (output.reverse.dropWhile (· != '/')).tail.reverse

/-- The output buffer after the whole input buffer was moved to it or removed, in the cases and
the order of section 5.2.4. -/
def run (input output : List Char) : List Char :=
  match input with
  | '.' :: '.' :: '/' :: rest => run rest output
  | '.' :: '/' :: rest => run rest output
  | '/' :: '.' :: '/' :: rest => run ('/' :: rest) output
  | ['/', '.'] => run ['/'] output
  | '/' :: '.' :: '.' :: '/' :: rest => run ('/' :: rest) (withoutLast output)
  | ['/', '.', '.'] => run ['/'] (withoutLast output)
  | ['.'] => run [] output
  | ['.', '.'] => run [] output
  | [] => output
  | c :: rest => run (rest.dropWhile (· != '/')) (output ++ c :: rest.takeWhile (· != '/'))
termination_by input.length
decreasing_by all_goals simp +arith [List.length_dropWhile_le]

/-- The path that the algorithm of RFC 3986 leaves. -/
def removeDotSegments (path : String) : String :=
  String.ofList (run path.toList [])

theorem run_nil (output : List Char) : run [] output = output := by
  rw [run]

theorem run_slash (output : List Char) : run ['/'] output = output ++ ['/'] := by
  rw [run.eq_10 _ _ _ (by simp) (by simp) (by simp) (by simp) (by simp) (by simp) (by simp)
    (by simp)]
  rw [List.dropWhile_nil, List.takeWhile_nil, run_nil]

/-! ## Segments in the output buffer -/

/-- The characters before the first slash, where some other characters and a trail were joined. -/
theorem takeWhile_append_trail {segment : String} (closed : '/' ∉ segment.toList)
    (rest : List String) :
    (segment.toList ++ (trail rest).toList).takeWhile (· != '/') = segment.toList ∧
      (segment.toList ++ (trail rest).toList).dropWhile (· != '/') = (trail rest).toList := by
  have all := Text.bne_of_not_mem closed
  have ends : Text.EndsRun (· != '/') (trail rest).toList := by
    cases rest with
    | nil => exact Text.endsRun_nil _
    | cons first rest =>
        rw [trail_cons, String.toList_append, String.toList_append]
        exact Text.endsRun_cons (by decide) _
  exact ⟨Text.takeWhile_append_of_endsRun all ends, Text.dropWhile_append_of_endsRun all ends⟩

/-- Taking back the last segment of the output buffer. -/
theorem withoutLast_trail {stack : List String} (closed : AreClosed stack) :
    withoutLast (trail stack.reverse).toList = (trail stack.tail.reverse).toList := by
  cases stack with
  | nil => rfl
  | cons last stack =>
      have unmarked := (List.forall_mem_cons.mp closed).1
      have all := Text.bne_of_not_mem (mt List.mem_reverse.mp unmarked)
      have turned : (trail (last :: stack).reverse).toList.reverse =
          last.toList.reverse ++ '/' :: (trail stack.reverse).toList.reverse := by
        rw [List.reverse_cons, trail_concat, String.toList_append, String.toList_append]
        simp
      rw [withoutLast, turned, Text.dropWhile_append_of_endsRun all
        (Text.endsRun_cons (by decide) _), List.tail_cons, List.reverse_reverse, List.tail_cons]

/-- A plain segment is moved to the output buffer. -/
theorem run_trail_cons {segment : String} (plain : IsPlain segment)
    (closed : '/' ∉ segment.toList) (rest : List String) (output : List Char) :
    run (trail (segment :: rest)).toList output =
      run (trail rest).toList (output ++ '/' :: segment.toList) := by
  have whole : (trail (segment :: rest)).toList =
      '/' :: (segment.toList ++ (trail rest).toList) := by
    rw [trail_cons, String.toList_append, String.toList_append]
    rfl
  obtain ⟨before, after⟩ := takeWhile_append_trail closed rest
  generalize segment.toList ++ (trail rest).toList = chars at whole before after
  -- A dot segment in front would be what stands before the next slash.
  have single (tail : List Char) : tail.takeWhile (· != '/') = [] → chars ≠ '.' :: tail := by
    rintro none rfl
    rw [List.takeWhile_cons_of_pos (by decide), none] at before
    exact plain.1 (String.toList_injective before.symm)
  have double (tail : List Char) : tail.takeWhile (· != '/') = [] → chars ≠ '.' :: '.' :: tail := by
    rintro none rfl
    rw [List.takeWhile_cons_of_pos (by decide), List.takeWhile_cons_of_pos (by decide),
      none] at before
    exact plain.2 (String.toList_injective before.symm)
  rw [whole, run.eq_10 _ _ _ (by simp) (by simp) _ _ _ _ (by simp) (by simp), before, after]
  · intro tail _ same
    exact single ('/' :: tail) (List.takeWhile_cons_of_neg (by decide)) same
  · intro _ same
    exact single [] List.takeWhile_nil same
  · intro tail _ same
    exact double ('/' :: tail) (List.takeWhile_cons_of_neg (by decide)) same
  · intro _ same
    exact double [] List.takeWhile_nil same

/-- Moving the last slash, or going on after a dot segment. -/
theorem run_trail_single (rest : List String) (output : List Char) :
    run (trail ("." :: rest)).toList output =
      if rest = [] then output ++ ['/'] else run (trail rest).toList output := by
  cases rest with
  | nil => simp [trail_cons, run, run_slash]
  | cons next rest => simp [trail_cons, run]

theorem run_trail_double (rest : List String) (output : List Char) :
    run (trail (".." :: rest)).toList output =
      if rest = [] then withoutLast output ++ ['/']
      else run (trail rest).toList (withoutLast output) := by
  cases rest with
  | nil => simp [trail_cons, run, run_slash]
  | cons next rest => simp [trail_cons, run]

/-- The output buffer holds the segments kept so far, and in the end a slash more after a dot
segment at the end of the path. -/
theorem run_trail {segments stack : List String} (closed : AreClosed segments)
    (stackClosed : AreClosed stack) (plain : ∀ segment ∈ stack, IsPlain segment) :
    run (trail segments).toList (trail stack.reverse).toList =
      (trail (segments.foldl (step true) stack).reverse).toList ++
        if endsInDots segments then ['/'] else [] := by
  induction segments generalizing stack with
  | nil => simp [run_nil, endsInDots]
  | cons segment rest inductionHypothesis =>
      obtain ⟨unmarked, restClosed⟩ := List.forall_mem_cons.mp closed
      rw [List.foldl_cons]
      by_cases single : segment = "."
      · subst single
        have stays : step true stack "." = stack := by simp [step]
        rw [run_trail_single, stays]
        split
        · rename_i none
          subst none
          simp [endsInDots]
        · rename_i filled
          rw [endsInDots_cons filled, inductionHypothesis restClosed stackClosed plain]
      by_cases double : segment = ".."
      · subst double
        rw [run_trail_double, step_double plain, withoutLast_trail stackClosed]
        split
        · rename_i none
          subst none
          simp [endsInDots]
        · rename_i filled
          have fewerClosed : AreClosed stack.tail :=
            fun other among => stackClosed other (List.mem_of_mem_tail among)
          have fewerPlain : ∀ other ∈ stack.tail, IsPlain other :=
            fun other among => plain other (List.mem_of_mem_tail among)
          rw [endsInDots_cons filled, inductionHypothesis restClosed fewerClosed fewerPlain]
      · have onward : step true stack segment = segment :: stack := by
          simp [step, single, double]
        have moved : (trail stack.reverse).toList ++ '/' :: segment.toList =
            (trail (segment :: stack).reverse).toList := by
          rw [List.reverse_cons, trail_concat, String.toList_append, String.toList_append]
          simp
        have same : endsInDots (segment :: rest) = endsInDots rest := by
          cases rest with
          | nil => simp [endsInDots, single, double]
          | cons next rest => exact endsInDots_cons (by simp)
        rw [run_trail_cons ⟨single, double⟩ unmarked, moved, onward, same,
          inductionHypothesis restClosed (List.forall_mem_cons.mpr ⟨unmarked, stackClosed⟩)
            (List.forall_mem_cons.mpr ⟨⟨single, double⟩, plain⟩)]

/-- What the buffers leave of a path from the root. -/
theorem removeDotSegments_eq_trail {path : String} (rooted : Text.beginsWith '/' path = true) :
    removeDotSegments path =
      trail (kept (segments path)) ++ if endsInDots (segments path) then "/" else "" := by
  have started := @run_trail (segments path) [] (areClosed_segments path) (by simp [AreClosed])
    (by simp)
  rw [trail_segments rooted, List.reverse_nil, trail_nil, String.toList_empty, ← kept] at started
  apply String.toList_injective
  rw [removeDotSegments, String.toList_ofList, String.toList_append, started]
  split <;> rfl

example : removeDotSegments "/birds/nest/./../../twig/.." = "/" := by decide +kernel

/-! ## The slash that is left out -/

/-- That a path ends in a dot segment and that two slashes end what is left without it. -/
def EndsDouble (path : String) : Prop :=
  endsInDots (segments path) = true ∧ ∃ start, removeDotSegments path = start ++ "//"

theorem trail_append_slash_ends_iff {segments : List String} (closed : AreClosed segments) :
    (∃ start, trail segments ++ "/" = start ++ "//") ↔ segments.getLast? = some "" := by
  rcases List.eq_nil_or_concat segments with rfl | ⟨others, last, rfl⟩
  · refine iff_of_false ?_ (by simp)
    rintro ⟨start, same⟩
    have long := congrArg String.length same
    have slash : (trail [] ++ "/").length = 1 := by decide
    have slashes : "//".length = 2 := by decide
    rw [slash, String.length_append, slashes] at long
    omega
  · rw [List.concat_eq_append] at closed ⊢
    have unmarked : '/' ∉ last.toList := closed last (by simp)
    have ends := endsWith_trail_concat others unmarked
    rw [List.getLast?_concat, Option.some.injEq]
    constructor
    · rintro ⟨start, same⟩
      have shorter : trail (others ++ [last]) = start ++ "/" :=
        String.append_left_inj "/" |>.mp (by rw [same, String.append_assoc]; rfl)
      rw [shorter] at ends
      simpa [Text.endsWith] using ends
    · rintro rfl
      exact ⟨trail others, by rw [trail_concat, String.append_empty, String.append_assoc]; rfl⟩

theorem endsDouble_iff {path : String} (rooted : Text.beginsWith '/' path = true) :
    EndsDouble path ↔
      endsInDots (segments path) = true ∧ (kept (segments path)).getLast? = some "" := by
  refine and_congr_right fun dots => ?_
  rw [removeDotSegments_eq_trail rooted, if_pos dots]
  exact trail_append_slash_ends_iff (areClosed_kept (areClosed_segments path))

/-- Where a path that ends in a dot segment leaves two slashes at the end, `removeDots` leaves
the last one out. -/
theorem removeDotSegments_of_endsDouble {path : String}
    (rooted : Text.beginsWith '/' path = true) (double : EndsDouble path) :
    removeDotSegments path = removeDots path ++ "/" := by
  obtain ⟨dots, last⟩ := (endsDouble_iff rooted).mp double
  rw [removeDotSegments_eq_trail rooted, removeDots_eq_trail rooted, if_pos dots, cleaned,
    if_neg fun both => both.2 last]

/-- Every other path is left as RFC 3986 leaves it. -/
theorem removeDotSegments_of_not_endsDouble {path : String}
    (rooted : Text.beginsWith '/' path = true) (single : ¬ EndsDouble path) :
    removeDotSegments path = removeDots path := by
  rw [endsDouble_iff rooted, not_and] at single
  rw [removeDotSegments_eq_trail rooted, removeDots_eq_trail rooted, cleaned]
  by_cases dots : endsInDots (segments path) = true
  · rw [if_pos dots, if_pos ⟨dots, single dots⟩, trail_concat, String.append_empty]
  · rw [if_neg dots, if_neg fun both => dots both.1, String.append_empty]

end PackageResolution.UriPath.Buffers
