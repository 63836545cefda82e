import PackageResolution.Proofs.Text.Cut
import PackageResolution.Uri.DotSegments

/-!
# Paths without dot segments

The segments that are kept while a path is read from its root are segments of the path and
none of them is a dot segment.  So the path that is put together from them has none.
-/

namespace PackageResolution.UriPath

/-- That a piece between slashes is neither `.` nor `..`. -/
def IsPlain (segment : String) : Prop :=
  segment ≠ "." ∧ segment ≠ ".."

/-- The segments kept of an absolute path are segments of it and plain. -/
theorem step_kept {stack : List String} {segment other : String}
    (kept : ∀ s ∈ stack, IsPlain s) (member : other ∈ step true stack segment) :
    IsPlain other ∧ (other ∈ stack ∨ other = segment) := by
  unfold step at member
  split at member
  · exact ⟨kept other member, .inl member⟩
  rename_i single
  split at member
  · split at member
    · exact ⟨kept other member, .inl member⟩
    · have among := List.mem_of_mem_tail member
      exact ⟨kept other among, .inl among⟩
  rename_i double
  rcases List.mem_cons.mp member with rfl | among
  · exact ⟨⟨single, double⟩, .inr rfl⟩
  · exact ⟨kept other among, .inl among⟩

theorem foldl_step_kept {rest stack : List String} (kept : ∀ s ∈ stack, IsPlain s)
    {segment : String} (member : segment ∈ rest.foldl (step true) stack) :
    IsPlain segment ∧ (segment ∈ stack ∨ segment ∈ rest) := by
  induction rest generalizing stack with
  | nil => exact ⟨kept segment member, .inl member⟩
  | cons first rest inductionHypothesis =>
      obtain ⟨plain, among⟩ :=
        inductionHypothesis (fun other among => (step_kept kept among).1) member
      refine ⟨plain, ?_⟩
      rcases among with among | among
      · rcases (step_kept kept among).2 with among | rfl
        · exact .inl among
        · exact .inr List.mem_cons_self
      · exact .inr (List.mem_cons_of_mem _ among)

theorem mem_of_mem_step {absolute : Bool} {stack : List String} {segment other : String}
    (member : other ∈ step absolute stack segment) : other ∈ stack ∨ other = segment := by
  unfold step at member
  split at member
  · exact .inl member
  · split at member
    · rename_i double
      split at member
      · split at member
        · exact .inl member
        · rcases List.mem_cons.mp member with rfl | among
          · exact .inr double.symm
          · exact .inl among
      · exact .inl (List.mem_of_mem_tail member)
    · rcases List.mem_cons.mp member with rfl | among
      · exact .inr rfl
      · exact .inl among

theorem mem_of_mem_foldl_step {absolute : Bool} {rest stack : List String} {segment : String}
    (member : segment ∈ rest.foldl (step absolute) stack) : segment ∈ stack ∨ segment ∈ rest := by
  induction rest generalizing stack with
  | nil => exact .inl member
  | cons first rest inductionHypothesis =>
      rcases inductionHypothesis member with among | among
      · rcases mem_of_mem_step among with among | rfl
        · exact .inl among
        · exact .inr List.mem_cons_self
      · exact .inr (List.mem_cons_of_mem _ among)

/-- The pieces of a path that is put together are the segments, beside empty ones. -/
theorem mem_fields_assemble {isOpen : Bool} {stack : List String}
    (closed : ∀ s ∈ stack, '/' ∉ s.toList) {piece : String}
    (member : piece ∈ Text.fields '/' (assemble true isOpen stack)) :
    piece = "" ∨ piece ∈ stack := by
  have body : ∀ piece ∈ Text.fields '/' ("/" ++ "/".intercalate stack.reverse),
      piece = "" ∨ piece ∈ stack := by
    intro piece member
    rw [Text.fields_slash_append] at member
    rcases List.mem_cons.mp member with member | member
    · exact .inl member
    · cases stack with
      | nil => exact .inl (List.mem_singleton.mp member)
      | cons last stack =>
          have turned : ∀ s ∈ (last :: stack).reverse, '/' ∉ s.toList :=
            fun s among => closed s (List.mem_reverse.mp among)
          rw [Text.fields_intercalate (by simp) turned] at member
          exact .inr (List.mem_reverse.mp member)
  simp only [assemble, if_true] at member
  split at member
  · rw [Text.fields_append_slash] at member
    rcases List.mem_append.mp member with member | member
    · exact body piece member
    · exact .inl (List.mem_singleton.mp member)
  · exact body piece member

/-- The pieces of a path without dot segments are plain segments of the path, beside empty
ones. -/
theorem mem_fields_removeDots {path : String} (rooted : Text.beginsWith '/' path = true)
    {piece : String} (member : piece ∈ Text.fields '/' (removeDots path)) :
    piece = "" ∨ IsPlain piece ∧ piece ∈ segments path := by
  simp only [removeDots, rooted] at member
  have kept (segment : String) (among : segment ∈ (segments path).foldl (step true) []) :
      IsPlain segment ∧ segment ∈ segments path := by
    obtain ⟨plain, impossible | among⟩ := foldl_step_kept (by simp) among
    · exact absurd impossible List.not_mem_nil
    · exact ⟨plain, among⟩
  have closed : ∀ s ∈ (segments path).foldl (step true) [], '/' ∉ s.toList :=
    fun segment among => Text.not_mem_of_mem_fields (kept segment among).2
  rcases mem_fields_assemble closed member with empty | among
  · exact .inl empty
  · exact .inr (kept piece among)

/-- No piece of a path that was read from its root is a dot segment. -/
theorem isPlain_of_removeDots {path : String} (rooted : Text.beginsWith '/' path = true)
    {piece : String} (member : piece ∈ Text.fields '/' (removeDots path)) : IsPlain piece := by
  rcases mem_fields_removeDots rooted member with rfl | ⟨plain, -⟩
  · exact ⟨by decide, by decide⟩
  · exact plain

/-! ## Normal paths -/

theorem segments_slash_append (rest : String) :
    segments ("/" ++ rest) = Text.fields '/' rest := by
  rw [segments, Text.dropStart?_append, Option.getD_some]

theorem assemble_of_endsInDots_false (stack : List String) :
    assemble true false stack = "/" ++ "/".intercalate stack.reverse := by
  simp [assemble]

/-- A path that is put together from its root begins with the root slash. -/
theorem beginsWith_assemble (isOpen : Bool) (stack : List String) :
    Text.beginsWith '/' (assemble true isOpen stack) = true := by
  simp only [assemble, if_true]
  split <;> simp [Text.beginsWith]

theorem beginsWith_removeDots {path : String} (rooted : Text.beginsWith '/' path = true) :
    Text.beginsWith '/' (removeDots path) = true := by
  rw [removeDots, rooted]
  exact beginsWith_assemble _ _

/-- Plain segments are all kept. -/
theorem foldlM_strictStep_of_isPlain {absolute : Bool} {rest : List String}
    (plain : ∀ segment ∈ rest, IsPlain segment) (stack : List String) :
    rest.foldlM (strictStep absolute) stack = some (rest.reverse ++ stack) := by
  induction rest generalizing stack with
  | nil => rfl
  | cons segment rest inductionHypothesis =>
      rw [List.forall_mem_cons] at plain
      rcases plain with ⟨⟨single, double⟩, plain⟩
      have taken : strictStep absolute stack segment = some (segment :: stack) := by
        simp [strictStep, step, single, double]
      rw [List.foldlM_cons, taken, Option.bind_eq_bind, Option.bind_some,
        inductionHypothesis plain, List.reverse_cons, List.append_assoc]
      rfl

theorem endsInDots_of_isPlain {rest : List String}
    (plain : ∀ segment ∈ rest, IsPlain segment) : endsInDots rest = false := by
  cases last : rest.getLast? with
  | none => simp [endsInDots, last]
  | some segment =>
      have whole := plain segment (List.mem_of_getLast? last)
      simp [endsInDots, last, whole.1, whole.2]

theorem foldl_step_of_isPlain {absolute : Bool} {rest : List String}
    (plain : ∀ segment ∈ rest, IsPlain segment) (stack : List String) :
    rest.foldl (step absolute) stack = rest.reverse ++ stack :=
  foldl_step_of_foldlM (foldlM_strictStep_of_isPlain plain stack)

/-- Whether some segments end in a dot segment is decided by the last ones. -/
theorem endsInDots_append_of_isPlain (before : List String) {rest : List String}
    (filled : rest ≠ []) (plain : ∀ segment ∈ rest, IsPlain segment) :
    endsInDots (before ++ rest) = false := by
  rw [endsInDots, List.getLast?_append_of_ne_nil _ filled, ← endsInDots,
    endsInDots_of_isPlain plain]

/-- A path from the root without dot segments is normal. -/
theorem normalize?_eq_self {path : String} (rooted : Text.beginsWith '/' path = true)
    (plain : ∀ piece ∈ Text.fields '/' path, IsPlain piece) : normalize? path = some path := by
  rcases Text.exists_of_beginsWith rooted with ⟨rest, rfl⟩
  have slash : String.singleton '/' = "/" := rfl
  rw [slash, Text.fields_slash_append, List.forall_mem_cons] at plain
  rw [slash] at rooted ⊢
  have body := Text.intercalate_fields '/' rest
  rw [slash] at body
  simp only [normalize?, rooted, segments_slash_append, foldlM_strictStep_of_isPlain plain.2,
    endsInDots_of_isPlain plain.2, Option.map_some, List.append_nil,
    assemble_of_endsInDots_false, List.reverse_reverse, body]

/-- What normalizing a path from the root gives is normal. -/
theorem normalize?_of_normalize? {path result : String}
    (rooted : Text.beginsWith '/' path = true) (found : normalize? path = some result) :
    normalize? result = some result := by
  have kept := removeDots_of_normalize? found
  apply normalize?_eq_self
  · rw [← kept]
    exact beginsWith_removeDots rooted
  · intro piece member
    rw [← kept] at member
    exact isPlain_of_removeDots rooted member

/-! ## Paths that climb above their root -/

instance (segment : String) : Decidable (IsPlain segment) :=
  inferInstanceAs (Decidable (_ ∧ _))

/-- That some segments climb above the place that they are taken from: the first ones of them
have more `..` than names. -/
def Climbs (segments : List String) : Prop :=
  ∃ start, start <+: segments ∧ start.countP (IsPlain ·) < start.count ".."

/-- That some segments, taken from `depth` names below the root, climb above the root. -/
def ClimbsFrom (depth : Nat) (segments : List String) : Prop :=
  ∃ start, start <+: segments ∧ depth + start.countP (IsPlain ·) < start.count ".."

theorem climbsFrom_zero {segments : List String} : ClimbsFrom 0 segments ↔ Climbs segments := by
  simp only [ClimbsFrom, Climbs, Nat.zero_add]

theorem not_climbsFrom_nil (depth : Nat) : ¬ ClimbsFrom depth [] := by
  rintro ⟨start, begun, more⟩
  rw [List.prefix_nil.mp begun] at more
  exact absurd more (Nat.not_lt_zero _)

/-- Whether segments climb is decided by the first one and what is left of the depth. -/
theorem climbsFrom_cons {depth next : Nat} {segment : String} {rest : List String}
    (counted : ∀ start : List String,
      depth + (segment :: start).countP (IsPlain ·) < (segment :: start).count ".." ↔
        next + start.countP (IsPlain ·) < start.count "..") :
    ClimbsFrom depth (segment :: rest) ↔ ClimbsFrom next rest := by
  constructor
  · rintro ⟨start, begun, more⟩
    cases start with
    | nil => exact absurd more (Nat.not_lt_zero _)
    | cons first start =>
        rcases List.cons_prefix_cons.mp begun with ⟨rfl, later⟩
        exact ⟨start, later, (counted start).mp more⟩
  · rintro ⟨start, begun, more⟩
    exact ⟨segment :: start, List.cons_prefix_cons.mpr ⟨rfl, begun⟩, (counted start).mpr more⟩

theorem climbsFrom_single {depth : Nat} {rest : List String} :
    ClimbsFrom depth ("." :: rest) ↔ ClimbsFrom depth rest := by
  apply climbsFrom_cons
  intro start
  simp [IsPlain]

theorem climbsFrom_plain {depth : Nat} {segment : String} {rest : List String}
    (plain : IsPlain segment) :
    ClimbsFrom depth (segment :: rest) ↔ ClimbsFrom (depth + 1) rest := by
  apply climbsFrom_cons
  intro start
  rw [List.countP_cons_of_pos (by simpa using plain), List.count_cons_of_ne plain.2]
  omega

theorem climbsFrom_double {depth : Nat} {rest : List String} :
    ClimbsFrom (depth + 1) (".." :: rest) ↔ ClimbsFrom depth rest := by
  apply climbsFrom_cons
  intro start
  rw [List.countP_cons_of_neg (by simp [IsPlain]), List.count_cons_self]
  omega

theorem climbsFrom_zero_double (rest : List String) : ClimbsFrom 0 (".." :: rest) :=
  ⟨[".."], List.cons_prefix_cons.mpr ⟨rfl, List.nil_prefix⟩, by decide⟩

/-- The strict reading gives up exactly if the segments climb above the root. -/
theorem foldlM_strictStep_eq_none_iff {rest stack : List String}
    (kept : ∀ segment ∈ stack, IsPlain segment) :
    rest.foldlM (strictStep true) stack = none ↔ ClimbsFrom stack.length rest := by
  induction rest generalizing stack with
  | nil => exact iff_of_false (by simp) (not_climbsFrom_nil _)
  | cons segment rest inductionHypothesis =>
      rw [List.foldlM_cons, Option.bind_eq_bind]
      by_cases single : segment = "."
      · subst single
        have stays : strictStep true stack "." = some stack := by simp [strictStep, step]
        rw [stays, Option.bind_some, inductionHypothesis kept, climbsFrom_single]
      by_cases double : segment = ".."
      · subst double
        cases stack with
        | nil => exact iff_of_true rfl (climbsFrom_zero_double rest)
        | cons last stack =>
            have back : strictStep true (last :: stack) ".." = some stack := by
              simp [strictStep, step, isExhausted, (kept last List.mem_cons_self).2]
            rw [back, Option.bind_some,
              inductionHypothesis fun other among => kept other (List.mem_cons_of_mem _ among),
              List.length_cons, climbsFrom_double]
      · have onward : strictStep true stack segment = some (segment :: stack) := by
          simp [strictStep, step, single, double]
        have still : ∀ other ∈ segment :: stack, IsPlain other :=
          List.forall_mem_cons.mpr ⟨⟨single, double⟩, kept⟩
        rw [onward, Option.bind_some, inductionHypothesis still, List.length_cons,
          climbsFrom_plain ⟨single, double⟩]

instance (segments : List String) : Decidable (Climbs segments) :=
  decidable_of_iff (segments.foldlM (strictStep true) [] = none) <| by
    rw [foldlM_strictStep_eq_none_iff (by simp), List.length_nil, climbsFrom_zero]

/-- A path from the root is refused exactly if its segments climb above the root. -/
theorem normalize?_eq_none_iff {path : String} (rooted : Text.beginsWith '/' path = true) :
    normalize? path = none ↔ Climbs (segments path) := by
  rw [normalize?, rooted, Option.map_eq_none_iff, foldlM_strictStep_eq_none_iff (by simp),
    List.length_nil, climbsFrom_zero]

end PackageResolution.UriPath
