import PackageResolution.Proofs.Uri.Hierarchy
import PackageResolution.Uri.Relativize

/-!
# References that lead back

`relativize` climbs from the directory that is left of the base without its dot segments, while
`resolve` takes a reference from the directory of the base as it is written and removes dot
segments only then.  So following the reference leads back exactly if the two directories are the
same.  They are unless the path of the base is empty or ends in a dot segment with something to
take back.
-/

namespace PackageResolution.UriPath

/-! ## Segments after a climb -/

theorem foldl_step_replicate {stack : List String} (plain : ∀ segment ∈ stack, IsPlain segment)
    (count : Nat) :
    (List.replicate count "..").foldl (step true) stack = stack.drop count := by
  induction count generalizing stack with
  | zero => rfl
  | succ count inductionHypothesis =>
      have fewer : ∀ segment ∈ stack.tail, IsPlain segment :=
        fun segment among => plain segment (List.mem_of_mem_tail among)
      rw [List.replicate_succ, List.foldl_cons, step_double plain, inductionHypothesis fewer,
        List.drop_tail]

/-- What is kept after a climb and some plain segments. -/
theorem kept_append_climb (segments : List String) {count : Nat} {names : List String}
    (plain : ∀ segment ∈ names, IsPlain segment) :
    kept (segments ++ (List.replicate count ".." ++ names)) =
      (kept segments).take ((kept segments).length - count) ++ names := by
  have stackPlain : ∀ segment ∈ segments.foldl (step true) [], IsPlain segment :=
    fun segment member => (isPlain_of_mem_kept (List.mem_reverse.mpr member)).1
  rw [kept, List.foldl_append, List.foldl_append, foldl_step_replicate stackPlain,
    foldl_step_of_isPlain plain, List.reverse_append, List.reverse_reverse, List.reverse_drop, kept,
    List.length_reverse]

theorem dropLast_cleaned_prefix_kept (segments : List String) :
    (cleaned segments).dropLast <+: kept segments := by
  unfold cleaned
  split
  · simp
  · exact List.dropLast_prefix _

/-- The directories that are left without dot segments are the first ones of those that are kept
before the last segment. -/
theorem dropLast_cleaned_prefix (segments : List String) :
    (cleaned segments).dropLast <+: kept segments.dropLast := by
  rcases List.eq_nil_or_concat segments with rfl | ⟨others, last, rfl⟩
  · exact List.prefix_refl []
  rw [List.concat_eq_append]
  have start := dropLast_cleaned_prefix_kept (others ++ [last])
  rw [List.dropLast_concat]
  by_cases single : last = "."
  · subst single
    rwa [kept_concat_single] at start
  by_cases double : last = ".."
  · subst double
    rw [kept_concat_double] at start
    exact start.trans (List.dropLast_prefix _)
  · simp [cleaned_concat_of_isPlain others ⟨single, double⟩]

end PackageResolution.UriPath

namespace PackageResolution.Uri

open UriPath (trail AreClosed IsPlain kept cleaned removeDots)

/-! ## The reference -/

theorem commonLength_le (first second : List String) :
    commonLength first second ≤ first.length ∧ commonLength first second ≤ second.length := by
  induction first generalizing second with
  | nil => simp [commonLength]
  | cons a first inductionHypothesis =>
      cases second with
      | nil => simp [commonLength]
      | cons b second =>
          have shorter := inductionHypothesis second
          unfold commonLength
          split
          · exact ⟨Nat.succ_le_succ shorter.1, Nat.succ_le_succ shorter.2⟩
          · exact ⟨Nat.zero_le _, Nat.zero_le _⟩

theorem take_commonLength (first second : List String) :
    first.take (commonLength first second) = second.take (commonLength first second) := by
  induction first generalizing second with
  | nil => simp [commonLength]
  | cons a first inductionHypothesis =>
      cases second with
      | nil => simp [commonLength]
      | cons b second =>
          unfold commonLength
          split
          · rename_i same
            rw [List.take_succ_cons, List.take_succ_cons, same, inductionHypothesis]
          · rfl

theorem fields_join_append {names : List String} {name : String} (closed : AreClosed names)
    (nameClosed : '/' ∉ name.toList) :
    Text.fields '/' (String.join (names.map (· ++ "/")) ++ name) = names ++ [name] := by
  induction names with
  | nil => simpa using Text.fields_of_not_mem nameClosed
  | cons first names inductionHypothesis =>
      obtain ⟨firstClosed, namesClosed⟩ := List.forall_mem_cons.mp closed
      rw [List.map_cons, String.join_cons, String.append_assoc, Text.fields_append,
        inductionHypothesis namesClosed, Text.fields_of_not_mem firstClosed]
      rfl

/-- The pieces of a climb and a descent. -/
theorem fields_descent (fromDirectories : List String) {toDirectories : List String}
    {name : String} (closed : AreClosed toDirectories) (nameClosed : '/' ∉ name.toList) :
    Text.fields '/' (descent fromDirectories toDirectories name) =
      List.replicate (fromDirectories.length - commonLength fromDirectories toDirectories) ".." ++
        (toDirectories.drop (commonLength fromDirectories toDirectories) ++ [name]) := by
  have climb (count : Nat) :
      List.replicate count "../" = (List.replicate count "..").map (· ++ "/") := by
    rw [List.map_replicate]
    rfl
  have allClosed (count shared : Nat) :
      AreClosed (List.replicate count ".." ++ toDirectories.drop shared) := by
    rw [AreClosed, List.forall_mem_append]
    refine ⟨fun segment member => ?_,
      fun segment member => closed segment (List.mem_of_mem_drop member)⟩
    rw [List.eq_of_mem_replicate member]
    decide
  rw [descent, climb, ← String.join_append, ← List.map_append,
    fields_join_append (allClosed _ _) nameClosed, List.append_assoc]

/-- A path that is guarded has the same pieces after a `.` that may be in front, and the first
one is not empty. -/
theorem fields_guarded (path : String) :
    ∃ start, (start = [] ∨ start = ["."]) ∧
      Text.fields '/' (guarded path) = start ++ Text.fields '/' path ∧
      (Text.fields '/' (guarded path)).head? ≠ some "" := by
  unfold guarded
  dsimp only
  split
  · have whole : "./" ++ path = "." ++ "/" ++ path := by rw [String.append_assoc]; rfl
    refine ⟨["."], .inr rfl, ?_, ?_⟩ <;> rw [whole, Text.fields_append]
    · rfl
    · simp [Text.fields_of_not_mem]
  · rename_i plain
    refine ⟨[], .inl rfl, rfl, ?_⟩
    intro first
    rw [List.headD_eq_head?_getD, first] at plain
    exact plain (by simp)

theorem guarded_ne_empty (path : String) : guarded path ≠ "" := by
  obtain ⟨-, -, -, first⟩ := fields_guarded path
  intro empty
  rw [empty] at first
  exact first rfl

theorem beginsWith_guarded (path : String) : Text.beginsWith '/' (guarded path) = false := by
  obtain ⟨-, -, -, first⟩ := fields_guarded path
  rw [Bool.eq_false_iff]
  intro rooted
  rw [UriPath.fields_eq_cons_segments rooted] at first
  exact first rfl

/-- A path that is guarded is taken from the directory of the base. -/
theorem follow_guarded (base : Uri) (path : String) (query fragment : Option String) :
    follow base ⟨none, none, guarded path, query, fragment⟩ =
      { base with
        path := removeDots (merge base (guarded path)), query := query, fragment := fragment } := by
  simp [follow, guarded_ne_empty path, beginsWith_guarded path]

/-! ## The way back -/

/-- An identifier without the dot segments of its path; that of a file loses its query and its
fragment. -/
def withoutDots (full : Uri) : Uri :=
  { full with
    path := removeDots full.path
    query := if full.scheme = some "file" then none else full.query
    fragment := if full.scheme = some "file" then none else full.fragment }

/-- That a reference leads from one identifier to another: they differ below the authority, and
both paths begin at the root or none. -/
structure Related (full base : Uri) : Prop where
  scheme : full.scheme = base.scheme
  authority : full.authority = base.authority
  root : Text.beginsWith '/' full.path = Text.beginsWith '/' base.path

/-- That a path is not empty and that its directory is the same before and after its dot segments
are removed. -/
def KeepsDirectory (path : String) : Prop :=
  path ≠ "" ∧ removeDots (directoryOf path) = directoryOf (removeDots path)

theorem IsRooted.beginsWith_removeDots {uri : Uri} (rooted : uri.IsRooted) :
    Text.beginsWith '/' (removeDots uri.path) = Text.beginsWith '/' uri.path := by
  rcases rooted with ⟨-, empty⟩ | begun
  · rw [empty]
    decide
  · rw [begun, UriPath.beginsWith_removeDots begun]

/-- The directories of a path from the root before and after its dot segments are removed. -/
theorem keepsDirectory_iff {path : String} (rooted : Text.beginsWith '/' path = true) :
    KeepsDirectory path ↔
      kept (UriPath.segments path).dropLast = (cleaned (UriPath.segments path)).dropLast := by
  have filled : path ≠ "" := by
    rintro rfl
    exact absurd rooted (by decide)
  have closed (segments : List String) (all : AreClosed segments) : AreClosed segments.dropLast :=
    fun segment member => all segment (List.dropLast_subset _ member)
  have written : AreClosed (UriPath.segments path).dropLast :=
    closed _ (UriPath.areClosed_segments path)
  have left : AreClosed (cleaned (UriPath.segments path)).dropLast :=
    closed _ (UriPath.areClosed_cleaned (UriPath.areClosed_segments path))
  have before : removeDots (directoryOf path) =
      trail (kept (UriPath.segments path).dropLast ++ [""]) := by
    have all : AreClosed ((UriPath.segments path).dropLast ++ [""]) :=
      List.forall_mem_append.mpr ⟨written, by simp⟩
    rw [UriPath.directoryOf_eq_trail rooted, ← UriPath.trail_concat_empty,
      UriPath.removeDots_eq_trail (UriPath.beginsWith_trail (by simp)),
      UriPath.segments_trail (by simp) all, UriPath.cleaned_concat_of_isPlain _ (by decide)]
  have after : directoryOf (removeDots path) =
      trail ((cleaned (UriPath.segments path)).dropLast ++ [""]) := by
    rw [UriPath.directoryOf_eq_trail (UriPath.beginsWith_removeDots rooted),
      UriPath.segments_removeDots rooted, UriPath.trail_concat_empty]
  rw [KeepsDirectory, and_iff_right filled, before, after, UriPath.trail_inj
    (List.forall_mem_append.mpr ⟨UriPath.areClosed_kept written, by simp⟩)
    (List.forall_mem_append.mpr ⟨left, by simp⟩), List.append_cancel_right_eq]

/-- A reference takes back those directories of the base that are not shared, of those that are
kept of its path. -/
theorem removeDots_merge_guarded {base : Uri} (rooted : Text.beginsWith '/' base.path = true)
    (count : Nat) {names : List String} {path : String}
    (plain : ∀ segment ∈ names, IsPlain segment) (filled : names ≠ [])
    (pieces : Text.fields '/' path = List.replicate count ".." ++ names) :
    removeDots (merge base (guarded path)) =
      trail ((kept (UriPath.segments base.path).dropLast).take
        ((kept (UriPath.segments base.path).dropLast).length - count) ++ names) := by
  have notEmpty : base.path ≠ "" := by
    intro empty
    rw [empty] at rooted
    exact absurd rooted (by decide)
  have written : AreClosed (UriPath.segments base.path).dropLast := fun segment member =>
    UriPath.areClosed_segments base.path segment (List.dropLast_subset _ member)
  have merged : merge base (guarded path) =
      trail (UriPath.segments base.path).dropLast ++ "/" ++ guarded path := by
    rw [merge, if_neg (by simp [notEmpty]), UriPath.directoryOf_eq_trail rooted]
  generalize (UriPath.segments base.path).dropLast = directories at written merged ⊢
  obtain ⟨start, single, guardedPieces, -⟩ := fields_guarded path
  have same : kept (directories ++ start) = kept directories := by
    rcases single with rfl | rfl
    · rw [List.append_nil]
    · exact UriPath.kept_concat_single directories
  have shut : UriPath.endsInDots (directories ++ start ++ (List.replicate count ".." ++ names)) =
      false := by
    rw [← List.append_assoc, UriPath.endsInDots_append_of_isPlain _ filled plain]
  rw [merged, UriPath.removeDots_eq_trail (UriPath.beginsWith_trail_append _ _),
    UriPath.segments_trail_append written, guardedPieces, pieces, ← List.append_assoc,
    UriPath.cleaned_of_endsInDots_false shut, UriPath.kept_append_climb _ plain, same]

/-- What is kept and what is not shared make up the way to the full path exactly if all that is
kept is what is left. -/
theorem take_append_drop_eq_iff {keptOnes leftOnes directories : List String}
    (start : leftOnes <+: keptOnes) :
    keptOnes.take (keptOnes.length - (leftOnes.length - commonLength leftOnes directories)) ++
        directories.drop (commonLength leftOnes directories) = directories ↔
      keptOnes = leftOnes := by
  obtain ⟨sharedLeft, sharedRight⟩ := commonLength_le leftOnes directories
  have shared := take_commonLength leftOnes directories
  generalize commonLength leftOnes directories = count at *
  have short := start.length_le
  constructor
  · intro whole
    have long := congrArg List.length whole
    rw [List.length_append, List.length_take, List.length_drop] at long
    exact (start.eq_of_length (by omega)).symm
  · rintro rfl
    have back : keptOnes.length - (keptOnes.length - count) = count := by omega
    rw [back, shared, List.take_append_drop]

/-- Identifiers that are not related are not taken apart. -/
theorem IsRooted.relativize_of_not_related {full base : Uri} (fullRooted : full.IsRooted)
    (baseRooted : base.IsRooted) (apart : ¬ Related full base) : relativize full base = full := by
  rw [relativize, if_pos]
  by_contra close
  simp only [Bool.or_eq_true, decide_eq_true_eq, not_or, not_not] at close
  rw [fullRooted.beginsWith_removeDots, baseRooted.beginsWith_removeDots] at close
  exact apart ⟨close.1.1.2, close.1.2, close.2⟩

theorem relativize_of_not_related {fullText baseText : String} {full base : Uri}
    (readFull : parse fullText = .ok full) (fullIsBase : full.IsBase)
    (readBase : parse baseText = .ok base) (isBase : base.IsBase)
    (apart : ¬ Related full base) : relativize full base = full :=
  IsRooted.relativize_of_not_related (fullIsBase.path readFull) (isBase.path readBase) apart

/-- The reference that leads from a base to a path. -/
def wayTo (base : Uri) (path : String) : String :=
  guarded (descent (UriPath.segments (removeDots base.path)).dropLast
    (UriPath.segments (removeDots path)).dropLast
    ((UriPath.segments (removeDots path)).getLastD ""))

/-- The way from an authority without a path leads to its root. -/
theorem removeDots_merge_wayTo_empty {base : Uri} (placed : base.authority.isSome = true)
    (empty : base.path = "") : removeDots (merge base (wayTo base "")) = "/" := by
  rw [merge, wayTo, empty, placed]
  decide

/-- Between two paths from the root the way leads back exactly if the base keeps its directory. -/
theorem removeDots_merge_wayTo_iff {base : Uri} (rooted : Text.beginsWith '/' base.path = true)
    {path : String} (pathRooted : Text.beginsWith '/' path = true) :
    removeDots (merge base (wayTo base path)) = removeDots path ↔ KeepsDirectory base.path := by
  obtain ⟨directories, name, split⟩ : ∃ directories name,
      cleaned (UriPath.segments path) = directories ++ [name] :=
    ⟨_, _, (List.dropLast_append_getLast
      (UriPath.cleaned_ne_nil (UriPath.segments_ne_nil path))).symm⟩
  have closed := UriPath.areClosed_cleaned (UriPath.areClosed_segments path)
  have plain (segment : String) (member : segment ∈ cleaned (UriPath.segments path)) :
      IsPlain segment := UriPath.isPlain_of_mem_cleaned member
  have keptClosed : AreClosed (kept (UriPath.segments base.path).dropLast) :=
    UriPath.areClosed_kept fun segment member =>
      UriPath.areClosed_segments base.path segment (List.dropLast_subset _ member)
  have start := UriPath.dropLast_cleaned_prefix (UriPath.segments base.path)
  rw [split] at closed plain
  obtain ⟨directoriesClosed, nameClosed⟩ := List.forall_mem_append.mp closed
  rw [keepsDirectory_iff rooted, wayTo, UriPath.segments_removeDots rooted,
    UriPath.segments_removeDots pathRooted, UriPath.removeDots_eq_trail pathRooted, split,
    List.dropLast_concat, List.getLastD_concat]
  generalize (cleaned (UriPath.segments base.path)).dropLast = left at start ⊢
  have descended : ∀ segment ∈ directories.drop (commonLength left directories) ++ [name],
      segment ∈ directories ++ [name] := by
    intro segment member
    rcases List.mem_append.mp member with member | member
    · exact List.mem_append_left _ (List.mem_of_mem_drop member)
    · exact List.mem_append_right _ member
  rw [removeDots_merge_guarded rooted _ (fun segment member => plain segment (descended _ member))
    (by simp) (fields_descent left directoriesClosed (nameClosed name (by simp))),
    UriPath.trail_inj ?_ closed, ← List.append_assoc, List.append_left_inj,
    take_append_drop_eq_iff start]
  rw [AreClosed, List.forall_mem_append]
  exact ⟨fun segment member => keptClosed segment (List.mem_of_mem_take member),
    fun segment member => closed segment (descended segment member)⟩

/-- Related identifiers are taken apart into directories. -/
theorem IsRooted.relativize_of_related {full base : Uri} (fullRooted : full.IsRooted)
    (fullHierarchical : full.isOpaque = false) (baseRooted : base.IsRooted)
    (baseHierarchical : base.isOpaque = false) (related : Related full base) :
    relativize full base =
      ⟨none, none, wayTo base full.path, (withoutDots full).query,
        (withoutDots full).fragment⟩ := by
  have roots : Text.beginsWith '/' (removeDots full.path) =
      Text.beginsWith '/' (removeDots base.path) := by
    rw [fullRooted.beginsWith_removeDots, baseRooted.beginsWith_removeDots, related.root]
  rw [relativize, if_neg (by simp [fullHierarchical, baseHierarchical, related.scheme,
    related.authority, roots])]
  simp [directoriesAndName, withoutDots, wayTo]

theorem relativize_of_related {fullText baseText : String} {full base : Uri}
    (readFull : parse fullText = .ok full) (fullIsBase : full.IsBase)
    (readBase : parse baseText = .ok base) (isBase : base.IsBase) (related : Related full base) :
    relativize full base =
      ⟨none, none, wayTo base full.path, (withoutDots full).query,
        (withoutDots full).fragment⟩ :=
  IsRooted.relativize_of_related (fullIsBase.path readFull) fullIsBase.hierarchical
    (isBase.path readBase) isBase.hierarchical related

/-- The reference that leads from a base to an identifier leads back to it where they are not
related.  Where they are, all but the path comes back, and the path does exactly if the base keeps
its directory. -/
theorem resolve_relativize {fullText baseText : String} {full base : Uri}
    (readFull : parse fullText = .ok full) (fullIsBase : full.IsBase)
    (readBase : parse baseText = .ok base) (isBase : base.IsBase) :
    (¬ Related full base → resolve base (relativize full base) = full) ∧
      (Related full base →
        ∃ path, resolve base (relativize full base) = { withoutDots full with path := path } ∧
          (path = removeDots full.path ↔ KeepsDirectory base.path)) := by
  constructor
  · intro apart
    rw [relativize_of_not_related readFull fullIsBase readBase isBase apart, resolve,
      if_pos fullIsBase.absolute]
  intro related
  rw [relativize_of_related readFull fullIsBase readBase isBase related, isBase.resolve rfl,
    wayTo, follow_guarded, ← wayTo]
  refine ⟨_, by rw [withoutDots, related.scheme, related.authority], ?_⟩
  rcases isBase.path readBase with ⟨placed, empty⟩ | rooted
  · have fullEmpty : full.path = "" := by
      rcases fullIsBase.path readFull with ⟨-, fullEmpty⟩ | fullRooted
      · exact fullEmpty
      · rw [related.root, empty] at fullRooted
        exact absurd fullRooted (by decide)
    rw [fullEmpty, removeDots_merge_wayTo_empty placed empty]
    exact iff_of_false (by decide) fun keeps => keeps.1 empty
  · exact removeDots_merge_wayTo_iff rooted (related.root.trans rooted)

theorem nest_relativized :
    ∃ full base, parse "https://localhost/birds//nest?q" = .ok full ∧ full.IsBase ∧
      parse "https://localhost/birds/twig/." = .ok base ∧ base.IsBase ∧ Related full base ∧
      (relativize full base).text = "..//nest?q" ∧ resolve base (relativize full base) = full := by
  have readFull : parse "https://localhost/birds//nest?q" =
      .ok ⟨some "https", some "localhost", "/birds//nest", some "q", none⟩ := rfl
  have readBase : parse "https://localhost/birds/twig/." =
      .ok ⟨some "https", some "localhost", "/birds/twig/.", none, none⟩ := rfl
  have related : Related ⟨some "https", some "localhost", "/birds//nest", some "q", none⟩
      ⟨some "https", some "localhost", "/birds/twig/.", none, none⟩ := ⟨rfl, rfl, by decide⟩
  obtain ⟨path, back, same⟩ :=
    (resolve_relativize readFull (by decide) readBase (by decide)).2 related
  refine ⟨_, _, readFull, by decide, readBase, by decide, related, by decide +kernel, ?_⟩
  rw [back, same.mpr ⟨by decide, by decide +kernel⟩]
  decide +kernel

/-- A reference that is taken from `/birds/nest/..` leads one directory too deep. -/
theorem twig_relativized_too_deep :
    ∃ full base, parse "file:///birds/twig" = .ok full ∧ full.IsBase ∧
      parse "file:///birds/nest/.." = .ok base ∧ base.IsBase ∧
      (relativize full base).text = "twig" ∧
      (resolve base (relativize full base)).text = "file:///birds/nest/twig" :=
  ⟨⟨some "file", some "", "/birds/twig", none, none⟩,
    ⟨some "file", some "", "/birds/nest/..", none, none⟩,
    rfl, by decide, rfl, by decide, by decide +kernel, by decide +kernel⟩

end PackageResolution.Uri
