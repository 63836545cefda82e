import PackageResolution.Archive.Zip
import PackageResolution.Proofs.Module.Ascent
import PackageResolution.Proofs.Uri.File
import PackageResolution.Proofs.Uri.Hierarchy
import PackageResolution.Proofs.Uri.NormalForm

/-!
# Searches that come back to the module

A search with three dots passes over a candidate whose path is that of the module as it is
written.  The path of a candidate has no dot segments.  So where the path of the module has some,
the module is not passed over: it is the first candidate of a search for its own name, and it is
found like any other file.
-/

namespace PackageResolution

open UriPath (trail kept cleaned removeDots)

namespace ModuleKey

variable {uri : Uri} {security : Security} {memo : Memo} {world : World}

/-! ## The identifier that a search may come back to -/

/-- The identifier of a file without the dot segments of its path. -/
def withoutDots (uri : Uri) : Uri :=
  { uri with path := removeDots uri.path, fragment := none }

/-- That a search may end at the identifier of a file: it is allowed and the file exists. -/
def IsFound (candidate : Uri) (security : Security) (world : World) : Prop :=
  security.checkModule candidate = .ok () ∧
    ∃ path, candidate.toPath = .ok (some path) ∧ ((Action.exists? path).run world).1 = true

/-- That some reference with three dots leads from a file to a path that differs from the path of
the file in dot segments only. -/
def MeetsItself [ArchiveReader] (uri : Uri) (security : Security) (memo : Memo)
    (world : World) : Prop :=
  ∃ written ascension found, Ascension.parse written = .ok (some ascension) ∧
    (((file uri).resolveAscension security written ascension).runIn memo world).1 = .ok found ∧
      removeDots found.path = removeDots uri.path

/-- Every candidate has a path without dot segments that is not the path of the file. -/
theorem exists_of_mem_candidates {path target : String} {candidate : Uri}
    (member : candidate ∈ (file uri).candidates path target) :
    ∃ tried, removeDots tried ≠ path ∧
      candidate = { uri with path := removeDots tried, fragment := none } := by
  obtain ⟨directory, -, made⟩ := List.mem_filterMap.mp member
  dsimp only at made
  split at made
  · exact nomatch made
  · rename_i different
    exact ⟨directory ++ target, different, (Option.some.inj made).symm⟩

/-- The directory itself is the first that is searched. -/
theorem exists_enclosing_eq_cons (directory : String) :
    ∃ above, enclosing directory = directory :: above := by
  unfold enclosing
  generalize directory.length = count
  cases count with
  | zero => exact ⟨[], rfl⟩
  | succ count =>
      unfold enclosing.go
      split
      · exact ⟨[], rfl⟩
      · exact ⟨_, rfl⟩

/-- What is taken from the directory of the file is tried first. -/
theorem exists_candidates_eq_cons {path target : String}
    (different : removeDots (Uri.directoryOf path ++ target) ≠ path) :
    ∃ rest, (file uri).candidates path target =
      { uri with path := removeDots (Uri.directoryOf path ++ target), fragment := none } ::
        rest := by
  obtain ⟨above, searched⟩ := exists_enclosing_eq_cons (Uri.directoryOf path)
  rw [candidates, searched, List.filterMap_cons]
  dsimp only
  rw [if_neg different]
  exact ⟨_, rfl⟩

/-! ## The name of the file itself -/

/-- A slash at the end of a path is kept where two slashes and a dot stand in its place. -/
theorem cleaned_concat_empty_single (segments : List String) :
    cleaned (segments ++ ["", "."]) = cleaned (segments ++ [""]) := by
  have ends : kept (segments ++ ["", "."]) = kept segments ++ [""] := by
    rw [List.append_cons, UriPath.kept_concat_single,
      UriPath.kept_concat_of_isPlain segments (by decide)]
  rw [UriPath.cleaned_concat_of_isPlain segments (by decide), cleaned, ends,
    if_neg fun both => both.2 (List.getLast?_concat ..)]

/-- Every file has a reference with three dots whose first candidate is the file without its dot
segments: three dots alone, or two slashes and a dot after them if the path ends in a slash. -/
theorem exists_reference (uri : Uri) {path : String}
    (rooted : Text.beginsWith '/' path = true) :
    ∃ written ascension target, Ascension.parse written = .ok (some ascension) ∧
      (file uri).target written path ascension = .ok target ∧
        removeDots (Uri.directoryOf path ++ target) = removeDots path := by
  have filled := UriPath.segments_ne_nil path
  have closed := UriPath.areClosed_segments path
  have split := List.dropLast_append_getLast filled
  have directory := UriPath.directoryOf_eq_trail rooted
  have whole := UriPath.trail_segments rooted
  generalize (UriPath.segments path).getLast filled = last at split
  generalize (UriPath.segments path).dropLast = above at split directory
  rw [← split] at whole closed
  by_cases empty : last = ""
  · subst empty
    refine ⟨".../" ++ "/.", .below "/.", "/.", rfl, rfl, ?_⟩
    have aboveClosed : UriPath.AreClosed above := (List.forall_mem_append.mp closed).1
    have pieces : UriPath.segments (trail above ++ "/" ++ "/.") = above ++ ["", "."] :=
      UriPath.segments_trail_append aboveClosed "/."
    rw [directory, UriPath.removeDots_eq_trail (UriPath.beginsWith_trail_append above "/."),
      pieces, cleaned_concat_empty_single, split, ← UriPath.removeDots_eq_trail rooted]
  · have pieces : Text.fields '/' path = ("" :: above) ++ [last] := by
      rw [UriPath.fields_eq_cons_segments rooted, ← split, List.cons_append]
    have name : (file uri).target "..." path .sameName = .ok last := by
      rw [target, Text.lastField_of_fields pieces]
      exact if_neg empty
    refine ⟨"...", .sameName, last, rfl, name, ?_⟩
    rw [directory, ← UriPath.trail_concat, whole]

/-! ## What is found -/

/-- Looking for a file fails, misses it or finds it where the path that it names exists. -/
theorem runIn_isPresent_file_cases [ArchiveReader] (uri candidate : Uri) (memo : Memo)
    (world : World) :
    (∃ failure, ((file uri).isPresent candidate).runIn memo world =
      (.error failure, memo, world)) ∨
    ((file uri).isPresent candidate).runIn memo world = (.ok false, memo, world) ∨
    (((file uri).isPresent candidate).runIn memo world = (.ok true, memo, world) ∧
      ∃ path, candidate.toPath = .ok (some path) ∧
        ((Action.exists? path).run world).1 = true) := by
  cases leads : candidate.toPath with
  | error failure =>
      rw [isPresent, leads]
      exact .inl ⟨failure, rfl⟩
  | ok place =>
      cases place with
      | none =>
          rw [isPresent, leads, Resolving.ofResult_ok_bind]
          exact .inr (.inl rfl)
      | some path =>
          rw [runIn_isPresent_file leads]
          cases present : ((Action.exists? path).run world).1 with
          | false => exact .inr (.inl rfl)
          | true => exact .inr (.inr ⟨rfl, path, rfl, present⟩)

/-- What a search among files finds is one of its candidates. -/
theorem isFound_of_firstPresent [ArchiveReader] {candidates : List Uri} {found : Uri}
    (outcome : (((file uri).firstPresent security candidates).runIn memo world).1 =
      .ok (some found)) : found ∈ candidates ∧ IsFound found security world := by
  induction candidates with
  | nil => cases outcome
  | cons candidate rest inductionHypothesis =>
      rw [firstPresent, Resolving.runIn_bind, Resolving.runIn_ofResult] at outcome
      cases allowed : security.checkModule candidate with
      | error failure =>
          rw [allowed] at outcome
          cases outcome
      | ok _ =>
          rw [allowed] at outcome
          dsimp only at outcome
          rw [Resolving.runIn_bind] at outcome
          rcases runIn_isPresent_file_cases uri candidate memo world with
            ⟨failure, failed⟩ | missing | ⟨present, named⟩
          · rw [failed] at outcome
            cases outcome
          · rw [missing] at outcome
            obtain ⟨member, isFound⟩ := inductionHypothesis outcome
            exact ⟨List.mem_cons_of_mem _ member, isFound⟩
          · rw [present] at outcome
            obtain rfl := Option.some.inj (Except.ok.inj outcome)
            exact ⟨List.mem_cons_self, allowed, named⟩

/-- The path of a file is searched from if its identifier is a hierarchy. -/
theorem ownPath_file_eq_ok_iff {path : String} :
    (file uri).ownPath = .ok path ↔ uri.isOpaque = false ∧ uri.path = path := by
  have own : (file uri).ownPath =
      if uri.isOpaque = true then .error (.ascensionNotSupported uri.text) else .ok uri.path := rfl
  cases hierarchical : uri.isOpaque <;> simp [own, hierarchical]

/-- What a search with three dots finds from a file is one of its candidates. -/
theorem exists_of_resolveAscension [ArchiveReader] {written : String} {ascension : Ascension}
    {found : Uri}
    (outcome : (((file uri).resolveAscension security written ascension).runIn memo world).1 =
      .ok found) :
    ∃ target, found ∈ (file uri).candidates uri.path target ∧ IsFound found security world := by
  cases own : (file uri).ownPath with
  | error failure =>
      rw [resolveAscension, own] at outcome
      cases outcome
  | ok path =>
      obtain ⟨-, rfl⟩ := ownPath_file_eq_ok_iff.mp own
      cases aimed : (file uri).target written uri.path ascension with
      | error failure =>
          rw [resolveAscension, own, Resolving.ofResult_ok_bind, aimed] at outcome
          cases outcome
      | ok target =>
          rw [runIn_resolveAscension_of_target own aimed] at outcome
          split at outcome
          · rename_i other first
            obtain rfl := Except.ok.inj outcome
            exact ⟨target, isFound_of_firstPresent first⟩
          · cases outcome
          · cases outcome

/-- A file whose path has dot segments is found from itself if it may be. -/
theorem meetsItself_of_isFound [ArchiveReader] (hierarchical : uri.isOpaque = false)
    (rooted : Text.beginsWith '/' uri.path = true) (dotted : removeDots uri.path ≠ uri.path)
    (isFound : IsFound (withoutDots uri) security world) :
    MeetsItself uri security memo world := by
  obtain ⟨written, ascension, target, read, aimed, back⟩ := exists_reference uri rooted
  rw [← back] at dotted
  obtain ⟨rest, tried⟩ := exists_candidates_eq_cons dotted
  rw [back, ← withoutDots] at tried
  obtain ⟨allowed, path, leads, present⟩ := isFound
  have comes : (file uri).ComesTo security ((file uri).candidates uri.path target) memo world
      (withoutDots uri) memo world :=
    ⟨[], rest, tried, by simp, .nil⟩
  have here : (((file uri).isPresent (withoutDots uri)).runIn memo world).1 = .ok true := by
    rw [runIn_isPresent_file leads, present]
  refine ⟨written, ascension, withoutDots uri, read, ?_, UriPath.removeDots_removeDots uri.path⟩
  rw [runIn_resolveAscension_of_target (ownPath_file_eq_ok_iff.mpr ⟨hierarchical, rfl⟩) aimed,
    firstPresent_of_present comes allowed here]

/-- What a search with three dots finds from a file does not have the path of the file as it is
written, and where the two paths differ in dot segments only, it is the file without these. -/
theorem path_of_resolveAscension [ArchiveReader] {written : String} {ascension : Ascension}
    {found : Uri}
    (outcome : (((file uri).resolveAscension security written ascension).runIn memo world).1 =
      .ok found) :
    found.path ≠ uri.path ∧
      (removeDots found.path = removeDots uri.path → found = withoutDots uri) ∧
        IsFound found security world := by
  obtain ⟨target, member, isFound⟩ := exists_of_resolveAscension outcome
  obtain ⟨tried, different, rfl⟩ := exists_of_mem_candidates member
  refine ⟨different, ?_, isFound⟩
  intro same
  rw [UriPath.removeDots_removeDots] at same
  rw [withoutDots, ← same]

/-- No search with three dots from a file finds the path of the file as it is written.  Yet some
search finds a path that differs from it in dot segments only, exactly if the path of the file has
dot segments and the identifier without them is allowed and names a file that exists. -/
theorem meetsItself_iff [ArchiveReader] {text : String} (read : Uri.parse text = .ok uri)
    (hierarchical : uri.isOpaque = false) :
    (∀ written ascension found,
      (((file uri).resolveAscension security written ascension).runIn memo world).1 = .ok found →
        found.path ≠ uri.path) ∧
    (MeetsItself uri security memo world ↔
      removeDots uri.path ≠ uri.path ∧ IsFound (withoutDots uri) security world) := by
  refine ⟨fun written ascension found outcome => (path_of_resolveAscension outcome).1, ?_, ?_⟩
  · rintro ⟨written, ascension, found, -, outcome, same⟩
    obtain ⟨different, own, isFound⟩ := path_of_resolveAscension outcome
    rw [own same] at different isFound
    exact ⟨different, isFound⟩
  · rintro ⟨dotted, isFound⟩
    have absolute : uri.isAbsolute = true := by
      obtain ⟨-, path, leads, -⟩ := isFound
      have scheme : uri.scheme = some "file" := (Uri.toPath_eq_some_iff.mp leads).1
      rw [Uri.isAbsolute, scheme, Option.isSome_some]
    have rooted : Text.beginsWith '/' uri.path = true := by
      rcases Uri.isRooted_of_parse read absolute hierarchical with ⟨-, empty⟩ | rooted
      · rw [empty] at dotted
        exact absurd rfl dotted
      · exact rooted
    exact meetsItself_of_isFound hierarchical rooted dotted isFound

/-- The module `/birds/./twig.pkl`. -/
def dottedTwig : Uri :=
  ⟨some "file", some "", "/birds/./twig.pkl", none, none⟩

/-- A world with the file `/birds/twig.pkl`. -/
def twigWorld : World :=
  { World.empty with
    tree := ⟨[(["birds"], .directory), (["birds", "twig.pkl"], .file .empty)]⟩ }

/-- The module in `/birds/./twig.pkl` is found from itself. -/
theorem dotted_twig_meets_itself :
    Uri.parse "file:///birds/./twig.pkl" = .ok dottedTwig ∧ dottedTwig.isOpaque = false ∧
      MeetsItself dottedTwig .unrestricted Memo.empty twigWorld := by
  have read : Uri.parse "file:///birds/./twig.pkl" = .ok dottedTwig := by decide +kernel
  have leads : (withoutDots dottedTwig).toPath = .ok (some ⟨"/birds/twig.pkl"⟩) := by
    decide +kernel
  have present : ((Action.exists? ⟨"/birds/twig.pkl"⟩).run twigWorld).1 = true := by
    decide +kernel
  exact ⟨read, rfl, (meetsItself_iff read rfl).2.mpr ⟨by decide +kernel, rfl, _, leads, present⟩⟩

/-- Three dots alone lead from the module `/birds/./twig.pkl` to `/birds/twig.pkl`. -/
theorem dotted_twig_finds_twig :
    ∃ found, Uri.parse "file:///birds/./twig.pkl" = .ok dottedTwig ∧
      Ascension.parse "..." = .ok (some .sameName) ∧
      (((file dottedTwig).resolveAscension .unrestricted "..." .sameName).runIn Memo.empty
        twigWorld).1 = .ok found ∧
      removeDots found.path = removeDots dottedTwig.path := by
  refine ⟨withoutDots dottedTwig, ?_⟩
  decide +kernel

end ModuleKey

end PackageResolution
