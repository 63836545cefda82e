import Mathlib.Data.List.Infix
import PackageResolution.Archive.Zip
import PackageResolution.Module.Import
import PackageResolution.Proofs.Resolver.Errands
import PackageResolution.Proofs.Uri.Rooted

/-!
# Searches with three dots

A search goes through the directory of the module and the directories above it, up to the root.
Of the paths that it looks for there it leaves out that of the module itself and, in a package,
those that climb above the root.  It ends at the first path that exists or that is not allowed,
and finds nothing if there is none.
-/

namespace PackageResolution

open UriPath (trail IsPlain Climbs removeDots)

/-! ## What is searched for -/

/-- That a reference with three dots asks for a target, in a module with some names. -/
inductive AsksFor (names : List String) : String → Ascension → String → Prop
  | sameName {last : String} :
      names.getLast? = some last → AsksFor names "..." .sameName last
  | below {path : String} :
      path ≠ "" → Text.endsWith '/' path = false →
        AsksFor names (".../" ++ path) (.below path) path

/-- Every reference that is read as one with three dots asks for something. -/
theorem Ascension.parse_eq_some_iff {names : List String} (filled : names ≠ []) {written : String}
    {ascension : Ascension} :
    Ascension.parse written = .ok (some ascension) ↔
      ∃ target, AsksFor names written ascension target := by
  constructor
  · intro read
    unfold parse at read
    split at read
    · exact nomatch Except.ok.inj read
    rename_i rest dots
    obtain rfl := Text.dropStart?_eq_some_iff.mp dots
    split at read
    · rename_i empty
      subst empty
      obtain rfl := Option.some.inj (Except.ok.inj read)
      exact ⟨names.getLast filled, .sameName (List.getLast?_eq_some_getLast filled)⟩
    split at read
    · rename_i path slash
      obtain rfl := Text.dropStart?_eq_some_iff.mp slash
      split at read
      · rename_i valid
        obtain rfl := Option.some.inj (Except.ok.inj read)
        rw [← String.append_assoc]
        exact ⟨path, .below valid.1 valid.2⟩
      · exact nomatch read
    · exact nomatch read
  · rintro ⟨target, asks⟩
    cases asks with
    | sameName last => rfl
    | @below path notEmpty shut =>
        have dots : ".../" ++ target = "..." ++ ("/" ++ target) := by
          rw [← String.append_assoc]
          rfl
        have more : "/" ++ target ≠ "" := by simp
        rw [parse, dots, Text.dropStart?_append]
        simp only [if_neg more, Text.dropStart?_append, if_pos (And.intro notEmpty shut)]

namespace ModuleKey

variable {key : ModuleKey} {names : List String}

/-- That some names lead to a module from the root: there are some, and each is neither empty nor
a dot segment. -/
structure AreNames (names : List String) : Prop where
  filled : names ≠ []
  closed : UriPath.AreClosed names
  whole : ∀ name ∈ names, name ≠ "" ∧ IsPlain name

theorem target_eq {written : String} {ascension : Ascension} {target : String}
    (named : AreNames names) (asks : AsksFor names written ascension target) :
    key.target written (trail names) ascension = .ok target := by
  cases asks with
  | below => rfl
  | sameName last =>
      have pieces : Text.fields '/' (trail names) = ("" :: names.dropLast) ++ [target] := by
        rw [UriPath.fields_trail named.closed, List.cons_append,
          List.dropLast_append_getLast? target last]
      have notEmpty := (named.whole target (List.mem_of_getLast? last)).1
      rw [ModuleKey.target, Text.lastField_of_fields pieces]
      exact if_neg notEmpty

/-! ## The directories that are searched -/

/-- The directory of a module and those above it, up to the root. -/
def directories (names : List String) : List String :=
  names.dropLast.inits.reverse.map (trail · ++ "/")

/-- The directory above another one. -/
theorem directoryOf_trimEnd (above : List String) {name : String} (notEmpty : name ≠ "")
    (closed : '/' ∉ name.toList) :
    Uri.directoryOf (Text.trimEnd '/' (trail (above ++ [name]) ++ "/")) = trail above ++ "/" := by
  have shut : Text.endsWith '/' (trail (above ++ [name])) = false := by
    rw [UriPath.endsWith_trail_concat above closed, decide_eq_false notEmpty]
  rw [Text.trimEnd_append_slash shut, UriPath.directoryOf_trail_concat above closed]

/-- The walk upward ends at the root, however many more steps it could take. -/
theorem enclosing_go {above : List String} (closed : UriPath.AreClosed above)
    (whole : ∀ name ∈ above, name ≠ "") {count : Nat} (enough : above.length ≤ count) :
    enclosing.go count (trail above ++ "/") = above.inits.reverse.map (trail · ++ "/") := by
  induction above using List.reverseRecOn generalizing count with
  | nil => cases count <;> rfl
  | append_singleton above name inductionHypothesis =>
      obtain ⟨aboveClosed, nameClosed⟩ := List.forall_mem_append.mp closed
      obtain ⟨aboveWhole, nameWhole⟩ := List.forall_mem_append.mp whole
      rw [List.length_append, List.length_singleton] at enough
      cases count with
      | zero => exact absurd enough (Nat.not_succ_le_zero _)
      | succ count =>
          have notRoot : ¬ (trail (above ++ [name]) ++ "/" = "/" ∨
              trail (above ++ [name]) ++ "/" = "") := by
            rintro (root | nothing)
            · exact UriPath.trail_ne_empty (by simp) (String.append_left_inj "/" |>.mp root)
            · exact absurd nothing (by simp)
          rw [enclosing.go, if_neg notRoot, directoryOf_trimEnd above (nameWhole name (by simp))
            (nameClosed name (by simp)), inductionHypothesis aboveClosed aboveWhole
            (Nat.le_of_succ_le_succ enough), List.inits_append]
          simp

/-- From the directory of a module the walk meets one directory for each name. -/
theorem enclosing_go_directoryOf (named : AreNames names) {count : Nat}
    (enough : names.length ≤ count + 1) :
    enclosing.go count (Uri.directoryOf (trail names)) = directories names := by
  obtain ⟨above, name, rfl⟩ : ∃ above name, names = above ++ [name] :=
    ⟨_, _, (List.dropLast_append_getLast named.filled).symm⟩
  have closed := List.forall_mem_append.mp named.closed
  have whole (other : String) (member : other ∈ above) : other ≠ "" :=
    (named.whole other (List.mem_append_left _ member)).1
  rw [List.length_append, List.length_singleton] at enough
  rw [UriPath.directoryOf_trail_concat above (closed.2 name (by simp)), directories,
    List.dropLast_concat, enclosing_go closed.1 whole (Nat.le_of_succ_le_succ enough)]

theorem enclosing_directoryOf (named : AreNames names) :
    enclosing (Uri.directoryOf (trail names)) = directories names := by
  apply enclosing_go_directoryOf named
  have long := UriPath.length_le_length_trail names.dropLast
  rw [UriPath.directoryOf_eq_trail (UriPath.beginsWith_trail named.filled),
    UriPath.segments_trail named.filled named.closed, String.length_append]
  rw [List.length_dropLast] at long
  omega

example : directories ["birds", "nest", "twig.pkl"] = ["/birds/nest/", "/birds/", "/"] := by
  decide

/-! ## The candidates -/

/-- The identifier of a path in the origin of a module. -/
def address (key : ModuleKey) (path : String) : Uri :=
  match key with
  | .package asset _ => { asset.package.toUri with fragment := some path }
  | key => { key.uri with path := path, fragment := none }

/-- That a path leads out of the origin of a module: above the root of a package. -/
def Leaves (key : ModuleKey) (path : String) : Prop :=
  match key with
  | .package _ _ => Climbs (UriPath.segments path)
  | _ => False

instance (key : ModuleKey) (path : String) : Decidable (key.Leaves path) :=
  match key with
  | .package _ _ => inferInstanceAs (Decidable (Climbs (UriPath.segments path)))
  | .file _ => inferInstanceAs (Decidable False)
  | .onPath _ _ => inferInstanceAs (Decidable False)
  | .web _ => inferInstanceAs (Decidable False)
  | .builtIn _ => inferInstanceAs (Decidable False)

/-- The identifiers that a search for a target is to try in a module with some names: those of
the target in every directory, without the module itself and what leads out of its origin. -/
def remaining (key : ModuleKey) (names : List String) (target : String) : List Uri :=
  (((((directories names).map (· ++ target)).filter fun path => ¬ key.Leaves path).map
    removeDots).filter (· ≠ trail names)).map key.address

theorem candidate?_eq {path : String} (rooted : Text.beginsWith '/' path = true) :
    key.candidate? path =
      if key.Leaves path then none else some (key.address (removeDots path)) := by
  cases key with
  | package asset resolver =>
      simp only [candidate?, Leaves, PackageAsset.withPath, PackageAsset.ofPath, if_pos rooted,
        ← UriPath.normalize?_eq_none_iff rooted]
      cases normal : UriPath.normalize? path with
      | none => rfl
      | some clean =>
          rw [UriPath.removeDots_of_normalize? normal]
          rfl
  | file uri => rfl
  | onPath uri modulePath => rfl
  | web uri => rfl
  | builtIn uri => rfl

theorem candidates_eq_remaining (named : AreNames names) (target : String) :
    key.candidates (trail names) target = key.remaining names target := by
  rw [candidates, enclosing_directoryOf named, remaining]
  have rooted : ∀ directory ∈ directories names,
      Text.beginsWith '/' (directory ++ target) = true := by
    intro directory member
    obtain ⟨above, -, rfl⟩ := List.mem_map.mp member
    exact UriPath.beginsWith_trail_append above target
  generalize directories names = searched at rooted ⊢
  induction searched with
  | nil => rfl
  | cons directory searched inductionHypothesis =>
      obtain ⟨first, rooted⟩ := List.forall_mem_cons.mp rooted
      have later := inductionHypothesis rooted
      rw [List.filterMap_cons, List.map_cons, later]
      simp only [candidate?_eq first]
      by_cases leaves : key.Leaves (directory ++ target)
      · rw [List.filter_cons_of_neg (by simpa using leaves), if_pos leaves]
        simp
      · rw [List.filter_cons_of_pos (by simpa using leaves), if_neg leaves, List.map_cons]
        by_cases same : removeDots (directory ++ target) = trail names
        · rw [List.filter_cons_of_neg (by simpa using same), if_pos same]
        · rw [List.filter_cons_of_pos (by simpa using same), if_neg same, List.map_cons]

/-! ## The search -/

section Searches

variable [ArchiveReader]

/-- That candidates which are looked for one after the other do not exist. -/
inductive AllAbsent (key : ModuleKey) : List Uri → Memo → World → Memo → World → Prop
  | nil {memo : Memo} {world : World} : AllAbsent key [] memo world memo world
  | cons {candidate : Uri} {rest : List Uri} {memo next last : Memo} {world after final : World} :
      (key.isPresent candidate).runIn memo world = (.ok false, next, after) →
        AllAbsent key rest next after last final →
          AllAbsent key (candidate :: rest) memo world last final

/-- That a search comes to a candidate: all those before it are allowed and do not exist. -/
def ComesTo (key : ModuleKey) (security : Security) (candidates : List Uri) (memo : Memo)
    (world : World) (candidate : Uri) (next : Memo) (after : World) : Prop :=
  ∃ before rest, candidates = before ++ candidate :: rest ∧
    (∀ other ∈ before, security.checkModule other = .ok ()) ∧
    key.AllAbsent before memo world next after

/-- That no check for existence which a search makes fails. -/
def ChecksSucceed (key : ModuleKey) (security : Security) (candidates : List Uri) (memo : Memo)
    (world : World) : Prop :=
  ∀ candidate next after, key.ComesTo security candidates memo world candidate next after →
    security.checkModule candidate = .ok () →
      ∃ present, ((key.isPresent candidate).runIn next after).1 = .ok present

variable {security : Security} {candidates : List Uri} {memo next : Memo} {world after : World}
  {candidate : Uri}

/-- A search passes over candidates that are allowed and do not exist. -/
theorem firstPresent_append {before : List Uri}
    (allowed : ∀ other ∈ before, security.checkModule other = .ok ())
    (absent : key.AllAbsent before memo world next after) (rest : List Uri) :
    (key.firstPresent security (before ++ rest)).runIn memo world =
      (key.firstPresent security rest).runIn next after := by
  induction absent with
  | nil => rfl
  | cons missing _ inductionHypothesis =>
      obtain ⟨first, allowed⟩ := List.forall_mem_cons.mp allowed
      rw [List.cons_append, firstPresent, Resolving.runIn_bind, Resolving.runIn_ofResult, first]
      dsimp only
      rw [Resolving.runIn_bind, missing]
      exact inductionHypothesis allowed

theorem firstPresent_of_present
    (comes : key.ComesTo security candidates memo world candidate next after)
    (allowed : security.checkModule candidate = .ok ())
    (present : ((key.isPresent candidate).runIn next after).1 = .ok true) :
    ((key.firstPresent security candidates).runIn memo world).1 = .ok (some candidate) := by
  obtain ⟨before, rest, rfl, others, absent⟩ := comes
  rw [firstPresent_append others absent, firstPresent, Resolving.runIn_bind,
    Resolving.runIn_ofResult, allowed]
  dsimp only
  rw [Resolving.runIn_bind]
  rcases ran : (key.isPresent candidate).runIn next after with ⟨result, last, final⟩
  rw [ran] at present
  obtain rfl : result = .ok true := present
  rfl

theorem firstPresent_of_rejected {failure : Error}
    (comes : key.ComesTo security candidates memo world candidate next after)
    (rejected : security.checkModule candidate = .error failure) :
    ((key.firstPresent security candidates).runIn memo world).1 = .error failure := by
  obtain ⟨before, rest, rfl, others, absent⟩ := comes
  rw [firstPresent_append others absent, firstPresent, Resolving.runIn_bind,
    Resolving.runIn_ofResult, rejected]

theorem firstPresent_of_allAbsent
    (allowed : ∀ other ∈ candidates, security.checkModule other = .ok ())
    (absent : key.AllAbsent candidates memo world next after) :
    ((key.firstPresent security candidates).runIn memo world).1 = .ok none := by
  rw [← List.append_nil candidates, firstPresent_append allowed absent]
  rfl

/-- Looking for a file changes nothing. -/
theorem runIn_isPresent_file {uri : Uri} {path : Path}
    (leads : candidate.toPath = .ok (some path)) :
    ((ModuleKey.file uri).isPresent candidate).runIn memo world =
      (.ok ((Action.exists? path).run world).1, memo, world) := by
  have same : ((Action.exists? path).run world).2 = world := by rw [Action.run_exists?]
  have looked : Attempt.runIn (ExceptT.lift (Action.exists? path)) world =
      (.ok ((Action.exists? path).run world).1, world) :=
    (Attempt.runIn_lift (Action.exists? path) world).trans (Prod.ext rfl same)
  rw [isPresent, leads, Resolving.ofResult_ok_bind]
  dsimp only
  rw [Resolving.runIn_ofAttempt, looked]

/-- The checks of files succeed where the candidates name paths that can be decoded. -/
theorem checksSucceed_of_toPath {uri : Uri}
    (readable : ∀ candidate ∈ candidates, ∃ place, candidate.toPath = .ok place) :
    (ModuleKey.file uri).ChecksSucceed security candidates memo world := by
  rintro candidate next after ⟨before, rest, rfl, -, -⟩ -
  obtain ⟨place, leads⟩ := readable candidate (by simp)
  cases place with
  | none =>
      rw [isPresent, leads, Resolving.ofResult_ok_bind]
      exact ⟨false, rfl⟩
  | some path => exact ⟨_, congrArg Prod.fst (runIn_isPresent_file leads)⟩

theorem ComesTo.cons {first : Uri} {between : Memo} {middle : World}
    (allowed : security.checkModule first = .ok ())
    (missing : (key.isPresent first).runIn memo world = (.ok false, between, middle))
    (comes : key.ComesTo security candidates between middle candidate next after) :
    key.ComesTo security (first :: candidates) memo world candidate next after := by
  obtain ⟨before, rest, rfl, others, absent⟩ := comes
  exact ⟨first :: before, rest, rfl, List.forall_mem_cons.mpr ⟨allowed, others⟩,
    .cons missing absent⟩

/-- A search whose checks succeed comes to a candidate that exists or to one that is not allowed,
or all candidates are allowed and absent. -/
theorem exists_outcome (succeed : key.ChecksSucceed security candidates memo world) :
    (∃ candidate next after, key.ComesTo security candidates memo world candidate next after ∧
      security.checkModule candidate = .ok () ∧
        ((key.isPresent candidate).runIn next after).1 = .ok true) ∨
    (∃ candidate next after failure,
      key.ComesTo security candidates memo world candidate next after ∧
        security.checkModule candidate = .error failure) ∨
    ((∀ other ∈ candidates, security.checkModule other = .ok ()) ∧
      ∃ next after, key.AllAbsent candidates memo world next after) := by
  induction candidates generalizing memo world with
  | nil => exact .inr (.inr ⟨by simp, memo, world, .nil⟩)
  | cons first rest inductionHypothesis =>
      have here : key.ComesTo security (first :: rest) memo world first memo world :=
        ⟨[], rest, rfl, by simp, .nil⟩
      cases check : security.checkModule first with
      | error failure => exact .inr (.inl ⟨first, memo, world, failure, here, check⟩)
      | ok allowed =>
          obtain ⟨present, checked⟩ := succeed first memo world here check
          rcases ran : (key.isPresent first).runIn memo world with ⟨result, between, middle⟩
          rw [ran] at checked
          obtain rfl : result = .ok present := checked
          cases present with
          | true => exact .inl ⟨first, memo, world, here, check, by rw [ran]⟩
          | false =>
              have later : key.ChecksSucceed security rest between middle :=
                fun candidate next after comes =>
                  succeed candidate next after (comes.cons check ran)
              rcases inductionHypothesis later with
                ⟨candidate, next, after, comes, found⟩ |
                ⟨candidate, next, after, failure, comes, rejected⟩ | ⟨allowed, next, after, absent⟩
              · exact .inl ⟨candidate, next, after, comes.cons check ran, found⟩
              · exact .inr (.inl ⟨candidate, next, after, failure, comes.cons check ran, rejected⟩)
              · exact .inr (.inr ⟨List.forall_mem_cons.mpr ⟨check, allowed⟩, next, after,
                  .cons ran absent⟩)

/-- What a search for a target gives is what its candidates give. -/
theorem runIn_resolveAscension_of_target {written path : String} {ascension : Ascension}
    {target : String} (own : key.ownPath = .ok path)
    (aimed : key.target written path ascension = .ok target) :
    ((key.resolveAscension security written ascension).runIn memo world).1 =
      match ((key.firstPresent security (key.candidates path target)).runIn memo world).1 with
      | .ok (some found) => .ok found
      | .ok none => .error (.moduleNotFound written key.uri.text)
      | .error failure => .error failure := by
  rw [resolveAscension, own, Resolving.ofResult_ok_bind, aimed, Resolving.ofResult_ok_bind,
    Resolving.runIn_bind]
  rcases (key.firstPresent security (key.candidates path target)).runIn memo world with
    ⟨result, next, after⟩
  rcases result with failure | (_ | found) <;> rfl

theorem runIn_resolveAscension {written : String} {ascension : Ascension} {target : String}
    (named : AreNames names) (own : key.ownPath = .ok (trail names))
    (asks : AsksFor names written ascension target) :
    ((key.resolveAscension security written ascension).runIn memo world).1 =
      match ((key.firstPresent security (key.remaining names target)).runIn memo world).1 with
      | .ok (some found) => .ok found
      | .ok none => .error (.moduleNotFound written key.uri.text)
      | .error failure => .error failure := by
  rw [runIn_resolveAscension_of_target own (target_eq named asks),
    candidates_eq_remaining named]

/-- A search with three dots ends at the root after one directory for each name, however many more
it could try.  It finds the first of the remaining candidates that exists, if that and all those
before it are allowed.  It fails as the check of the first candidate that is not allowed does, if
none before it exists, and it finds no module exactly if all candidates are allowed and none of
them exists. -/
theorem resolveAscension_finds_nearest {manager : Manager} {written : String}
    {ascension : Ascension} {target : String} (named : AreNames names)
    (own : key.ownPath = .ok (trail names)) (asks : AsksFor names written ascension target)
    (succeed : key.ChecksSucceed manager.security (key.remaining names target) memo world) :
    (∀ count, names.length ≤ count + 1 →
      enclosing.go count (Uri.directoryOf (trail names)) = directories names) ∧
    (∀ found,
      ((key.resolveAscension manager.security written ascension).runIn memo world).1 =
          .ok found ↔
        ∃ next after,
          key.ComesTo manager.security (key.remaining names target) memo world found next after ∧
            manager.security.checkModule found = .ok () ∧
              ((key.isPresent found).runIn next after).1 = .ok true) ∧
    (∀ rejected next after failure,
      key.ComesTo manager.security (key.remaining names target) memo world rejected next after →
        manager.security.checkModule rejected = .error failure →
          ((key.resolveAscension manager.security written ascension).runIn memo world).1 =
            .error failure) ∧
    (((key.resolveAscension manager.security written ascension).runIn memo world).1 =
        .error (.moduleNotFound written key.uri.text) ↔
      (∀ candidate ∈ key.remaining names target, manager.security.checkModule candidate = .ok ()) ∧
        ∃ next after, key.AllAbsent (key.remaining names target) memo world next after) := by
  rw [runIn_resolveAscension named own asks]
  refine ⟨fun _ enough => enclosing_go_directoryOf named enough,
    fun found => ⟨fun outcome => ?_, ?_⟩, ?_, ?_⟩
  · rcases exists_outcome succeed with
      ⟨candidate, next, after, comes, allowed, present⟩ |
      ⟨candidate, next, after, failure, comes, refused⟩ | ⟨allowed, next, after, absent⟩
    · rw [firstPresent_of_present comes allowed present] at outcome
      obtain rfl := Except.ok.inj outcome
      exact ⟨next, after, comes, allowed, present⟩
    · rw [firstPresent_of_rejected comes refused] at outcome
      exact nomatch outcome
    · rw [firstPresent_of_allAbsent allowed absent] at outcome
      exact nomatch outcome
  · rintro ⟨next, after, comes, allowed, present⟩
    rw [firstPresent_of_present comes allowed present]
  · intro rejected next after failure comes refused
    rw [firstPresent_of_rejected comes refused]
  · constructor
    · intro outcome
      rcases exists_outcome succeed with
        ⟨candidate, next, after, comes, allowed, present⟩ |
        ⟨candidate, next, after, failure, comes, refused⟩ | absent
      · rw [firstPresent_of_present comes allowed present] at outcome
        exact nomatch outcome
      · rw [firstPresent_of_rejected comes refused] at outcome
        obtain rfl := Except.error.inj outcome
        rcases manager.failure_of_checkModule refused with ⟨_, other⟩ | ⟨_, other⟩ | ⟨_, other⟩
        all_goals exact nomatch other
      · exact absent
    · rintro ⟨allowed, next, after, absent⟩
      rw [firstPresent_of_allAbsent allowed absent]

end Searches

/-- The module `/birds/nest/twig.pkl`. -/
def nestedTwig : ModuleKey :=
  .file ⟨some "file", some "", "/birds/nest/twig.pkl", none, none⟩

/-- A world with the file `/birds/seeds.pkl`. -/
def seedWorld : World :=
  { World.empty with
    tree := ⟨[(["birds"], .directory), (["birds", "seeds.pkl"], .file .empty)]⟩ }

/-- A search for seeds finds those in the directory above the nest. -/
theorem seeds_found_above_nest :
    ((nestedTwig.resolveAscension .unrestricted ".../seeds.pkl" (.below "seeds.pkl")).runIn
      Memo.empty seedWorld).1 = .ok ⟨some "file", some "", "/birds/seeds.pkl", none, none⟩ := by
  have named : AreNames ["birds", "nest", "twig.pkl"] :=
    ⟨by decide, by unfold UriPath.AreClosed; decide, by decide⟩
  have asks : AsksFor ["birds", "nest", "twig.pkl"] ".../seeds.pkl" (.below "seeds.pkl")
      "seeds.pkl" := @AsksFor.below _ "seeds.pkl" (by decide) (by decide)
  have tried : nestedTwig.remaining ["birds", "nest", "twig.pkl"] "seeds.pkl" =
      [⟨some "file", some "", "/birds/nest/seeds.pkl", none, none⟩,
        ⟨some "file", some "", "/birds/seeds.pkl", none, none⟩,
        ⟨some "file", some "", "/seeds.pkl", none, none⟩] := by decide +kernel
  have inNest : Uri.toPath ⟨some "file", some "", "/birds/nest/seeds.pkl", none, none⟩ =
      .ok (some ⟨"/birds/nest/seeds.pkl"⟩) := by decide +kernel
  have succeed : nestedTwig.ChecksSucceed Manager.unrestricted.security
      (nestedTwig.remaining ["birds", "nest", "twig.pkl"] "seeds.pkl") Memo.empty seedWorld := by
    rw [tried]
    apply checksSucceed_of_toPath
    simp only [List.forall_mem_cons]
    exact ⟨⟨_, inNest⟩, ⟨some ⟨"/birds/seeds.pkl"⟩, by decide +kernel⟩,
      ⟨some ⟨"/seeds.pkl"⟩, by decide +kernel⟩, by simp⟩
  have missing : ((Action.exists? ⟨"/birds/nest/seeds.pkl"⟩).run seedWorld).1 = false := by
    decide +kernel
  apply ((resolveAscension_finds_nearest named rfl asks succeed).2.1 _).mpr
  rw [tried]
  refine ⟨Memo.empty, seedWorld, ⟨[_], [_], rfl, fun _ _ => rfl, .cons ?_ .nil⟩, rfl, ?_⟩
  · rw [nestedTwig, runIn_isPresent_file inNest, missing]
  · decide +kernel

end ModuleKey

end PackageResolution
