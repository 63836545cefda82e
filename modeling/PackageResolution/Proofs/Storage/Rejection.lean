import PackageResolution.Archive.Zip
import PackageResolution.Proofs.Action.Moves
import PackageResolution.Proofs.Storage.Keeping

/-!
# Archives that lead out of their package

The name of an entry leads out of its package exactly if its segments climb above the root.  An
archive with an entry that has no place in the package is refused as a whole: nothing is moved
out of the staging area, so no package is published.
-/

namespace PackageResolution

open FileTree (Apart)

/-! ## Places of entries -/

namespace ArchiveEntry

/-- The segments of the name of an entry.  A backslash counts as a slash. -/
def segments (entry : ArchiveEntry) : List String :=
  UriPath.segments ("/" ++ Text.replace '\\' '/' entry.name)

/-- What the path of an entry promises, so that the entry stays inside whatever directory it is
written to. -/
structure IsInner (path : String) : Prop where
  unrooted : Text.beginsWith '/' path = false
  unclosed : Text.endsWith '/' path = false
  slashed : '\\' ∉ path.toList
  isPlain : ∀ piece ∈ Text.fields '/' path, UriPath.IsPlain piece
  inside : ∀ directory : Path, (directory.join ⟨path⟩).LiesWithin directory

variable {entry : ArchiveEntry}

theorem beginsWith_slash_append (rest : String) : Text.beginsWith '/' ("/" ++ rest) = true := by
  simp [Text.beginsWith]

/-- The name of an entry is refused exactly if its segments climb above the root. -/
theorem path?_eq_none_iff : entry.path? = none ↔ UriPath.Climbs entry.segments := by
  rw [path?, pathOfName?, Option.map_eq_none_iff,
    UriPath.normalize?_eq_none_iff (beginsWith_slash_append _), segments]

theorem backslash_not_mem_of_path? {path : String} (found : entry.path? = some path) :
    '\\' ∉ path.toList := by
  intro member
  rw [path?, pathOfName?, Option.map_eq_some_iff] at found
  obtain ⟨normal, normalized, rfl⟩ := found
  obtain rfl := UriPath.removeDots_of_normalize? normalized
  obtain ⟨piece, among, member⟩ := Text.exists_mem_fields_iff.mpr
    ⟨Text.mem_of_mem_trim member, (by decide : '\\' ≠ '/')⟩
  rcases UriPath.mem_fields_removeDots (beginsWith_slash_append _) among with rfl | ⟨-, segment⟩
  · exact absurd member (by simp)
  · rw [UriPath.segments_slash_append] at segment
    have remains := (Text.exists_mem_fields_iff.mp ⟨piece, segment, member⟩).1
    exact Text.not_mem_replace (by decide) entry.name remains

theorem isInner_of_path? {path : String} (found : entry.path? = some path) : IsInner path := by
  obtain ⟨relative, names, steps⟩ := entry.exists_names found
  have slashed := backslash_not_mem_of_path? found
  rw [path?, pathOfName?, Option.map_eq_some_iff] at found
  obtain ⟨normal, normalized, rfl⟩ := found
  refine ⟨relative, Text.endsWith_trim '/' _, slashed, ?_, ?_⟩
  · intro piece among
    rw [← UriPath.removeDots_of_normalize? normalized] at among
    exact UriPath.isPlain_of_removeDots (beginsWith_slash_append _)
      (Text.mem_fields_of_mem_fields_trim among)
  · have confined : Path.IsConfined ⟨Text.trim '/' normal⟩ := by
      refine ⟨relative, Path.staysBelow_of_not_mem (Path.root_not_mem_steps _) ?_ 0⟩
      rw [steps]
      simp
    exact confined.liesWithin

end ArchiveEntry

/-! ## Attempts that never succeed -/

namespace Attempt

variable {α β : Type} {allowed : Request → Prop}

/-- That an attempt fails in every world. -/
def Fails (attempt : Attempt α) : Prop :=
  ∀ world, ∃ failure after, attempt.runIn world = (.error failure, after)

theorem fails_ofResult {result : Result α} {failure : Error} (failed : result = .error failure) :
    (ofResult result).Fails := by
  intro world
  rw [failed]
  exact ⟨failure, world, rfl⟩

theorem Fails.bind {attempt : Attempt α} (fails : attempt.Fails) (next : α → Attempt β) :
    (attempt >>= next).Fails := by
  intro world
  obtain ⟨failure, after, ran⟩ := fails world
  rw [runIn_bind, ran]
  exact ⟨failure, after, rfl⟩

/-- Doing something for each of some values fails if it does for one of them. -/
theorem fails_forM {γ : Type} {values : List γ} {each : γ → Attempt PUnit} {value : γ}
    (member : value ∈ values) (fails : (each value).Fails) : (values.forM each).Fails := by
  induction values with
  | nil => exact nomatch member
  | cons first rest inductionHypothesis =>
      rcases List.mem_cons.mp member with rfl | later
      · exact fails.bind _
      · exact exists_failure_of_bind (fun _ => inductionHypothesis later) _

/-- The same, seen from what is asked for. -/
theorem asks_forM_of_fails {γ : Type} {values : List γ} {each : γ → Attempt PUnit} {value : γ}
    (asks : ∀ value ∈ values, Asks allowed (fun _ => True) (each value)) (member : value ∈ values)
    (fails : Asks allowed (fun _ => False) (each value)) :
    Asks allowed (fun _ => False) (values.forM each) := by
  induction values with
  | nil => exact nomatch member
  | cons first rest inductionHypothesis =>
      rw [List.forall_mem_cons] at asks
      rcases List.mem_cons.mp member with rfl | later
      · exact fails.bind fun _ impossible => impossible.elim
      · exact asks.1.bind fun _ _ => inductionHypothesis asks.2 later

end Attempt

/-! ## Archives that are refused -/

namespace Storage

variable {package : PackageUri} {archive : ByteArray} {entries : List ArchiveEntry}
  {entry : ArchiveEntry} {cache path : Path} {failure : Error} {allowed : Request → Prop}

/-- An entry that can be read fails exactly by leading out of the package. -/
theorem entryPath_of_readable (readable : ∀ detail, entry.contents ≠ .unreadable detail) :
    entryPath package entry =
      match entry.path? with
      | some path => .ok path
      | none => .error (leadsOutside package entry) := by
  unfold entryPath
  split
  · rename_i detail unreadable
    exact absurd unreadable (readable detail)
  · cases entry.path? with
    | none => rfl
    | some path => rfl

/-- That an archive has an entry that has no place in the package. -/
def HasStrayEntry [ArchiveReader] (package : PackageUri) (archive : ByteArray) : Prop :=
  ∃ entries, openArchive package archive = .ok entries ∧
    ∃ entry ∈ entries, ∃ failure, entryPath package entry = .error failure

theorem addEntry_of_refused (failed : entryPath package entry = .error failure)
    (tree : PackageTree) : addEntry package tree entry = .error failure := by
  rw [addEntry, failed]
  rfl

theorem exists_treeOfEntries_eq_error (member : entry ∈ entries)
    (failed : entryPath package entry = .error failure) (tree : PackageTree) :
    ∃ cause, entries.foldlM (addEntry package) tree = .error cause := by
  induction entries generalizing tree with
  | nil => exact nomatch member
  | cons first rest inductionHypothesis =>
      rw [List.foldlM_cons]
      rcases List.mem_cons.mp member with rfl | later
      · rw [addEntry_of_refused failed]
        exact ⟨failure, rfl⟩
      · cases addEntry package tree first with
        | error cause => exact ⟨cause, rfl⟩
        | ok next => exact inductionHypothesis later next

theorem HasStrayEntry.exists_treeOfArchive_eq_error [ArchiveReader]
    (refused : HasStrayEntry package archive) :
    ∃ cause, treeOfArchive package archive = .error cause := by
  obtain ⟨entries, opened, entry, member, failure, failed⟩ := refused
  rw [treeOfArchive, opened, Result.ok_bind, treeOfEntries]
  exact exists_treeOfEntries_eq_error member failed .empty

theorem HasStrayEntry.fails_extract [ArchiveReader] (refused : HasStrayEntry package archive)
    (path : Path) :
    (extract package archive path).Fails := by
  obtain ⟨entries, opened, entry, member, failure, failed⟩ := refused
  have failsAt : (extractEntry package path entry).Fails := (Attempt.fails_ofResult failed).bind _
  rw [extract, opened]
  exact Attempt.fails_forM member failsAt

theorem fails_clearing {staging : Path} {attempt : Attempt Unit} (fails : attempt.Fails) :
    (clearing staging attempt).Fails := by
  intro world
  obtain ⟨failure, after, ran⟩ := fails world
  refine ⟨failure, ((Action.request (.removeTree staging)).run after).2, ?_⟩
  have first : attempt.run.run world = (.error failure, after) := ran
  rw [clearing, Attempt.runIn, ExceptT.run_mk, Action.run_bind, first, Action.run_bind]
  rfl

theorem HasStrayEntry.fails_materialize [ArchiveReader] (refused : HasStrayEntry package archive)
    (cache : Path) :
    (materialize cache package archive).Fails := by
  apply Attempt.exists_failure_of_bind
  intro _
  apply Attempt.exists_failure_of_bind
  rintro (cause | staging) world
  · exact ⟨_, _, rfl⟩
  · exact (fails_clearing ((refused.fails_extract staging).bind _)).bind _ world

/-- While an archive is refused, its entries are written to a staging directory, which is removed
again. -/
theorem HasStrayEntry.asks_materialize [ArchiveReader] (refused : HasStrayEntry package archive)
    (area : (createStagingArea cache).Asks allowed fun _ => True)
    (staged : (Action.createTemporaryDirectory (stagingArea cache) "package-").Asks allowed
      fun outcome => ∀ staging, outcome = .ok staging → allowed (.removeTree staging) ∧
        ∀ entry, (extractEntry package staging entry).Asks allowed fun _ => True) :
    (materialize cache package archive).Asks allowed fun _ => False := by
  obtain ⟨entries, opened, entry, member, failure, failed⟩ := refused
  apply area.bind
  intro _ _
  apply (Attempt.asks_lift staged).bind
  rintro (cause | staging) permitted
  · exact Attempt.asks_throw _
  obtain ⟨removes, writes⟩ := permitted staging rfl
  have failsAt : (extractEntry package staging entry).Asks allowed fun _ => False :=
    Attempt.Asks.bind (Attempt.asks_ofResult (by rw [failed]; exact nofun))
      fun _ impossible => impossible
  have extracted : (extract package archive staging).Asks allowed fun _ => False := by
    rw [extract, opened]
    exact Attempt.asks_forM_of_fails (fun other _ => writes other) member failsAt
  have cleared : (clearing staging (extract package archive staging >>= fun _ =>
      publish staging (package.cachePath cache))).Asks allowed fun _ => False := by
    apply Action.Asks.bind (extracted.bind fun _ impossible => impossible.elim)
    intro result failing
    apply Action.asks_request_bind removes
    intro _ _
    exact Action.asks_pure failing
  exact cleared.bind fun _ impossible => impossible.elim

/-- An entry is written without moving anything. -/
theorem movesNothing_extractEntry (package : PackageUri) (directory : Path)
    (entry : ArchiveEntry) :
    (extractEntry package directory entry).Asks Request.MovesNothing fun _ => True := by
  apply (Attempt.asks_ofResult fun _ _ => trivial).bind
  intro path _
  have write (contents : ByteArray) : Attempt.Asks Request.MovesNothing (fun _ => True)
      (Attempt.files (.create (directory.join ⟨path⟩).text)
        (Action.request (.write (directory.join ⟨path⟩) contents))) := by
    have permitted : Request.MovesNothing (.write (directory.join ⟨path⟩) contents) := trivial
    exact Attempt.asks_files (Action.asks_request_only permitted)
  have parent : (createParent (directory.join ⟨path⟩)).Asks Request.MovesNothing
      fun _ => True := by
    unfold createParent
    split
    · exact Attempt.movesNothing_createDirectories _ _
    · exact Attempt.asks_pure trivial
  split
  · exact Attempt.asks_pure trivial
  split
  · exact Attempt.movesNothing_createDirectories _ _
  · apply parent.bind
    intro _ _
    split
    · exact write _
    · exact (write _).bind fun _ _ => Attempt.asks_throw _
    · exact Attempt.asks_throw _

theorem HasStrayEntry.movesNothing_materialize [ArchiveReader]
    (refused : HasStrayEntry package archive) (cache : Path) :
    (materialize cache package archive).Asks Request.MovesNothing fun _ => False := by
  apply refused.asks_materialize (Attempt.movesNothing_createDirectories _ _)
  apply (Action.movesNothing_createTemporaryDirectory _ _).imp
  intro outcome _ staging _
  exact ⟨trivial, movesNothing_extractEntry package staging⟩

/-- What lies apart from the staging area is left alone while an archive is refused. -/
theorem HasStrayEntry.spares_materialize [ArchiveReader] (refused : HasStrayEntry package archive)
    {directory top : Location} (written : cache.IsAt directory)
    (aside : ∀ rest, Apart (directory ++ "tmp" :: rest) top) :
    (materialize cache package archive).Asks (Request.Spares top) fun _ => False := by
  have below (rest : Location) : Apart (directory ++ ["tmp"] ++ rest) top := by
    rw [List.append_assoc]
    exact aside rest
  have named (letters : String) : Path.IsName ("package-" ++ letters) := by
    have letter : 'p' ∈ ("package-" ++ letters).toList := by simp
    exact Path.isName_of_mem letter (by decide)
  apply refused.asks_materialize (asks_createStagingArea written aside)
  apply (Action.asks_createTemporaryDirectory (stagingArea_isAt written) named (by decide)
    fun name => (below [name]).2).imp
  intro outcome place staging same
  obtain ⟨name, there⟩ := place staging same
  refine ⟨⟨_, there, below [name]⟩, asks_extractEntry there ?_⟩
  intro rest
  rw [List.append_assoc]
  exact (below (name :: rest)).2

/-- An archive that is refused is refused in memory and on disk, whatever there is.  Nothing is
moved meanwhile. -/
theorem HasStrayEntry.fails_keep [ArchiveReader] (refused : HasStrayEntry package archive)
    (storage : Storage) :
    (storage.keep package archive).Fails ∧
      (storage.keep package archive).Asks Request.MovesNothing fun _ => False := by
  cases storage with
  | memory =>
      obtain ⟨failure, failed⟩ := refused.exists_treeOfArchive_eq_error
      constructor
      · exact (Attempt.fails_ofResult failed).bind _
      · have read : (Attempt.ofResult (treeOfArchive package archive)).Asks Request.MovesNothing
            fun _ => False := by
          rw [failed]
          exact Attempt.asks_ofResult nofun
        exact read.bind fun _ impossible => impossible.elim
  | disk cache =>
      constructor
      · exact (refused.fails_materialize cache).bind _
      · exact (refused.movesNothing_materialize cache).bind fun _ impossible => impossible.elim

/-- No archive leads out of its package.  The path of an entry is refused exactly if its segments
climb above the root, and stays inside every directory otherwise.  An archive with an entry that
is refused is refused as a whole, in memory and on disk, and no package is moved to its place;
without links, whatever is apart from the staging area stays as it was, and a package that was not
there is not there afterwards. -/
theorem no_archive_leads_outside [ArchiveReader] (package : PackageUri) :
    (∀ entry : ArchiveEntry, (∀ detail, entry.contents ≠ .unreadable detail) →
      ((∃ failure, entryPath package entry = .error failure) ↔ UriPath.Climbs entry.segments) ∧
      (∀ failure, entryPath package entry = .error failure →
        failure = leadsOutside package entry) ∧
      ∀ path, entryPath package entry = .ok path → ArchiveEntry.IsInner path) ∧
    ∀ archive, HasStrayEntry package archive →
      (∀ storage : Storage, (storage.keep package archive).Fails ∧
        (storage.keep package archive).Asks Request.MovesNothing fun _ => False) ∧
      ∀ cache directory world, cache.IsAt directory → world.IsPlain →
        ∀ after, (((Storage.disk cache).keep package archive).runIn world).2 = after →
          (∀ top, (∀ rest, Apart (directory ++ "tmp" :: rest) top) →
            FileTree.Spares top world.tree after.tree) ∧
          ∀ place, package.IsKept → (package.cachePath cache).IsAt place →
            world.tree.get? place ≠ some .directory →
            (((Storage.disk cache).package? package).runIn after).1 = .ok none := by
  constructor
  · intro entry readable
    rw [entryPath_of_readable readable, ← ArchiveEntry.path?_eq_none_iff]
    cases found : entry.path? with
    | none =>
        refine ⟨iff_of_true ⟨_, rfl⟩ rfl, ?_, nofun⟩
        rintro _ ⟨⟩
        rfl
    | some path =>
        refine ⟨iff_of_false nofun nofun, nofun, ?_⟩
        rintro _ ⟨⟩
        exact ArchiveEntry.isInner_of_path? found
  · intro archive refused
    refine ⟨refused.fails_keep, ?_⟩
    rintro cache directory world written plain after rfl
    have spares (top : Location) (aside : ∀ rest, Apart (directory ++ "tmp" :: rest) top) :
        FileTree.Spares top world.tree
          (((Storage.disk cache).keep package archive).runIn world).2.tree := by
      have asks : ((Storage.disk cache).keep package archive).Asks (Request.Spares top)
          fun _ => False :=
        (refused.spares_materialize written aside).bind fun _ impossible => impossible.elim
      exact asks.spares plain
    refine ⟨spares, ?_⟩
    intro place kept there absent
    have aside (rest : Location) : Apart (directory ++ "tmp" :: rest) place := by
      have other : "tmp" ≠ "package-1" := by decide
      rw [there.unique (kept.cachePath_isAt written), Apart, List.prefix_append_right_inj,
        List.prefix_append_right_inj, List.cons_prefix_cons, List.cons_prefix_cons]
      exact ⟨fun start => other start.1, fun start => other start.1.symm⟩
    have spared := spares place aside
    apply package?_eq_none spared.isLinkFree there
    rw [spared.get?_eq place (List.prefix_refl _)]
    exact absent

/-- An archive with an empty file `a` and then one that is named `b/../../c`. -/
def strayArchive : ByteArray :=
  ⟨#[80, 75, 3, 4, 20, 0, 0, 0, 0, 0, 0, 0, 33, 0, 0, 0, 0, 0, 0, 0, 0, 0, 0, 0, 0, 0, 1, 0, 0, 0,
    97, 80, 75, 3, 4, 20, 0, 0, 0, 0, 0, 0, 0, 33, 0, 0, 0, 0, 0, 0, 0, 0, 0, 0, 0, 0, 0, 9, 0, 0,
    0, 98, 47, 46, 46, 47, 46, 46, 47, 99, 80, 75, 1, 2, 20, 3, 20, 0, 0, 0, 0, 0, 0, 0, 33, 0, 0,
    0, 0, 0, 0, 0, 0, 0, 0, 0, 0, 0, 1, 0, 0, 0, 0, 0, 0, 0, 0, 0, 0, 0, 128, 1, 0, 0, 0, 0, 97, 80,
    75, 1, 2, 20, 3, 20, 0, 0, 0, 0, 0, 0, 0, 33, 0, 0, 0, 0, 0, 0, 0, 0, 0, 0, 0, 0, 0, 9, 0, 0, 0,
    0, 0, 0, 0, 0, 0, 0, 0, 128, 1, 31, 0, 0, 0, 98, 47, 46, 46, 47, 46, 46, 47, 99, 80, 75, 5, 6,
    0, 0, 0, 0, 2, 0, 2, 0, 102, 0, 0, 0, 70, 0, 0, 0, 0, 0]⟩

/-- The stray file spoils its archive, though the first file is written to the staging area. -/
theorem stray_archive_refused :
    HasStrayEntry .birds strayArchive ∧
      UriPath.Climbs (ArchiveEntry.segments ⟨"b/../../c", .intact .empty⟩) ∧
      ArchiveEntry.IsInner "a" ∧
      ((Storage.disk ⟨"/cache"⟩).keep .birds strayArchive).Fails ∧
      (((Storage.disk ⟨"/cache"⟩).package? .birds).runIn
        (((Storage.disk ⟨"/cache"⟩).keep .birds strayArchive).runIn World.empty).2).1 =
          .ok none := by
  have spoiled : (openArchive .birds strayArchive).map
      (·.any fun entry => (entryPath .birds entry).toOption.isNone) = .ok true := by
    decide +kernel
  have refused : HasStrayEntry .birds strayArchive := by
    obtain ⟨entries, opened, any⟩ := Result.map_eq_ok_iff.mp spoiled
    obtain ⟨entry, member, none⟩ := List.any_eq_true.mp any
    refine ⟨entries, opened, entry, member, ?_⟩
    cases read : entryPath .birds entry with
    | error failure => exact ⟨failure, rfl⟩
    | ok path =>
        rw [read] at none
        exact nomatch none
  obtain ⟨entries, archives⟩ := no_archive_leads_outside .birds
  have written : Path.IsAt ⟨"/cache"⟩ ["cache"] := by decide
  have there : (PackageUri.birds.cachePath ⟨"/cache"⟩).IsAt
      ["cache", "package-1", "localhost:0", "birds@1.0.0"] := by decide +kernel
  obtain ⟨everywhere, outside⟩ := archives strayArchive refused
  refine ⟨refused, ?_, ?_, (everywhere (.disk ⟨"/cache"⟩)).1, ?_⟩
  · have stray : entryPath .birds ⟨"b/../../c", .intact .empty⟩ =
        .error (leadsOutside .birds ⟨"b/../../c", .intact .empty⟩) := by decide +kernel
    exact (entries ⟨"b/../../c", .intact .empty⟩ (fun _ => nofun)).1.mp ⟨_, stray⟩
  · exact (entries ⟨"a", .intact .empty⟩ (fun _ => nofun)).2.2 "a" (by decide +kernel)
  · exact (outside ⟨"/cache"⟩ _ _ written World.isPlain_empty _ rfl).2 _ (by decide) there nofun

end Storage

end PackageResolution
