import PackageResolution.Proofs.Action.Furnishing
import PackageResolution.Proofs.Archive.Unpacked
import PackageResolution.Proofs.Storage.Lasting
import PackageResolution.Proofs.Storage.Rejection

/-!
# What comes of a staging directory

Extracting an archive changes nothing outside the staging directory.  While it succeeds, the
staging directory holds what the entries so far unpack to, whatever they are and however they
overlap; where it stops, the directory holds something.
-/

namespace PackageResolution

open Attempt (Ends Ensures)
open FileTree (FurnishesAt IsAlong)
open World (Adds)

namespace Attempt

variable {α γ σ : Type} {after wider : α → World → Prop} {failed other : World → Prop}

theorem Ends.imp {run : Result α × World} (ends : Ends after failed run)
    (holds : ∀ value world, after value world → wider value world)
    (fails : ∀ world, failed world → other world) : Ends wider other run := by
  cases ends with
  | ok held => exact .ok (holds _ _ held)
  | error held => exact .error (fails _ held)

/-- Attempts one after the other, each of which takes a state to the next one, take the first state
to the last one. -/
theorem Ensures.forM_foldlM {holds : σ → World → Prop} {step : σ → γ → Option σ} {values : List γ}
    {each : γ → Attempt PUnit}
    (takes : ∀ state value, Ensures (holds state) (each value)
      (fun _ world => ∃ next, step state value = some next ∧ holds next world) failed) (state : σ) :
    Ensures (holds state) (values.forM each)
      (fun _ world => ∃ last, values.foldlM step state = some last ∧ holds last world) failed := by
  induction values generalizing state with
  | nil => exact .pure fun world held => ⟨state, rfl, held⟩
  | cons value values inductionHypothesis =>
      refine .bind _ (takes state value) fun _ => ?_
      rintro world ⟨next, taken, held⟩
      refine (inductionHypothesis next world held).imp ?_ fun _ => id
      rintro - after ⟨last, others, ends⟩
      refine ⟨last, ?_, ends⟩
      rw [List.foldlM_cons, taken]
      exact others

end Attempt

namespace World

/-! ## Staging directories -/

/-- That a staging directory which was not there in an earlier world has the given contents, and
that all other places are as before, up to new directories at places of one kind. -/
structure Stages (new : Location → Prop) (start : World) (staging : Path) (above : Location)
    (name : String) (contents : Contents) (world : World) : Prop
    extends Adds start staging above name .directory world where
  elsewhere : ∀ place, ¬ above ++ [name] <+: place → FurnishesAt new start.tree world.tree place
  inside : ∀ rest, world.tree.get? (above ++ [name] ++ rest) = contents rest

/-- That a staging directory has the contents that something unpacks to. -/
def StagesAll (new : Location → Prop) (start : World) (staging : Path) (above : Location)
    (name : String) (unpacked : Option Contents) (world : World) : Prop :=
  ∃ contents, unpacked = some contents ∧ Stages new start staging above name contents world

/-- That a staging directory has some contents. -/
def StagesSome (new : Location → Prop) (start : World) (staging : Path) (above : Location)
    (name : String) (world : World) : Prop :=
  ∃ contents, Stages new start staging above name contents world

variable {new : Location → Prop} {start world after : World} {staging path : Path}
  {above : Location} {name : String} {contents : Contents} {names : List String}
  {bytes : ByteArray}

theorem Adds.enters (adds : Adds start staging above name .directory world) :
    world.Enters staging (above ++ [name]) where
  exists_arrives := by
    obtain ⟨front, left, split, arrives⟩ := adds.holds.approaches.exists_arrives
    rw [split]
    exact ⟨left, arrives.append
      (.enter adds.holds.approaches.isEntry adds.holds.found (.here left _))⟩
  isPlainBelow rest target _ := adds.get?_ne_link rest target

namespace Stages

variable (stages : Stages new start staging above name contents world)

include stages

/-- New directories in the staging directory are part of its contents. -/
theorem of_furnishes (furnishes : world.Furnishes (IsAlong (above ++ [name]) names) after) :
    Stages new start staging above name
      (fun rest => after.tree.get? (above ++ [name] ++ rest)) after where
  toAdds := stages.toAdds.of_builds furnishes.toBuilds
  elsewhere place outside := by
    have same : after.tree.get? place = world.tree.get? place := by
      apply (furnishes.furnishes place).get?_eq
      rintro ⟨more, -, -, rfl⟩
      exact outside (List.prefix_append _ _)
    have before := stages.elsewhere place outside
    rwa [FurnishesAt, ← same] at before
  inside _ := rfl

/-- New directories elsewhere leave the staging directory as it is. -/
theorem of_furnishes_aside (furnishes : world.Furnishes new after)
    (aside : ∀ rest, ¬ new (above ++ [name] ++ rest)) :
    Stages new start staging above name contents after where
  toAdds := stages.toAdds.of_builds furnishes.toBuilds
  elsewhere place outside := (stages.elsewhere place outside).trans (furnishes.furnishes place)
  inside rest := by
    rw [← stages.inside rest]
    exact (furnishes.furnishes _).get?_eq (aside rest)

theorem withDirectory (furnishes : world.Furnishes (IsAlong (above ++ [name]) names) after)
    (found : after.tree.get? (above ++ [name] ++ names) = some .directory) :
    Stages new start staging above name (contents.withDirectory names) after where
  toAdds := stages.toAdds.of_builds furnishes.toBuilds
  elsewhere := (stages.of_furnishes furnishes).elsewhere
  inside rest := by
    rw [Contents.withDirectory]
    by_cases among : rest <+: names
    · rw [if_pos among]
      apply furnishes.grows.isClosed.isOpen found
      exact (List.prefix_append_right_inj _).mpr among
    · rw [if_neg among, ← stages.inside rest]
      apply (furnishes.furnishes _).get?_eq
      rintro ⟨more, -, short, same⟩
      exact among (List.append_cancel_left same ▸ short)

theorem stagesAll_addDirectory?
    (furnishes : world.Furnishes (IsAlong (above ++ [name]) names) after)
    (found : after.tree.get? (above ++ [name] ++ names) = some .directory) :
    StagesAll new start staging above name (contents.addDirectory? names) after := by
  refine ⟨_, Contents.addDirectory?_of_forall ?_, stages.withDirectory furnishes found⟩
  -- what is a directory now was one before, or nothing was there
  intro other among
  rw [← stages.inside other]
  rcases furnishes.furnishes (above ++ [name] ++ other) with same | ⟨missing, -, -⟩
  · right
    rw [← same]
    apply furnishes.grows.isClosed.isOpen found
    exact (List.prefix_append_right_inj _).mpr among
  · exact .inl missing

/-- A file that is written below the staging directory is part of its contents. -/
theorem withNode (adds : Adds start staging above name .directory { world with
      tree := world.tree.insert (above ++ [name] ++ names) (.file bytes) }) :
    Stages new start staging above name (contents.withNode names (.file bytes)) { world with
      tree := world.tree.insert (above ++ [name] ++ names) (.file bytes) } where
  toAdds := adds
  elsewhere place outside := by
    rw [FurnishesAt, FileTree.get?_insert (by simp), if_neg]
    · exact stages.elsewhere place outside
    · rintro rfl
      exact outside (List.prefix_append _ _)
  inside rest := by
    simp only [FileTree.get?_insert (by simp : above ++ [name] ++ names ≠ []),
      List.append_cancel_left_eq, Contents.withNode, stages.inside]

end Stages

end World

/-! ## Extracting -/

namespace ArchiveEntry

variable {entry : ArchiveEntry} {path : String}

/-- The path of an entry is its names, none of which leads back. -/
theorem way_of_path? (found : entry.path? = some path) :
    Path.way ⟨path⟩ = FileTree.names path ∧ ".." ∉ FileTree.names path := by
  have plain {name : String} (member : name ∈ FileTree.names path) : UriPath.IsPlain name :=
    (isInner_of_path? found).isPlain name (List.mem_of_mem_filter member)
  constructor
  · apply List.filter_eq_self.mpr
    intro name member
    simpa using (plain member).1
  · exact fun member => (plain member).2 rfl

/-- A path that is not empty has names. -/
theorem names_ne_nil (found : entry.path? = some path) (filled : path ≠ "") :
    FileTree.names path ≠ [] := by
  have unrooted := (isInner_of_path? found).unrooted
  obtain ⟨first, rest, chars⟩ : ∃ first rest, path.toList = first :: rest := by
    apply List.exists_cons_of_ne_nil
    simpa using filled
  have other : first ≠ '/' := by
    rintro rfl
    simp [Text.beginsWith, chars] at unrooted
  obtain ⟨piece, among, member⟩ := Text.exists_mem_fields_iff.mpr
    ⟨chars ▸ List.mem_cons_self, other⟩
  have named : piece ≠ "" := by
    rintro rfl
    exact absurd member List.not_mem_nil
  exact List.ne_nil_of_mem (List.mem_filter.mpr ⟨among, by simpa using named⟩)

end ArchiveEntry

namespace Storage

variable {new : Location → Prop} {start : World} {staging path : Path} {above : Location}
  {name : String} {contents : Contents} {names : List String} {package : PackageUri}

open World (Stages StagesAll StagesSome)

theorem isReadable_of_entryPath {entry : ArchiveEntry} {text : String}
    (read : entryPath package entry = .ok text) : entry.contents.isReadable = true := by
  cases held : entry.contents with
  | unreadable detail =>
      rw [entryPath, held] at read
      exact nomatch read
  | _ => rfl

/-- Creating a directory below a staging directory, with those above it. -/
theorem ensures_createDirectories_staged (task : IoTask) (continues : path.Continues staging names)
    (onward : ".." ∉ names) :
    Ensures (Stages new start staging above name contents)
      (Attempt.createDirectories task path)
      (fun _ => StagesAll new start staging above name (contents.addDirectory? names))
      (StagesSome new start staging above name) := by
  intro world stages
  have ends := Attempt.ensures_createDirectories_along task stages.isSound_after stages.enters
    continues onward world rfl
  refine ends.imp ?_ ?_
  · rintro - after ⟨furnishes, found⟩
    exact stages.stagesAll_addDirectory? furnishes found
  · intro after furnishes
    exact ⟨_, stages.of_furnishes furnishes⟩

theorem ensures_createDirectories_below (task : IoTask) {more : Path}
    (relative : more.isAbsolute = false) (onward : ".." ∉ more.way) :
    Ensures (Stages new start staging above name contents)
      (Attempt.createDirectories task (staging.join more))
      (fun _ => StagesAll new start staging above name (contents.addDirectory? more.way))
      (StagesSome new start staging above name) := by
  intro world stages
  have filled := stages.holds.approaches.isAccepted.filled
  exact ensures_createDirectories_staged task
    ((Path.Continues.refl staging).join filled relative) onward world stages

/-- Creating the directory above a path below a staging directory. -/
theorem ensures_createParent_staged {more : Path} (relative : more.isAbsolute = false)
    (way : more.way = names) (filled : names ≠ []) (onward : ".." ∉ names) :
    Ensures (Stages new start staging above name contents) (createParent (staging.join more))
      (fun _ => StagesAll new start staging above name (contents.addDirectory? names.dropLast))
      (StagesSome new start staging above name) := by
  intro world stages
  have continues : (staging.join more).Continues staging
      (names.dropLast ++ [names.getLast filled]) := by
    rw [List.dropLast_append_getLast, ← way]
    exact (Path.Continues.refl staging).join stages.holds.approaches.isAccepted.filled relative
  have last : names.getLast filled ≠ ".." := fun same => onward (same ▸ List.getLast_mem filled)
  obtain ⟨nearest, found, nearer⟩ := continues.exists_parent? last
  have climbs : ".." ∉ names.dropLast :=
    fun member => onward ((List.dropLast_prefix names).subset member)
  rw [createParent, found]
  exact ensures_createDirectories_staged _ nearer climbs world stages

/-- Writing a file below a staging directory, in a directory that is there. -/
theorem ensures_write_staged (task : IoTask) {more : Path} (relative : more.isAbsolute = false)
    (way : more.way = names) (filled : names ≠ []) (onward : ".." ∉ names) (bytes : ByteArray) :
    Ensures
      (StagesAll new start staging above name (contents.addDirectory? names.dropLast))
      (Attempt.files task (Action.request (.write (staging.join more) bytes)))
      (fun _ => StagesAll new start staging above name (contents.addFile? names bytes))
      (StagesSome new start staging above name) := by
  rintro world ⟨opened, opens, stages⟩
  have climbs : ".." ∉ FileTree.names more.text := by
    intro member
    exact onward (way ▸ List.mem_filter.mpr ⟨member, by decide⟩)
  have adds := stages.toAdds.adds_write_join relative climbs bytes
  have asked : (Action.request (.write (staging.join more) bytes)).run world =
      world.change (·.write · (staging.join more) bytes) := rfl
  rw [Attempt.runIn_files]
  rw [asked, World.change] at adds ⊢
  cases done : world.tree.write world.current (staging.join more) bytes with
  | error refusal => exact .error ⟨opened, stages⟩
  | ok tree =>
      rw [done] at adds
      obtain ⟨destination, found, free, rfl⟩ := FileTree.exists_of_write done
      have continues : (staging.join more).Continues staging names := by
        rw [← way]
        exact (Path.Continues.refl staging).join stages.holds.approaches.isAccepted.filled relative
      have located := stages.enters.location_eq continues filled onward found
      have other : opened names ≠ some .directory := by
        rw [← stages.inside names, ← located,
          (FileTree.found_of_find stages.isSound_after.isOpen found).1]
        rcases free with free | ⟨former, free⟩ <;> simp [free]
      rw [located] at adds
      simp only [located]
      exact .ok ⟨_, Contents.addFile?_of_ne bytes opens other, stages.withNode adds⟩

/-- An entry that is written is part of the contents. -/
theorem ensures_extractEntry_staged (contents : Contents) (entry : ArchiveEntry) :
    Ensures (Stages new start staging above name contents) (extractEntry package staging entry)
      (fun _ => StagesAll new start staging above name (entry.unpack? contents))
      (StagesSome new start staging above name) := by
  unfold extractEntry
  refine .ofResult_bind (fun world stages => ⟨contents, stages⟩) fun text read => ?_
  have found := path?_of_entryPath read
  have readable := isReadable_of_entryPath read
  have relative := (ArchiveEntry.isInner_of_path? found).unrooted
  obtain ⟨way, onward⟩ := ArchiveEntry.way_of_path? found
  split
  · rename_i root
    rw [ArchiveEntry.unpack?_of_root found readable root]
    exact .pure fun world stages => ⟨contents, rfl, stages⟩
  rename_i filled
  have named := ArchiveEntry.names_ne_nil found filled
  split
  · rename_i directory
    rw [ArchiveEntry.unpack?_of_directory found readable filled directory, ← way]
    exact ensures_createDirectories_below _ relative (way ▸ onward)
  rename_i plain
  refine .bind _ (ensures_createParent_staged relative way named onward) fun _ => ?_
  have write (bytes : ByteArray) := @ensures_write_staged new start staging above name contents
    (FileTree.names text) (.create (staging.join ⟨text⟩).text) ⟨text⟩ relative way named onward
    bytes
  cases held : entry.contents with
  | intact bytes =>
      rw [ArchiveEntry.unpack?_of_file found readable filled plain held]
      exact write bytes
  | damaged detail =>
      refine .bind _ (write .empty) fun _ => .throw ?_
      rintro world ⟨opened, -, stages⟩
      exact ⟨opened, stages⟩
  | unreadable detail =>
      rw [held] at readable
      exact nomatch readable

/-- Extracting an archive gives what its entries unpack to. -/
theorem ensures_extract_staged [ArchiveReader] (archive : ByteArray) :
    Ensures (Stages new start staging above name .empty) (extract package archive staging)
      (fun _ world => ∃ entries, openArchive package archive = .ok entries ∧
        StagesAll new start staging above name (ArchiveEntry.unpacked? entries) world)
      (StagesSome new start staging above name) := by
  unfold extract
  refine .ofResult_bind (fun world stages => ⟨_, stages⟩) fun entries opened => ?_
  intro world stages
  have ends : Ends _ _ ((entries.forM (extractEntry package staging)).runIn world) :=
    Ensures.forM_foldlM ensures_extractEntry_staged .empty world stages
  exact ends.imp (fun _ after held => ⟨entries, opened, held⟩) fun _ => id

end Storage

end PackageResolution
