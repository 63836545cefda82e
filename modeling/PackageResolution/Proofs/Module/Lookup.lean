import PackageResolution.Module.Path
import PackageResolution.Proofs.Path.Normalization
import PackageResolution.Proofs.Resolver.Run

/-!
# Looking for modules on the module path

The path of an identifier stands for a name only if its text without escapes has no `..` piece, and
the slashes at its start do not count.  So the name does not lead out of the directory that it is
taken from, whatever was escaped in it.  The module path takes it from its directories in their
order and gives the first place with something at it, or nothing if there is none.
-/

namespace PackageResolution

/-- That there is something where a path leads to. -/
def World.Has (world : World) (path : Path) : Prop :=
  ∃ location node, world.tree.findNode true world.current path = .ok (location, node)

theorem World.isOk_findNode_iff {world : World} {path : Path} :
    (world.tree.findNode true world.current path).isOk = true ↔ world.Has path := by
  unfold World.Has
  cases world.tree.findNode true world.current path with
  | error refusal => exact iff_of_false Bool.false_ne_true (by simp)
  | ok found => exact iff_of_true rfl ⟨found.1, found.2, rfl⟩

instance (world : World) (path : Path) : Decidable (world.Has path) :=
  decidable_of_iff _ World.isOk_findNode_iff

namespace ModulePath

variable {modulePath : ModulePath} {world : World} {uriPath name : String} {file root : Path}

/-! ## Names -/

/-- That the path of an identifier stands for a name: its text without escapes has no `..` piece,
and the name is what is left of it without the slashes at its start. -/
def StandsFor (uriPath name : String) : Prop :=
  ∃ text, Percent.decode uriPath = .ok text ∧ ".." ∉ Text.fields '/' text ∧
    Text.trimStart '/' text = name ∧ name ≠ ""

theorem relativeName?_eq_some_iff : relativeName? uriPath = some name ↔ StandsFor uriPath name := by
  unfold relativeName? StandsFor
  cases Percent.decode uriPath with
  | error cause => simp
  | ok text =>
      have double := Text.mem_fields_trimStart_iff (by decide : ".." ≠ "") text
      simp only [Except.ok.injEq, exists_eq_left', double]
      constructor
      · intro taken
        split at taken
        · cases taken
        · rename_i valid
          obtain rfl := Option.some.inj taken
          rw [not_or] at valid
          exact ⟨valid.2, rfl, valid.1⟩
      · rintro ⟨onward, rfl, filled⟩
        exact if_neg (not_or.mpr ⟨filled, onward⟩)

/-- A name does not lead out of the directory that it is taken from. -/
theorem StandsFor.isConfined (stands : StandsFor uriPath name) :
    Path.IsConfined ⟨name⟩ := by
  obtain ⟨text, -, onward, rfl, -⟩ := stands
  refine ⟨Text.beginsWith_trimStart '/' text, ?_⟩
  apply Path.staysBelow_of_not_mem (Path.root_not_mem_steps _)
  rwa [Path.parent_mem_steps_iff, Text.mem_fields_trimStart_iff (by decide)]

/-! ## Places -/

/-- The search takes the first path with something at it and changes nothing. -/
theorem run_firstPresent (paths : List Path) (world : World) :
    (firstPresent paths).run world = (paths.find? (world.Has ·), world) := by
  induction paths with
  | nil => rfl
  | cons path rest inductionHypothesis =>
      rw [firstPresent, Action.run_bind, Action.run_exists?]
      by_cases has : world.Has path
      · rw [List.find?_cons_of_pos (by simpa using has), World.isOk_findNode_iff.mpr has]
        rfl
      · have missing : (world.tree.findNode true world.current path).isOk = false := by
          rw [Bool.eq_false_iff]
          exact fun isOk => has (World.isOk_findNode_iff.mp isOk)
        rw [List.find?_cons_of_neg (by simpa using has), missing]
        exact inductionHypothesis

theorem run_find? (modulePath : ModulePath) (uriPath : String) (world : World) :
    (modulePath.find? uriPath).run world =
      ((relativeName? uriPath).bind fun name =>
        (modulePath.places name).find? (world.Has ·), world) := by
  unfold find?
  cases relativeName? uriPath with
  | none => rfl
  | some name => exact run_firstPresent (modulePath.places name) world

/-- That a directory of the module path is the first one that has a name, and that a file is the
name in it. -/
structure IsFirstPlace (modulePath : ModulePath) (world : World) (name : String)
    (root file : Path) : Prop where
  joined : file = root.join ⟨name⟩
  has : world.Has file
  first : ∃ before after, modulePath.roots = before ++ root :: after ∧
    ∀ earlier ∈ before, ¬ world.Has (earlier.join ⟨name⟩)

theorem find?_places_eq_some_iff : (modulePath.places name).find? (world.Has ·) = some file ↔
    ∃ root, modulePath.IsFirstPlace world name root file := by
  rw [places, List.find?_map, Option.map_eq_some_iff]
  refine exists_congr fun root => ?_
  rw [List.find?_eq_some_iff_append]
  constructor
  · rintro ⟨⟨has, before, after, split, absent⟩, rfl⟩
    exact ⟨rfl, by simpa using has, before, after, split, by simpa using absent⟩
  · rintro ⟨rfl, has, before, after, split, absent⟩
    exact ⟨⟨by simpa using has, before, after, split, by simpa using absent⟩, rfl⟩

/-- A search on the module path gives a file exactly if it is a name in the first directory that has
it, and the path of the identifier stands for the name.  The name never leads out of the directory,
so the file is below it.  A search gives nothing exactly if no directory has a name that the path of
the identifier stands for.  It changes nothing. -/
theorem find?_takes_first_place (modulePath : ModulePath) (uriPath : String) (world : World) :
    (∀ file, ((modulePath.find? uriPath).run world).1 = some file ↔
      ∃ name root, StandsFor uriPath name ∧ modulePath.IsFirstPlace world name root file ∧
        Path.IsConfined ⟨name⟩ ∧ file.LiesWithin root) ∧
    (((modulePath.find? uriPath).run world).1 = none ↔
      ∀ name, StandsFor uriPath name → ∀ root ∈ modulePath.roots,
        ¬ world.Has (root.join ⟨name⟩)) ∧
    ((modulePath.find? uriPath).run world).2 = world := by
  rw [run_find?]
  refine ⟨fun file => ?_, ?_, rfl⟩
  · simp only [Option.bind_eq_some_iff, relativeName?_eq_some_iff, find?_places_eq_some_iff]
    constructor
    · rintro ⟨name, stands, root, place⟩
      have confined := stands.isConfined
      exact ⟨name, root, stands, place, confined, place.joined ▸ confined.liesWithin root⟩
    · rintro ⟨name, root, stands, place, -, -⟩
      exact ⟨name, stands, root, place⟩
  · simp only [Option.bind_eq_none_iff, relativeName?_eq_some_iff, places, List.find?_eq_none,
      List.forall_mem_map, decide_eq_true_eq]

/-- A world with a nest in two directories and a secret in a third one. -/
def nestsWorld : World :=
  { World.empty with
    tree := ⟨[(["early"], .directory), (["lib"], .directory), (["lib", "birds"], .directory),
      (["lib", "birds", "nest.pkl"], .file "".toUTF8), (["late"], .directory),
      (["late", "birds"], .directory), (["late", "birds", "nest.pkl"], .file "".toUTF8),
      (["secret.pkl"], .file "".toUTF8)]⟩ }

/-- An escaped slash and an escaped dot do not keep a nest from being found in the first directory
that has one, and escaped dots do not lead to a secret outside. -/
theorem nest_found_in_first_place :
    ∃ modulePath : ModulePath, modulePath.roots = [⟨"/early"⟩, ⟨"/lib"⟩, ⟨"/late"⟩] ∧
      ((modulePath.find? "//birds%2F%2e/nest.pkl").run nestsWorld).1 =
        some ⟨"/lib/birds/./nest.pkl"⟩ ∧
      (∃ root ∈ modulePath.roots, Path.LiesWithin ⟨"/lib/birds/./nest.pkl"⟩ root) ∧
      nestsWorld.Has ⟨"/late/birds/./nest.pkl"⟩ ∧
      ((modulePath.find? "/birds/%2E./../secret.pkl").run nestsWorld).1 = none ∧
      nestsWorld.Has ⟨"/lib/birds/../../secret.pkl"⟩ ∧
      ((modulePath.find? "/secret.pkl").run nestsWorld).1 = none ∧
      ∀ root ∈ modulePath.roots, ¬ nestsWorld.Has (root.join ⟨"secret.pkl"⟩) := by
  let modulePath : ModulePath := ⟨[⟨"/early"⟩, ⟨"/lib"⟩, ⟨"/late"⟩]⟩
  have found : ((modulePath.find? "//birds%2F%2e/nest.pkl").run nestsWorld).1 =
      some ⟨"/lib/birds/./nest.pkl"⟩ := by decide +kernel
  have missing : ((modulePath.find? "/secret.pkl").run nestsWorld).1 = none := by decide +kernel
  have stands : StandsFor "/secret.pkl" "secret.pkl" :=
    relativeName?_eq_some_iff.mp (by decide +kernel)
  obtain ⟨taken, -⟩ := find?_takes_first_place modulePath "//birds%2F%2e/nest.pkl" nestsWorld
  obtain ⟨-, nothing, -⟩ := find?_takes_first_place modulePath "/secret.pkl" nestsWorld
  obtain ⟨name, root, -, place, -, within⟩ := (taken _).mp found
  obtain ⟨before, after, split, -⟩ := place.first
  refine ⟨modulePath, rfl, found, ⟨root, by simp [split], within⟩, by decide +kernel,
    by decide +kernel, by decide +kernel, missing, nothing.mp missing "secret.pkl" stands⟩

end ModulePath

end PackageResolution
