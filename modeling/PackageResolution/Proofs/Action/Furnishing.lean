import PackageResolution.Proofs.Action.Growth
import PackageResolution.Proofs.FileTree.Descent

/-!
# What creating directories adds

Creating a directory with those above it adds directories on the way to it and nothing else, even if
it is refused.  If it succeeds, there is a directory at the place that the path says.
-/

namespace PackageResolution

namespace FileTree

variable {tree after : FileTree} {current top place : Location} {base path : Path}
  {rest : List String} {new wider : Location → Prop}

/-! ## New directories -/

/-- That a place holds what it held in an earlier tree, or a directory where nothing was, if it is
of a kind at which directories may come. -/
def FurnishesAt (new : Location → Prop) (earlier later : FileTree) (place : Location) : Prop :=
  later.get? place = earlier.get? place ∨
    earlier.get? place = none ∧ later.get? place = some .directory ∧ new place

/-- That a tree differs from an earlier one at most in new directories at places of one kind. -/
def Furnishes (new : Location → Prop) (earlier later : FileTree) : Prop :=
  ∀ place, FurnishesAt new earlier later place

theorem FurnishesAt.mono {earlier later : FileTree}
    (furnishes : FurnishesAt new earlier later place) (widens : new place → wider place) :
    FurnishesAt wider earlier later place := by
  rcases furnishes with same | ⟨missing, found, kind⟩
  · exact .inl same
  · exact .inr ⟨missing, found, widens kind⟩

theorem FurnishesAt.trans {first second third : FileTree}
    (earlier : FurnishesAt new first second place) (later : FurnishesAt new second third place) :
    FurnishesAt new first third place := by
  rcases later with same | ⟨missing, found, kind⟩
  · rwa [FurnishesAt, same]
  · rcases earlier with same | ⟨-, found, -⟩
    · exact .inr ⟨same ▸ missing, found, kind⟩
    · exact nomatch found.symm.trans missing

/-- Where no directory may come, everything is as before. -/
theorem FurnishesAt.get?_eq {earlier later : FileTree}
    (furnishes : FurnishesAt new earlier later place) (other : ¬ new place) :
    later.get? place = earlier.get? place := by
  rcases furnishes with same | ⟨-, -, kind⟩
  · exact same
  · exact absurd kind other

theorem Furnishes.refl (tree : FileTree) : Furnishes new tree tree :=
  fun _ => .inl rfl

/-- That a place is on the way along the given names from a directory, below it. -/
def IsAlong (top : Location) (rest : List String) (place : Location) : Prop :=
  ∃ more, more ≠ [] ∧ more <+: rest ∧ place = top ++ more

theorem furnishes_createDirectory (closed : tree.IsClosed) (opened : tree.IsOpen current)
    (enters : tree.Enters current base top) (onWay : path.IsOnWay base rest)
    (onward : ".." ∉ rest) (done : tree.createDirectory current path = .ok after) :
    Furnishes (IsAlong top rest) tree after := by
  obtain ⟨place, found, rfl, -⟩ := exists_of_createDirectory closed opened done
  obtain ⟨more, filled, among, rfl⟩ := enters.exists_of_vacant onWay onward found
  have missing : tree.get? (top ++ more) = none := (found_of_find opened found).1
  intro other
  rw [FurnishesAt, get?_insert (List.append_ne_nil_of_right_ne_nil top filled)]
  by_cases here : other = top ++ more
  · rw [here, if_pos rfl]
    exact .inr ⟨missing, rfl, more, filled, among, rfl⟩
  · rw [if_neg here]
    exact .inl rfl

end FileTree

namespace World

/-- That a world has the files of an earlier one and at most new directories at places of one
kind. -/
structure Furnishes (new : Location → Prop) (earlier later : World) : Prop
    extends Builds earlier later where
  furnishes : FileTree.Furnishes new earlier.tree later.tree

variable {world : World} {new : Location → Prop}

theorem Furnishes.refl (sound : world.IsSound) : Furnishes new world world :=
  ⟨.refl sound, .refl _⟩

theorem Furnishes.trans {first second third : World} (earlier : Furnishes new first second)
    (later : Furnishes new second third) : Furnishes new first third :=
  ⟨earlier.toBuilds.trans later.toBuilds,
    fun place => (earlier.furnishes place).trans (later.furnishes place)⟩

theorem Furnishes.mono {wider : Location → Prop} {earlier later : World}
    (furnishes : Furnishes new earlier later) (widens : ∀ place, new place → wider place) :
    Furnishes wider earlier later :=
  ⟨furnishes.toBuilds, fun place => (furnishes.furnishes place).mono (widens place)⟩

/-- That a path leads to a directory below which there are no links. -/
def Enters (world : World) (base : Path) (top : Location) : Prop :=
  world.tree.Enters world.current base top

theorem Enters.of_builds {base : Path} {top : Location} {later : World}
    (enters : world.Enters base top) (builds : world.Builds later) : later.Enters base top := by
  rw [Enters, builds.current_eq]
  exact FileTree.Enters.of_grows enters builds.grows

end World

/-! ## Directories with those above them -/

namespace Action

open FileTree (IsAlong)

variable {world : World} {base path : Path} {top : Location} {rest : List String}

theorem furnishes_createOne (sound : world.IsSound) (enters : world.Enters base top)
    (onWay : path.IsOnWay base rest) (onward : ".." ∉ rest) :
    world.Furnishes (IsAlong top rest) ((createOne path).run world).2 := by
  rw [run_createOne]
  cases done : world.tree.createDirectory world.current path with
  | ok tree =>
      obtain ⟨-, -, -, grows⟩ :=
        FileTree.exists_of_createDirectory sound.isClosed sound.isOpen done
      exact ⟨⟨grows, rfl, rfl⟩, FileTree.furnishes_createDirectory sound.isClosed sound.isOpen
        enters onWay onward done⟩
  | error refusal => exact .refl sound

/-- A directory that was created is at the place that the path says. -/
theorem get?_of_createOne (sound : world.IsSound) (enters : world.Enters base top)
    (continues : path.Continues base rest) (filled : rest ≠ []) (onward : ".." ∉ rest)
    (done : ((createOne path).run world).1 = .ok ()) :
    ((createOne path).run world).2.tree.get? (top ++ rest) = some .directory := by
  rw [run_createOne] at done ⊢
  cases created : world.tree.createDirectory world.current path with
  | ok tree =>
      obtain ⟨place, found, rfl, -⟩ :=
        FileTree.exists_of_createDirectory sound.isClosed sound.isOpen created
      obtain rfl : place = top ++ rest := enters.location_eq continues filled onward found
      simp only
      rw [FileTree.get?_insert (List.append_ne_nil_of_right_ne_nil top filled), if_pos rfl]
  | error refusal =>
      rw [created] at done
      simp only at done ⊢
      split at done
      · rename_i isDirectory
        obtain ⟨⟨place, node⟩, searched, directory⟩ := Result.map_eq_ok_iff.mp isDirectory
        obtain rfl : place = top ++ rest :=
          enters.location_eq continues filled onward (FileTree.find_of_findNode searched)
        rw [FileTree.get?_of_findNode sound.isOpen searched]
        cases node with
        | directory => rfl
        | file contents => exact nomatch directory
        | link target => exact nomatch directory
      · exact nomatch done

theorem furnishes_createChain (sound : world.IsSound) (enters : world.Enters base top)
    (onward : ".." ∉ rest) {paths : List Path} (onWay : ∀ path ∈ paths, path.IsOnWay base rest) :
    world.Furnishes (IsAlong top rest) ((createChain paths).run world).2 := by
  induction paths generalizing world with
  | nil => exact .refl sound
  | cons path above inductionHypothesis =>
      rw [List.forall_mem_cons] at onWay
      by_cases filled : path.text = ""
      · rw [createChain, if_pos filled]
        exact .refl sound
      have first := furnishes_createOne sound enters onWay.1 onward
      rw [run_createChain_cons filled]
      split
      · rename_i after ran
        rw [ran] at first
        have nearer := first.toBuilds.isSound sound
        have others := inductionHypothesis nearer (enters.of_builds first.toBuilds) onWay.2
        split
        · rename_i last chained
          rw [chained] at others
          exact first.trans others
        · rename_i last chained
          rw [chained] at others
          have again := furnishes_createOne (others.toBuilds.isSound nearer)
            ((enters.of_builds first.toBuilds).of_builds others.toBuilds) onWay.1 onward
          exact (first.trans others).trans again
      · rename_i answer after ran
        rw [ran] at first
        exact first

theorem get?_of_createChain (sound : world.IsSound) (enters : world.Enters base top)
    (continues : path.Continues base rest) (filled : rest ≠ []) (onward : ".." ∉ rest)
    {above : List Path} (onWay : ∀ path ∈ above, path.IsOnWay base rest)
    (done : ((createChain (path :: above)).run world).1 = .ok ()) :
    ((createChain (path :: above)).run world).2.tree.get? (top ++ rest) = some .directory := by
  have text : path.text ≠ "" := by
    apply Path.text_ne_empty_of_way
    rw [continues.way_eq]
    exact List.append_ne_nil_of_right_ne_nil _ filled
  have first := furnishes_createOne sound enters continues.isOnWay onward
  rw [run_createChain_cons text] at done ⊢
  split at done
  · rename_i after ran
    rw [ran] at first
    have nearer := first.toBuilds.isSound sound
    have beside := enters.of_builds first.toBuilds
    have others := furnishes_createChain nearer beside onward onWay
    split at done
    · exact nomatch done
    · rename_i last chained
      rw [chained] at others
      exact get?_of_createOne (others.toBuilds.isSound nearer) (beside.of_builds others.toBuilds)
        continues filled onward done
  · rename_i answer after ran
    have there := get?_of_createOne sound enters continues filled onward
    rw [ran] at there
    exact there done

end Action

namespace Attempt

open FileTree (IsAlong)

variable {world : World} {base path : Path} {top : Location} {rest : List String}

/-- Directories are created on the way only, and if that succeeds, down to the place of the path. -/
theorem ensures_createDirectories_along (task : IoTask) (sound : world.IsSound)
    (enters : world.Enters base top) (continues : path.Continues base rest) (onward : ".." ∉ rest) :
    Ensures (· = world) (createDirectories task path)
      (fun _ after => world.Furnishes (IsAlong top rest) after ∧
        after.tree.get? (top ++ rest) = some .directory)
      (world.Furnishes (IsAlong top rest)) := by
  rintro _ rfl
  have onWay : ∀ above ∈ path.ancestors, above.IsOnWay base rest :=
    fun above among => continues.isOnWay.of_mem_ancestors among
  have furnishes := Action.furnishes_createChain sound enters onward
    (List.forall_mem_cons.mpr ⟨continues.isOnWay, onWay⟩)
  have there (filled : rest ≠ []) :=
    Action.get?_of_createChain sound enters continues filled onward onWay
  rw [createDirectories, runIn_files, Action.createDirectories]
  generalize (Action.createChain (path :: path.ancestors)).run _ = ran at furnishes there ⊢
  obtain ⟨answer, after⟩ := ran
  cases answer with
  | error refusal => exact .error furnishes
  | ok done =>
      refine .ok ⟨furnishes, ?_⟩
      by_cases filled : rest = []
      · have kept := furnishes.grows.kept (enters.get?_eq sound.isOpen)
        rwa [filled, List.append_nil]
      · exact there filled rfl

end Attempt

end PackageResolution
