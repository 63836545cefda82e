import PackageResolution.Proofs.FileTree.Reach
import PackageResolution.Proofs.FileTree.Regular
import PackageResolution.Proofs.Resolver.Run

/-!
# Creating directories in a world

Creating a directory with those above it succeeds exactly if no file is on the way.  Then
there are directories at the place and everywhere above it, and nothing else has changed.
-/

namespace PackageResolution

namespace FileTree

/-- That a regular tree differs from an earlier one only in that a place and everything above
it are directories. -/
structure Opens (place : Location) (earlier later : FileTree) : Prop where
  isRegular : later.IsRegular
  get?_eq : ∀ other, later.get? other =
    if other <+: place then some .directory else earlier.get? other

variable {tree later : FileTree} {place above : Location} {name : String}

theorem Opens.isOpen (opens : Opens place tree later) : later.IsOpen place := by
  intro other start
  rw [opens.get?_eq, if_pos start]

theorem Opens.get?_of_not_prefix (opens : Opens place tree later) {other : Location}
    (outside : ¬ other <+: place) : later.get? other = tree.get? other := by
  rw [opens.get?_eq, if_neg outside]

theorem Opens.of_isOpen (regular : tree.IsRegular) (opened : tree.IsOpen place) :
    Opens place tree tree where
  isRegular := regular
  get?_eq other := by
    split
    · rename_i start
      exact opened other start
    · rfl

theorem opens_insert (regular : tree.IsRegular) (opened : tree.IsOpen above) :
    Opens (above ++ [name]) tree (tree.insert (above ++ [name]) .directory) where
  isRegular := by
    apply regular.insert
    exact fun _ other => nomatch other
  get?_eq other := by
    rw [get?_insert (by simp)]
    by_cases here : other = above ++ [name]
    · rw [if_pos here, if_pos (here ▸ List.prefix_refl _)]
    · rw [if_neg here]
      split
      · rename_i start
        rcases List.prefix_concat_iff.mp start with same | start
        · exact absurd same here
        · exact opened other start
      · rfl

/-- What was not in the way before it is not in the way afterwards. -/
theorem Opens.isFree_iff (opens : Opens above tree later) (free : tree.IsFree above) :
    later.IsFree place ↔ tree.IsFree place := by
  refine forall_congr' fun other => forall_congr' fun contents => imp_congr_right fun _ => ?_
  rw [opens.get?_eq]
  by_cases start : other <+: above
  · rw [if_pos start]
    exact iff_of_true nofun (free other contents start)
  · rw [if_neg start]

/-- A place that is opened after the place above it. -/
theorem Opens.concat {last : FileTree} (first : Opens above tree later)
    (second : Opens (above ++ [name]) later last) : Opens (above ++ [name]) tree last where
  isRegular := second.isRegular
  get?_eq other := by
    rw [second.get?_eq, first.get?_eq]
    by_cases start : other <+: above ++ [name]
    · rw [if_pos start, if_pos start]
    · rw [if_neg start, if_neg start, if_neg fun begun => start (begun.trans (List.prefix_append _ _))]

end FileTree

namespace Action

open FileTree (Opens)

variable {world : World} {path : Path} {place above : Location} {name : String}

/-! ## One directory -/

theorem run_leadsToDirectory (path : Path) (world : World) :
    (leadsToDirectory path).run world =
      (decide (world.tree.isDirectory world.current path = .ok true), world) := by
  have asked : (request (.isDirectory path)).run world =
      (world.tree.isDirectory world.current path, world) := rfl
  rw [leadsToDirectory, run_bind, asked]
  cases world.tree.isDirectory world.current path with
  | error refusal => rfl
  | ok answer => cases answer <;> rfl

theorem run_createOne (path : Path) (world : World) :
    (createOne path).run world =
      match world.tree.createDirectory world.current path with
      | .ok tree => (.ok (), { world with tree })
      | .error refusal =>
          (if world.tree.isDirectory world.current path = .ok true then .ok ()
            else .error refusal, world) := by
  have created : (request (.createDirectory path)).run world =
      world.change (·.createDirectory · path) := rfl
  rw [createOne, run_bind, created, World.change]
  cases world.tree.createDirectory world.current path with
  | ok tree => rfl
  | error refusal =>
      simp only [run_bind, run_leadsToDirectory]
      by_cases isDirectory : world.tree.isDirectory world.current path = .ok true
      · simp [isDirectory]
      · simp [isDirectory]

theorem run_createOne_of_isOpen (reaches : path.Reaches place)
    (opened : world.tree.IsOpen place) : (createOne path).run world = (.ok (), world) := by
  rw [run_createOne]
  simp only [FileTree.createDirectory, FileTree.isDirectory, FileTree.findNode,
    FileTree.find_of_isOpen reaches opened, Except.map, FileNode.isDirectory, if_true]

theorem run_createOne_of_vacant (reaches : path.Reaches (above ++ [name]))
    (opened : world.tree.IsOpen above) (vacant : world.tree.get? (above ++ [name]) = none) :
    (createOne path).run world =
      (.ok (), { world with tree := world.tree.insert (above ++ [name]) .directory }) := by
  rw [run_createOne]
  simp only [FileTree.createDirectory, FileTree.find_of_vacant reaches opened vacant]

theorem run_createOne_of_find_eq_error {refusal : OsError}
    (stopped : ∀ follow, world.tree.find follow world.current path = .error refusal) :
    (createOne path).run world = (.error refusal, world) := by
  rw [run_createOne]
  simp [FileTree.createDirectory, FileTree.isDirectory, FileTree.findNode, stopped, Except.map]

theorem run_createOne_of_file (reaches : path.Reaches (above ++ [name]))
    (opened : world.tree.IsOpen above) {contents : ByteArray}
    (found : world.tree.get? (above ++ [name]) = some (.file contents)) :
    ∃ refusal, refusal ≠ .notFound ∧ (createOne path).run world = (.error refusal, world) := by
  have leads (follow : Bool) : world.tree.find follow world.current path = _ :=
    FileTree.find_of_file reaches opened found
  cases closed : Text.endsWith '/' path.text with
  | true =>
      refine ⟨.notADirectory, nofun, run_createOne_of_find_eq_error fun follow => ?_⟩
      rw [leads, closed]
      rfl
  | false =>
      refine ⟨.exists, nofun, ?_⟩
      rw [run_createOne]
      simp [FileTree.createDirectory, FileTree.isDirectory, FileTree.findNode, leads, closed,
        Except.map, FileNode.isDirectory]

/-! ## A directory and those above it -/

theorem run_createChain_cons (filled : path.text ≠ "") (above : List Path) (world : World) :
    (createChain (path :: above)).run world =
      match (createOne path).run world with
      | (.error .notFound, after) =>
          match (createChain above).run after with
          | (.error refusal, last) => (.error refusal, last)
          | (.ok _, last) => (createOne path).run last
      | (answer, after) => (answer, after) := by
  rw [createChain, if_neg filled, run_bind]
  rcases (createOne path).run world with ⟨answer, after⟩
  cases answer with
  | ok done => rfl
  | error refusal =>
      cases refusal with
      | notFound =>
          simp only [run_bind]
          rcases (createChain above).run after with ⟨outcome, last⟩
          cases outcome <;> rfl
      | _ => rfl

/-- How the creation of a directory and of those above it ends: with directories everywhere on
the way if there is no file on it, and with a refusal otherwise. -/
inductive Creates (place : Location) (world : World) : Except OsError Unit × World → Prop
  | done {tree : FileTree} (free : world.tree.IsFree place)
      (opens : Opens place world.tree tree) : Creates place world (.ok (), { world with tree })
  | refused {refusal : OsError} {after : World} (blocked : ¬ world.tree.IsFree place) :
      Creates place world (.error refusal, after)

theorem Creates.of_isOpen (regular : world.tree.IsRegular) (opened : world.tree.IsOpen place) :
    Creates place world (.ok (), world) :=
  .done opened.isFree (.of_isOpen regular opened)

theorem Creates.of_vacant (regular : world.tree.IsRegular) (opened : world.tree.IsOpen above)
    (vacant : world.tree.get? (above ++ [name]) = none) :
    Creates (above ++ [name]) world
      (.ok (), { world with tree := world.tree.insert (above ++ [name]) .directory }) := by
  refine .done (opened.isFree.concat ?_) (FileTree.opens_insert regular opened)
  intro contents found
  rw [vacant] at found
  exact nomatch found

/-- What the last step of a path is in a directory that is there. -/
theorem creates_createOne (regular : world.tree.IsRegular)
    (reaches : path.Reaches (above ++ [name])) (opened : world.tree.IsOpen above) :
    Creates (above ++ [name]) world ((createOne path).run world) ∧
      ((createOne path).run world).1 ≠ .error .notFound := by
  cases found : world.tree.get? (above ++ [name]) with
  | none =>
      rw [run_createOne_of_vacant reaches opened found]
      exact ⟨.of_vacant regular opened found, nofun⟩
  | some node =>
      cases node with
      | directory =>
          have there := opened.concat found
          rw [run_createOne_of_isOpen reaches there]
          exact ⟨.of_isOpen regular there, nofun⟩
      | file contents =>
          obtain ⟨refusal, other, ran⟩ := run_createOne_of_file reaches opened found
          rw [ran]
          constructor
          · exact .refused fun free => free _ contents (List.prefix_refl _) found
          · exact fun same => other (Except.error.inj same)
      | link target => exact absurd found (regular.isLinkFree.get?_ne target)

theorem creates_createChain (regular : world.tree.IsRegular) (reaches : path.Reaches place)
    {count : Nat} (enough : place.length ≤ count) :
    Creates place world
      ((createChain (path :: Path.ancestors.go count path)).run world) := by
  induction place using List.reverseRecOn generalizing path count with
  | nil =>
      have opened := FileTree.isOpen_nil world.tree
      rw [run_createChain_cons reaches.text_ne_empty, run_createOne_of_isOpen reaches opened]
      exact .of_isOpen regular opened
  | append_singleton above name inductionHypothesis =>
      obtain ⟨nearest, found, nearer⟩ := reaches.exists_parent?
      rw [List.length_append, List.length_singleton] at enough
      obtain ⟨count, rfl⟩ : ∃ less, count = less + 1 := ⟨count - 1, by omega⟩
      rw [run_createChain_cons reaches.text_ne_empty]
      by_cases opened : world.tree.IsOpen above
      · obtain ⟨creates, known⟩ := creates_createOne regular reaches opened
        split
        · rename_i ran
          exact absurd (congrArg Prod.fst ran) known
        · rename_i answer after _ ran
          exact ran ▸ creates
      rcases FileTree.find_of_not_isOpen world.current regular.isLinkFree reaches opened with
        missing | ⟨blocked, stopped⟩
      · -- the directory above is created first, and then this one
        rw [run_createOne_of_find_eq_error missing]
        simp only [Path.ancestors.go, found]
        have creates := inductionHypothesis nearer (Nat.le_of_succ_le_succ enough)
        generalize (createChain (nearest :: Path.ancestors.go count nearest)).run world = first
          at creates
        cases creates with
        | refused blocked =>
            exact .refused fun free => blocked (free.of_prefix (List.prefix_append _ _))
        | @done tree free opens =>
            simp only
            have creates : Creates (above ++ [name]) { world with tree }
                ((createOne path).run { world with tree }) :=
              (creates_createOne opens.isRegular reaches opens.isOpen).1
            generalize (createOne path).run { world with tree } = second at creates ⊢
            cases creates with
            | refused blocked => exact .refused (mt (opens.isFree_iff free).mpr blocked)
            | done also further =>
                exact .done ((opens.isFree_iff free).mp also) (opens.concat further)
      · rw [run_createOne_of_find_eq_error stopped]
        exact .refused fun free => blocked (free.of_prefix (List.prefix_append _ _))

theorem creates_createDirectories (regular : world.tree.IsRegular) (reaches : path.Reaches place) :
    Creates place world ((createDirectories path).run world) :=
  creates_createChain regular reaches reaches.length_le

/-! ## Temporary directories -/

/-- The first name that is tried is taken if nothing is there. -/
theorem run_createTemporaryDirectory {directory : Path} {stem : String}
    (absolute : directory.isAbsolute = true)
    (reaches : (directory.join ⟨stem ++ world.letters world.lettersUsed⟩).Reaches
      (above ++ [name]))
    (opened : world.tree.IsOpen above) (vacant : world.tree.get? (above ++ [name]) = none) :
    (createTemporaryDirectory directory stem).run world =
      (.ok (directory.join ⟨stem ++ world.letters world.lettersUsed⟩),
        { world with
          tree := world.tree.insert (above ++ [name]) .directory
          lettersUsed := world.lettersUsed + 1 }) := by
  have attempts : nameAttempts = 65535 + 1 := by decide
  have lettered : (request .randomLetters).run world =
      (world.letters world.lettersUsed, { world with lettersUsed := world.lettersUsed + 1 }) := rfl
  have created (world : World) (path : Path) : (request (.createDirectory path)).run world =
      world.change (·.createDirectory · path) := rfl
  rw [createTemporaryDirectory, createTemporary, if_pos absolute, attempts, createUnderFreshName,
    run_bind, lettered]
  simp only [run_bind, created, World.change, FileTree.createDirectory,
    FileTree.find_of_vacant reaches opened vacant, pure_eq_done, run_done]

end Action

namespace Attempt

variable {world : World} {path : Path} {place : Location}

theorem runIn_files {α : Type} (task : IoTask) (action : Action (Except OsError α))
    (world : World) : (files task action).runIn world =
      ((action.run world).1.mapError fun refusal => .io task (.refused refusal),
        (action.run world).2) := by
  rw [files, runIn, ExceptT.run_mk]
  exact Action.run_bind _ _ _

/-- A directory is created with those above it exactly if no file is on the way. -/
theorem runIn_createDirectories (task : IoTask) (regular : world.tree.IsRegular)
    (reaches : path.Reaches place) :
    (world.tree.IsFree place ∧ ∃ tree, FileTree.Opens place world.tree tree ∧
        (createDirectories task path).runIn world = (.ok (), { world with tree })) ∨
      ¬ world.tree.IsFree place ∧
        ∃ failure after, (createDirectories task path).runIn world = (.error failure, after) := by
  have creates := Action.creates_createDirectories regular reaches
  rw [createDirectories, runIn_files]
  generalize (Action.createDirectories path).run world = result at creates
  cases creates with
  | done free opens => exact .inl ⟨free, _, opens, rfl⟩
  | refused blocked => exact .inr ⟨blocked, _, _, rfl⟩

end Attempt

end PackageResolution
