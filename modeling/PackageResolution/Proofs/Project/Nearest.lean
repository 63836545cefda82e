import PackageResolution.Project.ManifestFile
import PackageResolution.Proofs.FileTree.Passage
import PackageResolution.Proofs.Resolver.Run

/-!
# The nearest manifest

The search for a manifest goes up along its start as the path is written.  It passes through the
directories to which the beginnings of the way of the path lead, so `..` takes it back into the
directory that the name before it leads to, and a relative path takes it no further than to the
working directory.  It takes the first manifest that it passes, which is the nearest one, wherever
there are manifests, exactly if it passes only through directories at and above its start and comes
to the root.
-/

namespace PackageResolution

namespace Manifest

open FileTree (passed placeFrom)

variable {world : World} {start : Path} {directory : Location}

/-- Whether there is something under the name of a manifest in a directory. -/
def isIn (tree : FileTree) (directory : Location) : Bool :=
  (tree.get? (directory ++ [fileName])).isSome

/-- The manifest in a file, with the path to the file. -/
def loadFrom (file : Path) : Attempt (Option (Manifest × Path)) := do
  return some (← load file, file)

/-- That the search from a path takes the manifest in a directory, or finds none. -/
def Takes (start : Path) (world : World) : Option Location → Prop
  | none => (findAndLoad start).runIn world = (.ok none, world)
  | some directory => ∃ file : Path,
      world.tree.find true world.current file =
        .ok (world.tree.lookAt (directory ++ [fileName])) ∧
      (findAndLoad start).runIn world = (loadFrom file).runIn world

/-- A search takes the first manifest that it finds. -/
theorem runIn_loadFirst {has : Path → Bool} {paths : List Path}
    (looks : ∀ path ∈ paths,
      (Action.exists? (path.join ⟨fileName⟩)).run world = (has path, world)) :
    (loadFirst paths).runIn world =
      match paths.find? has with
      | none => (.ok none, world)
      | some path => (loadFrom (path.join ⟨fileName⟩)).runIn world := by
  induction paths with
  | nil => rfl
  | cons path paths inductionHypothesis =>
      obtain ⟨first, looks⟩ := List.forall_mem_cons.mp looks
      rw [loadFirst, Attempt.runIn_bind, Attempt.runIn_lift, first]
      dsimp only
      cases found : has path with
      | true =>
          rw [List.find?_cons_of_pos found, if_pos rfl]
          rfl
      | false =>
          rw [List.find?_cons_of_neg (by simp [found]), if_neg Bool.false_ne_true,
            inductionHypothesis looks]

theorem isName_fileName : Path.IsName fileName := by decide

theorem plain_fileName : '/' ∉ fileName.toList := by decide

/-- Where the search looks for a manifest. -/
theorem find_of_mem (linkFree : world.tree.IsLinkFree) (opened : world.tree.IsOpen world.current)
    (accepted : (start.join ⟨fileName⟩).IsAccepted)
    (reaches : world.tree.Reaches world.current start directory) {path : Path}
    (member : path ∈ start :: start.ancestors) :
    world.tree.find true world.current (path.join ⟨fileName⟩) =
      .ok (world.tree.lookAt
        (placeFrom (FileTree.origin world.current start) path ++ [fileName])) := by
  have onWay : path.isAbsolute = start.isAbsolute ∧ path.way <+: start.way ∧
      (path.join ⟨fileName⟩).IsAccepted := by
    rcases List.mem_cons.mp member with rfl | among
    · exact ⟨rfl, List.prefix_refl _, accepted⟩
    · obtain ⟨rooted, begun⟩ := Path.way_of_mem_ancestors among
      obtain ⟨suffix, whole⟩ := Path.exists_append_of_mem_ancestors among
      exact ⟨rooted, begun,
        Path.isAccepted_join_of_append isName_fileName plain_fileName whole accepted⟩
  obtain ⟨rooted, begun, followed⟩ := onWay
  apply (reaches.approaches linkFree opened rooted begun isName_fileName plain_fileName (by decide)
    followed).find_eq
  exact fun _ => linkFree.get?_ne

/-- A search from a path that leads to a directory takes the first manifest in the directories to
which the beginnings of its way lead. -/
theorem takes_find?_passed (linkFree : world.tree.IsLinkFree)
    (opened : world.tree.IsOpen world.current) (accepted : (start.join ⟨fileName⟩).IsAccepted)
    (reaches : world.tree.Reaches world.current start directory) :
    Takes start world
      ((passed (FileTree.origin world.current start) start.way).find? (isIn world.tree)) := by
  have looks : ∀ path ∈ start :: start.ancestors,
      (Action.exists? (path.join ⟨fileName⟩)).run world =
        (isIn world.tree (placeFrom (FileTree.origin world.current start) path), world) := by
    intro path member
    rw [Action.run_exists?,
      FileTree.isOk_findNode_of_find (find_of_mem linkFree opened accepted reaches member), isIn]
  have ran : (findAndLoad start).runIn world = _ := runIn_loadFirst looks
  have places : (passed (FileTree.origin world.current start) start.way).find? (isIn world.tree) =
      ((start :: start.ancestors).find? fun path =>
        isIn world.tree (placeFrom (FileTree.origin world.current start) path)).map
          (placeFrom (FileTree.origin world.current start)) := by
    rw [passed, List.find?_map, ← Path.find?_map_way, List.find?_map, Option.map_map]
    rfl
  rw [places]
  cases found : (start :: start.ancestors).find? fun path =>
      isIn world.tree (placeFrom (FileTree.origin world.current start) path) with
  | none => rwa [found] at ran
  | some path =>
      rw [found] at ran
      have member := List.mem_of_find?_eq_some found
      exact ⟨path.join ⟨fileName⟩, find_of_mem linkFree opened accepted reaches member, ran⟩

/-- The search for a manifest takes the first one in the directories to which the beginnings of the
way of its start lead.  That is the nearest one at or above the directory of the start, wherever
there are manifests, exactly if these directories are all at or above it and the root is among
them.  So the nearest one is taken from an absolute start without `..`. -/
theorem findAndLoad_takes_nearest_iff (linkFree : world.tree.IsLinkFree)
    (opened : world.tree.IsOpen world.current) (accepted : (start.join ⟨fileName⟩).IsAccepted)
    (reaches : world.tree.Reaches world.current start directory) :
    Takes start world
      ((passed (FileTree.origin world.current start) start.way).find? (isIn world.tree)) ∧
    ((∀ has, (passed (FileTree.origin world.current start) start.way).find? has =
        directory.inits.reverse.find? has) ↔
      (∀ place ∈ passed (FileTree.origin world.current start) start.way, place <+: directory) ∧
        [] ∈ passed (FileTree.origin world.current start) start.way) ∧
    (start.isAbsolute = true → ".." ∉ start.way →
      Takes start world (directory.inits.reverse.find? (isIn world.tree))) := by
  have taken := takes_find?_passed linkFree opened accepted reaches
  have whole := reaches.placeFrom_eq linkFree opened
  have nearest := FileTree.find?_passed_iff whole
  refine ⟨taken, nearest, fun absolute onward => ?_⟩
  have single : "." ∉ start.way := fun member => by simpa using List.of_mem_filter member
  have root : FileTree.origin world.current start = [] := if_pos absolute
  rw [root, FileTree.passed_of_onward single onward] at taken
  rw [root, placeFrom, FileTree.foldl_advance_of_onward single onward] at whole
  rwa [whole] at taken

/-- A world with the directory `/birds/nest`, a manifest in one directory, and a working
directory. -/
def nestWorld (place current : Location) : World :=
  { World.empty with
    tree := ⟨[(["birds"], .directory), (["birds", "nest"], .directory),
      (place ++ [fileName], .file
        "\x7b\"schemaVersion\":1,\"resolvedDependencies\":\x7b\x7d\x7d".toUTF8)]⟩
    current }

theorem isLinkFree_nestWorld (place current : Location) :
    (nestWorld place current).tree.IsLinkFree := by
  intro location target member
  simp [nestWorld] at member

/-- From `/birds/nest` the manifest in `/birds` is taken. -/
theorem nest_takes_manifest_above :
    (nestWorld ["birds"] []).tree.IsLinkFree ∧ (nestWorld ["birds"] []).tree.IsOpen [] ∧
      (Path.join ⟨"/birds/nest"⟩ ⟨fileName⟩).IsAccepted ∧
      (nestWorld ["birds"] []).tree.Reaches [] ⟨"/birds/nest"⟩ ["birds", "nest"] ∧
      Takes ⟨"/birds/nest"⟩ (nestWorld ["birds"] []) (some ["birds"]) := by
  have linkFree := isLinkFree_nestWorld ["birds"] []
  have opened := FileTree.isOpen_nil (nestWorld ["birds"] []).tree
  have accepted : (Path.join ⟨"/birds/nest"⟩ ⟨fileName⟩).IsAccepted :=
    ⟨by decide, by decide, by decide⟩
  have reaches : (nestWorld ["birds"] []).tree.Reaches [] ⟨"/birds/nest"⟩ ["birds", "nest"] := rfl
  have nearest : ["birds", "nest"].inits.reverse.find? (isIn (nestWorld ["birds"] []).tree) =
      some ["birds"] := by decide
  have taken := (findAndLoad_takes_nearest_iff linkFree opened accepted reaches).2.2
    (by decide) (by decide)
  exact ⟨linkFree, opened, accepted, reaches, nearest ▸ taken⟩

/-- From `/birds/nest/..` the manifest in `/birds/nest` is taken, though none is at or above
`/birds`.  From the relative path `nest` in `/birds` none is found, though one is in the root. -/
theorem nearest_manifest_missed :
    ((nestWorld ["birds", "nest"] []).tree.Reaches [] ⟨"/birds/nest/.."⟩ ["birds"] ∧
      ["birds"].inits.reverse.find? (isIn (nestWorld ["birds", "nest"] []).tree) = none ∧
      ((findAndLoad ⟨"/birds/nest/.."⟩).runIn (nestWorld ["birds", "nest"] [])).1 =
        .ok (some (ofEntries [], ⟨"/birds/nest/PklProject.deps.json"⟩))) ∧
    ((nestWorld [] ["birds"]).tree.Reaches ["birds"] ⟨"nest"⟩ ["birds", "nest"] ∧
      ["birds", "nest"].inits.reverse.find? (isIn (nestWorld [] ["birds"]).tree) = some [] ∧
      ((findAndLoad ⟨"nest"⟩).runIn (nestWorld [] ["birds"])).1 = .ok none) := by
  refine ⟨⟨rfl, by decide, ?_⟩, ⟨rfl, by decide, ?_⟩⟩
  · decide +kernel
  · decide +kernel

end Manifest

end PackageResolution
