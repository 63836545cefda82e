import PackageResolution.Proofs.Path.Ancestors

/-!
# The directories that a path passes through

Where no links are, a path leads to the place that its way says, and each beginning of its way to a
directory that it passes through.  Looking for something in these directories, the last one first,
is looking for it at and above the last one, exactly if they are all at or above that one and the
root is among them.
-/

namespace PackageResolution

namespace FileTree

variable {tree : FileTree} {current origin directory place : Location} {way : List String}
  {start path : Path} {name : String}

/-! ## Ways without links -/

/-- That a path leads to a directory.  The empty path leads to the working directory. -/
def Reaches (tree : FileTree) (current : Location) (path : Path) (directory : Location) : Prop :=
  tree.walk true linkLimit true (FileTree.origin current path) (names path.text) =
    .ok (.occupied directory .directory)

theorem foldl_advance_filter (names : List String) (place : Location) :
    (names.filter (· ≠ ".")).foldl advance place = names.foldl advance place := by
  induction names generalizing place with
  | nil => rfl
  | cons name rest inductionHypothesis =>
      by_cases single : name = "."
      · subst single
        exact inductionHypothesis place
      · rw [List.filter_cons_of_pos (by simpa using single), List.foldl_cons, List.foldl_cons,
          inductionHypothesis]

/-- The place to which a path leads where no links are, taken from another place. -/
def placeFrom (origin : Location) (path : Path) : Location :=
  path.way.foldl advance origin

/-- Without links a path leads to the place that its way says. -/
theorem Reaches.placeFrom_eq (reaches : tree.Reaches current path directory)
    (linkFree : tree.IsLinkFree) (opened : tree.IsOpen current) :
    placeFrom (FileTree.origin current path) path = directory := by
  rw [placeFrom, Path.way, foldl_advance_filter]
  exact (walk_ok linkFree (opened.origin path) reaches).1.symm

/-- A name that is joined to a path along the first names of one that leads to a directory is
looked for in the directory that these names say. -/
theorem Reaches.approaches (reaches : tree.Reaches current start directory)
    (linkFree : tree.IsLinkFree) (opened : tree.IsOpen current)
    (rooted : path.isAbsolute = start.isAbsolute) (begun : path.way <+: start.way)
    (isName : Path.IsName name) (plain : '/' ∉ name.toList) (fits : name.utf8ByteSize ≤ nameLimit)
    (accepted : (path.join ⟨name⟩).IsAccepted) :
    Approaches tree current (path.join ⟨name⟩) (placeFrom (FileTree.origin current start) path)
      name where
  isAccepted := accepted
  isEntry := ⟨isName.2.1, isName.2.2, fits⟩
  ajar := Path.endsWith_join_name isName plain
  exists_arrives := by
    obtain ⟨left, goal, arrives⟩ := exists_arrives_of_walk reaches begun
    have joined : FileTree.origin current (path.join ⟨name⟩) = FileTree.origin current start :=
      origin_eq_of_isAbsolute_eq ((Path.isAbsolute_join_name plain).trans rooted)
    have there : placeFrom (FileTree.origin current start) path = goal := by
      have reached : tree.Reaches current path goal := by
        rw [Reaches, origin_eq_of_isAbsolute_eq rooted]
        exact arrives.walk
      rw [← reached.placeFrom_eq linkFree opened, origin_eq_of_isAbsolute_eq rooted]
    refine ⟨names path.text, left, Path.names_join_name isName plain, ?_⟩
    rw [joined, there]
    exact arrives

/-! ## The directories on a way -/

/-- The directories to which the beginnings of a way lead, that of the whole way first. -/
def passed (origin : Location) (way : List String) : List Location :=
  way.inits.reverse.map (·.foldl advance origin)

@[simp]
theorem passed_nil (origin : Location) : passed origin [] = [origin] := rfl

theorem passed_concat (origin : Location) (front : List String) (name : String) :
    passed origin (front ++ [name]) =
      advance (front.foldl advance origin) name :: passed origin front := by
  rw [passed, Path.inits_reverse_concat, List.map_cons, List.foldl_append, passed]
  rfl

theorem foldl_advance_of_onward {names : List String} (single : "." ∉ names)
    (double : ".." ∉ names) : names.foldl advance [] = names := by
  induction names using List.reverseRecOn with
  | nil => rfl
  | append_singleton front name inductionHypothesis =>
      rw [List.mem_append, not_or, List.mem_singleton] at single double
      rw [List.foldl_append, inductionHypothesis single.1 double.1, List.foldl_cons, List.foldl_nil,
        advance, if_neg (Ne.symm single.2), if_neg (Ne.symm double.2)]

/-- A way from the root that does not turn back passes through its beginnings. -/
theorem passed_of_onward (single : "." ∉ way) (double : ".." ∉ way) :
    passed [] way = way.inits.reverse := by
  have straight (names : List String) (member : names ∈ way.inits.reverse) :
      names.foldl advance [] = names := by
    have begun : names <+: way := by simpa using member
    exact foldl_advance_of_onward (fun among => single (begun.subset among))
      fun among => double (begun.subset among)
  calc
    passed [] way = way.inits.reverse.map id := List.map_congr_left straight
    _ = way.inits.reverse := List.map_id _

theorem mem_passed_self (origin : Location) (way : List String) :
    way.foldl advance origin ∈ passed origin way := by
  obtain ⟨shorter, first⟩ := Path.exists_inits_reverse_eq_cons way
  rw [passed, first]
  exact List.mem_cons_self

theorem length_advance (place : Location) (name : String) :
    (advance place name).length ≤ place.length + 1 := by
  unfold advance
  split
  · exact Nat.le_succ _
  split
  · rw [List.length_dropLast]
    omega
  · rw [List.length_append, List.length_singleton]

/-- The nearest place of some kind is at or above one below which there is none. -/
theorem find?_inits_eq {has : Location → Bool} (begun : place <+: directory)
    (below : ∀ other, other <+: directory → place.length < other.length → has other = false) :
    directory.inits.reverse.find? has = place.inits.reverse.find? has := by
  obtain ⟨rest, rfl⟩ := begun
  induction rest using List.reverseRecOn with
  | nil => rw [List.append_nil]
  | append_singleton rest last inductionHypothesis =>
      rw [← List.append_assoc] at below ⊢
      have longer : place.length < (place ++ rest ++ [last]).length := by
        rw [List.length_append, List.length_append, List.length_singleton]
        omega
      have absent : ¬ has (place ++ rest ++ [last]) = true := by
        rw [below _ (List.prefix_refl _) longer]
        exact Bool.false_ne_true
      rw [Path.inits_reverse_concat, List.find?_cons_of_neg absent]
      exact inductionHypothesis fun other begun longer =>
        below other (begun.trans (List.prefix_append _ _)) longer

/-- A search of the directories on a way finds the nearest place of some kind if they are all at or
above one directory, the root is among them, and no place below the end of the way is of the
kind. -/
theorem find?_passed {has : Location → Bool}
    (line : ∀ place ∈ passed origin way, place <+: directory) (top : [] ∈ passed origin way)
    (below : ∀ place, place <+: directory → (way.foldl advance origin).length < place.length →
      has place = false) :
    (passed origin way).find? has = directory.inits.reverse.find? has := by
  induction way using List.reverseRecOn with
  | nil =>
      rw [passed_nil, List.mem_singleton] at top
      subst top
      rw [find?_inits_eq List.nil_prefix below, passed_nil]
      rfl
  | append_singleton front name inductionHypothesis =>
      have here := line _ (mem_passed_self origin (front ++ [name]))
      have nearest := find?_inits_eq here below
      have far := length_advance (front.foldl advance origin) name
      rw [List.foldl_append, List.foldl_cons, List.foldl_nil] at below here nearest
      rw [passed_concat] at line top ⊢
      generalize advance (front.foldl advance origin) name = place at *
      cases found : has place with
      | true =>
          obtain ⟨shorter, first⟩ := Path.exists_inits_reverse_eq_cons place
          rw [nearest, first, List.find?_cons_of_pos found, List.find?_cons_of_pos found]
      | false =>
          -- one name leads at most one place down, so the next directory leaves out nothing more
          have missed (other : Location) (begun : other <+: directory)
              (long : place.length ≤ other.length) : has other = false := by
            rcases Nat.lt_or_eq_of_le long with longer | same
            · exact below other begun longer
            · have shared := List.prefix_of_prefix_length_le here begun long
              rw [← shared.eq_of_length same, found]
          obtain ⟨-, others⟩ := List.forall_mem_cons.mp line
          rw [List.find?_cons_of_neg (by simp [found])]
          rcases List.mem_cons.mp top with root | top
          · -- after the root itself there is nothing left to find
            have nowhere (places : List Location) (begun : ∀ other ∈ places, other <+: directory) :
                places.find? has = none := by
              rw [List.find?_eq_none]
              intro other member
              rw [missed other (begun other member) (by simp [← root])]
              exact Bool.false_ne_true
            rw [nowhere _ others, nowhere _ (by simp)]
          · apply inductionHypothesis others top
            intro other begun longer
            exact missed other begun (by omega)

theorem mem_iff_of_find?_eq {places others : List Location}
    (same : ∀ has, places.find? has = others.find? has) (place : Location) :
    place ∈ places ↔ place ∈ others := by
  have found (list : List Location) : (list.find? (· == place)).isSome ↔ place ∈ list := by
    simp [List.find?_isSome]
  rw [← found places, ← found others, same]

/-- A search of the directories on a way is one of the directories at and above its end, whatever
is searched for, exactly if they are all at or above the end and the root is among them. -/
theorem find?_passed_iff (leads : way.foldl advance origin = directory) :
    (∀ has, (passed origin way).find? has = directory.inits.reverse.find? has) ↔
      (∀ place ∈ passed origin way, place <+: directory) ∧ [] ∈ passed origin way := by
  constructor
  · intro same
    constructor
    · intro place member
      simpa using (mem_iff_of_find?_eq same place).mp member
    · exact (mem_iff_of_find?_eq same []).mpr (by simp)
  · rintro ⟨line, top⟩ has
    apply find?_passed line top
    rw [leads]
    intro place begun longer
    exact absurd begun.length_le (Nat.not_le.mpr longer)

/-! ## Finding -/

theorem isOk_findNode_of_find {follow : Bool}
    (found : tree.find follow current path = .ok (tree.lookAt place)) :
    (tree.findNode follow current path).isOk = (tree.get? place).isSome := by
  rw [findNode, found, lookAt]
  cases tree.get? place <;> rfl

end FileTree

end PackageResolution
