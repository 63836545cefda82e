import PackageResolution.Proofs.FileTree.Growth
import PackageResolution.Proofs.Package.Way

/-!
# Paths below a directory

A path that goes on from another one goes on from the directory at which that one arrives.  Where
no links are below the directory, the path leads to the place that its further names say, and what
is above the path leads to a place above that one.
-/

namespace PackageResolution

/-! ## Ways of paths -/

namespace Path

variable {base path above more : Path} {rest front : List String} {name : String}

/-- The names along which a path leads.  A `.` leads nowhere. -/
def way (path : Path) : List String :=
  (FileTree.names path.text).filter (· ≠ ".")

theorem way_eq_map (path : Path) : path.way = path.steps.map Component.piece :=
  path.map_piece_steps.symm

theorem way_join (relative : path.isAbsolute = false) :
    (base.join path).way = base.way ++ path.way := by
  rw [way, names_join relative, List.filter_append, way, way]

theorem way_of_isName (isName : IsName name) (plain : '/' ∉ name.toList) :
    way ⟨name⟩ = [name] := by
  rw [way, names_of_isName isName plain, List.filter_cons_of_pos (by simpa using isName.2.1),
    List.filter_nil]

theorem text_ne_empty_of_way (filled : path.way ≠ []) : path.text ≠ "" := by
  intro empty
  apply filled
  rw [way, empty]
  rfl

theorem isAbsolute_iff_root_mem_components : path.isAbsolute = true ↔ .root ∈ path.components := by
  rw [isAbsolute_iff_root_mem, components_eq, List.mem_append]
  constructor
  · exact Or.inl
  · rintro (marked | among)
    · exact marked
    · exact nomatch isMark_of_mem_steps among

/-- The steps of a path are its components after the start. -/
theorem steps_eq_filter (path : Path) :
    path.steps = path.components.filter fun component => !component.isMark := by
  have dropped : path.start.filter (fun component => !component.isMark) = [] :=
    List.filter_eq_nil_iff.mpr fun _ member => by simp [isMark_of_mem_start member]
  have kept : path.steps.filter (fun component => !component.isMark) = path.steps :=
    List.filter_eq_self.mpr fun _ member => by simp [isMark_of_mem_steps member]
  rw [components_eq, List.filter_append, dropped, kept, List.nil_append]

theorem isAbsolute_parent? (found : path.parent? = some above) :
    above.isAbsolute = path.isAbsolute := by
  obtain ⟨component, split⟩ := components_of_parent? found
  rw [Bool.eq_iff_iff]
  constructor
  · intro absolute
    rw [isAbsolute_iff_root_mem_components] at absolute ⊢
    exact split ▸ List.mem_append_left _ absolute
  · exact isAbsolute_of_parent? found

/-- The path above a path leads along the first of its names. -/
theorem prefix_way_of_parent? (found : path.parent? = some above) : above.way <+: path.way := by
  obtain ⟨component, split⟩ := components_of_parent? found
  rw [way_eq_map, way_eq_map, steps_eq_filter, steps_eq_filter path, split, List.filter_append,
    List.map_append]
  exact List.prefix_append _ _

/-- A path that ends with a name has one above it, which leads along the names before. -/
theorem exists_parent?_of_way (ends : path.way = front ++ [name]) (onward : name ≠ "..") :
    ∃ above, path.parent? = some above ∧ above.isAbsolute = path.isAbsolute ∧
      above.way = front := by
  rw [way_eq_map] at ends
  obtain ⟨before, last, split, same, piece⟩ := List.map_eq_append_iff.mp ends
  obtain ⟨component, rfl, named⟩ := List.map_eq_singleton_iff.mp piece
  have unmarked : component.isMark = false := by
    apply isMark_of_mem_steps
    rw [split]
    exact List.mem_append_right _ List.mem_cons_self
  have isNamed : component = .named name := by
    cases component with
    | root => exact nomatch unmarked
    | current => exact nomatch unmarked
    | parent => exact absurd named.symm onward
    | named other => rw [← named]; rfl
  have whole : path.components = path.start ++ before ++ [.named name] := by
    rw [components_eq, split, isNamed, List.append_assoc]
  obtain ⟨above, found, components⟩ := exists_parent? whole
  refine ⟨above, found, isAbsolute_parent? found, ?_⟩
  have kept : before.filter (fun component => !component.isMark) = before :=
    List.filter_eq_self.mpr fun other member => by
      have among : other ∈ path.steps := split ▸ List.mem_append_left _ member
      simp [isMark_of_mem_steps among]
  have dropped : path.start.filter (fun component => !component.isMark) = [] :=
    List.filter_eq_nil_iff.mpr fun _ member => by simp [isMark_of_mem_start member]
  rw [way_eq_map, steps_eq_filter, components, List.filter_append, dropped, kept, List.nil_append,
    same]

/-- What is above a path starts where that one does and leads along the first of its names. -/
theorem way_of_mem_ancestors (among : above ∈ path.ancestors) :
    above.isAbsolute = path.isAbsolute ∧ above.way <+: path.way := by
  rw [ancestors] at among
  generalize path.text.length = count at among
  induction count generalizing path with
  | zero => exact absurd among List.not_mem_nil
  | succ count inductionHypothesis =>
      rw [ancestors.go] at among
      split at among
      · exact absurd among List.not_mem_nil
      rename_i nearest found
      rcases List.mem_cons.mp among with rfl | among
      · exact ⟨isAbsolute_parent? found, prefix_way_of_parent? found⟩
      · obtain ⟨rooted, start⟩ := inductionHypothesis among
        exact ⟨rooted.trans (isAbsolute_parent? found), start.trans (prefix_way_of_parent? found)⟩

/-- That a path goes on from another one along the given names. -/
structure Continues (path base : Path) (rest : List String) : Prop where
  isAbsolute_eq : path.isAbsolute = base.isAbsolute
  way_eq : path.way = base.way ++ rest

/-- That a path is at or above one that goes on from another one along the given names. -/
structure IsOnWay (path base : Path) (rest : List String) : Prop where
  isAbsolute_eq : path.isAbsolute = base.isAbsolute
  way_prefix : path.way <+: base.way ++ rest

namespace Continues

theorem refl (path : Path) : path.Continues path [] :=
  ⟨rfl, (List.append_nil _).symm⟩

theorem join (continues : path.Continues base rest) (filled : path.text ≠ "")
    (relative : more.isAbsolute = false) :
    (path.join more).Continues base (rest ++ more.way) where
  isAbsolute_eq := (isAbsolute_join relative filled).trans continues.isAbsolute_eq
  way_eq := by rw [way_join relative, continues.way_eq, List.append_assoc]

theorem isOnWay (continues : path.Continues base rest) : path.IsOnWay base rest :=
  ⟨continues.isAbsolute_eq, continues.way_eq ▸ List.prefix_refl _⟩

/-- The path above goes on along all names but the last. -/
theorem exists_parent? (continues : path.Continues base (front ++ [name])) (onward : name ≠ "..") :
    ∃ above, path.parent? = some above ∧ above.Continues base front := by
  have way := continues.way_eq
  rw [← List.append_assoc] at way
  obtain ⟨above, found, rooted, same⟩ := exists_parent?_of_way way onward
  exact ⟨above, found, rooted.trans continues.isAbsolute_eq, same⟩

end Continues

theorem IsOnWay.of_mem_ancestors (onWay : path.IsOnWay base rest)
    (among : above ∈ path.ancestors) : above.IsOnWay base rest := by
  obtain ⟨rooted, begun⟩ := way_of_mem_ancestors among
  exact ⟨rooted.trans onWay.isAbsolute_eq, begun.trans onWay.way_prefix⟩

end Path

namespace FileTree

variable {tree earlier : FileTree} {budget left : Nat} {current place goal top : Location}
  {names front rest : List String} {base path : Path} {follow closed : Bool}
  {destination : Destination}

/-! ## Ways that arrive -/

theorem Arrives.raise (arrives : Arrives tree budget place names left goal) (extra : Nat) :
    Arrives tree (budget + extra) place names (left + extra) goal := by
  induction arrives with
  | here budget place => exact .here _ place
  | stay _ inductionHypothesis => exact .stay inductionHypothesis
  | climb _ inductionHypothesis => exact .climb inductionHypothesis
  | enter entry found _ inductionHypothesis => exact .enter entry found inductionHypothesis
  | pursue entry found _ inductionHypothesis =>
      rw [Nat.add_right_comm]
      exact .pursue entry found inductionHypothesis

/-- However many links can be followed, a way arrives at one directory. -/
theorem Arrives.unique {other spare : Nat} {last : Location}
    (arrives : Arrives tree budget place names left goal)
    (others : Arrives tree other place names spare last) : goal = last := by
  have first : tree.walk true (budget + other) true place names = _ := (arrives.raise other).walk
  have second : tree.walk true (other + budget) true place names = _ := (others.raise budget).walk
  rw [Nat.add_comm, second] at first
  exact (Destination.occupied.inj (Except.ok.inj first)).1.symm

/-- A way goes on to where its second part arrives. -/
theorem Arrives.append {middle : Location} {between : Nat}
    (first : Arrives tree budget place front between middle)
    (second : Arrives tree between middle rest left goal) :
    Arrives tree budget place (front ++ rest) left goal := by
  induction first with
  | here => exact second
  | stay _ inductionHypothesis => exact .stay (inductionHypothesis second)
  | climb _ inductionHypothesis => exact .climb (inductionHypothesis second)
  | enter entry found _ inductionHypothesis => exact .enter entry found (inductionHypothesis second)
  | pursue entry found _ inductionHypothesis =>
      have onward := inductionHypothesis second
      rw [List.append_assoc] at onward
      exact .pursue entry found onward

/-- Where no links are, a way that does not turn back leads to the place that its names say. -/
theorem Leads.location_eq (leads : Leads tree follow budget closed place names destination)
    (plain : tree.IsPlainBelow top) (below : top <+: place) (onward : ".." ∉ names) :
    destination.location = place ++ names.filter (· ≠ ".") := by
  induction leads with
  | here => exact (List.append_nil _).symm
  | stay _ inductionHypothesis =>
      exact inductionHypothesis below fun member => onward (List.mem_cons_of_mem _ member)
  | climb => exact absurd List.mem_cons_self onward
  | vacant entry =>
      rw [List.filter_cons_of_pos (by simpa using entry.ne_single)]
      rfl
  | enter entry _ _ inductionHypothesis =>
      rw [inductionHypothesis (below.trans (List.prefix_append _ _))
        fun member => onward (List.mem_cons_of_mem _ member),
        List.filter_cons_of_pos (by simpa using entry.ne_single), List.append_assoc]
      rfl
  | file entry =>
      rw [List.filter_cons_of_pos (by simpa using entry.ne_single)]
      rfl
  | link entry =>
      rw [List.filter_cons_of_pos (by simpa using entry.ne_single)]
      rfl
  | pursue _ found => exact absurd found (plain.get?_concat_ne below _)

/-- Where no links are, a way that leads somewhere is along names that can be looked for. -/
theorem Leads.isEntry (leads : Leads tree follow budget closed place names destination)
    (plain : tree.IsPlainBelow top) (below : top <+: place) (onward : ".." ∉ names) {name : String}
    (member : name ∈ names.filter (· ≠ ".")) : IsEntry name := by
  induction leads with
  | here => exact nomatch member
  | stay _ inductionHypothesis =>
      exact inductionHypothesis below (fun among => onward (List.mem_cons_of_mem _ among)) member
  | climb => exact absurd List.mem_cons_self onward
  | vacant entry => exact List.mem_singleton.mp (List.mem_of_mem_filter member) ▸ entry
  | enter entry _ _ inductionHypothesis =>
      rw [List.filter_cons_of_pos (by simpa using entry.ne_single), List.mem_cons] at member
      rcases member with rfl | member
      · exact entry
      · exact inductionHypothesis (below.trans (List.prefix_append _ _))
          (fun among => onward (List.mem_cons_of_mem _ among)) member
  | file entry => exact List.mem_singleton.mp (List.mem_of_mem_filter member) ▸ entry
  | link entry => exact List.mem_singleton.mp (List.mem_of_mem_filter member) ▸ entry
  | pursue _ found => exact absurd found (plain.get?_concat_ne below _)

/-- A way along directories arrives at the last of them. -/
theorem arrives_of_isOpen (entries : ∀ name ∈ names, IsEntry name)
    (opened : tree.IsOpen (place ++ names)) :
    Arrives tree budget place names budget (place ++ names) := by
  induction names generalizing place with
  | nil =>
      rw [List.append_nil]
      exact .here budget place
  | cons name rest inductionHypothesis =>
      rw [List.forall_mem_cons] at entries
      have split : place ++ name :: rest = place ++ [name] ++ rest := by
        rw [List.append_assoc, List.singleton_append]
      rw [split] at opened ⊢
      exact .enter entries.1 (opened _ (List.prefix_append _ _))
        (inductionHypothesis entries.2 opened)

/-! ## Paths that go on from a directory -/

/-- That a file system follows a path, and looks for each of its last names. -/
structure Passes (path : Path) (names : List String) : Prop where
  isAccepted : path.IsAccepted
  isEntry : ∀ name ∈ names, IsEntry name

/-- That a path leads to a directory below which there are no links. -/
structure Enters (tree : FileTree) (current : Location) (base : Path) (top : Location) : Prop where
  exists_arrives : ∃ left,
    Arrives tree linkLimit (origin current base) (FileTree.names base.text) left top
  isPlainBelow : tree.IsPlainBelow top

theorem origin_eq_of_isAbsolute_eq (same : path.isAbsolute = base.isAbsolute) :
    origin current path = origin current base := by
  rw [origin, origin, same]

/-- On the way to a directory a path arrives at one wherever it is left off. -/
theorem exists_arrives_of_walk
    (walked : tree.walk true budget closed place (FileTree.names base.text) =
      .ok (.occupied goal .directory)) (begun : path.way <+: base.way) :
    ∃ left passed, Arrives tree budget place (FileTree.names path.text) left passed := by
  obtain ⟨rest, whole⟩ := begun
  obtain ⟨front, more, split, frontWay, -⟩ := List.filter_eq_append_iff.mp whole.symm
  obtain ⟨left, passed, flag, arrives, -⟩ := (leads_of_walk walked).divides split (.inr ⟨rfl, rfl⟩)
  exact ⟨left, passed, arrives.of_filter_eq frontWay.symm⟩

namespace Enters

theorem of_grows (enters : earlier.Enters current base top) (grows : Grows earlier tree) :
    tree.Enters current base top where
  exists_arrives := by
    obtain ⟨left, arrives⟩ := enters.exists_arrives
    exact ⟨left, grows.arrives arrives⟩
  isPlainBelow := grows.isPlainBelow enters.isPlainBelow

variable (enters : tree.Enters current base top)

include enters

theorem get?_eq (opened : tree.IsOpen current) : tree.get? top = some .directory := by
  obtain ⟨left, arrives⟩ := enters.exists_arrives
  exact arrives.isOpen (opened.origin base) top (List.prefix_refl _)

/-- A path that goes on from the directory leads where the way along its further names leads. -/
theorem exists_leads (continues : path.Continues base rest) (filled : rest ≠ [])
    (onward : ".." ∉ rest) (found : tree.find follow current path = .ok destination) :
    ∃ left flag more, Leads tree follow left flag top more destination ∧ ".." ∉ more ∧
      more.filter (· ≠ ".") = rest := by
  obtain ⟨front, more, split, frontWay, moreWay⟩ := List.filter_eq_append_iff.mp continues.way_eq
  have others : more ≠ [] := by
    rintro rfl
    exact filled moreWay.symm
  obtain ⟨left, goal, flag, arrives, -, further⟩ :=
    (leads_of_find found).divides split (.inl others)
  obtain ⟨spare, reached⟩ := enters.exists_arrives
  rw [origin_eq_of_isAbsolute_eq continues.isAbsolute_eq] at arrives
  obtain rfl : goal = top := arrives.unique (reached.of_filter_eq frontWay)
  have climbs : ".." ∉ more := fun member =>
    onward (moreWay ▸ List.mem_filter.mpr ⟨member, by decide⟩)
  exact ⟨left, flag, more, further, climbs, moreWay⟩

/-- A path that goes on from the directory leads to the place that its names say. -/
theorem location_eq (continues : path.Continues base rest) (filled : rest ≠ [])
    (onward : ".." ∉ rest) (found : tree.find follow current path = .ok destination) :
    destination.location = top ++ rest := by
  obtain ⟨left, flag, more, leads, climbs, way⟩ :=
    enters.exists_leads continues filled onward found
  rw [leads.location_eq enters.isPlainBelow (List.prefix_refl _) climbs, way]

theorem passes_of_find (continues : path.Continues base rest) (onward : ".." ∉ rest)
    (found : tree.find follow current path = .ok destination) : Passes path rest where
  isAccepted := isAccepted_of_find found
  isEntry name member := by
    obtain ⟨left, flag, more, leads, climbs, way⟩ :=
      enters.exists_leads continues (List.ne_nil_of_mem member) onward found
    exact leads.isEntry enters.isPlainBelow (List.prefix_refl _) climbs (way ▸ member)

/-- A path that ends with a name in a directory on the way leads there. -/
theorem approaches {before : Path} {name : String}
    (continues : (before.join ⟨name⟩).Continues base (front ++ [name])) (isName : Path.IsName name)
    (plain : '/' ∉ name.toList) (passes : Passes (before.join ⟨name⟩) (front ++ [name]))
    (opened : tree.IsOpen (top ++ front)) :
    Approaches tree current (before.join ⟨name⟩) (top ++ front) name where
  isAccepted := passes.isAccepted
  isEntry := passes.isEntry name (List.mem_append_right _ (List.mem_singleton_self _))
  ajar := Path.endsWith_join_name isName plain
  exists_arrives := by
    have whole := continues.way_eq
    rw [Path.way, Path.names_join_name isName plain, List.filter_append,
      List.filter_cons_of_pos (by simpa using isName.2.1), ← List.append_assoc] at whole
    obtain ⟨left, reached⟩ := enters.exists_arrives
    have kept : front.filter (· ≠ ".") = front := by
      apply List.filter_eq_self.mpr
      intro other member
      simpa using (passes.isEntry other (List.mem_append_left _ member)).ne_single
    have onward : Arrives tree left top front left (top ++ front) :=
      arrives_of_isOpen
        (fun other member => passes.isEntry other (List.mem_append_left _ member)) opened
    refine ⟨FileTree.names before.text, left, Path.names_join_name isName plain, ?_⟩
    rw [origin_eq_of_isAbsolute_eq continues.isAbsolute_eq]
    apply (reached.append onward).of_filter_eq
    rw [List.filter_append, kept]
    exact (List.append_inj' whole rfl).1

/-- What is at or above the directory is there. -/
theorem not_vacant (rooted : path.isAbsolute = base.isAbsolute) (begun : path.way <+: base.way) :
    tree.find follow current path ≠ .ok (.vacant place) := by
  intro found
  obtain ⟨spare, reached⟩ := enters.exists_arrives
  have walked : tree.walk true linkLimit true (origin current base) (FileTree.names base.text) =
      .ok (.occupied top .directory) := reached.walk
  obtain ⟨left, passed, arrives⟩ := exists_arrives_of_walk walked begun
  have missing := (leads_of_find found).walk_of_vacant rfl
  rw [origin_eq_of_isAbsolute_eq rooted, arrives.walk] at missing
  cases missing

/-- Where a path on the way below the directory leads to nothing, that is below the directory. -/
theorem exists_of_vacant (onWay : path.IsOnWay base rest) (onward : ".." ∉ rest)
    (found : tree.find follow current path = .ok (.vacant place)) :
    ∃ more, more ≠ [] ∧ more <+: rest ∧ place = top ++ more := by
  rcases prefix_append_cases onWay.way_prefix with before | ⟨more, way, among⟩
  · exact absurd found (enters.not_vacant onWay.isAbsolute_eq before)
  · by_cases nothing : more = []
    · rw [nothing, List.append_nil] at way
      exact absurd found (enters.not_vacant onWay.isAbsolute_eq (way ▸ List.prefix_refl _))
    · have climbs : ".." ∉ more := fun member => onward (among.subset member)
      exact ⟨more, nothing, among,
        enters.location_eq ⟨onWay.isAbsolute_eq, way⟩ nothing climbs found⟩

end Enters

end FileTree

end PackageResolution
