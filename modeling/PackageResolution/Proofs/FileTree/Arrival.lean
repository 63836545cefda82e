import PackageResolution.Proofs.FileTree.Frame

/-!
# Ways through links

On its way a path passes directories and links, and nothing else.  So a way that arrives at a
directory does so in every tree that has the same directories and links, whatever else is there.
In a part of the tree without links a way along plain names goes where the names say.
-/

namespace PackageResolution.FileTree

variable {tree later : FileTree} {budget left : Nat} {current place goal : Location}
  {name : String} {names front rest : List String} {follow closed : Bool}

/-! ## Single steps -/

/-- That a name can be looked for in a directory. -/
structure IsEntry (name : String) : Prop where
  ne_single : name ≠ "."
  ne_double : name ≠ ".."
  fits : name.utf8ByteSize ≤ nameLimit

/-- How a way goes on where a link is followed. -/
def pursue (tree : FileTree) (follow : Bool) :
    Nat → Bool → Location → List String → Except OsError Destination
  | 0 => fun _ _ _ => .error .linkLoop
  | budget + 1 => tree.walk follow budget

theorem walk_eq (tree : FileTree) (follow : Bool) (budget : Nat) :
    tree.walk follow budget = tree.walkTo follow (tree.pursue follow budget) := by
  cases budget <;> rfl

theorem walk_nil : tree.walk follow budget closed place [] = .ok (.occupied place .directory) := by
  rw [walk_eq, walkTo]

theorem walk_single :
    tree.walk follow budget closed place ("." :: rest) =
      tree.walk follow budget closed place rest := by
  rw [walk_eq, walkTo, if_pos rfl]

theorem walk_double :
    tree.walk follow budget closed place (".." :: rest) =
      tree.walk follow budget closed place.dropLast rest := by
  rw [walk_eq, walkTo, if_neg (by decide), if_pos rfl]

theorem walk_entry (entry : IsEntry name) :
    tree.walk follow budget closed place (name :: rest) =
      match tree.get? (place ++ [name]) with
      | none => if rest = [] then .ok (.vacant (place ++ [name])) else .error .notFound
      | some .directory => tree.walk follow budget closed (place ++ [name]) rest
      | some (.file contents) =>
          if rest = [] ∧ closed = false then .ok (.occupied (place ++ [name]) (.file contents))
          else .error .notADirectory
      | some (.link target) =>
          if rest = [] ∧ closed = false ∧ follow = false then
            .ok (.occupied (place ++ [name]) (.link target))
          else
            tree.pursue follow budget (closed || (rest = [] && Text.endsWith '/' target))
              (if Text.beginsWith '/' target then [] else place)
              (FileTree.names target ++ rest) := by
  rw [walk_eq, walkTo, if_neg entry.ne_single, if_neg entry.ne_double]
  exact if_neg (Nat.not_lt.mpr entry.fits)

theorem isEntry_of_walk {destination : Destination} (single : name ≠ ".") (double : name ≠ "..")
    (walked : tree.walk follow budget closed place (name :: rest) = .ok destination) :
    IsEntry name := by
  rw [walk_eq, walkTo, if_neg single, if_neg double] at walked
  split at walked
  · cases walked
  · rename_i fits
    exact ⟨single, double, Nat.not_lt.mp fits⟩

/-! ## Whole ways -/

/-- Where the way along names from a place leads, step by step. -/
inductive Leads (tree : FileTree) (follow : Bool) :
    Nat → Bool → Location → List String → Destination → Prop
  | here (budget : Nat) (closed : Bool) (place : Location) :
      Leads tree follow budget closed place [] (.occupied place .directory)
  | stay {budget : Nat} {closed : Bool} {place : Location} {rest : List String}
      {destination : Destination} (onward : Leads tree follow budget closed place rest destination) :
      Leads tree follow budget closed place ("." :: rest) destination
  | climb {budget : Nat} {closed : Bool} {place : Location} {rest : List String}
      {destination : Destination}
      (onward : Leads tree follow budget closed place.dropLast rest destination) :
      Leads tree follow budget closed place (".." :: rest) destination
  | vacant {budget : Nat} {closed : Bool} {place : Location} {name : String}
      (entry : IsEntry name) (missing : tree.get? (place ++ [name]) = none) :
      Leads tree follow budget closed place [name] (.vacant (place ++ [name]))
  | enter {budget : Nat} {closed : Bool} {place : Location} {name : String} {rest : List String}
      {destination : Destination} (entry : IsEntry name)
      (found : tree.get? (place ++ [name]) = some .directory)
      (onward : Leads tree follow budget closed (place ++ [name]) rest destination) :
      Leads tree follow budget closed place (name :: rest) destination
  | file {budget : Nat} {place : Location} {name : String} {contents : ByteArray}
      (entry : IsEntry name) (found : tree.get? (place ++ [name]) = some (.file contents)) :
      Leads tree follow budget false place [name] (.occupied (place ++ [name]) (.file contents))
  | link {budget : Nat} {place : Location} {name target : String} (entry : IsEntry name)
      (found : tree.get? (place ++ [name]) = some (.link target)) (unfollowed : follow = false) :
      Leads tree follow budget false place [name] (.occupied (place ++ [name]) (.link target))
  | pursue {budget : Nat} {closed : Bool} {place : Location} {name target : String}
      {rest : List String} {destination : Destination} (entry : IsEntry name)
      (found : tree.get? (place ++ [name]) = some (.link target))
      (followed : ¬ (rest = [] ∧ closed = false ∧ follow = false))
      (onward : Leads tree follow budget (closed || (rest = [] && Text.endsWith '/' target))
        (if Text.beginsWith '/' target then [] else place) (FileTree.names target ++ rest)
        destination) :
      Leads tree follow (budget + 1) closed place (name :: rest) destination

theorem leads_of_walk {destination : Destination}
    (walked : tree.walk follow budget closed place names = .ok destination) :
    Leads tree follow budget closed place names destination := by
  induction budget using Nat.strongRecOn generalizing closed place names with
  | ind budget follows =>
    induction names generalizing place with
    | nil =>
        rw [walk_nil] at walked
        obtain rfl := Except.ok.inj walked
        exact .here budget closed place
    | cons name rest inductionHypothesis =>
        by_cases single : name = "."
        · subst single
          rw [walk_single] at walked
          exact .stay (inductionHypothesis walked)
        by_cases double : name = ".."
        · subst double
          rw [walk_double] at walked
          exact .climb (inductionHypothesis walked)
        have entry := isEntry_of_walk single double walked
        rw [walk_entry entry] at walked
        cases found : tree.get? (place ++ [name]) with
        | none =>
            simp only [found] at walked
            split at walked
            · rename_i last
              obtain rfl := Except.ok.inj walked
              rw [last]
              exact .vacant entry found
            · exact nomatch walked
        | some node =>
            simp only [found] at walked
            cases node with
            | directory => exact .enter entry found (inductionHypothesis walked)
            | file contents =>
                simp only at walked
                split at walked
                · rename_i last
                  obtain rfl := Except.ok.inj walked
                  rw [last.1, last.2]
                  exact .file entry found
                · exact nomatch walked
            | link target =>
                simp only at walked
                split at walked
                · rename_i last
                  obtain rfl := Except.ok.inj walked
                  rw [last.1, last.2.1]
                  exact .link entry found last.2.2
                · rename_i followed
                  cases budget with
                  | zero => exact nomatch walked
                  | succ budget =>
                      exact .pursue entry found followed
                        (follows budget (Nat.lt_succ_self budget) walked)

theorem Leads.of_double {destination : Destination}
    (leads : Leads tree follow budget closed place (".." :: rest) destination) :
    Leads tree follow budget closed place.dropLast rest destination := by
  generalize whole : ".." :: rest = names at leads
  cases leads with
  | here => exact nomatch whole
  | stay => exact absurd (List.cons.inj whole).1 (by decide)
  | climb onward =>
      obtain ⟨-, rfl⟩ := List.cons.inj whole
      exact onward
  | vacant entry => exact absurd (List.cons.inj whole).1.symm entry.ne_double
  | enter entry => exact absurd (List.cons.inj whole).1.symm entry.ne_double
  | file entry => exact absurd (List.cons.inj whole).1.symm entry.ne_double
  | link entry => exact absurd (List.cons.inj whole).1.symm entry.ne_double
  | pursue entry => exact absurd (List.cons.inj whole).1.symm entry.ne_double

/-- Where a way leads, the tree has what the way finds, in a directory. -/
theorem Leads.found {destination : Destination}
    (leads : Leads tree follow budget closed place names destination)
    (opened : tree.IsOpen place) :
    tree.get? destination.location = destination.node? ∧
      tree.IsOpen destination.location.dropLast := by
  induction leads with
  | here budget closed place => exact ⟨opened place (List.prefix_refl _), opened.dropLast⟩
  | stay _ inductionHypothesis => exact inductionHypothesis opened
  | climb _ inductionHypothesis => exact inductionHypothesis opened.dropLast
  | enter _ found _ inductionHypothesis => exact inductionHypothesis (opened.concat found)
  | vacant _ found => exact ⟨found, by rwa [Destination.location, List.dropLast_concat]⟩
  | file _ found => exact ⟨found, by rwa [Destination.location, List.dropLast_concat]⟩
  | link _ found => exact ⟨found, by rwa [Destination.location, List.dropLast_concat]⟩
  | pursue _ _ _ _ inductionHypothesis =>
      apply inductionHypothesis
      split
      · exact isOpen_nil tree
      · exact opened

/-- A way that leads to nothing leads there too if links at its end are followed. -/
theorem Leads.walk_of_vacant {destination : Destination}
    (leads : Leads tree follow budget closed place names destination)
    (missing : destination.node? = none) :
    tree.walk true budget closed place names = .ok destination := by
  induction leads with
  | here => exact nomatch missing
  | stay _ inductionHypothesis => rw [walk_single, inductionHypothesis missing]
  | climb _ inductionHypothesis => rw [walk_double, inductionHypothesis missing]
  | vacant entry found =>
      rw [walk_entry entry, found]
      rfl
  | enter entry found _ inductionHypothesis =>
      rw [walk_entry entry, found]
      exact inductionHypothesis missing
  | file => exact nomatch missing
  | link => exact nomatch missing
  | pursue entry found _ _ inductionHypothesis =>
      rw [walk_entry entry, found]
      simp only [Bool.true_eq_false, and_false, if_false]
      exact inductionHypothesis missing

/-! ## Ways to directories -/

/-- That the way along names from a place arrives at a directory.  At most `budget` links are
followed on it, and `left` of them are left for the rest of a longer way. -/
inductive Arrives (tree : FileTree) : Nat → Location → List String → Nat → Location → Prop
  | here (budget : Nat) (place : Location) : Arrives tree budget place [] budget place
  | stay {budget left : Nat} {place goal : Location} {names : List String}
      (onward : Arrives tree budget place names left goal) :
      Arrives tree budget place ("." :: names) left goal
  | climb {budget left : Nat} {place goal : Location} {names : List String}
      (onward : Arrives tree budget place.dropLast names left goal) :
      Arrives tree budget place (".." :: names) left goal
  | enter {budget left : Nat} {place goal : Location} {name : String} {names : List String}
      (entry : IsEntry name) (found : tree.get? (place ++ [name]) = some .directory)
      (onward : Arrives tree budget (place ++ [name]) names left goal) :
      Arrives tree budget place (name :: names) left goal
  | pursue {budget left : Nat} {place goal : Location} {name target : String}
      {names : List String} (entry : IsEntry name)
      (found : tree.get? (place ++ [name]) = some (.link target))
      (onward : Arrives tree budget (if Text.beginsWith '/' target then [] else place)
        (FileTree.names target ++ names) left goal) :
      Arrives tree (budget + 1) place (name :: names) left goal

/-- A way goes on from where its first part arrives. -/
theorem Arrives.walk_append (arrives : Arrives tree budget place front left goal)
    (onward : rest ≠ []) :
    tree.walk follow budget closed place (front ++ rest) =
      tree.walk follow left closed goal rest := by
  have filled (names : List String) : names ++ rest ≠ [] :=
    List.append_ne_nil_of_right_ne_nil names onward
  induction arrives with
  | here budget place => rfl
  | stay _ inductionHypothesis => rw [List.cons_append, walk_single, inductionHypothesis]
  | climb _ inductionHypothesis => rw [List.cons_append, walk_double, inductionHypothesis]
  | enter entry found _ inductionHypothesis =>
      rw [List.cons_append, walk_entry entry, found]
      exact inductionHypothesis
  | @pursue _ _ _ _ _ target names entry found _ inductionHypothesis =>
      rw [List.cons_append, walk_entry entry, found]
      simp only [filled, false_and, if_false, decide_false, Bool.false_and, Bool.or_false]
      rw [← List.append_assoc]
      exact inductionHypothesis

theorem Arrives.walk (arrives : Arrives tree budget place names left goal) :
    tree.walk true budget closed place names = .ok (.occupied goal .directory) := by
  induction arrives generalizing closed with
  | here budget place => exact walk_nil
  | stay _ inductionHypothesis => rw [walk_single, inductionHypothesis]
  | climb _ inductionHypothesis => rw [walk_double, inductionHypothesis]
  | enter entry found _ inductionHypothesis =>
      rw [walk_entry entry, found]
      exact inductionHypothesis
  | pursue entry found _ inductionHypothesis =>
      rw [walk_entry entry, found]
      simp only [Bool.true_eq_false, and_false, if_false]
      exact inductionHypothesis

/-- A longer way that arrives at a directory leads there from where its first part arrives. -/
theorem Arrives.exists_leads {middle : Location} {between : Nat}
    (first : Arrives tree budget place front between middle)
    (whole : Arrives tree budget place (front ++ rest) left goal) :
    ∃ budget closed, Leads tree true budget closed middle rest (.occupied goal .directory) := by
  have walked : tree.walk true budget true place (front ++ rest) = .ok (.occupied goal .directory) :=
    whole.walk
  by_cases last : rest = []
  · rw [last, List.append_nil, first.walk] at walked
    obtain ⟨rfl, -⟩ := Destination.occupied.inj (Except.ok.inj walked)
    exact ⟨between, true, last ▸ .here between true middle⟩
  · rw [first.walk_append last] at walked
    exact ⟨between, true, leads_of_walk walked⟩

/-- That the first part of a way arrives at a directory, from where the rest leads on. -/
def Divides (tree : FileTree) (follow : Bool) (budget : Nat) (closed : Bool) (place : Location)
    (front rest : List String) (destination : Destination) : Prop :=
  ∃ left goal flag, Arrives tree budget place front left goal ∧ (rest ≠ [] → flag = closed) ∧
    Leads tree follow left flag goal rest destination

theorem Leads.divides_nil {destination : Destination}
    (leads : Leads tree follow budget closed place names destination) (split : names = [] ++ rest) :
    Divides tree follow budget closed place [] rest destination := by
  rw [List.nil_append] at split
  exact ⟨budget, place, closed, .here budget place, fun _ => rfl, split ▸ leads⟩

/-- A way that leads somewhere can be divided anywhere.  If it is divided at its end, then it must
lead to a directory. -/
theorem Leads.divides {destination : Destination}
    (leads : Leads tree follow budget closed place names destination) (split : names = front ++ rest)
    (onward : rest ≠ [] ∨ follow = true ∧ destination.node? = some .directory) :
    Divides tree follow budget closed place front rest destination := by
  -- a way that has come to its last name, which is none of a directory, is not divided after it
  have last {name : String} {first : String} {front : List String}
      (split : [name] = first :: (front ++ rest)) (filled : rest ≠ []) : False := by
    rw [List.cons.injEq] at split
    exact filled (List.append_eq_nil_iff.mp split.2.symm).2
  induction leads generalizing front with
  | here budget closed place =>
      obtain ⟨rfl, rfl⟩ := List.append_eq_nil_iff.mp split.symm
      exact (Leads.here budget closed place).divides_nil rfl
  | stay leads inductionHypothesis =>
      cases front with
      | nil => exact leads.stay.divides_nil split
      | cons first front =>
          obtain ⟨rfl, others⟩ := List.cons.inj split
          obtain ⟨left, goal, flag, arrives, same, further⟩ := inductionHypothesis others onward
          exact ⟨left, goal, flag, .stay arrives, same, further⟩
  | climb leads inductionHypothesis =>
      cases front with
      | nil => exact leads.climb.divides_nil split
      | cons first front =>
          obtain ⟨rfl, others⟩ := List.cons.inj split
          obtain ⟨left, goal, flag, arrives, same, further⟩ := inductionHypothesis others onward
          exact ⟨left, goal, flag, .climb arrives, same, further⟩
  | vacant entry missing =>
      cases front with
      | nil => exact (Leads.vacant entry missing).divides_nil split
      | cons first front =>
          rcases onward with filled | ⟨-, other⟩
          · exact (last split filled).elim
          · exact nomatch other
  | enter entry found leads inductionHypothesis =>
      cases front with
      | nil => exact (leads.enter entry found).divides_nil split
      | cons first front =>
          obtain ⟨rfl, others⟩ := List.cons.inj split
          obtain ⟨left, goal, flag, arrives, same, further⟩ := inductionHypothesis others onward
          exact ⟨left, goal, flag, .enter entry found arrives, same, further⟩
  | file entry found =>
      cases front with
      | nil => exact (Leads.file entry found).divides_nil split
      | cons first front =>
          rcases onward with filled | ⟨-, other⟩
          · exact (last split filled).elim
          · exact nomatch other
  | link entry found unfollowed =>
      cases front with
      | nil => exact (Leads.link entry found unfollowed).divides_nil split
      | cons first front =>
          rcases onward with filled | ⟨-, other⟩
          · exact (last split filled).elim
          · exact nomatch other
  | pursue entry found followed leads inductionHypothesis =>
      cases front with
      | nil => exact (leads.pursue entry found followed).divides_nil split
      | cons first front =>
          obtain ⟨rfl, rfl⟩ := List.cons.inj split
          obtain ⟨left, goal, flag, arrives, same, further⟩ :=
            inductionHypothesis (List.append_assoc _ _ _).symm onward
          refine ⟨left, goal, flag, .pursue entry found arrives, fun filled => ?_, further⟩
          rw [same filled]
          simp [filled]

/-- A way that arrives in one tree arrives in every tree that has the directories and links of
that one. -/
theorem Arrives.mono (arrives : Arrives tree budget place names left goal)
    (directories : ∀ other, tree.get? other = some .directory →
      later.get? other = some .directory)
    (links : ∀ other target, tree.get? other = some (.link target) →
      later.get? other = some (.link target)) :
    Arrives later budget place names left goal := by
  induction arrives with
  | here budget place => exact .here budget place
  | stay _ inductionHypothesis => exact .stay inductionHypothesis
  | climb _ inductionHypothesis => exact .climb inductionHypothesis
  | enter entry found _ inductionHypothesis =>
      exact .enter entry (directories _ found) inductionHypothesis
  | pursue entry found _ inductionHypothesis =>
      exact .pursue entry (links _ _ found) inductionHypothesis

theorem Arrives.isOpen (arrives : Arrives tree budget place names left goal)
    (opened : tree.IsOpen place) : tree.IsOpen goal := by
  induction arrives with
  | here => exact opened
  | stay _ inductionHypothesis => exact inductionHypothesis opened
  | climb _ inductionHypothesis => exact inductionHypothesis opened.dropLast
  | enter _ found _ inductionHypothesis => exact inductionHypothesis (opened.concat found)
  | pursue _ _ _ inductionHypothesis =>
      apply inductionHypothesis
      split
      · exact isOpen_nil tree
      · exact opened

/-- A `.` on the way to the next name does not matter. -/
theorem arrives_of_filter_cons {others : List String}
    (arrives : ∀ onward, onward.filter (· ≠ ".") = others →
      Arrives tree budget place (name :: onward) left goal)
    (same : names.filter (· ≠ ".") = name :: others) :
    Arrives tree budget place names left goal := by
  induction names with
  | nil => exact nomatch same
  | cons first names inductionHypothesis =>
      by_cases single : first = "."
      · subst single
        exact .stay (inductionHypothesis same)
      · rw [List.filter_cons_of_pos (by simpa using single), List.cons.injEq] at same
        obtain ⟨rfl, rest⟩ := same
        exact arrives names rest

/-- Where `.` stands on a way does not matter. -/
theorem Arrives.of_filter_eq {others : List String}
    (arrives : Arrives tree budget place names left goal)
    (same : others.filter (· ≠ ".") = names.filter (· ≠ ".")) :
    Arrives tree budget place others left goal := by
  induction arrives generalizing others with
  | here budget place =>
      induction others with
      | nil => exact .here budget place
      | cons first others inductionHypothesis =>
          by_cases single : first = "."
          · subst single
            exact .stay (inductionHypothesis same)
          · rw [List.filter_cons_of_pos (by simpa using single)] at same
            exact nomatch same
  | stay _ inductionHypothesis => exact inductionHypothesis same
  | climb _ inductionHypothesis =>
      exact arrives_of_filter_cons (fun onward rest => .climb (inductionHypothesis rest)) same
  | enter entry found _ inductionHypothesis =>
      rw [List.filter_cons_of_pos (by simpa using entry.ne_single)] at same
      exact arrives_of_filter_cons
        (fun onward rest => .enter entry found (inductionHypothesis rest)) same
  | pursue entry found _ inductionHypothesis =>
      rw [List.filter_cons_of_pos (by simpa using entry.ne_single)] at same
      refine arrives_of_filter_cons (fun onward rest => ?_) same
      exact .pursue entry found (inductionHypothesis (by rw [List.filter_append, rest,
        List.filter_append]))

/-! ## Parts of a tree without links -/

/-- That no link is below a place. -/
def IsPlainBelow (tree : FileTree) (top : Location) : Prop :=
  ∀ rest target, rest ≠ [] → tree.get? (top ++ rest) ≠ some (.link target)

variable {top : Location}

theorem IsPlainBelow.get?_concat_ne (plain : tree.IsPlainBelow top) (below : top <+: place)
    (target : String) : tree.get? (place ++ [name]) ≠ some (.link target) := by
  obtain ⟨rest, rfl⟩ := below
  rw [List.append_assoc]
  exact plain _ target (by simp)

/-- Where no links are, a way along names other than `..` does not lead out. -/
theorem Leads.prefix_location {destination : Destination}
    (leads : Leads tree follow budget closed place names destination)
    (plain : tree.IsPlainBelow top) (below : top <+: place) (onward : ".." ∉ names) :
    top <+: destination.location := by
  induction leads with
  | here => exact below
  | stay _ inductionHypothesis =>
      exact inductionHypothesis below fun member => onward (List.mem_cons_of_mem _ member)
  | climb => exact absurd List.mem_cons_self onward
  | enter _ _ _ inductionHypothesis =>
      exact inductionHypothesis (below.trans (List.prefix_append _ _)) fun member =>
        onward (List.mem_cons_of_mem _ member)
  | vacant => exact below.trans (List.prefix_append _ _)
  | file => exact below.trans (List.prefix_append _ _)
  | link => exact below.trans (List.prefix_append _ _)
  | pursue _ found => exact absurd found (plain.get?_concat_ne below _)

end PackageResolution.FileTree
