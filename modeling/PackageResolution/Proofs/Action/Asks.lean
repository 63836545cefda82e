import PackageResolution.Action.World
import PackageResolution.Proofs.FileTree.Frame

/-!
# What actions ask for

An action is followed through all answers that its requests may get, and every request that
it makes is looked at.  What is shown in this way holds in every world.  The only answers
that are not arbitrary are the letters of temporary names: there is no slash among them.

If every request of an action leaves a directory alone, then so does a run of the action in
a world without links.
-/

namespace PackageResolution

/-- That an answer may be given to a request. -/
def Request.MayGet : (request : Request) → request.Answer → Prop
  | .randomLetters, letters => '/' ∉ String.toList letters
  | _, _ => True

namespace Action

variable {α β : Type} {allowed : Request → Prop} {result middle : α → Prop} {last : β → Prop}

/-- That an action makes only allowed requests, and that its result is as said. -/
inductive Asks (allowed : Request → Prop) (result : α → Prop) : Action α → Prop
  /-- The action is done. -/
  | done {value : α} (holds : result value) : Asks allowed result (.done value)
  /-- The action makes a request and goes on. -/
  | ask {request : Request} {next : request.Answer → Action α} (permitted : allowed request)
      (rest : ∀ answer, request.MayGet answer → Asks allowed result (next answer)) :
      Asks allowed result (.ask request next)

theorem asks_pure {value : α} (holds : result value) : Asks allowed result (pure value) :=
  .done holds

theorem asks_request {request : Request} (permitted : allowed request) :
    Asks allowed request.MayGet (Action.request request) :=
  .ask permitted fun _ may => .done may

/-- One action after another makes the requests of both. -/
theorem Asks.bind {action : Action α} {next : α → Action β} (first : Asks allowed middle action)
    (second : ∀ value, middle value → Asks allowed last (next value)) :
    Asks allowed last (action >>= next) := by
  induction first with
  | done holds => exact second _ holds
  | ask permitted _ inductionHypothesis => exact .ask permitted inductionHypothesis

theorem Asks.imp {action : Action α} (asks : Asks allowed middle action)
    (implies : ∀ value, middle value → result value) : Asks allowed result action := by
  rw [← bind_pure action]
  exact asks.bind fun value holds => asks_pure (implies value holds)

theorem asks_request_bind {request : Request} {next : request.Answer → Action β}
    (permitted : allowed request)
    (second : ∀ answer, request.MayGet answer → Asks allowed last (next answer)) :
    Asks allowed last (Action.request request >>= next) :=
  (asks_request permitted).bind second

theorem asks_request_only {request : Request} (permitted : allowed request) :
    Asks allowed (fun _ => True) (Action.request request) :=
  .ask permitted fun _ _ => .done trivial

end Action

/-! ## Attempts -/

namespace Attempt

variable {α β : Type} {allowed : Request → Prop} {result middle : α → Prop} {last : β → Prop}

/-- That an attempt makes only allowed requests, and that its result is as said if there is
one. -/
def Asks (allowed : Request → Prop) (result : α → Prop) (attempt : Attempt α) : Prop :=
  attempt.run.Asks allowed fun outcome => ∀ value, outcome = .ok value → result value

theorem asks_pure {value : α} (holds : result value) :
    Asks allowed result (pure value : Attempt α) := by
  apply Action.asks_pure
  rintro _ ⟨⟩
  exact holds

theorem asks_throw (failure : Error) : Asks allowed result (throw failure : Attempt α) := by
  apply Action.asks_pure
  rintro _ ⟨⟩

theorem asks_ofResult {outcome : Result α} (holds : ∀ value, outcome = .ok value → result value) :
    Asks allowed result (ofResult outcome) :=
  .done holds

theorem asks_lift {action : Action α} (asks : action.Asks allowed result) :
    Asks allowed result (liftM action : Attempt α) := by
  apply Action.Asks.bind asks
  intro value holds
  apply Action.asks_pure
  rintro _ ⟨⟩
  exact holds

theorem Asks.bind {attempt : Attempt α} {next : α → Attempt β}
    (first : Asks allowed middle attempt)
    (second : ∀ value, middle value → Asks allowed last (next value)) :
    Asks allowed last (attempt >>= next) := by
  rw [Asks, ExceptT.run_bind]
  apply Action.Asks.bind first
  intro outcome holds
  cases outcome with
  | error failure =>
      apply Action.asks_pure
      rintro _ ⟨⟩
  | ok value => exact second value (holds value rfl)

/-- What files refuse is a failure. -/
theorem asks_files {task : IoTask} {action : Action (Except OsError α)}
    (asks : action.Asks allowed fun _ => True) :
    Asks allowed (fun _ => True) (files task action) := by
  apply Action.Asks.bind asks
  intro outcome _
  exact Action.asks_pure fun _ _ => trivial

theorem asks_forM {γ : Type} {values : List γ} {each : γ → Attempt PUnit}
    (asks : ∀ value ∈ values, Asks allowed (fun _ => True) (each value)) :
    Asks allowed (fun _ => True) (values.forM each) := by
  induction values with
  | nil => exact asks_pure trivial
  | cons value values inductionHypothesis =>
      rw [List.forall_mem_cons] at asks
      exact asks.1.bind fun _ _ => inductionHypothesis asks.2

end Attempt

/-! ## Requests that leave a directory alone -/

open FileTree (Apart)

namespace Request

variable {top : Location}

/-- That a request leaves alone what is at and below a place. -/
def Spares (top : Location) : Request → Prop
  | .createDirectory path => ∃ names, path.IsAt names ∧ ¬ top <+: names
  | .createFile path => ∃ names, path.IsAt names ∧ ¬ top <+: names
  | .write path _ => ∃ names, path.IsAt names ∧ ¬ top <+: names
  | .rename source target =>
      (∃ names, source.IsAt names ∧ Apart names top) ∧
        ∃ names, target.IsAt names ∧ Apart names top
  | .removeFile path => ∃ names, path.IsAt names ∧ Apart names top
  | .removeTree path => ∃ names, path.IsAt names ∧ Apart names top
  | _ => True

end Request

namespace World

/-- That a world has no links, and no slash among the letters for temporary names. -/
structure IsPlain (world : World) : Prop where
  isLinkFree : world.tree.IsLinkFree
  letters_plain : ∀ count, '/' ∉ (world.letters count).toList

variable {world : World} {top : Location}

theorem spares_change (plain : world.IsPlain)
    {operation : FileTree → Location → Except OsError FileTree}
    (spares : ∀ after, operation world.tree world.current = .ok after →
      FileTree.Spares top world.tree after) :
    FileTree.Spares top world.tree (world.change operation).2.tree := by
  unfold change
  split
  · rename_i after done
    exact spares after done
  · exact .refl plain.isLinkFree

/-- A request that leaves a directory alone does so. -/
theorem spares_answer (plain : world.IsPlain) {request : Request} (spares : request.Spares top) :
    FileTree.Spares top world.tree (world.answer request).2.tree := by
  cases request with
  | createDirectory path =>
      rcases spares with ⟨names, written, outside⟩
      apply spares_change plain
      exact fun after => FileTree.spares_createDirectory plain.isLinkFree written outside
  | createFile path =>
      rcases spares with ⟨names, written, outside⟩
      apply spares_change plain
      exact fun after => FileTree.spares_createFile plain.isLinkFree written outside
  | write path contents =>
      rcases spares with ⟨names, written, outside⟩
      apply spares_change plain
      exact fun after => FileTree.spares_write plain.isLinkFree written outside
  | rename source target =>
      rcases spares with ⟨⟨names, written, apart⟩, others, goal, goalApart⟩
      apply spares_change plain
      exact fun after => FileTree.spares_rename plain.isLinkFree written goal apart goalApart
  | removeFile path =>
      rcases spares with ⟨names, written, apart⟩
      apply spares_change plain
      exact fun after => FileTree.spares_removeFile plain.isLinkFree written apart
  | removeTree path =>
      rcases spares with ⟨names, written, apart⟩
      apply spares_change plain
      exact fun after => FileTree.spares_removeTree plain.isLinkFree written apart
  | _ => exact .refl plain.isLinkFree

theorem letters_answer (world : World) (request : Request) :
    (world.answer request).2.letters = world.letters := by
  have changed (operation : FileTree → Location → Except OsError FileTree) :
      (world.change operation).2.letters = world.letters := by
    unfold change
    split <;> rfl
  cases request with
  | createDirectory path => exact changed _
  | createFile path => exact changed _
  | write path contents => exact changed _
  | rename source target => exact changed _
  | removeFile path => exact changed _
  | removeTree path => exact changed _
  | _ => rfl

theorem mayGet_answer (plain : world.IsPlain) (request : Request) :
    request.MayGet (world.answer request).1 := by
  cases request with
  | randomLetters => exact plain.letters_plain world.lettersUsed
  | _ => trivial

end World

/-- An action whose requests leave a directory alone leaves it alone. -/
theorem Action.Asks.run {α : Type} {result : α → Prop} {top : Location} {action : Action α}
    (asks : action.Asks (Request.Spares top) result) {world : World} (plain : world.IsPlain) :
    result (action.run world).1 ∧ FileTree.Spares top world.tree (action.run world).2.tree := by
  induction asks generalizing world with
  | done holds => exact ⟨holds, .refl plain.isLinkFree⟩
  | @ask request next permitted _ inductionHypothesis =>
      have first := world.spares_answer plain permitted
      have still : (world.answer request).2.IsPlain := by
        refine ⟨first.isLinkFree, ?_⟩
        rw [world.letters_answer]
        exact plain.letters_plain
      rcases inductionHypothesis _ (world.mayGet_answer plain request) still with ⟨holds, later⟩
      exact ⟨holds, first.trans later⟩

end PackageResolution
