import PackageResolution.Action.World
import PackageResolution.Resolver

/-!
# Running resolvers in a world

What a resolver does is a tree of requests over the memory of the resolver.  Here it is
run in a world, and the equations below say how a run is put together from the runs of
its parts.

Whatever is done, a run never changes what the servers would answer and only adds to the
addresses that were asked for.
-/

namespace PackageResolution

namespace World

/-- The world without files and settings, in which no server has anything. -/
def empty : World where
  tree := .empty
  current := []
  environment := []
  server _ url := .error (.notFound url)
  letters count := toString count
  lettersUsed := 0
  fetched := []
  reported := []
  printed := .empty

/-- That a world has come from another one: the servers are the same, and what was asked
for is still known. -/
structure Continues (later earlier : World) : Prop where
  server_eq : later.server = earlier.server
  fetched_prefix : earlier.fetched <+: later.fetched

namespace Continues

theorem refl (world : World) : Continues world world :=
  ⟨rfl, List.prefix_refl _⟩

theorem trans {first second third : World} (later : third.Continues second)
    (earlier : second.Continues first) : third.Continues first :=
  ⟨later.server_eq.trans earlier.server_eq,
    earlier.fetched_prefix.trans later.fetched_prefix⟩

end Continues

theorem continues_answer (world : World) (request : Request) :
    (world.answer request).2.Continues world := by
  have changed (operation : FileTree → Location → Except OsError FileTree) :
      (world.change operation).2.Continues world := by
    unfold change
    split <;> exact ⟨rfl, List.prefix_refl _⟩
  cases request with
  | fetch url => exact ⟨rfl, List.prefix_append _ _⟩
  | createDirectory path => exact changed _
  | createFile path => exact changed _
  | write path contents => exact changed _
  | rename source target => exact changed _
  | removeFile path => exact changed _
  | removeTree path => exact changed _
  | _ => exact ⟨rfl, List.prefix_refl _⟩

end World

/-- An action leads to a world that continues the one before it. -/
theorem Action.continues_run {α : Type} (action : Action α) (world : World) :
    (action.run world).2.Continues world := by
  induction action generalizing world with
  | done result => exact .refl world
  | ask request next inductionHypothesis =>
      rw [Action.run_ask]
      exact (inductionHypothesis _ _).trans (world.continues_answer request)

/-- Looking whether a path leads to something changes nothing. -/
theorem Action.run_exists? (path : Path) (world : World) :
    (Action.exists? path).run world =
      ((world.tree.findNode true world.current path).isOk, world) := by
  have answered : (Action.request (.isDirectory path)).run world =
      ((world.tree.findNode true world.current path).map (·.2.isDirectory), world) := rfl
  rw [Action.exists?, Action.run_bind, answered]
  cases world.tree.findNode true world.current path <;> rfl

/-! ## Attempts -/

namespace Attempt

variable {α β : Type}

/-- The result of an attempt in a world, and the world after it. -/
def runIn (attempt : Attempt α) (world : World) : Result α × World :=
  attempt.run.run world

theorem continues_runIn (attempt : Attempt α) (world : World) :
    (attempt.runIn world).2.Continues world :=
  Action.continues_run _ _

@[simp]
theorem runIn_pure (value : α) (world : World) :
    (pure value : Attempt α).runIn world = (.ok value, world) := rfl

@[simp]
theorem runIn_throw (failure : Error) (world : World) :
    (throw failure : Attempt α).runIn world = (.error failure, world) := rfl

@[simp]
theorem runIn_ofResult (result : Result α) (world : World) :
    (ofResult result).runIn world = (result, world) := rfl

theorem runIn_bind (attempt : Attempt α) (next : α → Attempt β) (world : World) :
    (attempt >>= next).runIn world =
      match attempt.runIn world with
      | (.ok value, after) => (next value).runIn after
      | (.error failure, after) => (.error failure, after) := by
  simp only [runIn, ExceptT.run_bind, Action.run_bind]
  rcases attempt.run.run world with ⟨result, after⟩
  cases result with
  | ok value => rfl
  | error failure => rfl

/-- Where two attempts one after the other succeed, each of them does. -/
theorem exists_of_runIn_bind {attempt : Attempt α} {next : α → Attempt β} {value : β}
    {world after : World} (ran : (attempt >>= next).runIn world = (.ok value, after)) :
    ∃ first between, attempt.runIn world = (.ok first, between) ∧
      (next first).runIn between = (.ok value, after) := by
  rw [runIn_bind] at ran
  rcases firstRan : attempt.runIn world with ⟨result, between⟩
  rw [firstRan] at ran
  cases result with
  | error failure => exact nomatch congrArg Prod.fst ran
  | ok first => exact ⟨first, between, rfl, ran⟩

/-- What is followed by an attempt that fails everywhere fails. -/
theorem exists_failure_of_bind {next : α → Attempt β}
    (fails : ∀ value world, ∃ failure after, (next value).runIn world = (.error failure, after))
    (attempt : Attempt α) (world : World) :
    ∃ failure after, (attempt >>= next).runIn world = (.error failure, after) := by
  rw [runIn_bind]
  rcases attempt.runIn world with ⟨result, between⟩
  cases result with
  | ok value => exact fails value between
  | error failure => exact ⟨failure, between, rfl⟩

@[simp]
theorem runIn_lift (action : Action α) (world : World) :
    (liftM action : Attempt α).runIn world =
      (.ok (action.run world).1, (action.run world).2) := by
  change Action.run (action >>= fun value => Action.done (Except.ok value)) world = _
  rw [Action.run_bind]
  rfl

end Attempt

/-! ## Attempts that remember -/

namespace Resolving

variable {α β : Type}

/-- The result of an attempt with what is remembered before it, in a world: what is
remembered after it and the world after it as well. -/
def runIn (attempt : Resolving α) (memo : Memo) (world : World) : Result α × Memo × World :=
  (((attempt.run.run memo).run world).1.1, ((attempt.run.run memo).run world).1.2,
    ((attempt.run.run memo).run world).2)

@[simp]
theorem runIn_pure (value : α) (memo : Memo) (world : World) :
    (pure value : Resolving α).runIn memo world = (.ok value, memo, world) := rfl

@[simp]
theorem runIn_throw (failure : Error) (memo : Memo) (world : World) :
    (throw failure : Resolving α).runIn memo world = (.error failure, memo, world) := rfl

@[simp]
theorem runIn_ofResult (result : Result α) (memo : Memo) (world : World) :
    (ofResult result).runIn memo world = (result, memo, world) := rfl

@[simp]
theorem runIn_ofAttempt (attempt : Attempt α) (memo : Memo) (world : World) :
    (ofAttempt attempt).runIn memo world =
      ((attempt.runIn world).1, memo, (attempt.runIn world).2) := by
  have ran : ((StateT.lift attempt.run : StateT Memo Action (Result α)).run memo).run world =
      (((attempt.runIn world).1, memo), (attempt.runIn world).2) := by
    rw [StateT.run_lift, Action.run_bind]
    rfl
  simp only [runIn, ofAttempt, ExceptT.run_mk, ran]

theorem ofResult_ok_bind (value : α) (next : α → Resolving β) :
    (ofResult (.ok value) >>= next) = next value :=
  pure_bind value next

@[simp]
theorem ofAttempt_pure (value : α) : ofAttempt (pure value) = pure value := rfl

/-- Attempts one after the other remember nothing if none of them does. -/
theorem ofAttempt_bind (attempt : Attempt α) (next : α → Attempt β) :
    ofAttempt (attempt >>= next) = ofAttempt attempt >>= fun value => ofAttempt (next value) := by
  apply ExceptT.ext
  apply StateT.ext
  intro memo
  simp only [ofAttempt, ExceptT.run_mk, ExceptT.run_bind, StateT.run_lift, StateT.run_bind,
    bind_assoc, pure_bind]
  apply bind_congr
  intro result
  cases result with
  | ok value => rfl
  | error failure => rfl

theorem runIn_bind (attempt : Resolving α) (next : α → Resolving β) (memo : Memo)
    (world : World) :
    (attempt >>= next).runIn memo world =
      match attempt.runIn memo world with
      | (.ok value, memo, after) => (next value).runIn memo after
      | (.error failure, memo, after) => (.error failure, memo, after) := by
  simp only [runIn, ExceptT.run_bind, StateT.run_bind, Action.run_bind]
  rcases (attempt.run.run memo).run world with ⟨⟨result, memo⟩, after⟩
  cases result with
  | ok value => rfl
  | error failure => rfl

/-- Where two attempts one after the other succeed, each of them does. -/
theorem exists_of_runIn_bind {attempt : Resolving α} {next : α → Resolving β} {memo : Memo}
    {world : World} {value : β}
    (succeeds : ((attempt >>= next).runIn memo world).1 = .ok value) :
    ∃ first between after, attempt.runIn memo world = (.ok first, between, after) ∧
      ((next first).runIn between after).1 = .ok value := by
  rw [runIn_bind] at succeeds
  rcases ran : attempt.runIn memo world with ⟨result, between, after⟩
  rw [ran] at succeeds
  cases result with
  | error failure => exact nomatch succeeds
  | ok first => exact ⟨first, between, after, rfl, succeeds⟩

/-- What is known is not looked for again, and only what was found is remembered. -/
theorem runIn_remembering (known? : Memo → Option α) (record : α → Memo → Memo)
    (attempt : Attempt α) (memo : Memo) (world : World) :
    (remembering known? record attempt).runIn memo world =
      match known? memo with
      | some value => (.ok value, memo, world)
      | none =>
          match attempt.runIn world with
          | (.ok value, after) => (.ok value, record value memo, after)
          | (.error failure, after) => (.error failure, memo, after) := by
  have got : (get : Resolving Memo).runIn memo world = (.ok memo, memo, world) := rfl
  have modified (value : α) (after : World) :
      (modify (record value) : Resolving PUnit).runIn memo after =
        (.ok ⟨⟩, record value memo, after) := rfl
  rw [remembering, runIn_bind, got]
  cases known : known? memo with
  | some value => simp only [known, runIn_pure]
  | none =>
      simp only [known, runIn_bind, runIn_ofAttempt]
      rcases attempt.runIn world with ⟨result, after⟩
      cases result with
      | ok value => simp only [modified, runIn_pure]
      | error failure => rfl

end Resolving

end PackageResolution
