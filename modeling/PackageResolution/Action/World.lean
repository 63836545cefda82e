import PackageResolution.Action.Basic
import PackageResolution.FileTree.Change

/-!
# Worlds

A world is everything that answers requests: a tree of files with a working
directory, an environment, and servers whose answers may depend on what was asked
before.  It keeps what was asked and shown.  Running an action in a world gives the
action's result and the world after it.
-/

namespace PackageResolution

/-- What answers requests. -/
structure World where
  /-- The files. -/
  tree : FileTree
  /-- The working directory. -/
  current : Location
  /-- The settings of the environment. -/
  environment : List (String × String)
  /-- The answers of the servers to an address, given the addresses asked before. -/
  server : List String → String → Except FetchError ByteArray
  /-- The letters for temporary names, one text after the other. -/
  letters : Nat → String
  /-- How many of these texts were used. -/
  lettersUsed : Nat
  /-- The addresses that were asked for, in order. -/
  fetched : List String
  /-- The lines that were shown, in order. -/
  reported : List String
  /-- What was written to the output. -/
  printed : ByteArray

namespace World

/-- The answer of an operation that looks at the files. -/
def inspect {α : Type} (world : World)
    (operation : FileTree → Location → Except OsError α) : Except OsError α × World :=
  (operation world.tree world.current, world)

/-- The answer of an operation that changes the files, and the world after it. -/
def change (world : World) (operation : FileTree → Location → Except OsError FileTree) :
    Except OsError Unit × World :=
  match operation world.tree world.current with
  | .ok tree => (.ok (), { world with tree })
  | .error refusal => (.error refusal, world)

/-- The answer to a request, and the world after it. -/
def answer (world : World) : (request : Request) → request.Answer × World
  | .isDirectory path => world.inspect (·.isDirectory · path)
  | .read path => world.inspect (·.read · path)
  | .list path => world.inspect (·.list · path)
  | .canonical path => world.inspect (·.canonical · path)
  | .createDirectory path => world.change (·.createDirectory · path)
  | .createFile path => world.change (·.createFile · path)
  | .write path contents => world.change (·.write · path contents)
  | .rename source target => world.change (·.rename · source target)
  | .removeFile path => world.change (·.removeFile · path)
  | .removeTree path => world.change (·.removeTree · path)
  | .currentDirectory => (.ok (FileTree.pathOf world.current), world)
  | .randomLetters =>
      (world.letters world.lettersUsed, { world with lettersUsed := world.lettersUsed + 1 })
  | .variable name => (world.environment.lookup name, world)
  | .fetch url =>
      (world.server world.fetched url, { world with fetched := world.fetched ++ [url] })
  | .report line => ((), { world with reported := world.reported ++ [line] })
  | .print bytes => ((), { world with printed := world.printed ++ bytes })

end World

namespace Action

/-- The result of an action in a world, and the world after it. -/
def run {α : Type} : Action α → World → α × World
  | .done result, world => (result, world)
  | .ask request next, world =>
      let (answer, after) := world.answer request
      (next answer).run after

@[simp]
theorem run_done {α : Type} (result : α) (world : World) :
    (Action.done result).run world = (result, world) := rfl

theorem run_ask {α : Type} (request : Request) (next : request.Answer → Action α)
    (world : World) :
    (Action.ask request next).run world =
      (next (world.answer request).1).run (world.answer request).2 := rfl

/-- Actions one after the other run one after the other. -/
@[simp]
theorem run_bind {α β : Type} (action : Action α) (next : α → Action β) (world : World) :
    (action >>= next).run world =
      (next (action.run world).1).run (action.run world).2 := by
  induction action generalizing world with
  | done result => rfl
  | ask request rest inductionHypothesis =>
      rw [ask_bind, run_ask, inductionHypothesis]
      rfl

end Action

end PackageResolution
