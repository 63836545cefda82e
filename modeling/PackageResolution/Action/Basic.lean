import PackageResolution.Error
import PackageResolution.Path

/-!
# Actions

Resolution reads and changes files, asks servers for documents and reports its
progress.  An action is the tree of what it does: either it is done, or it makes a
request and goes on according to the answer.  What answers the requests is left
open: the command line lets the system answer them, and `World` answers them from a
description of files and servers.

An `Attempt` is an action that can fail with an `Error`.
-/

namespace PackageResolution

/-- What an action can ask for. -/
inductive Request
  /-- Whether a path leads to a directory. -/
  | isDirectory (path : Path)
  /-- The contents of a file. -/
  | read (path : Path)
  /-- The names in a directory, each with whether it is a directory itself. -/
  | list (path : Path)
  /-- The absolute path without links that a path leads to. -/
  | canonical (path : Path)
  /-- That an empty directory be created. -/
  | createDirectory (path : Path)
  /-- That an empty file be created. -/
  | createFile (path : Path)
  /-- That a file be written, instead of what it held before. -/
  | write (path : Path) (contents : ByteArray)
  /-- That something be moved. -/
  | rename (source target : Path)
  /-- That a file be removed. -/
  | removeFile (path : Path)
  /-- That a directory be removed with everything in it. -/
  | removeTree (path : Path)
  /-- The working directory. -/
  | currentDirectory
  /-- Letters that nobody else is likely to choose. -/
  | randomLetters
  /-- A setting of the environment. -/
  | variable (name : String)
  /-- The document at an address. -/
  | fetch (url : String)
  /-- That a line be shown to whoever watches. -/
  | report (line : String)
  /-- That bytes be written to the output. -/
  | print (bytes : ByteArray)

/-- What answers a request. -/
@[reducible]
def Request.Answer : Request → Type
  | .isDirectory _ => Except OsError Bool
  | .read _ => Except OsError ByteArray
  | .list _ => Except OsError (List (String × Bool))
  | .canonical _ => Except OsError Path
  | .createDirectory _ => Except OsError Unit
  | .createFile _ => Except OsError Unit
  | .write _ _ => Except OsError Unit
  | .rename _ _ => Except OsError Unit
  | .removeFile _ => Except OsError Unit
  | .removeTree _ => Except OsError Unit
  | .currentDirectory => Except OsError Path
  | .randomLetters => String
  | .variable _ => Option String
  | .fetch _ => Except FetchError ByteArray
  | .report _ => Unit
  | .print _ => Unit

/-- An action with a result. -/
inductive Action (α : Type) : Type
  /-- The action is done. -/
  | done (result : α)
  /-- A request, and how to go on after its answer. -/
  | ask (request : Request) (next : request.Answer → Action α)

namespace Action

/-- One action and then another that depends on its result. -/
def andThen {α β : Type} : Action α → (α → Action β) → Action β
  | .done result, next => next result
  | .ask request rest, next => .ask request fun answer => (rest answer).andThen next

instance : Monad Action where
  pure := .done
  bind := andThen

@[simp]
theorem pure_eq_done {α : Type} (result : α) : (pure result : Action α) = .done result := rfl

@[simp]
theorem done_bind {α β : Type} (result : α) (next : α → Action β) :
    (Action.done result >>= next) = next result := rfl

@[simp]
theorem ask_bind {α β : Type} (request : Request) (rest : request.Answer → Action α)
    (next : α → Action β) :
    (Action.ask request rest >>= next) = .ask request fun answer => rest answer >>= next := rfl

theorem bind_done {α : Type} (action : Action α) : (action >>= Action.done) = action := by
  induction action with
  | done result => rfl
  | ask request rest inductionHypothesis =>
      simp only [ask_bind]
      exact congrArg (Action.ask request) (funext inductionHypothesis)

theorem bind_bind {α β γ : Type} (action : Action α) (next : α → Action β)
    (last : β → Action γ) :
    (action >>= next >>= last) = action >>= fun result => next result >>= last := by
  induction action with
  | done result => rfl
  | ask request rest inductionHypothesis =>
      simp only [ask_bind]
      exact congrArg (Action.ask request) (funext inductionHypothesis)

instance : LawfulMonad Action :=
  LawfulMonad.mk' _ (fun action => bind_done action) (fun _ _ => rfl)
    (fun action next last => bind_bind action next last)

/-- The action that makes one request. -/
def request (request : Request) : Action request.Answer :=
  .ask request .done

end Action

/-- An action that can fail. -/
abbrev Attempt := ExceptT Error Action

namespace Attempt

/-- The attempt that has a result, or has failed. -/
def ofResult {α : Type} (result : Result α) : Attempt α :=
  ExceptT.mk (pure result)

/-- The attempt to do something with files, where a refusal is a failure of
`task`. -/
def files {α : Type} (task : IoTask) (action : Action (Except OsError α)) : Attempt α :=
  ExceptT.mk (action.andThen fun answer =>
    pure (answer.mapError fun refusal => .io task (.refused refusal)))

end Attempt

end PackageResolution
