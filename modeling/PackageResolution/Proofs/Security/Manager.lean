import PackageResolution.Security

/-!
# The managers of the program

Whoever uses the library can decide in any way what is allowed.  The program itself brings
along two managers: one that allows everything and one that follows a policy.  What they
refuse is said to be refused, is no absolute identifier, or has a path that cannot be decoded.
-/

namespace PackageResolution

/-- The managers that the program brings along. -/
inductive Manager
  /-- Everything is allowed. -/
  | unrestricted
  /-- A policy decides. -/
  | standard (policy : Policy)
  deriving DecidableEq, Repr

/-- How a manager decides. -/
def Manager.security : Manager → Security
  | .unrestricted => .unrestricted
  | .standard policy => .standard policy

/-- A local file that cannot be named is no absolute identifier or has a path that cannot be
decoded. -/
theorem Uri.failure_of_toPath {uri : Uri} {failure : Error}
    (failed : uri.toPath = .error failure) :
    (∃ cause, failure = .invalidArgument cause) ∨ ∃ cause, failure = .malformedUri cause := by
  unfold toPath at failed
  split at failed
  · exact .inl ⟨_, (Except.error.inj failed).symm⟩
  split at failed
  · split at failed
    · exact nomatch failed
    · exact .inr ⟨_, (Except.error.inj failed).symm⟩
  · exact nomatch failed

theorem Uri.failure_of_confinedPath? {uri : Uri} {failure : Error}
    (failed : uri.confinedPath? = .error failure) :
    (∃ cause, failure = .invalidArgument cause) ∨ ∃ cause, failure = .malformedUri cause := by
  unfold confinedPath? at failed
  split at failed
  · exact failure_of_toPath failed
  split at failed
  · exact nomatch failed
  · exact nomatch failed

/-- What a policy does not allow is refused, is no absolute identifier or has a path that
cannot be decoded. -/
theorem Policy.failure_of_check {policy : Policy} {access : Access} {uri : Uri}
    {failure : Error} (failed : policy.check access uri = .error failure) :
    (∃ refusal, failure = .security refusal) ∨ (∃ cause, failure = .invalidArgument cause) ∨
      ∃ cause, failure = .malformedUri cause := by
  simp only [check, checkRootDirectory] at failed
  split at failed
  · split at failed
    · exact nomatch failed
    split at failed
    · rename_i lost
      obtain rfl := Except.error.inj failed
      exact .inr (Uri.failure_of_confinedPath? lost)
    · exact nomatch failed
    · split at failed
      · exact nomatch failed
      · exact .inl ⟨_, (Except.error.inj failed).symm⟩
  · exact .inl ⟨_, (Except.error.inj failed).symm⟩

theorem Manager.failure_of_checkModule {manager : Manager} {uri : Uri} {failure : Error}
    (failed : manager.security.checkModule uri = .error failure) :
    (∃ refusal, failure = .security refusal) ∨ (∃ cause, failure = .invalidArgument cause) ∨
      ∃ cause, failure = .malformedUri cause := by
  cases manager with
  | unrestricted => exact nomatch failed
  | standard policy => exact policy.failure_of_check failed

end PackageResolution
