import PackageResolution.Action.Files
import PackageResolution.Proofs.Action.Asks

/-!
# Actions that move nothing

A package is published by moving its directory.  Directories and temporary ones are created, and
files written, without moving anything.
-/

namespace PackageResolution

/-- That a request moves nothing. -/
def Request.MovesNothing : Request → Prop
  | .rename _ _ => False
  | _ => True

namespace Action

variable {path directory : Path}

theorem movesNothing_leadsToDirectory (path : Path) :
    (leadsToDirectory path).Asks Request.MovesNothing fun _ => True := by
  apply asks_request_bind trivial
  rintro (refusal | answer) -
  · exact asks_pure trivial
  · exact asks_pure trivial

theorem movesNothing_createOne (path : Path) :
    (createOne path).Asks Request.MovesNothing fun _ => True := by
  apply asks_request_bind trivial
  rintro (refusal | ⟨⟩) -
  · apply (movesNothing_leadsToDirectory path).bind
    intro answer _
    exact asks_pure trivial
  · exact asks_pure trivial

theorem movesNothing_createChain (paths : List Path) :
    (createChain paths).Asks Request.MovesNothing fun _ => True := by
  induction paths with
  | nil => exact asks_pure trivial
  | cons path above inductionHypothesis =>
      rw [createChain]
      split
      · exact asks_pure trivial
      apply (movesNothing_createOne path).bind
      intro first _
      split
      · apply inductionHypothesis.bind
        intro others _
        split
        · exact asks_pure trivial
        · exact movesNothing_createOne path
      · exact asks_pure trivial

theorem movesNothing_createUnderFreshName (directory : Path) (stem : String) (count : Nat) :
    (createUnderFreshName directory stem (fun path => request (.createDirectory path)) count).Asks
      Request.MovesNothing fun _ => True := by
  induction count with
  | zero => exact asks_pure trivial
  | succ count inductionHypothesis =>
      apply asks_request_bind trivial
      intro letters _
      apply asks_request_bind trivial
      rintro (refusal | ⟨⟩) -
      · cases refusal with
        | «exists» => exact inductionHypothesis
        | _ => exact asks_pure trivial
      · exact asks_pure trivial

theorem movesNothing_createTemporaryDirectory (directory : Path) (stem : String) :
    (createTemporaryDirectory directory stem).Asks Request.MovesNothing fun _ => True := by
  unfold createTemporaryDirectory createTemporary
  split
  · exact movesNothing_createUnderFreshName _ _ _
  · apply asks_request_bind trivial
    rintro (refusal | current) -
    · exact asks_pure trivial
    · exact movesNothing_createUnderFreshName _ _ _

end Action

theorem Attempt.movesNothing_createDirectories (task : IoTask) (path : Path) :
    (createDirectories task path).Asks Request.MovesNothing fun _ => True :=
  asks_files (Action.movesNothing_createChain _)

end PackageResolution
