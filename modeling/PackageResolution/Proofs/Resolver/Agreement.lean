import PackageResolution.Proofs.Resolver.Conduct
import PackageResolution.Proofs.Resolver.Transparency
import PackageResolution.Proofs.Storage.Interchange

/-!
# Sessions that agree

Two sessions can be related such that whatever is asked about a package has one reply in both and
leaves them related.  It is enough that this is so of the metadata of the package and of the package
itself, because the rest of a reply only looks at files.
-/

namespace PackageResolution

/-! ## Attempts that only look -/

/-- That an attempt leaves the world as it is. -/
def Attempt.IsStill {α : Type} (attempt : Attempt α) : Prop :=
  ∀ world, (attempt.runIn world).2 = world

namespace StoredPackage

variable (stored : StoredPackage) (path : String)

theorem isStill_kind? : (stored.kind? path).IsStill := by
  cases stored with
  | held tree => exact fun _ => rfl
  | extracted root =>
      intro world
      rw [runIn_kind?]

theorem isStill_read : (stored.read path).IsStill := by
  intro world
  cases stored with
  | held tree =>
      rw [read]
      split <;> rfl
  | extracted root =>
      rw [read, Attempt.runIn_files]
      rfl

theorem isStill_children : (stored.children path).IsStill := by
  intro world
  cases stored with
  | held tree => rfl
  | extracted root =>
      have asked : (Action.request (.list (placeOf root path))).run world =
          (world.tree.list world.current (placeOf root path), world) := rfl
      rw [children, Attempt.runIn_bind, Attempt.runIn_files, asked]
      cases world.tree.list world.current (placeOf root path) <;> rfl

end StoredPackage

/-! ## Attempts that agree -/

namespace Resolving

variable {α β : Type} {related : Session → Session → Prop}

/-- The session after an attempt. -/
def leave (attempt : Resolving α) (session : Session) : Session :=
  ⟨(attempt.runIn session.memo session.world).2.1, (attempt.runIn session.memo session.world).2.2⟩

/-- That an attempt has one result in two related sessions and leaves them related. -/
def Agrees (related : Session → Session → Prop) (attempt : Resolving α) : Prop :=
  ∀ first second, related first second →
    (attempt.runIn first.memo first.world).1 = (attempt.runIn second.memo second.world).1 ∧
      related (attempt.leave first) (attempt.leave second)

namespace Agrees

theorem ofResult (result : Result α) : Agrees related (.ofResult result) :=
  fun _ _ same => ⟨rfl, same⟩

theorem pure (value : α) : Agrees related (Pure.pure value) :=
  fun _ _ same => ⟨rfl, same⟩

theorem throw (failure : Error) : Agrees related (MonadExcept.throw failure : Resolving α) :=
  fun _ _ same => ⟨rfl, same⟩

theorem ofAttempt (world_eq : ∀ first second, related first second → first.world = second.world)
    {attempt : Attempt α} (still : attempt.IsStill) : Agrees related (.ofAttempt attempt) := by
  intro first second same
  have left (session : Session) : (Resolving.ofAttempt attempt).leave session = session := by
    rw [leave, runIn_ofAttempt, still]
  rw [left, left, runIn_ofAttempt, runIn_ofAttempt, world_eq first second same]
  exact ⟨rfl, same⟩

theorem bind {attempt : Resolving α} {next : α → Resolving β} (first : Agrees related attempt)
    (second : ∀ value, Agrees related (next value)) : Agrees related (attempt >>= next) := by
  intro one other same
  obtain ⟨result, later⟩ := first one other same
  rw [leave, leave] at later
  rw [leave, leave, runIn_bind, runIn_bind]
  generalize attempt.runIn one.memo one.world = ran at result later ⊢
  generalize attempt.runIn other.memo other.world = otherRan at result later ⊢
  obtain ⟨found, memo, world⟩ := ran
  obtain ⟨otherFound, otherMemo, otherWorld⟩ := otherRan
  obtain rfl : found = otherFound := result
  cases found with
  | error failure => exact ⟨rfl, later⟩
  | ok value => exact second value _ _ later

/-- What has one result in all sessions of a kind agrees in any two of them. -/
theorem of_forall {kind : Session → Prop} {attempt : Resolving α} {result : Result α}
    (each : ∀ session, kind session →
      (attempt.runIn session.memo session.world).1 = result ∧ kind (attempt.leave session)) :
    Agrees (fun first second => kind first ∧ kind second) attempt := by
  rintro first second ⟨here, there⟩
  obtain ⟨given, later⟩ := each first here
  obtain ⟨same, laterToo⟩ := each second there
  exact ⟨given.trans same.symm, later, laterToo⟩

end Agrees

end Resolving

/-! ## Replies that agree -/

open Resolving (Agrees)

/-- The package that an inquiry is about. -/
def Inquiry.package : Inquiry → PackageUri
  | .call asked => asked.question.package
  | .text _ asset => asset.package

namespace Resolver

variable [ArchiveReader]

/-- That the metadata of a package and the package itself are the same in two related sessions, and
their worlds as well. -/
structure IsSimulation (resolver : Resolver) (package : PackageUri)
    (related : Session → Session → Prop) : Prop where
  world_eq : ∀ first second, related first second → first.world = second.world
  metadata : ∀ progress other, other.unpinned = package →
    Agrees related (resolver.metadata progress other)
  package : ∀ progress other, other.unpinned = package →
    Agrees related (resolver.package progress other)

variable {resolver : Resolver} {package : PackageUri} {related : Session → Session → Prop}

namespace IsSimulation

variable (simulation : resolver.IsSimulation package related) (progress : Progress)
  {asset : PackageAsset}

include simulation

theorem agrees_locate (about : asset.package.unpinned = package) :
    Agrees related (resolver.locate progress asset) :=
  .bind (.ofResult _) fun _ => .bind (simulation.package progress _ about) fun stored =>
    .bind (.ofAttempt simulation.world_eq (stored.isStill_kind? _)) fun kind => .pure (stored, kind)

theorem agrees_getBytes (about : asset.package.unpinned = package) (allowsDirectory : Bool) :
    Agrees related (resolver.getBytes progress asset allowsDirectory) := by
  refine .bind (simulation.agrees_locate progress about) fun ⟨stored, kind⟩ => ?_
  cases kind with
  | none => exact .throw _
  | some kind =>
      cases kind with
      | file => exact .ofAttempt simulation.world_eq (stored.isStill_read _)
      | directory =>
          cases allowsDirectory with
          | false => exact .throw _
          | true =>
              exact .bind (.ofAttempt simulation.world_eq (stored.isStill_children _))
                fun elements => .pure _

theorem agrees_getText (about : asset.package.unpinned = package) :
    Agrees related (resolver.getText progress asset) := by
  refine .bind (simulation.agrees_getBytes progress about false) fun bytes => ?_
  cases Utf8.decode bytes.data.toList with
  | ok text => exact .pure text
  | error cause => exact .throw _

theorem agrees_listElements (about : asset.package.unpinned = package) :
    Agrees related (resolver.listElements progress asset) := by
  refine .bind (simulation.agrees_locate progress about) fun ⟨stored, kind⟩ => ?_
  cases kind with
  | none => exact .throw _
  | some kind =>
      cases kind with
      | file => exact .throw _
      | directory => exact .ofAttempt simulation.world_eq (stored.isStill_children _)

theorem agrees_hasElement (about : asset.package.unpinned = package) :
    Agrees related (resolver.hasElement progress asset) :=
  .bind (simulation.agrees_locate progress about) fun _ => .pure _

theorem agrees_answer {call : Call} (about : call.question.package.unpinned = package) :
    Agrees related (resolver.answer call) := by
  obtain ⟨progress, question⟩ := call
  cases question with
  | asset asset question =>
      cases question with
      | bytes allowsDirectory =>
          exact .bind (simulation.agrees_getBytes progress about allowsDirectory) fun _ => .pure _
      | elements => exact .bind (simulation.agrees_listElements progress about) fun _ => .pure _
      | presence => exact .bind (simulation.agrees_hasElement progress about) fun _ => .pure _
  | metadata other =>
      exact .bind (.bind (.ofResult _) fun _ => simulation.metadata progress other about)
        fun _ => .pure _
  | download other =>
      exact .bind (.bind (.ofResult _) fun _ =>
        .bind (simulation.package progress other about) fun _ => .pure _) fun _ => .pure _

/-- A reply about the package is the same in related sessions and leaves them related. -/
theorem agrees_reply {inquiry : Inquiry} (about : inquiry.package.unpinned = package) :
    Agrees related (resolver.reply inquiry) := by
  cases inquiry with
  | call call => exact .bind (simulation.agrees_answer about) fun _ => .pure _
  | text progress asset => exact .bind (simulation.agrees_getText progress about) fun _ => .pure _

/-- Inquiries about the package leave related sessions related. -/
theorem following {first second : Session} (same : related first second) {inquiries : List Inquiry}
    (about : ∀ inquiry ∈ inquiries, inquiry.package.unpinned = package) :
    related (first.following resolver inquiries) (second.following resolver inquiries) := by
  induction inquiries generalizing first second with
  | nil => exact same
  | cons inquiry rest inductionHypothesis =>
      have here := simulation.agrees_reply (about inquiry List.mem_cons_self)
      exact inductionHypothesis (here first second same).2
        fun other member => about other (List.mem_cons_of_mem _ member)

end IsSimulation

end Resolver

end PackageResolution
