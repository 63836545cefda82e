import PackageResolution.Proofs.Resolver.Run

/-!
# Sessions with a resolver

A session is a sequence of calls on one resolver.  Between two calls there is only what
the resolver remembers and the world, so a session is a walk through such states.

What is asked about an asset is answered from the package of the asset alone, once the
resolver has it: `Resolver.answer_asset` says so for every way of keeping packages, and
`StoredPackage.answer_held` gives the answers for packages in memory.
-/

namespace PackageResolution

/-- What can be asked about an asset. -/
inductive AssetQuestion
  /-- The contents, or also the listing of a directory. -/
  | bytes (allowsDirectory : Bool)
  /-- The names in a directory. -/
  | elements
  /-- Whether there is such an asset. -/
  | presence
  deriving DecidableEq, Repr

/-- What a resolver can be asked. -/
inductive Question
  | asset (asset : PackageAsset) (question : AssetQuestion)
  | metadata (package : PackageUri)
  | download (package : PackageUri)
  deriving DecidableEq, Repr

/-- A call on a resolver. -/
structure Call where
  /-- Whether somebody watches. -/
  progress : Progress
  /-- What is asked. -/
  question : Question
  deriving DecidableEq, Repr

/-- What a resolver answers. -/
inductive Answer
  | bytes (contents : ByteArray)
  | elements (elements : List PathElement)
  | presence (isPresent : Bool)
  | metadata (described : DescribedPackage)
  | downloaded

/-- The answer that the tree of a package gives. -/
def PackageTree.answer (tree : PackageTree) (asset : PackageAsset) :
    AssetQuestion → Result Answer
  | .bytes allowsDirectory =>
      match tree.kind? asset.relativePath with
      | none => .error (.assetNotFound asset.text)
      | some .file =>
          match tree.files.lookup asset.relativePath with
          | some contents => .ok (.bytes contents)
          | none => .error (.assetNotFound asset.relativePath)
      | some .directory =>
          if allowsDirectory then
            .ok (.bytes (Resolver.listing (tree.children asset.relativePath)))
          else .error (.isADirectory asset.text)
  | .elements =>
      match tree.kind? asset.relativePath with
      | none => .error (.assetNotFound asset.text)
      | some .file => .error (.notADirectory asset.text)
      | some .directory => .ok (.elements (tree.children asset.relativePath))
  | .presence => .ok (.presence (tree.kind? asset.relativePath).isSome)

/-- The answer that a package which is kept gives. -/
def StoredPackage.answer (package : StoredPackage) (asset : PackageAsset)
    (question : AssetQuestion) : Attempt Answer := do
  let kind ← package.kind? asset.relativePath
  match question with
  | .bytes allowsDirectory =>
      match kind with
      | none => throw (.assetNotFound asset.text)
      | some .file => return .bytes (← package.read asset.relativePath)
      | some .directory =>
          if allowsDirectory then
            return .bytes (Resolver.listing (← package.children asset.relativePath))
          else throw (.isADirectory asset.text)
  | .elements =>
      match kind with
      | none => throw (.assetNotFound asset.text)
      | some .file => throw (.notADirectory asset.text)
      | some .directory => return .elements (← package.children asset.relativePath)
  | .presence => return .presence kind.isSome

theorem StoredPackage.answer_held (tree : PackageTree) (asset : PackageAsset)
    (question : AssetQuestion) :
    (StoredPackage.held tree).answer asset question =
      Attempt.ofResult (tree.answer asset question) := by
  cases question with
  | bytes allowsDirectory =>
      simp only [answer, PackageTree.answer, kind?, read, children, pure_bind]
      cases tree.kind? asset.relativePath with
      | none => rfl
      | some kind =>
          cases kind with
          | file => cases tree.files.lookup asset.relativePath <;> rfl
          | directory => cases allowsDirectory <;> rfl
  | elements =>
      simp only [answer, PackageTree.answer, kind?, children, pure_bind]
      cases tree.kind? asset.relativePath with
      | none => rfl
      | some kind => cases kind <;> rfl
  | presence => rfl

namespace Resolver

variable [ArchiveReader]

/-- The answer of a resolver to a call. -/
def answer (resolver : Resolver) (call : Call) : Resolving Answer :=
  match call.question with
  | .asset asset (.bytes allowsDirectory) => do
      return .bytes (← resolver.getBytes call.progress asset allowsDirectory)
  | .asset asset .elements => do
      return .elements (← resolver.listElements call.progress asset)
  | .asset asset .presence => do
      return .presence (← resolver.hasElement call.progress asset)
  | .metadata package => do
      return .metadata (← resolver.dependencyMetadata call.progress package)
  | .download package => do
      resolver.downloadPackage call.progress package
      return .downloaded

/-- A question about an asset is answered from the package of the asset, if the asset may
be loaded. -/
theorem answer_asset (resolver : Resolver) (progress : Progress) (asset : PackageAsset)
    (question : AssetQuestion) :
    resolver.answer ⟨progress, .asset asset question⟩ = (do
      Resolving.ofResult (resolver.checkPackage asset.package asset.toUri)
      let stored ← resolver.package progress asset.package
      Resolving.ofAttempt (stored.answer asset question)) := by
  cases question with
  | bytes allowsDirectory =>
      simp only [answer, getBytes, locate, bind_assoc, pure_bind, StoredPackage.answer,
        Resolving.ofAttempt_bind]
      refine bind_congr fun permitted => bind_congr fun stored => bind_congr fun kind => ?_
      cases kind with
      | none => rfl
      | some kind =>
          cases kind with
          | file => simp only [Resolving.ofAttempt_bind, Resolving.ofAttempt_pure]
          | directory =>
              cases allowsDirectory with
              | false => rfl
              | true =>
                  simp only [if_true, bind_assoc, pure_bind, Resolving.ofAttempt_bind,
                    Resolving.ofAttempt_pure]
  | elements =>
      simp only [answer, listElements, locate, bind_assoc, pure_bind, StoredPackage.answer,
        Resolving.ofAttempt_bind]
      refine bind_congr fun permitted => bind_congr fun stored => bind_congr fun kind => ?_
      cases kind with
      | none => rfl
      | some kind =>
          cases kind with
          | file => rfl
          | directory => simp only [Resolving.ofAttempt_bind, Resolving.ofAttempt_pure]
  | presence =>
      simp only [answer, hasElement, locate, bind_assoc, pure_bind, StoredPackage.answer,
        Resolving.ofAttempt_bind, Resolving.ofAttempt_pure]

end Resolver

/-! ## Calls one after the other -/

/-- A resolver between two calls. -/
structure Session where
  /-- What the resolver remembers. -/
  memo : Memo
  /-- The world that the resolver works in. -/
  world : World

namespace Session

variable [ArchiveReader]

/-- The start of a session with a new resolver. -/
def opened (world : World) : Session :=
  { memo := .empty, world }

/-- The answer to a call, and the session after it. -/
def ask (session : Session) (resolver : Resolver) (call : Call) : Result Answer × Session :=
  let (result, memo, world) := (resolver.answer call).runIn session.memo session.world
  (result, { memo, world })

/-- The session after some calls. -/
def after (session : Session) (resolver : Resolver) : List Call → Session
  | [] => session
  | call :: rest => (session.ask resolver call).2.after resolver rest

@[simp]
theorem after_nil (session : Session) (resolver : Resolver) :
    session.after resolver [] = session := rfl

@[simp]
theorem after_cons (session : Session) (resolver : Resolver) (call : Call)
    (rest : List Call) :
    session.after resolver (call :: rest) =
      (session.ask resolver call).2.after resolver rest := rfl

end Session

end PackageResolution
