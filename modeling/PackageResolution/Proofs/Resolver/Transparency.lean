import PackageResolution.Proofs.Resolver.Integrity

/-!
# What is remembered does not show

Where the servers never change their answers, a resolver that keeps packages in memory
answers every call as if it were the first one.  What it answers is said by
`Site.answer`, which remembers nothing.

The memory stays faithful to the servers: whatever is remembered is what they would send
again.  `Resolving.Gives` says of an attempt that it has one result from every faithful
memory and leaves a faithful memory behind; one lemma for each way of putting attempts
together carries this to whole calls.
-/

namespace PackageResolution

/-! ## Servers that never change -/

/-- The answers of servers that never change. -/
abbrev Site := String → Except FetchError ByteArray

namespace Site

variable (site : Site)

/-- The document at an address, for a package. -/
def document (package : PackageUri) (url : String) : Result ByteArray :=
  (site url).mapError fun cause => .packageLoad (.download package.text cause)

/-- The metadata of an unpinned package. -/
def describe (package : PackageUri) : Result DescribedPackage := do
  Resolver.describe package (← site.document package package.metadataUrl)

/-- The metadata of a package, if it has the checksum that the package is pinned to. -/
def metadata (package : PackageUri) : Result DescribedPackage := do
  let described ← site.describe package.unpinned
  Resolver.checkPin package described
  return described

variable [ArchiveReader]

/-- The tree of an unpinned package with the given metadata. -/
def tree (package : PackageUri) (metadata : PackageMetadata) : Result PackageTree :=
  if Resolver.isSecure metadata.archiveUrl then do
    let archive ← site.document package metadata.archiveUrl
    Resolver.checkArchive package metadata archive
    Storage.treeOfArchive package archive
  else .error (.packageLoad (.insecureArchive package.text metadata.archiveUrl))

/-- The tree of a package. -/
def package (package : PackageUri) : Result PackageTree := do
  let described ← site.metadata package
  site.tree package.unpinned described.metadata

/-- The answer to a question, found without a memory. -/
def answer (security : Security) : Question → Result Answer
  | .asset asset question => do
      (Resolver.mk .memory security).checkPackage asset.package asset.toUri
      let tree ← site.package asset.package
      tree.answer asset question
  | .metadata package => do
      (Resolver.mk .memory security).checkPackage package package.toUri
      return .metadata (← site.metadata package)
  | .download package => do
      (Resolver.mk .memory security).checkPackage package package.toUri
      let _ ← site.package package
      return .downloaded

end Site

namespace World

/-- That the servers of a world are those of a site, whatever was asked for before. -/
def Serves (world : World) (site : Site) : Prop :=
  ∀ earlier url, world.server earlier url = site url

/-- The world with the servers of a site. -/
def serving (world : World) (site : Site) : World :=
  { world with server := fun _ => site }

variable {world after : World} {site : Site}

theorem serves_serving (world : World) (site : Site) : (world.serving site).Serves site :=
  fun _ _ => rfl

theorem Serves.continued (serves : world.Serves site) (continues : after.Continues world) :
    after.Serves site := by
  intro earlier url
  rw [continues.server_eq]
  exact serves earlier url

end World

/-! ## Faithful memories -/

/-- That the servers would send again what is remembered. -/
structure Memo.IsFaithful [ArchiveReader] (site : Site) (memo : Memo) : Prop where
  described : ∀ {package described}, memo.described.lookup package = some described →
    site.describe package = .ok described
  stored : ∀ {package stored}, memo.stored.lookup package = some stored →
    ∃ described tree, site.describe package = .ok described ∧
      site.tree package described.metadata = .ok tree ∧ stored = .held tree

namespace Memo.IsFaithful

variable [ArchiveReader]

variable {site : Site} {memo : Memo} {package : PackageUri} {described : DescribedPackage}

theorem empty (site : Site) : Memo.empty.IsFaithful site where
  described known := nomatch known
  stored known := nomatch known

theorem withDescribed (faithful : memo.IsFaithful site)
    (sent : site.describe package = .ok described) :
    IsFaithful site { memo with described := (package, described) :: memo.described } where
  described {other found} known := by
    by_cases same : other = package
    · subst same
      rw [List.lookup_cons_self, Option.some.injEq] at known
      rw [← known]
      exact sent
    · rw [Association.lookup_cons_of_ne same] at known
      exact faithful.described known
  stored known := faithful.stored known

theorem withStored (faithful : memo.IsFaithful site)
    (sent : site.describe package = .ok described) {tree : PackageTree}
    (loaded : site.tree package described.metadata = .ok tree) :
    IsFaithful site { memo with stored := (package, .held tree) :: memo.stored } where
  described known := faithful.described known
  stored {other found} known := by
    by_cases same : other = package
    · subst same
      rw [List.lookup_cons_self, Option.some.injEq] at known
      exact ⟨described, tree, sent, loaded, known.symm⟩
    · rw [Association.lookup_cons_of_ne same] at known
      exact faithful.stored known

end Memo.IsFaithful

namespace Resolver

variable {resolver : Resolver} {site : Site} {world : World}

theorem runIn_loadMetadata_of_serves (inMemory : resolver.storage = .memory)
    (serves : world.Serves site) (progress : Progress) (package : PackageUri) :
    ((resolver.loadMetadata progress package).runIn world).1 = site.describe package := by
  rw [runIn_loadMetadata inMemory, serves, Site.describe, Site.document]
  cases site package.metadataUrl with
  | error cause => rfl
  | ok document => rfl

theorem runIn_loadPackage_of_serves [ArchiveReader] (inMemory : resolver.storage = .memory)
    (serves : world.Serves site) (progress : Progress) (package : PackageUri)
    (metadata : PackageMetadata) :
    ((resolver.loadPackage progress package metadata).runIn world).1 =
      (site.tree package metadata).map .held := by
  rw [runIn_loadPackage inMemory, serves, Site.tree, Site.document]
  cases isSecure metadata.archiveUrl with
  | false => rfl
  | true =>
      cases site metadata.archiveUrl with
      | error cause => rfl
      | ok archive =>
          simp only [if_true, heldPackage, Except.mapError, Result.ok_bind]
          generalize checkArchive package metadata archive = checked
          generalize Storage.treeOfArchive package archive = opened
          cases checked with
          | error failure => rfl
          | ok permitted =>
              cases opened <;> rfl

end Resolver

/-! ## Attempts with one result -/

namespace Resolving

variable {α β γ : Type} {site : Site}

theorem continues_runIn (attempt : Resolving α) (memo : Memo) (world : World) :
    (attempt.runIn memo world).2.2.Continues world :=
  Action.continues_run (attempt.run.run memo) world

variable [ArchiveReader]

/-- That an attempt has one result from every faithful memory, and leaves a faithful one
behind. -/
def Gives (site : Site) (attempt : Resolving α) (result : Result α) : Prop :=
  ∀ memo world, memo.IsFaithful site → world.Serves site →
    (attempt.runIn memo world).1 = result ∧ (attempt.runIn memo world).2.1.IsFaithful site

namespace Gives

theorem ofResult (result : Result α) : Gives site (.ofResult result) result :=
  fun _ _ faithful _ => ⟨rfl, faithful⟩

theorem pure (value : α) : Gives site (Pure.pure value) (.ok value) :=
  fun _ _ faithful _ => ⟨rfl, faithful⟩

/-- One attempt after another, where the first one gives what is made of a result. -/
theorem bind_map {attempt : Resolving α} {next : α → Resolving β} {make : γ → α}
    {result : Result γ} {last : γ → Result β}
    (first : Gives site attempt (result.map make))
    (second : ∀ value, result = .ok value → Gives site (next (make value)) (last value)) :
    Gives site (attempt >>= next) (result >>= last) := by
  intro memo world faithful serves
  have continues := attempt.continues_runIn memo world
  obtain ⟨given, still⟩ := first memo world faithful serves
  rw [runIn_bind]
  rcases ran : attempt.runIn memo world with ⟨found, between, after⟩
  rw [ran] at given still continues
  obtain rfl : found = result.map make := given
  cases result with
  | error failure => exact ⟨rfl, still⟩
  | ok value => exact second value rfl between after still (serves.continued continues)

theorem bind {attempt : Resolving α} {next : α → Resolving β} {result : Result α}
    {last : α → Result β} (first : Gives site attempt result)
    (second : ∀ value, result = .ok value → Gives site (next value) (last value)) :
    Gives site (attempt >>= next) (result >>= last) := by
  have whole : result.map id = result := by cases result <;> rfl
  rw [← whole] at first
  exact first.bind_map second

/-- What is remembered is what would be loaded, and what is loaded may be remembered. -/
theorem remembering {known? : Memo → Option α} {record : α → Memo → Memo}
    {attempt : Attempt α} {result : Result α}
    (known : ∀ value memo, memo.IsFaithful site → known? memo = some value →
      result = .ok value)
    (loaded : ∀ world, world.Serves site → (attempt.runIn world).1 = result)
    (recorded : ∀ value memo, memo.IsFaithful site → result = .ok value →
      (record value memo).IsFaithful site) :
    Gives site (.remembering known? record attempt) result := by
  intro memo world faithful serves
  rw [runIn_remembering]
  cases remembered : known? memo with
  | some value => exact ⟨(known value memo faithful remembered).symm, faithful⟩
  | none =>
      have sent := loaded world serves
      rcases ran : attempt.runIn world with ⟨found, after⟩
      rw [ran] at sent
      obtain rfl : found = result := sent
      cases found with
      | error failure => exact ⟨rfl, faithful⟩
      | ok value => exact ⟨rfl, recorded value memo faithful rfl⟩

/-- What gives one result after its values were marked gives one result before. -/
theorem exists_of_map {attempt : Resolving α} {mark : α → β} {result : Result β}
    (gives : Gives site (attempt >>= fun value => Pure.pure (mark value)) result)
    (injective : Function.Injective mark) : ∃ value, Gives site attempt value := by
  have marked (memo : Memo) (world : World) (faithful : memo.IsFaithful site)
      (serves : world.Serves site) : (attempt.runIn memo world).1.map mark = result ∧
        (attempt.runIn memo world).2.1.IsFaithful site := by
    have given := gives memo world faithful serves
    rw [runIn_bind] at given
    rcases ran : attempt.runIn memo world with ⟨found, between, after⟩
    rw [ran] at given
    cases found with
    | error failure => exact given
    | ok value => exact given
  refine ⟨(attempt.runIn .empty (World.empty.serving site)).1, ?_⟩
  intro memo world faithful serves
  obtain ⟨here, still⟩ := marked memo world faithful serves
  have there := (marked _ _ (.empty site) (World.empty.serves_serving site)).1
  exact ⟨Result.map_injective injective (here.trans there.symm), still⟩

end Gives

end Resolving

/-! ## Calls -/

namespace Resolver

open Resolving (Gives)

variable {resolver : Resolver} {site : Site}

theorem gives_metadata [ArchiveReader] (inMemory : resolver.storage = .memory) (progress : Progress)
    (package : PackageUri) :
    Gives site (resolver.metadata progress package) (site.metadata package) := by
  refine .bind (.remembering ?_ ?_ ?_) fun described sent =>
    .bind (.ofResult _) fun _ _ => .pure described
  · intro described memo faithful remembered
    exact faithful.described remembered
  · intro world serves
    exact runIn_loadMetadata_of_serves inMemory serves progress package.unpinned
  · intro described memo faithful sent
    exact faithful.withDescribed sent

theorem describe_of_metadata {package : PackageUri} {described : DescribedPackage}
    (known : site.metadata package = .ok described) :
    site.describe package.unpinned = .ok described := by
  simp only [Site.metadata, Result.bind_eq_ok_iff, Result.pure_eq_ok_iff] at known
  obtain ⟨first, sent, -, -, rfl⟩ := known
  exact sent

theorem gives_package [ArchiveReader] (inMemory : resolver.storage = .memory) (progress : Progress)
    (package : PackageUri) :
    Gives site (resolver.package progress package) ((site.package package).map .held) := by
  have loads (described : DescribedPackage) (known : site.metadata package = .ok described) :
      Gives site (.remembering (fun memo => memo.stored.lookup package.unpinned)
        (fun stored memo =>
          { memo with stored := (package.unpinned, stored) :: memo.stored })
        (resolver.loadPackage progress package.unpinned described.metadata))
        ((site.tree package.unpinned described.metadata).map .held) := by
    have sent := describe_of_metadata known
    refine .remembering ?_ ?_ ?_
    · intro stored memo faithful remembered
      obtain ⟨other, tree, same, loaded, rfl⟩ := faithful.stored remembered
      obtain rfl : described = other := Except.ok.inj (sent.symm.trans same)
      rw [loaded]
      rfl
    · intro world serves
      exact runIn_loadPackage_of_serves inMemory serves progress _ _
    · intro stored memo faithful held
      obtain ⟨tree, loaded, rfl⟩ := Result.map_eq_ok_iff.mp held
      exact faithful.withStored sent loaded
  have whole := (gives_metadata inMemory progress package).bind loads
  have pushed : (site.package package).map .held =
      site.metadata package >>= fun described =>
        (site.tree package.unpinned described.metadata).map StoredPackage.held := by
    rw [Site.package]
    cases site.metadata package <;> rfl
  rw [pushed]
  exact whole

/-- A call is answered from the servers alone. -/
theorem gives_answer [ArchiveReader] (site : Site) (security : Security) (call : Call) :
    Gives site ((Resolver.mk .memory security).answer call)
      (site.answer security call.question) := by
  obtain ⟨progress, question⟩ := call
  have inMemory : (Resolver.mk .memory security).storage = .memory := rfl
  cases question with
  | asset asset question =>
      rw [answer_asset]
      refine .bind (.ofResult _) fun _ _ =>
        (gives_package inMemory progress asset.package).bind_map fun tree _ => ?_
      rw [StoredPackage.answer_held]
      exact .ofResult _
  | metadata package =>
      simp only [answer, dependencyMetadata, bind_assoc]
      exact .bind (.ofResult _) fun _ _ =>
        (gives_metadata inMemory progress package).bind fun described _ => .pure _
  | download package =>
      simp only [answer, downloadPackage, bind_assoc]
      exact .bind (.ofResult _) fun _ _ =>
        (gives_package inMemory progress package).bind_map fun tree _ => .pure _

end Resolver

/-! ## Inquiries -/

/-- What is asked of a resolver: a call, or the text of a file. -/
inductive Inquiry
  | call (call : Call)
  | text (progress : Progress) (asset : PackageAsset)

/-- What a resolver tells who asks. -/
inductive Reply
  | answer (answer : Answer)
  | text (text : String)

/-- The reply of a resolver. -/
def Resolver.reply [ArchiveReader] (resolver : Resolver) : Inquiry → Resolving Reply
  | .call call => do return .answer (← resolver.answer call)
  | .text progress asset => do return .text (← resolver.getText progress asset)

/-- The reply to a call is the answer of the servers. -/
theorem Resolver.gives_reply_call [ArchiveReader] (site : Site) (security : Security)
    (call : Call) :
    Resolving.Gives site ((Resolver.inMemory security).reply (.call call))
      ((site.answer security call.question).map .answer) := by
  have gives := (gives_answer site security call).bind fun answer _ =>
    .pure (Reply.answer answer)
  cases told : site.answer security call.question with
  | error failure =>
      rw [told] at gives
      exact gives
  | ok answer =>
      rw [told] at gives
      exact gives

/-- Every inquiry has one reply. -/
theorem Resolver.exists_gives_reply [ArchiveReader] (site : Site) (security : Security)
    (inquiry : Inquiry) :
    ∃ result, Resolving.Gives site ((Resolver.inMemory security).reply inquiry) result := by
  cases inquiry with
  | call call => exact ⟨_, gives_reply_call site security call⟩
  | text progress asset =>
      have marked := gives_answer site security ⟨progress, .asset asset (.bytes false)⟩
      obtain ⟨bytes, gives⟩ := marked.exists_of_map fun _ _ => Answer.bytes.inj
      have decoded : Resolving.Gives site ((Resolver.inMemory security).getText progress asset)
          (bytes >>= fun contents => (Utf8.decode contents.data.toList).mapError
            fun cause => .io (.decodeAsset asset.text) (.notText cause)) := by
        refine gives.bind fun contents _ => ?_
        cases Utf8.decode contents.data.toList with
        | ok text => exact .pure text
        | error cause => exact .ofResult _
      exact ⟨_, decoded.bind fun text _ => .pure _⟩

namespace Session

variable [ArchiveReader]

/-- The reply to an inquiry, and the session after it. -/
def inquire (session : Session) (resolver : Resolver) (inquiry : Inquiry) :
    Result Reply × Session :=
  let (result, memo, world) := (resolver.reply inquiry).runIn session.memo session.world
  (result, { memo, world })

/-- The session after some inquiries. -/
def following (session : Session) (resolver : Resolver) : List Inquiry → Session
  | [] => session
  | inquiry :: rest => (session.inquire resolver inquiry).2.following resolver rest

/-- That a session is one with the servers of a site, of which nothing false is
remembered. -/
structure IsFaithful (site : Site) (session : Session) : Prop where
  memo : session.memo.IsFaithful site
  world : session.world.Serves site

variable {site : Site} {session : Session}

theorem isFaithful_opened (world : World) (site : Site) :
    (opened (world.serving site)).IsFaithful site :=
  ⟨.empty site, world.serves_serving site⟩

theorem IsFaithful.inquire (faithful : session.IsFaithful site) (security : Security)
    (inquiry : Inquiry) :
    (session.inquire (.inMemory security) inquiry).2.IsFaithful site := by
  obtain ⟨result, gives⟩ := Resolver.exists_gives_reply site security inquiry
  exact ⟨(gives session.memo session.world faithful.memo faithful.world).2,
    faithful.world.continued (Resolving.continues_runIn _ _ _)⟩

theorem IsFaithful.following (faithful : session.IsFaithful site) (security : Security)
    (inquiries : List Inquiry) :
    (session.following (.inMemory security) inquiries).IsFaithful site := by
  induction inquiries generalizing session with
  | nil => exact faithful
  | cons inquiry rest inductionHypothesis =>
      exact inductionHypothesis (faithful.inquire security inquiry)

end Session

/-- What a resolver that keeps packages in memory replies to an inquiry does not depend on
the inquiries before it, nor on anything in the world but the servers: it replies as a new
resolver in another world with the same servers.  The answer to a call is the one that is
found without a memory. -/
theorem replies_forget_history [ArchiveReader] (security : Security) (site : Site)
    (world other : World) (inquiries : List Inquiry) :
    let resolver := Resolver.inMemory security
    let session := (Session.opened (world.serving site)).following resolver inquiries
    (∀ inquiry, (session.inquire resolver inquiry).1 =
      ((Session.opened (other.serving site)).inquire resolver inquiry).1) ∧
    ∀ call, (session.inquire resolver (.call call)).1 =
      (site.answer security call.question).map .answer := by
  intro resolver session
  have late : session.IsFaithful site :=
    (Session.isFaithful_opened world site).following security inquiries
  have fresh := Session.isFaithful_opened other site
  constructor
  · intro inquiry
    obtain ⟨result, gives⟩ := Resolver.exists_gives_reply site security inquiry
    exact (gives _ _ late.memo late.world).1.trans (gives _ _ fresh.memo fresh.world).1.symm
  · intro call
    exact (Resolver.gives_reply_call site security call _ _ late.memo late.world).1

end PackageResolution
