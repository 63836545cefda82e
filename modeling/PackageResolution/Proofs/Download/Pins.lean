import PackageResolution.Archive.Zip
import PackageResolution.CommandLine.Run
import PackageResolution.Proofs.Resolver.Findings
import PackageResolution.Proofs.Storage.Keeping

/-!
# The pins of downloaded packages

Packages are downloaded one after the other, each with what its metadata lists, and a
package that was met before is passed over whatever pin it comes with.  So the pin that is
compared is the one under which a package is met first.  `Downloads.Meets` tells the order
in which packages are met, and `Downloads.Round` what is known of it after downloading has
succeeded.

The pin of a package that metadata lists is the checksum beside it: what its identifier
says of a pin does not count.
-/

namespace PackageResolution

namespace Downloads

/-! ## The packages that are met -/

/-- That meeting a package leads from one state of downloading to another: a package that was
seen is passed over, and for any other one `lists` tells what it brings along. -/
inductive Step (lists : PackageUri → List PackageUri → Prop) (downloads : Downloads)
    (package : PackageUri) : Downloads → Prop
  | again (known : package.unpinned ∈ downloads.seen) : Step lists downloads package downloads
  | first {listed : List PackageUri} (unknown : package.unpinned ∉ downloads.seen)
      (demands : lists package listed) : Step lists downloads package
        ⟨listed.reverse ++ downloads.pending, package.unpinned :: downloads.seen⟩

/-- That packages are met in this order until nothing is pending. -/
inductive Meets (lists : PackageUri → List PackageUri → Prop) : Downloads → List PackageUri → Prop
  | done (seen : List PackageUri) : Meets lists ⟨[], seen⟩ []
  | step {package : PackageUri} {rest seen met : List PackageUri} {next : Downloads}
      (first : Step lists ⟨rest, seen⟩ package next) (more : Meets lists next met) :
      Meets lists ⟨package :: rest, seen⟩ (package :: met)

section

variable {lists other : PackageUri → List PackageUri → Prop} {downloads next : Downloads}
  {before after met : List PackageUri} {package : PackageUri}

theorem Step.imp (implies : ∀ package listed, lists package listed → other package listed)
    (step : Step lists downloads package next) : Step other downloads package next := by
  cases step with
  | again known => exact .again known
  | first unknown demands => exact .first unknown (implies _ _ demands)

namespace Meets

theorem imp (implies : ∀ package listed, lists package listed → other package listed)
    (meets : Meets lists downloads met) : Meets other downloads met := by
  induction meets with
  | done seen => exact .done seen
  | step first _ inductionHypothesis => exact .step (first.imp implies) inductionHypothesis

/-- What is pending is met. -/
theorem pending_sublist (meets : Meets lists downloads met) : downloads.pending.Sublist met := by
  induction meets with
  | done seen => exact .slnil
  | step first _ inductionHypothesis =>
      apply List.Sublist.cons_cons
      cases first with
      | again known => exact inductionHypothesis
      | first unknown demands =>
          exact (List.sublist_append_right _ _).trans inductionHypothesis

/-- A package that is met was pending, or is brought along by one that was met before. -/
theorem demanded (meets : Meets lists downloads met) (split : met = before ++ package :: after) :
    package ∈ downloads.pending ∨
      ∃ earlier ∈ before, ∃ listed, lists earlier listed ∧ package ∈ listed := by
  induction meets generalizing before with
  | done seen => exact absurd split (by simp)
  | @step head rest seen met next first more inductionHypothesis =>
      cases before with
      | nil => exact .inl (by rw [(List.cons.inj split).1]; exact List.mem_cons_self)
      | cons other before =>
          obtain ⟨rfl, later⟩ := List.cons.inj split
          rcases inductionHypothesis later with pending | ⟨earlier, among, demanded⟩
          · cases first with
            | again known => exact .inl (List.mem_cons_of_mem _ pending)
            | first unknown demands =>
                rcases List.mem_append.mp pending with brought | pending
                · exact .inr ⟨head, List.mem_cons_self, _, demands, List.mem_reverse.mp brought⟩
                · exact .inl (List.mem_cons_of_mem _ pending)
          · exact .inr ⟨earlier, List.mem_cons_of_mem _ among, demanded⟩

/-- A package that is met for the first time brings along what is met later. -/
theorem brings (meets : Meets lists downloads met) (split : met = before ++ package :: after)
    (unseen : package.unpinned ∉ downloads.seen)
    (fresh : ∀ earlier ∈ before, earlier.unpinned ≠ package.unpinned) :
    ∃ listed, lists package listed ∧ listed.reverse.Sublist after := by
  induction meets generalizing before with
  | done seen => exact absurd split (by simp)
  | @step head rest seen met next first more inductionHypothesis =>
      cases before with
      | nil =>
          obtain ⟨rfl, rfl⟩ := List.cons.inj split
          cases first with
          | again known => exact absurd known unseen
          | first unknown demands =>
              exact ⟨_, demands, (List.sublist_append_left _ _).trans more.pending_sublist⟩
      | cons other before =>
          obtain ⟨rfl, later⟩ := List.cons.inj split
          have freshLater := fun earlier among => fresh earlier (List.mem_cons_of_mem _ among)
          refine inductionHypothesis later ?_ freshLater
          cases first with
          | again known => exact unseen
          | first unknown demands =>
              rw [List.mem_cons, not_or]
              exact ⟨(fresh head List.mem_cons_self).symm, unseen⟩

end Meets

end

end Downloads

/-! ## Downloading meets packages -/

/-- That the metadata of a package is known in a session and agrees with its pin, and that it
lists some packages. -/
def Session.Lists (session : Session) (package : PackageUri) (listed : List PackageUri) : Prop :=
  ∃ described, session.Accepts package described ∧
    described.metadata.listedPackages = .ok listed

theorem Session.Lists.of_extends {later earlier : Session} {package : PackageUri}
    {listed : List PackageUri} (grown : later.memo.Extends earlier.memo)
    (lists : earlier.Lists package listed) : later.Lists package listed := by
  obtain ⟨described, ⟨known, pinned⟩, read⟩ := lists
  exact ⟨described, ⟨grown.described known, pinned⟩, read⟩

namespace Downloads

open Resolver (Attains)

variable (resolver : Resolver) (progress : Progress)

/-- What a package brings along is what its metadata lists. -/
theorem attains_broughtAlong [ArchiveReader] (package : PackageUri) :
    Attains resolver (fun _ => True) (broughtAlong (resolver.downloader progress) true package)
      fun listed session => session.Lists package listed := by
  have read (metadata : PackageMetadata) :
      (MonadExcept.ofExcept metadata.listedPackages : Resolving (List PackageUri)) =
        .ofResult metadata.listedPackages := by
    cases metadata.listedPackages <;> rfl
  refine .bind (fun metadata session => ∃ described, described.metadata = metadata ∧
    session.Accepts package described) ?described fun metadata => ?listed
  case described =>
    exact .bind _ (resolver.attains_dependencyMetadata .unwatched package) fun described =>
      .pure fun session accepted => ⟨described, rfl, accepted⟩
  case listed =>
    rw [read]
    refine .ofResult ?_
    rintro listed session ⟨described, rfl, accepted⟩ lists
    exact ⟨described, accepted, lists⟩

theorem attains_meet [ArchiveReader] (downloads : Downloads) (package : PackageUri) :
    Attains resolver (fun _ => True) (downloads.meet (resolver.downloader progress) true package)
      fun next session => Step session.Lists downloads package next := by
  unfold meet
  by_cases known : package.unpinned ∈ downloads.seen
  · rw [if_pos (List.contains_iff_mem.mpr known)]
    exact .pure fun session _ => .again known
  · rw [if_neg (List.contains_iff_mem.not.mpr known)]
    have downloaded := (resolver.attains_downloadPackage progress package).imp
      (fun _ => id) (fun _ _ _ => trivial)
    exact .bind (fun _ _ => True) downloaded fun _ =>
      .bind _ (attains_broughtAlong resolver progress package) fun listed =>
        .pure fun session lists => .first known lists

/-- Downloading that comes to its end has met packages until nothing was pending. -/
theorem attains_run [ArchiveReader] (steps : Nat) (downloads : Downloads) :
    Attains resolver (fun _ => True) (run (resolver.downloader progress) true steps downloads)
      fun ended session => ended = true → ∃ met, Meets session.Lists downloads met := by
  induction steps generalizing downloads with
  | zero => exact .pure fun _ _ other => nomatch other
  | succ steps inductionHypothesis =>
      rcases downloads with ⟨_ | ⟨package, rest⟩, seen⟩
      · exact .pure fun _ _ _ => ⟨[], .done seen⟩
      · refine .bind _ (attains_meet resolver progress ⟨rest, seen⟩ package) fun next => ?_
        refine ((inductionHypothesis next).lasting fun grown step =>
          step.imp fun _ _ => .of_extends grown).imp (fun _ step => ⟨trivial, step⟩) ?_
        rintro ended session ⟨goesOn, step⟩ done
        obtain ⟨more, meets⟩ := goesOn done
        exact ⟨package :: more, .step step meets⟩

/-! ## What downloading has verified -/

/-- What is known of packages that were asked for and of those that were met on their account,
if `verifies` tells that a package was verified and what its metadata lists. -/
structure Round (verifies : PackageUri → List PackageUri → Prop) (packages met : List PackageUri) :
    Prop where
  /-- What was asked for is met, the last one first. -/
  asked : packages.reverse.Sublist met
  /-- What is met was asked for or is listed by a package that was met before. -/
  demanded : ∀ before package after, met = before ++ package :: after →
    package ∈ packages ∨ ∃ earlier ∈ before, ∃ listed, verifies earlier listed ∧ package ∈ listed
  /-- A package is verified under the pin with which it is met first, and what its metadata
  lists is met later. -/
  verified : ∀ before package after, met = before ++ package :: after →
    (∀ earlier ∈ before, earlier.unpinned ≠ package.unpinned) →
      ∃ listed, verifies package listed ∧ listed.reverse.Sublist after

theorem Meets.round {verifies : PackageUri → List PackageUri → Prop} {packages met : List PackageUri}
    (meets : Meets verifies (.start packages) met) : Round verifies packages met where
  asked := meets.pending_sublist
  demanded before package after split := by
    rcases meets.demanded split with pending | brought
    · exact .inl (List.mem_reverse.mp pending)
    · exact .inr brought
  verified before package after split fresh := meets.brings split List.not_mem_nil fresh

end Downloads

section

variable {resolver : Resolver} {moments : World → Prop} {start finish : World}
  {package other : PackageUri} {listed packages met : List PackageUri}

/-- That a document of a package was found which agrees with the pin of the package, and that
its metadata lists some packages. -/
def Resolver.Verifies (resolver : Resolver) (moments : World → Prop) (start finish : World)
    (package : PackageUri) (listed : List PackageUri) : Prop :=
  ∃ document metadata, resolver.Finds moments start finish package.unpinned document ∧
    PackageMetadata.parse document = .ok metadata ∧
    (∀ pin, package.pin = some pin → pin.agrees (.ofDocument document) = true) ∧
    metadata.listedPackages = .ok listed

/-- Only the package and its pin count. -/
theorem Resolver.Verifies.congr (verifies : resolver.Verifies moments start finish package listed)
    (same : package.unpinned = other.unpinned) (pinned : package.pin = other.pin) :
    resolver.Verifies moments start finish other listed := by
  obtain ⟨document, metadata, finds, parsed, agrees, lists⟩ := verifies
  exact ⟨document, metadata, same ▸ finds, parsed, pinned ▸ agrees, lists⟩

/-- What a session that began with a new resolver knows of a package was verified. -/
theorem Session.Follows.verifies {session : Session}
    (follows : session.Follows resolver moments (.opened start))
    (lists : session.Lists package listed) :
    resolver.Verifies moments start session.world package listed := by
  obtain ⟨described, ⟨known, accepted⟩, lists⟩ := lists
  rcases follows.found known with remembered | ⟨document, finds, read⟩
  · exact nomatch remembered
  · obtain ⟨parsed, computed⟩ := Resolver.describe_eq_ok_iff.mp read
    refine ⟨document, described.metadata, finds, parsed, ?_, lists⟩
    intro pin pinned
    rw [← computed]
    exact Resolver.checkPin_eq_ok_iff.mp accepted pin pinned

/-- Where a package is always demanded with the same pin, every pin is verified. -/
theorem Downloads.Round.verifies_of_agreeing
    (round : Round (resolver.Verifies moments start finish) packages met)
    (agreeing : ∀ first ∈ met, ∀ second ∈ met, first.unpinned = second.unpinned →
      first.pin = second.pin)
    (member : package ∈ met) :
    ∃ listed, resolver.Verifies moments start finish package listed ∧ ∀ other ∈ listed,
      other ∈ met := by
  obtain ⟨first, found⟩ : ∃ first, met.find? (·.unpinned = package.unpinned) = some first :=
    Option.isSome_iff_exists.mp (List.find?_isSome.mpr ⟨package, member, by simp⟩)
  obtain ⟨same, before, after, split, fresh⟩ := List.find?_eq_some_iff_append.mp found
  have same : first.unpinned = package.unpinned := by simpa using same
  obtain ⟨listed, verifies, later⟩ := round.verified before first after split fun earlier among =>
    by simpa [same] using fresh earlier among
  have within : first ∈ met := List.mem_of_find?_eq_some found
  refine ⟨listed, verifies.congr same (agreeing first within package member same), ?_⟩
  intro other among
  rw [split]
  exact List.mem_append_right _
    (List.mem_cons_of_mem _ (later.subset (List.mem_reverse.mpr among)))

/-- Downloading that succeeds with a new resolver is a round of verified packages. -/
theorem Downloader.exists_round [ArchiveReader] {progress : Progress} {memo : Memo}
    (ran : ((resolver.downloader progress).downloadAll true packages).runIn .empty start =
      (.ok (), memo, finish))
    (passes : ∀ world, ((resolver.downloader progress).downloadAll true packages).Visits
      (.opened start) world → moments world) :
    ∃ met, Downloads.Round (resolver.Verifies moments start finish) packages met := by
  have attains : Resolver.Attains resolver (fun _ => True)
      ((resolver.downloader progress).downloadAll true packages)
      fun _ session => ∃ met, Downloads.Meets session.Lists (.start packages) met := by
    refine .bind _ (Downloads.attains_run resolver progress _ _) fun ended => ?_
    cases ended with
    | true => exact .pure fun _ met => met rfl
    | false => exact fun _ _ _ _ _ other => nomatch other
  obtain ⟨follows, met, meets⟩ := attains (.opened start) () memo finish trivial ran
  exact ⟨met, (meets.imp fun _ _ lists => (follows.imp passes).verifies lists).round⟩

end

/-! ## Pins that agree -/

theorem Sha256.length_bigEndian (count n : Nat) : (bigEndian count n).length = count := by
  rw [bigEndian, List.length_map, List.length_reverse, List.length_range]

theorem Sha256.length_digest (message : ByteArray) : (digest message).length = 32 := by
  unfold digest
  generalize finalState message = s
  rw [List.length_flatMap]
  simp only [length_bigEndian]
  rfl

namespace Checksum

theorem length_hexadecimal (bytes : List UInt8) :
    (hexadecimal bytes).length = 2 * bytes.length := by
  rw [hexadecimal, String.length_ofList, List.length_flatMap]
  simp [List.map_const', Nat.mul_comm]

theorem length_lower (text : String) : (Text.lower text).length = text.length := by
  rw [Text.lower, String.length_ofList, List.length_map, String.length_toList]

/-- A checksum that agrees with that of a document has sixty-four digits. -/
theorem length_of_agrees_ofDocument {checksum : Checksum} {document : ByteArray}
    (agrees : checksum.agrees (.ofDocument document) = true) : checksum.sha256.length = 64 := by
  have same : Text.lower checksum.sha256 = Text.lower (hexadecimal (Sha256.digest document)) :=
    beq_iff_eq.mp agrees
  rw [← length_lower, same, length_lower, length_hexadecimal, Sha256.length_digest]

end Checksum

/-! ## The command -/

namespace CommandLine

/-- The command that downloads packages with what they depend on, with a new resolver. -/
def downloading [ArchiveReader] (resolver : Resolver) (texts : List String) :
    Action (Except Failure Unit × Memo) :=
  (downloadPackages resolver texts true).run.run .empty

variable {resolver : Resolver} {texts : List String} {packages : List PackageUri} {start : World}

theorem downloading_eq [ArchiveReader] (parsed : texts.mapM (fun text =>
      (PackageUri.parse text).mapError Error.malformedUri) = .ok packages) :
    downloading resolver texts =
      ((resolver.downloader .watched).downloadAll true packages).run.run .empty >>= fun ended =>
        .done (ended.1.mapError .resolution, ended.2) := by
  unfold downloading downloadPackages
  rw [parsed]
  rfl

/-- Where the command succeeds, what it was asked for and all that this depends on was met,
and each package was verified under the pin with which it was met first. -/
theorem downloading_verifies_first_pins [ArchiveReader]
    (done : ((downloading resolver texts).run start).1.1 = .ok ()) :
    ∃ packages met : List PackageUri,
      List.Forall₂ (fun text package => PackageUri.parse text = .ok package) texts packages ∧
        Downloads.Round (resolver.Verifies ((downloading resolver texts).Visits start) start
          ((downloading resolver texts).run start).2) packages met := by
  cases parsed : texts.mapM (fun text =>
      (PackageUri.parse text).mapError Error.malformedUri) with
  | error failure =>
      unfold downloading downloadPackages at done
      rw [parsed] at done
      exact nomatch done
  | ok packages =>
      have parsedEach : List.Forall₂ (fun text package => PackageUri.parse text = .ok package)
          texts packages :=
        (Result.forall₂_of_mapM parsed).imp fun _ _ => Result.mapError_eq_ok_iff.mp
      rw [downloading_eq parsed, Action.run_bind] at done ⊢
      have done := Result.mapError_eq_ok_iff.mp done
      obtain ⟨met, round⟩ := Downloader.exists_round (Prod.ext done rfl) fun world visits =>
        Action.Visits.bind visits _
      exact ⟨packages, met, parsedEach, round⟩

/-! ## Pins that are passed over -/

/-- The metadata document of the birds. -/
def birdsDocument : ByteArray :=
  ("\x7b\"name\":\"birds\",\"packageUri\":\"package://localhost:0/birds@1.0.0\"," ++
    "\"version\":\"1.0.0\",\"packageZipUrl\":\"https://localhost:0/birds.zip\"," ++
    "\"packageZipChecksums\":\x7b\"sha256\":\"\"\x7d\x7d").toUTF8

/-- The metadata document of a flock, which depends on the birds under a pin that is written
in their identifier. -/
def flockDocument : ByteArray :=
  ("\x7b\"name\":\"flock\",\"packageUri\":\"package://localhost:0/flock@1.0.0\"," ++
    "\"version\":\"1.0.0\",\"packageZipUrl\":\"https://localhost:0/flock.zip\"," ++
    "\"packageZipChecksums\":\x7b\"sha256\":\"\"\x7d,\"dependencies\":\x7b" ++
    "\"birds\":\x7b\"uri\":\"package://localhost:0/birds@1.0.0::sha256:00\"\x7d\x7d\x7d").toUTF8

/-- A world in which a cache has the birds and the flock. -/
def aviary : World :=
  let area := ["cache", "package-1", "localhost:0"]
  { World.empty with tree := ⟨[(["cache"], .directory), (["cache", "package-1"], .directory),
      (area, .directory),
      (area ++ ["birds@1.0.0"], .directory),
      (area ++ ["birds@1.0.0.json"], .file birdsDocument),
      (area ++ ["flock@1.0.0"], .directory),
      (area ++ ["flock@1.0.0.json"], .file flockDocument)]⟩ }

/-- The resolver with this cache. -/
def birdwatcher : Resolver :=
  { storage := .disk ⟨"/cache"⟩, security := .unrestricted }

theorem downloading_flock :
    ((downloading birdwatcher ["package://localhost:0/flock@1.0.0"]).run aviary).1.1 = .ok () := by
  decide +kernel

/-- The flock is downloaded, and the birds with it. -/
theorem downloading_flock_verifies :
    let texts := ["package://localhost:0/flock@1.0.0"]
    ((downloading birdwatcher texts).run aviary).1.1 = .ok () ∧
      ∃ packages met : List PackageUri,
        List.Forall₂ (fun text package => PackageUri.parse text = .ok package) texts packages ∧
          Downloads.Round (birdwatcher.Verifies ((downloading birdwatcher texts).Visits aviary)
            aviary ((downloading birdwatcher texts).run aviary).2) packages met :=
  ⟨downloading_flock, downloading_verifies_first_pins downloading_flock⟩

/-- A pin that agrees with no document is passed over where the package was met before, and
where it stands in the identifier of a dependency. -/
theorem birds_pins_passed_over :
    PackageUri.parse "package://localhost:0/birds@1.0.0::sha256:00" =
        .ok { PackageUri.birds with pin := some ⟨"00"⟩ } ∧
      (∀ document, Checksum.agrees ⟨"00"⟩ (.ofDocument document) = false) ∧
      ((downloading birdwatcher ["package://localhost:0/birds@1.0.0::sha256:00",
        "package://localhost:0/birds@1.0.0"]).run aviary).1.1 = .ok () ∧
      (PackageMetadata.parse flockDocument).map (·.dependencies) =
        .ok [("birds", ⟨"package://localhost:0/birds@1.0.0::sha256:00", none⟩)] ∧
      ((downloading birdwatcher ["package://localhost:0/flock@1.0.0"]).run aviary).1.1 =
        .ok () := by
  refine ⟨by decide +kernel, ?_, by decide +kernel, by decide +kernel, downloading_flock⟩
  intro document
  rw [Bool.eq_false_iff]
  intro agrees
  exact absurd (Checksum.length_of_agrees_ofDocument agrees) (by decide)

end CommandLine

end PackageResolution
