import PackageResolution.Archive.Zip
import PackageResolution.CommandLine.Parse
import PackageResolution.Download
import PackageResolution.Module.Import
import PackageResolution.Module.Resource
import PackageResolution.Project.ManifestFile
import PackageResolution.Project.Resolution

/-!
# Running commands

A command is run with the settings of the user, the environment and the options, in
this order.  What it finds is printed; progress and failures are reported.  The exit
code tells success, failure and misuse apart.  The program reads packages from zip
archives.
-/

namespace PackageResolution.CommandLine

/-- Why a command failed. -/
inductive Failure
  /-- Resolution failed. -/
  | resolution (error : Error)
  /-- The system refused something that the command itself asked for. -/
  | system (refusal : OsError)
  deriving DecidableEq, Repr

/-- The wording of a failure. -/
def Failure.message : Failure → String
  | .resolution error => error.message
  | .system refusal => refusal.message

/-- A command that is run. -/
abbrev Running := ExceptT Failure (StateT Memo Action)

namespace Running

/-- A part of a command that uses a resolver. -/
def ofResolving {α : Type} (part : Resolving α) : Running α :=
  ExceptT.adapt .resolution part

/-- A part of a command that uses none. -/
def ofAttempt {α : Type} (part : Attempt α) : Running α :=
  ofResolving (Resolving.ofAttempt part)

/-- A result that is known. -/
def ofResult {α : Type} (result : Result α) : Running α :=
  ofResolving (Resolving.ofResult result)

/-- What the command itself asks the system for. -/
def ofSystem {α : Type} (action : Action (Except OsError α)) : Running α :=
  ExceptT.mk (StateT.lift do return (← action).mapError .system)

/-- Prints some bytes. -/
def print (bytes : ByteArray) : Running Unit :=
  ofAttempt (ExceptT.lift (Action.request (.print bytes)))

/-- Prints a line. -/
def printLine (line : String) : Running Unit :=
  print (line ++ "\n").toUTF8

end Running

/-! ## Setting up -/

/-- The settings that a command is run with. -/
def loadSettings (options : Options) : Attempt Settings := do
  match options.settings with
  | some path =>
      let settings ← (← Settings.load path).withEnvironment
      return options.override settings
  | none => return options.override (← Settings.loadFromHome)

/-- What a command is run with. -/
structure Equipment where
  /-- The settings. -/
  settings : Settings
  /-- What decides what is allowed. -/
  security : Security
  /-- What finds packages. -/
  resolver : Resolver

/-- Gets ready what a command is run with. -/
def equip (options : Options) : Attempt Equipment := do
  let settings ← loadSettings options
  let security ← Attempt.ofResult settings.security
  settings.checkCertificates
  let storage ← settings.storage
  return { settings, security, resolver := { storage, security } }

/-- The context of modules, with the manifest that is nearest to a directory. -/
def moduleContext (equipment : Equipment) (project : Option Path) : Running ModuleContext := do
  let context := equipment.settings.context equipment.resolver
  let start ←
    match project with
    | some directory => pure directory
    | none => Running.ofSystem (Action.request .currentDirectory)
  match ← Running.ofAttempt (Manifest.findAndLoad start) with
  | some (manifest, file) => return context.withProject manifest (file.parent?.getD ⟨"."⟩)
  | none => return context

/-! ## The commands -/

section Commands

variable [ArchiveReader]

/-- Settles the dependencies of the project at a path and writes its manifest. -/
def resolveProject (resolver : Resolver) (path : Path) : Running Unit := do
  let project ← Running.ofAttempt (Project.load path)
  let manifest ← Running.ofResolving (project.resolve resolver.source)
  let file := project.directory.join ⟨Manifest.fileName⟩
  Running.ofAttempt (manifest.save file)
  Running.printLine file.text

/-- Settles the dependencies of the projects at some paths, by default of the one in
the working directory. -/
def resolveProjects (resolver : Resolver) : List Path → Running Unit
  | [] => do resolveProject resolver (← Running.ofSystem (Action.request .currentDirectory))
  | directories => directories.forM (resolveProject resolver)

/-- Downloads packages. -/
def downloadPackages (resolver : Resolver) (packages : List String) (transitive : Bool) :
    Running Unit := do
  let packages ← Running.ofResult <|
    packages.mapM fun text => (PackageUri.parse text).mapError Error.malformedUri
  Running.ofResolving ((resolver.downloader .watched).downloadAll transitive packages)

/-- Prints an asset. -/
def printAsset (equipment : Equipment) (asset : String) (project : Option Path) :
    Running Unit := do
  let uri ← Running.ofResult ((Uri.parse asset).mapError .malformedUri)
  let context ← moduleContext equipment project
  Running.print
    (← Running.ofResolving (context.readResource equipment.security uri))

/-- The identifier of a module, which is written as an identifier or as a path. -/
def moduleUri (written : String) : Running Uri := do
  let uri ← Running.ofResult ((Uri.parse written).mapError .malformedUri)
  if uri.isAbsolute then return uri
  else
    let path ← Running.ofSystem (Action.request (.canonical ⟨written⟩))
    Running.ofResult (Uri.ofPath path)

/-- Shows what an import in a module means. -/
def resolveImport (equipment : Equipment) (importing reference : String)
    (project : Option Path) : Running Unit := do
  let uri ← moduleUri importing
  let context ← moduleContext equipment project
  let key ← Running.ofResult (context.key uri)
  let resolved ← Running.ofResolving (key.resolveImport equipment.security reference)
  Running.printLine resolved.text

/-- Runs a command. -/
def runCommand (options : Options) (command : Command) : Running Unit := do
  let equipment ← Running.ofAttempt (equip options)
  match command with
  | .resolveProjects directories => resolveProjects equipment.resolver directories
  | .downloadPackages packages transitive =>
      downloadPackages equipment.resolver packages transitive
  | .printAsset asset project => printAsset equipment asset project
  | .resolveImport importing reference project =>
      resolveImport equipment importing reference project

end Commands

/-! ## The program -/

/-- What the program answers to a request for its version. -/
def versionText : String := "rpkl 0.1.0\n"

/-- What the program answers to a request for help: a short text of its own, which does not
list the options. -/
def helpText : String :=
  "Usage: rpkl [OPTIONS] <COMMAND>\n\nCommands:\n" ++
    "  project resolve [DIR]...            Settle the dependencies of projects\n" ++
    "  download-package <URI>...           Download packages into the cache\n" ++
    "  cat <ASSET>                         Print an asset\n" ++
    "  resolve-import <MODULE> <IMPORT>    Show what an import means\n"

/-- Runs the program and gives its exit code: 0 after success, 1 after a failure and 2
after a misuse. -/
def run (arguments : List String) : Action Nat := do
  match parse arguments with
  | .error .version =>
      Action.request (.print versionText.toUTF8)
      return 0
  | .error .help =>
      Action.request (.print helpText.toUTF8)
      return 0
  | .error (.misuse error) =>
      Action.request (.report s!"error: {error.message}")
      return 2
  | .ok (options, command) =>
      match (← (runCommand options command).run.run .empty).1 with
      | .ok _ => return 0
      | .error failure =>
          Action.request (.report s!"Error: {failure.message}")
          return 1

end PackageResolution.CommandLine
