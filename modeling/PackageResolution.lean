import PackageResolution.Action.Files
import PackageResolution.Action.World
import PackageResolution.Archive.Zip
import PackageResolution.Association
import PackageResolution.CommandLine.Run
import PackageResolution.Download
import PackageResolution.Error
import PackageResolution.FileTree.Change
import PackageResolution.Json.Decode
import PackageResolution.Json.Print
import PackageResolution.Main
import PackageResolution.Module.Import
import PackageResolution.Module.Resource
import PackageResolution.Package.Asset
import PackageResolution.Path
import PackageResolution.Pattern.Parse
import PackageResolution.Pattern.Search
import PackageResolution.Project.Descriptor
import PackageResolution.Project.Loader
import PackageResolution.Project.Manifest
import PackageResolution.Project.ManifestFile
import PackageResolution.Project.Resolution
import PackageResolution.Proofs.Package.Containment
import PackageResolution.Proofs.Package.Identifier
import PackageResolution.Proofs.Path.Normalization
import PackageResolution.Proofs.Project.Record
import PackageResolution.Proofs.Project.Selection
import PackageResolution.Proofs.Project.Settlement
import PackageResolution.Proofs.Project.Walk
import PackageResolution.Proofs.Resolver.Integrity
import PackageResolution.Proofs.Resolver.Ledger
import PackageResolution.Proofs.Resolver.Memory
import PackageResolution.Proofs.Resolver.Run
import PackageResolution.Proofs.Resolver.Session
import PackageResolution.Proofs.Result
import PackageResolution.Proofs.Text.Cut
import PackageResolution.Proofs.Text.Percent
import PackageResolution.Proofs.Text.Utf8
import PackageResolution.Proofs.Uri.DotSegments
import PackageResolution.Proofs.Version.Order
import PackageResolution.Proofs.Version.Text
import PackageResolution.Settings
import PackageResolution.Storage.Basic
import PackageResolution.Text.CharClass
import PackageResolution.Text.Cut
import PackageResolution.Text.Percent
import PackageResolution.Text.Quoted
import PackageResolution.Uri.File
import PackageResolution.Uri.ModuleName
import PackageResolution.Uri.Parse
import PackageResolution.Uri.Relativize
import PackageResolution.Uri.Resolve
import PackageResolution.Version.Order
import PackageResolution.Version.Parse
import PackageResolution.Proofs.Module.Trust
import PackageResolution.Proofs.Project.Closure
import PackageResolution.Proofs.Path.Parent
import PackageResolution.Proofs.Security.Manager
import PackageResolution.Proofs.Security.RootDirectory
import PackageResolution.Proofs.Package.Location
import PackageResolution.Proofs.FileTree.Walk
import PackageResolution.Proofs.FileTree.Frame
import PackageResolution.Proofs.Action.Asks
import PackageResolution.Proofs.Action.Files
import PackageResolution.Proofs.Storage.Keeping
import PackageResolution.Proofs.Resolver.Transparency
import PackageResolution.Proofs.Action.Quiet
import PackageResolution.Proofs.Storage.Quiet
import PackageResolution.Proofs.Resolver.Errands
import PackageResolution.Proofs.Resolver.Conduct
import PackageResolution.Proofs.Resolver.Findings
import PackageResolution.Proofs.Download.Pins
import PackageResolution.Proofs.FileTree.Reach
import PackageResolution.Proofs.FileTree.Regular
import PackageResolution.Proofs.Action.Directories
import PackageResolution.Proofs.Package.Tree
import PackageResolution.Proofs.Storage.Memory
import PackageResolution.Proofs.Storage.Mirror
import PackageResolution.Proofs.Storage.Interchange
import PackageResolution.Proofs.Project.Course
import PackageResolution.Proofs.Project.Deeds
import PackageResolution.Proofs.Project.Termination
import PackageResolution.Proofs.Project.Order
import PackageResolution.Proofs.Resolver.Recovery
import PackageResolution.Proofs.FileTree.Arrival
import PackageResolution.Proofs.FileTree.Approach
import PackageResolution.Proofs.FileTree.Growth
import PackageResolution.Proofs.Package.Way
import PackageResolution.Proofs.Action.Growth
import PackageResolution.Proofs.Storage.Placement
import PackageResolution.Proofs.Storage.Lasting
import PackageResolution.Proofs.Resolver.Agreement
import PackageResolution.Proofs.Resolver.Restart
import PackageResolution.Proofs.Action.Moves
import PackageResolution.Proofs.Storage.Rejection
import PackageResolution.Proofs.Uri.Rooted
import PackageResolution.Proofs.Uri.Hierarchy
import PackageResolution.Proofs.Uri.Buffers
import PackageResolution.Proofs.Uri.Transform
import PackageResolution.Proofs.Uri.Relativize
import PackageResolution.Proofs.Module.Ascent
import PackageResolution.Proofs.Uri.Written
import PackageResolution.Proofs.Uri.ResolvedText
import PackageResolution.Proofs.Uri.RelativeText
import PackageResolution.Proofs.Uri.Archive
import PackageResolution.Proofs.Package.Written
import PackageResolution.Proofs.Project.LocalPath
import PackageResolution.Proofs.Module.InPackage
import PackageResolution.Proofs.Module.Lookup
import PackageResolution.Proofs.Download.Closure
import PackageResolution.Proofs.Project.Meetings
import PackageResolution.Proofs.Json.Written
import PackageResolution.Proofs.Json.Decode
import PackageResolution.Proofs.Package.Document
import PackageResolution.Proofs.Project.Document
import PackageResolution.Proofs.Action.Furnishing
import PackageResolution.Proofs.Archive.Unpacked
import PackageResolution.Proofs.Storage.Staging
import PackageResolution.Proofs.Storage.Site
import PackageResolution.Proofs.Storage.Atomicity
import PackageResolution.Proofs.Uri.FilePath
import PackageResolution.Proofs.Uri.Grammar
import PackageResolution.Proofs.Module.SelfMatch
import PackageResolution.Proofs.Uri.NormalForm
import PackageResolution.Proofs.Path.Ancestors
import PackageResolution.Proofs.Project.Nearest
