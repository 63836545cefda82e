import PackageResolution.Archive.Entry
import PackageResolution.Error
import PackageResolution.Package.Tree
import PackageResolution.Package.Uri

/-!
# Packages in memory

The tree of a package is built from the entries of its archive, in their order.  A
single entry that cannot be read or that leads out of the package spoils the whole
archive.
-/

namespace PackageResolution.Storage

/-- A failure to read an archive of a package. -/
def cannotRead (package : PackageUri) (detail : String) : Error :=
  .packageLoad (.cannotReadArchive package.unpinned.text detail)

/-- The failure of an entry that leads out of its package. -/
def leadsOutside (package : PackageUri) (entry : ArchiveEntry) : Error :=
  .packageLoad (.entryOutsideRoot package.unpinned.text entry.name)

/-- The entries of an archive of a package. -/
def openArchive [ArchiveReader] (package : PackageUri) (archive : ByteArray) :
    Result (List ArchiveEntry) :=
  match ArchiveReader.entries archive with
  | .ok entries => .ok entries
  | .error detail =>
      .error (.packageLoad (.cannotOpenArchive package.unpinned.text detail))

/-- The path of an entry in its package; the empty path stands for the root. -/
def entryPath (package : PackageUri) (entry : ArchiveEntry) : Result String :=
  match entry.contents with
  | .unreadable detail => .error (cannotRead package detail)
  | _ =>
      match entry.path? with
      | some path => .ok path
      | none => .error (leadsOutside package entry)

/-- The tree with an entry of the archive put into it.  Entries at the root say
nothing. -/
def addEntry (package : PackageUri) (tree : PackageTree) (entry : ArchiveEntry) :
    Result PackageTree := do
  let path ← entryPath package entry
  if path = "" then return tree
  else if entry.isDirectory then return tree.addDirectory path
  else
    match entry.contents with
    | .intact bytes => return tree.addFile path bytes
    | .damaged detail => throw (cannotRead package detail)
    | .unreadable detail => throw (cannotRead package detail)

/-- The tree of a package with the given entries. -/
def treeOfEntries (package : PackageUri) (entries : List ArchiveEntry) :
    Result PackageTree :=
  entries.foldlM (addEntry package) .empty

/-- The tree of a package with the given archive. -/
def treeOfArchive [ArchiveReader] (package : PackageUri) (archive : ByteArray) :
    Result PackageTree := do
  treeOfEntries package (← openArchive package archive)

end PackageResolution.Storage
