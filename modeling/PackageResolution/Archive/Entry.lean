import PackageResolution.Uri.DotSegments

/-!
# Entries of archives

An archive is a sequence of named entries.  Names are free texts: two entries can
have one name, a name can be written with dot segments, and it can try to lead out
of the archive.  `ArchiveEntry.path?` is the only way in which a name becomes a
place below a directory.

In which format archives are written is left to an `ArchiveReader`.
-/

namespace PackageResolution

/-- What an archive holds under a name. -/
inductive ArchiveContents
  /-- Contents that were checked. -/
  | intact (bytes : ByteArray)
  /-- Contents that break off or fail their check. -/
  | damaged (detail : String)
  /-- Contents in a form that cannot be read. -/
  | unreadable (detail : String)

/-- An entry of an archive. -/
structure ArchiveEntry where
  /-- The name as it is written. -/
  name : String
  /-- What the archive holds under the name. -/
  contents : ArchiveContents

namespace ArchiveEntry

/-- Whether an entry stands for a directory. -/
def isDirectory (entry : ArchiveEntry) : Bool :=
  Text.endsWith '/' entry.name || Text.endsWith '\\' entry.name

/-- The names that lead from the root of the archive to the place of a name, joined
by slashes; none if the name leads out of the archive.  A backslash counts as a
slash. -/
def pathOfName? (name : String) : Option String :=
  (UriPath.normalize? ("/" ++ Text.replace '\\' '/' name)).map (Text.trim '/')

/-- The names that lead from the root of the archive to the place of an entry. -/
def path? (entry : ArchiveEntry) : Option String :=
  pathOfName? entry.name

end ArchiveEntry

/-- What reads archives. -/
class ArchiveReader where
  /-- The entries of an archive, or why it cannot be read as one. -/
  entries : ByteArray → Except String (List ArchiveEntry)

end PackageResolution
