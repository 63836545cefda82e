import Mathlib.Data.List.Infix
import PackageResolution.Archive.Entry
import PackageResolution.FileTree.Lookup

/-!
# What an archive unpacks to

A directory is seen as what is at each place in it.  To unpack an archive is to put its entries into
an empty directory one after the other, each with the directories above it.  A file is put in place
of another one, but it does not make way for a directory, nor a directory for a file.
-/

namespace PackageResolution

/-- What is at each place in a directory, counted from the directory. -/
abbrev Contents := Location → Option FileNode

namespace Contents

/-- The contents of an empty directory. -/
def empty : Contents := fun place =>
  if place = [] then some .directory else none

/-- Whether something else than a directory is at a place or above it. -/
def blocks (contents : Contents) (place : Location) : Bool :=
  place.inits.any fun other => (contents other).any fun node => !node.isDirectory

/-- The contents with directories at a place and everywhere above it. -/
def withDirectory (contents : Contents) (place : Location) : Contents := fun other =>
  if other <+: place then some .directory else contents other

/-- The contents with something at a place. -/
def withNode (contents : Contents) (place : Location) (node : FileNode) : Contents := fun other =>
  if other = place then some node else contents other

/-- The contents with a directory and those above it, if no file is in the way. -/
def addDirectory? (contents : Contents) (place : Location) : Option Contents :=
  if contents.blocks place then none else some (contents.withDirectory place)

/-- The contents with a file and the directories above it, if nothing is in the way. -/
def addFile? (contents : Contents) (place : Location) (bytes : ByteArray) : Option Contents := do
  let opened ← contents.addDirectory? place.dropLast
  if (opened place).any (·.isDirectory) then none
  else some (opened.withNode place (.file bytes))

variable {contents : Contents} {place : Location}

theorem addDirectory?_of_forall (free : ∀ other, other <+: place →
      contents other = none ∨ contents other = some .directory) :
    contents.addDirectory? place = some (contents.withDirectory place) := by
  rw [addDirectory?, if_neg]
  intro blocked
  obtain ⟨other, member, filled⟩ := List.any_eq_true.mp blocked
  rcases free other ((List.mem_inits _ _).mp member) with nothing | directory
  · rw [nothing] at filled
    exact nomatch filled
  · rw [directory] at filled
    exact nomatch filled

theorem addFile?_of_ne {opened : Contents} (bytes : ByteArray)
    (opens : contents.addDirectory? place.dropLast = some opened)
    (other : opened place ≠ some .directory) :
    contents.addFile? place bytes = some (opened.withNode place (.file bytes)) := by
  have free : ¬ (opened place).any (·.isDirectory) = true := by
    cases found : opened place with
    | none => exact nofun
    | some node =>
        cases node with
        | directory => exact absurd found other
        | file contents => exact nofun
        | link target => exact nofun
  rw [addFile?, opens, Option.bind_eq_bind, Option.bind_some, if_neg free]

end Contents

/-- Whether contents are in a form that can be read. -/
def ArchiveContents.isReadable : ArchiveContents → Bool
  | .unreadable _ => false
  | _ => true

/-- The contents that passed their check. -/
def ArchiveContents.intact? : ArchiveContents → Option ByteArray
  | .intact bytes => some bytes
  | _ => none

namespace ArchiveEntry

/-- The contents of a directory after an entry is put into it, if the entry can be read and has a
place there.  An entry at the root says nothing. -/
def unpack? (contents : Contents) (entry : ArchiveEntry) : Option Contents := do
  let path ← entry.path?
  if entry.contents.isReadable then
    if path = "" then some contents
    else if entry.isDirectory then contents.addDirectory? (FileTree.names path)
    else contents.addFile? (FileTree.names path) (← entry.contents.intact?)
  else none

/-- The contents of a directory into which entries are unpacked in their order. -/
def unpacked? (entries : List ArchiveEntry) : Option Contents :=
  entries.foldlM unpack? .empty

variable {contents : Contents} {entry : ArchiveEntry} {path : String} {bytes : ByteArray}
  (found : entry.path? = some path) (readable : entry.contents.isReadable = true)

include found readable

theorem unpack?_of_root (root : path = "") : entry.unpack? contents = some contents := by
  rw [unpack?, found, Option.bind_eq_bind, Option.bind_some, if_pos readable, if_pos root]

theorem unpack?_of_directory (filled : path ≠ "") (directory : entry.isDirectory = true) :
    entry.unpack? contents = contents.addDirectory? (FileTree.names path) := by
  rw [unpack?, found, Option.bind_eq_bind, Option.bind_some, if_pos readable, if_neg filled,
    if_pos directory]

theorem unpack?_of_file (filled : path ≠ "") (plain : ¬ entry.isDirectory = true)
    (held : entry.contents = .intact bytes) :
    entry.unpack? contents = contents.addFile? (FileTree.names path) bytes := by
  rw [unpack?, found, Option.bind_eq_bind, Option.bind_some, if_pos readable, if_neg filled,
    if_neg plain, held]
  rfl

end ArchiveEntry

end PackageResolution
