import PetaCore.Core.SkillsService
import PetaCore.ForStd.PosixPath

/-!
# SkillsService: the file operations of an extraction

The extraction of a ZIP archive by its paths as texts, in a file system: which entries are accepted,
which directories are made and which files are written, also when it throws on the way.
-/

namespace PetaCore

open PosixPath

/-- The names on the way from the root to an absolute path. -/
def names (path : List Char) : List String := (place path).map String.ofList

/-- A file system, with the files that have been written and their paths. -/
structure Disk where
  root : List (String × FileTree Content)
  written : List (List Char × Content)

/-- What stands at a place. -/
def Disk.at? (disk : Disk) (path : List String) : Option (FileTree.Item Content) :=
  (FileTree.dir disk.root).at? path

/-- What the failed operations of an extraction have done, by the index of the entry: how far the
directories have been made, and how many bytes have been written if the file has been opened. -/
structure Remains where
  made : Nat → Nat
  left : Nat → Option Nat

namespace ZipExtraction

/-- `fs.mkdir(parentDir, { recursive: true })`: whether it returns. A path with a NUL character is
refused. -/
def mkdir (faults : Faults) (remains : Remains) (index : Nat) (parentDir : List Char)
    (disk : Disk) : Bool × Disk :=
  if '\x00' ∈ parentDir then (false, disk)
  else if faults.fails (.extractMkdir index) then
    match FileTree.mkdir ((names parentDir).take (remains.made index)) disk.root with
    | some root => (false, { disk with root })
    | none => (false, disk)
  else
    match FileTree.mkdir (names parentDir) disk.root with
    | some root => (true, { disk with root })
    | none => (false, disk)

/-- `getEntryDataAsync` -/
def getEntryDataAsync (faults : Faults) (index : Nat) (entry : ZipEntry) : Option Content :=
  if faults.fails (.getEntryData index) then none else entry.data

/-- The file at a path gets a content. -/
def put (path : List Char) (content : Content) (disk : Disk) : Option Disk :=
  (FileTree.writeFile content (names path) disk.root).map fun root =>
    { root, written := disk.written ++ [(path, content)] }

/-- `fs.writeFile` -/
def writeFile (faults : Faults) (remains : Remains) (index : Nat) (path : List Char)
    (content : Content) (disk : Disk) : Bool × Disk :=
  if '\x00' ∈ path then (false, disk)
  else if faults.fails (.writeFile index) then
    match (remains.left index).bind fun n => put path (content.take n) disk with
    | some disk => (false, disk)
    | none => (false, disk)
  else
    match put path content disk with
    | some disk => (true, disk)
    | none => (false, disk)

/-- The checks of a file entry: the path at which it is extracted, `none` when it is refused. -/
def resolvedTargetPath (cwd resolvedTargetDir entryName : List Char) : Option (List Char) :=
  if isAbsolute entryName then none
  else
    let normalizedPath := normalize entryName
    if dotDot ∈ normalizedPath.splitOn '/' then none
    else
      let resolvedTargetPath := resolve cwd (join resolvedTargetDir normalizedPath)
      if resolvedTargetDir ++ ['/'] <+: resolvedTargetPath then some resolvedTargetPath else none

/-- The loop that extracts the entries: whether it comes to its end. -/
def extractEntries (faults : Faults) (remains : Remains) : (index : Nat) →
    (validEntries : List (ZipEntry × List Char)) → (extractedSize : Nat) → Disk → Bool × Disk
  | _, [], _, disk => (true, disk)
  | index, (entry, resolvedTargetPath) :: validEntries, extractedSize, disk =>
    match mkdir faults remains index (dirname resolvedTargetPath) disk with
    | (false, disk) => (false, disk)
    | (true, disk) =>
      match getEntryDataAsync faults index entry with
      | none => (false, disk)
      | some content =>
        if MAX_UNCOMPRESSED_SIZE < extractedSize + content.length then (false, disk)
        else
          match writeFile faults remains index resolvedTargetPath content disk with
          | (false, disk) => (false, disk)
          | (true, disk) =>
            extractEntries faults remains (index + 1) validEntries
              (extractedSize + content.length) disk

/-- `safeExtractZipAsync`: whether it returns, and the file system then. -/
def safeExtractZipAsync (faults : Faults) (remains : Remains) (cwd targetDir : List Char)
    (entries : List ZipEntry) (disk : Disk) : Bool × Disk :=
  let resolvedTargetDir := resolve cwd targetDir
  if MAX_ENTRY_COUNT < entries.length then (false, disk)
  else if MAX_UNCOMPRESSED_SIZE < (entries.map ZipEntry.size).sum then (false, disk)
  else
    let files := entries.filter fun entry => !entry.isDirectory
    match files.mapM fun entry =>
        (resolvedTargetPath cwd resolvedTargetDir entry.entryName.toList).map fun path =>
          (entry, path) with
    | none => (false, disk)
    | some validEntries => extractEntries faults remains 0 validEntries 0 disk

end ZipExtraction

end PetaCore
