import PetaCore.ForStd.FileTree

/-!
# SkillsService: uploading skills

A ZIP archive is extracted into a temporary directory, every directory in it that holds a
`SKILL.md` is a skill, and each skill replaces the directory of its name among the skills of the
server: that directory is removed, and the new one copied.

Every file operation may fail. Which ones do is given by `Faults`; within one upload no operation
is run twice.
-/

namespace PetaCore

/-- The content of a file. -/
abbrev Content := List UInt8

/-- A file operation of an upload, or reading an entry of the archive; `entry` counts the entries
of the archive, `skill` the directories found. -/
inductive FileOp where
  | ensureServerSkillsDir
  | mkdtemp
  | extractMkdir (entry : Nat)
  | getEntryData (entry : Nat)
  | writeFile (entry : Nat)
  | findReaddir (dir : List String) (name : String) (entries : List (String × FileTree Content))
  | rm (skill : Nat)
  | copyMkdir (skill : Nat) (dest : List String)
  | copyReaddir (skill : Nat) (dest : List String)
  | copyFile (skill : Nat) (dest : List String)

/-- Which file operations fail, which part of a directory a failed removal leaves, and what a
failed `copyFile` leaves at its destination. -/
structure Faults where
  fails : FileOp → Bool
  kept : (skill : Nat) → List String → Bool
  left : (skill : Nat) → List String → Option Content

/-- No operation fails. -/
def Faults.none : Faults := ⟨fun _ => false, fun _ _ => false, fun _ _ => Option.none⟩

/-- `SKILLS_CONFIG.MAX_ZIP_SIZE` -/
def MAX_ZIP_SIZE : Nat := 10 * 1024 * 1024

/-- `SKILLS_CONFIG.MAX_UNCOMPRESSED_SIZE` -/
def MAX_UNCOMPRESSED_SIZE : Nat := 50 * 1024 * 1024

/-- `SKILLS_CONFIG.MAX_ENTRY_COUNT` -/
def MAX_ENTRY_COUNT : Nat := 1000

/-- `SKILLS_CONFIG.SKILL_METADATA_FILE` -/
def SKILL_METADATA_FILE : String := "SKILL.md"

/-- An entry of the archive; `data` is `none` when it cannot be read. -/
structure ZipEntry where
  entryName : String
  isDirectory : Bool
  size : Nat
  data : Option Content

/-- An upload: the directory of all skills, the server, the size of the archive, its entries
(`none` when `AdmZip` rejects it), and the name of the temporary directory. -/
structure SkillUpload where
  skillsDir : String
  serverId : String
  zipSize : Nat
  zip : Option (List ZipEntry)
  tempName : String

namespace SkillsService

/-- `validateServerId` and `validateSkillName` -/
def isValidName (name : String) : Bool :=
  !name.toList.isEmpty && name.toList.all fun c => c.isAlphanum || c == '-' || c == '_'

/-- `path.join` for a resolved directory and a name -/
def join (dir name : String) : String :=
  if dir.toList.getLast? = some '/' then dir ++ name else dir ++ "/" ++ name

/-- `isPathSafe`, for resolved paths -/
def isPathSafe (skillsDir targetPath : String) : Bool :=
  decide (skillsDir.toList ++ ['/'] <+: targetPath.toList)

/-! ## Extraction -/

/-- The segments of `path.normalize` for a relative path. -/
def normalize (entryName : String) : List String :=
  ((entryName.toList.splitOn '/').map String.ofList).foldl (fun segments segment =>
    if segment = "" ∨ segment = "." then segments
    else if segment = ".." ∧ segments ≠ [] ∧ segments.getLast? ≠ some ".." then segments.dropLast
    else segments ++ [segment]) []

/-- The path below the target directory at which a file entry is extracted; `none` when the entry
is refused. A path that holds a NUL character is refused by the file operations. -/
def resolvedTargetPath (entry : ZipEntry) : Option (List String) :=
  if entry.entryName.toList.head? = some '/' then none
  else if ".." ∈ normalize entry.entryName then none
  else if normalize entry.entryName = [] then none
  else if '\x00' ∈ entry.entryName.toList then none
  else some (normalize entry.entryName)

/-- The loop that extracts the entries, into the tree extracted so far. -/
def extractEntries (faults : Faults) : (index : Nat) → List (List String × ZipEntry) →
    (extractedSize : Nat) → List (String × FileTree Content) →
    Option (List (String × FileTree Content))
  | _, [], _, tree => some tree
  | index, (path, entry) :: entries, extractedSize, tree =>
    if faults.fails (.extractMkdir index) then none
    else
      match FileTree.mkdir path.dropLast tree with
      | none => none
      | some tree =>
        if faults.fails (.getEntryData index) then none
        else
          match entry.data with
          | none => none
          | some content =>
            if MAX_UNCOMPRESSED_SIZE < extractedSize + content.length then none
            else if faults.fails (.writeFile index) then none
            else
              match FileTree.writeFile content path tree with
              | none => none
              | some tree =>
                extractEntries faults (index + 1) entries (extractedSize + content.length) tree

/-- `safeExtractZipAsync`: what is extracted; `none` when it throws. -/
def safeExtractZipAsync (faults : Faults) (entries : List ZipEntry) :
    Option (List (String × FileTree Content)) :=
  if MAX_ENTRY_COUNT < entries.length then none
  else if MAX_UNCOMPRESSED_SIZE < (entries.map ZipEntry.size).sum then none
  else
    let files := entries.filter fun entry => !entry.isDirectory
    match files.mapM fun entry => (resolvedTargetPath entry).map fun path => (path, entry) with
    | none => none
    | some validEntries => extractEntries faults 0 validEntries 0 []

/-! ## Searching -/

/-- `hasSkillMd` -/
def hasSkillMd (entries : List (String × FileTree Content)) : Bool :=
  entries.any fun e =>
    match e.2 with
    | .file _ => e.1 == SKILL_METADATA_FILE
    | .dir _ => false

mutual

/-- `findSkillDirectories`: the directories found, with their names. A directory that cannot be
read is passed over. -/
def findSkillDirectories (faults : Faults) (path : List String) (name : String) :
    FileTree Content → List (String × FileTree Content)
  | .file _ => []
  | .dir entries =>
    if faults.fails (.findReaddir path name entries) then []
    else if hasSkillMd entries then [(name, .dir entries)]
    else findInEntries faults path entries

/-- The loop over the entries of a directory. -/
def findInEntries (faults : Faults) (path : List String) :
    List (String × FileTree Content) → List (String × FileTree Content)
  | [] => []
  | (name, node) :: entries =>
    findSkillDirectories faults (path ++ [name]) name node ++ findInEntries faults path entries

end

/-! ## Copying -/

/-- What a directory holds that `mkdir` has been called for; `none` when a file stands there. -/
def madeDirectory : Option (FileTree Content) → Option (List (String × FileTree Content))
  | none => some []
  | some (.dir present) => some present
  | some (.file _) => none

mutual

/-- `copyDirectory`: whether it returns, and what stands at the destination then. -/
def copyDirectory (faults : Faults) (skill : Nat) :
    (src : FileTree Content) → (destPath : List String) → (dest : Option (FileTree Content)) →
    Bool × Option (FileTree Content)
  | .file _, _, dest => (false, dest)
  | .dir entries, destPath, dest =>
    match madeDirectory dest with
    | none => (false, dest)
    | some present =>
      if faults.fails (.copyMkdir skill destPath) then (false, dest)
      else if faults.fails (.copyReaddir skill destPath) then (false, some (.dir present))
      else
        let r := copyEntries faults skill entries destPath present
        (r.1, some (.dir r.2))

/-- The loop over the entries of the source, with those of the destination. -/
def copyEntries (faults : Faults) (skill : Nat) :
    (src : List (String × FileTree Content)) → (destPath : List String) →
    (present : List (String × FileTree Content)) → Bool × List (String × FileTree Content)
  | [], _, present => (true, present)
  | (name, .dir entries) :: src, destPath, present =>
    let r := copyDirectory faults skill (.dir entries) (destPath ++ [name]) (present.lookup name)
    let present := match r.2 with
      | some node => Dict.setEntry name node present
      | none => present
    if r.1 then copyEntries faults skill src destPath present else (false, present)
  | (name, .file content) :: src, destPath, present =>
    match present.lookup name with
    | some (.dir _) => (false, present)
    | _ =>
      if faults.fails (.copyFile skill (destPath ++ [name])) then
        match faults.left skill (destPath ++ [name]) with
        | some content => (false, Dict.setEntry name (.file content) present)
        | none => (false, present.filter fun e => e.1 != name)
      else copyEntries faults skill src destPath (Dict.setEntry name (.file content) present)

end

/-! ## Uploading -/

/-- What an upload ends with: the names of the uploaded skills (`none` when it throws), and the
skills of the server. -/
structure Outcome where
  uploadedSkills : Option (List String)
  skills : Dict (FileTree Content)

/-- The removal of the directory of a skill. Its failure is ignored. -/
def removeSkill (faults : Faults) (skill : Nat) (name : String)
    (skills : Dict (FileTree Content)) : Dict (FileTree Content) :=
  if faults.fails (.rm skill) then
    match (skills.get? name).bind fun node => node.restrict (faults.kept skill) [] with
    | some node => skills.set name node
    | none => skills.erase name
  else skills.erase name

/-- The loop that replaces the skills. -/
def copySkills (faults : Faults) (u : SkillUpload) : (skill : Nat) →
    List (String × FileTree Content) → (uploadedSkills : List String) →
    Dict (FileTree Content) → Outcome
  | _, [], uploadedSkills, skills => ⟨some uploadedSkills, skills⟩
  | skill, (skillName, node) :: skillDirs, uploadedSkills, skills =>
    if !isValidName skillName then copySkills faults u (skill + 1) skillDirs uploadedSkills skills
    else if !isPathSafe u.skillsDir (join (join u.skillsDir u.serverId) skillName) then
      copySkills faults u (skill + 1) skillDirs uploadedSkills skills
    else
      let skills := removeSkill faults skill skillName skills
      let r := copyDirectory faults skill node [skillName] (skills.get? skillName)
      let skills := match r.2 with
        | some node => skills.set skillName node
        | none => skills
      if r.1 then
        copySkills faults u (skill + 1) skillDirs (uploadedSkills ++ [skillName]) skills
      else ⟨none, skills⟩

/-- `uploadSkill`. Directories list their entries as `listing` says. Whether the temporary
directory can be cleaned up makes no difference. -/
def uploadSkill (listing : FileTree.Listing Content) (faults : Faults) (u : SkillUpload)
    (skills : Dict (FileTree Content)) : Outcome :=
  if !isValidName u.serverId then ⟨none, skills⟩
  else if faults.fails .ensureServerSkillsDir then ⟨none, skills⟩
  else if MAX_ZIP_SIZE < u.zipSize then ⟨none, skills⟩
  else if faults.fails .mkdtemp then ⟨none, skills⟩
  else
    match u.zip.bind (safeExtractZipAsync faults) with
    | none => ⟨none, skills⟩
    | some tree =>
      let skillDirs := findSkillDirectories faults [] u.tempName
        ((FileTree.dir tree).arranged listing)
      if skillDirs.isEmpty then ⟨none, skills⟩
      else
        let r := copySkills faults u 0 skillDirs [] skills
        match r.uploadedSkills with
        | some [] => ⟨none, r.skills⟩
        | _ => r

end SkillsService

end PetaCore
