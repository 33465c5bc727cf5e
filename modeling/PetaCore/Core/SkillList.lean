import PetaCore.Core.SkillsService

/-!
# SkillsService: listing and deleting skills

The directory of a server holds one directory for each skill. The list tells what their `SKILL.md`
files say, and a deletion takes the name of a directory. File operations succeed, and a removal
keeps the order in which `readdir` lists the other entries.
-/

namespace PetaCore

/-- A value in a front matter. -/
inductive MatterValue (α : Type) where
  | str (s : String)
  | other (value : α)
deriving DecidableEq

/-- The `data` of a front matter; a property that it lacks is `none`. -/
structure FrontMatter (α : Type) where
  name : Option (MatterValue α)
  description : Option (MatterValue α)
  version : Option (MatterValue α)

/-- `matter` is `none` when it throws, or its `data` is null. `truthy` is about the values that are
no strings, and `updatedAt` tells when a directory was modified. -/
structure MatterRuntime (α : Type) where
  matter : Content → Option (FrontMatter α)
  truthy : α → Bool
  updatedAt : String → String

structure SkillInfo (α : Type) where
  name : MatterValue α
  description : MatterValue α
  version : MatterValue α
  updatedAt : String

namespace SkillsService

variable {α : Type}

/-- The check of `validateServerId` and `validateSkillName`; `none` is a value that is no string. -/
def validateName (what : String) : Option String → Except String String
  | none => .error s!"Invalid {what}: must be a non-empty string"
  | some name =>
    if name = "" then .error s!"Invalid {what}: must be a non-empty string"
    else if isValidName name then .ok name
    else .error (s!"Invalid {what}: contains invalid characters " ++
      "(only alphanumeric, hyphens, and underscores allowed)")

def validateServerId (serverId : String) : Except String String :=
  validateName "serverId" (some serverId)

def validateSkillName : MatterValue α → Except String String
  | .str name => validateName "skill name" (some name)
  | .other _ => validateName "skill name" none

/-- Whether a value counts as true in `||`. -/
def isTruthy (rt : MatterRuntime α) : MatterValue α → Bool
  | .str s => s != ""
  | .other value => rt.truthy value

/-- `value || fallback` -/
def orElse (rt : MatterRuntime α) (value : Option (MatterValue α)) (fallback : String) :
    MatterValue α :=
  (value.filter (isTruthy rt)).getD (.str fallback)

/-- The body of the loop of `listSkills`: `none` when the entry is passed over. -/
def skillInfo (rt : MatterRuntime α) : String × FileTree Content → Option (SkillInfo α)
  | (_, .file _) => none
  | (name, .dir entries) =>
    match entries.lookup SKILL_METADATA_FILE with
    | some (.file content) =>
      (rt.matter content).map fun data =>
        { name := orElse rt data.name name
          description := orElse rt data.description ""
          version := orElse rt data.version "1.0.0"
          updatedAt := rt.updatedAt name }
    | _ => none

/-- The loop of `listSkills`: the skills, and the directories that they are read from. -/
def readSkills (rt : MatterRuntime α) (skills : Dict (FileTree Content)) :
    List (String × SkillInfo α) :=
  skills.entries.filterMap fun entry => (skillInfo rt entry).map fun info => (entry.1, info)

def listSkills (rt : MatterRuntime α) (serverId : String) (skills : Dict (FileTree Content)) :
    Except String (List (SkillInfo α)) := do
  let _ ← validateServerId serverId
  .ok ((readSkills rt skills).map Prod.snd)

/-- `deleteSkill`: what is left of the skills. -/
def deleteSkill (skillsDir serverId : String) (skillName : MatterValue α)
    (skills : Dict (FileTree Content)) : Except String (Dict (FileTree Content)) := do
  let serverId ← validateServerId serverId
  let skillName ← validateSkillName skillName
  if !isPathSafe skillsDir (join (join skillsDir serverId) skillName) then
    .error "Invalid skill name: path traversal detected"
  else if (skills.get? skillName).isNone then .error s!"Skill not found: {skillName}"
  else .ok (skills.erase skillName)

end SkillsService

end PetaCore
