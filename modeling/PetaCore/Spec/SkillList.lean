import PetaCore.Core.SkillList
import PetaCore.ForStd.Except
import PetaCore.Spec.SkillsService

/-!
# Deleting a skill by the name it is listed with

A skill is listed with the name that its front matter gives, and deleted by the name of its
directory. Nothing makes them the same: a skill may be listed with a name that cannot be deleted,
or with that of another skill.

Key results:
- `deleteSkill_eq_ok`: when a deletion succeeds, and what is left
- `readSkills_erase`: what is listed without a directory
- `deletable_iff_namesAgree`: when each skill can be deleted by the name it is listed with
-/

namespace PetaCore.SkillsService

variable {α : Type} {rt : MatterRuntime α} {skillsDir serverId dir : String}
  {skills : Dict (FileTree Content)} {info : SkillInfo α}

/-! ## Names -/

theorem validateName_eq_ok {what name : String} {value : Option String} :
    validateName what value = .ok name ↔ value = some name ∧ isValidName name = true := by
  cases value with
  | none => simp [validateName]
  | some s =>
    have hempty : isValidName "" = false := rfl
    by_cases hs : s = ""
    · subst hs
      simp only [validateName, if_true, reduceCtorEq, Option.some.injEq, false_iff]
      rintro ⟨rfl, hvalid⟩
      cases hempty.symm.trans hvalid
    · simp only [validateName, if_neg hs, Option.some.injEq]
      split
      · next hvalid =>
        simp only [Except.ok.injEq]
        exact ⟨fun heq => ⟨heq, heq ▸ hvalid⟩, And.left⟩
      · next hinvalid =>
        simp only [reduceCtorEq, false_iff]
        rintro ⟨rfl, hvalid⟩
        exact hinvalid hvalid

theorem validateSkillName_eq_ok {skillName : MatterValue α} {name : String} :
    validateSkillName skillName = .ok name ↔ skillName = .str name ∧ isValidName name = true := by
  cases skillName <;> simp [validateSkillName, validateName_eq_ok]

theorem deleteSkill_eq_ok {skillName : MatterValue α} {after : Dict (FileTree Content)} :
    deleteSkill skillsDir serverId skillName skills = .ok after ↔ isValidName serverId = true ∧
      ∃ name, skillName = .str name ∧ isValidName name = true ∧
        isPathSafe skillsDir (join (join skillsDir serverId) name) = true ∧
        skills.get? name ≠ none ∧ after = skills.erase name := by
  simp only [deleteSkill, validateServerId, Except.bind_eq_ok, validateName_eq_ok,
    validateSkillName_eq_ok]
  constructor
  · rintro ⟨_, ⟨⟨⟩, hserver⟩, name, ⟨hname, hvalid⟩, h⟩
    split at h
    · cases h
    next hsafe =>
    split at h
    · cases h
    next hsome =>
    cases h
    exact ⟨hserver, name, hname, hvalid, by simpa using hsafe, by simpa using hsome, rfl⟩
  · rintro ⟨hserver, name, hname, hvalid, hsafe, hsome, rfl⟩
    refine ⟨serverId, ⟨rfl, hserver⟩, name, ⟨hname, hvalid⟩, ?_⟩
    rw [if_neg (by simp [hsafe]), if_neg (by simpa using hsome)]

/-! ## What is listed -/

theorem listSkills_eq_ok {infos : List (SkillInfo α)} :
    listSkills rt serverId skills = .ok infos ↔
      isValidName serverId = true ∧ (readSkills rt skills).map Prod.snd = infos := by
  simp [listSkills, validateServerId, Except.bind_eq_ok, validateName_eq_ok]

/-- A skill is listed for a directory with a `SKILL.md` whose front matter can be read. -/
theorem mem_readSkills : (dir, info) ∈ readSkills rt skills ↔ ∃ entries content data,
    skills.get? dir = some (.dir entries) ∧
      entries.lookup SKILL_METADATA_FILE = some (.file content) ∧ rt.matter content = some data ∧
      info = ⟨orElse rt data.name dir, orElse rt data.description "",
        orElse rt data.version "1.0.0", rt.updatedAt dir⟩ := by
  simp only [readSkills, List.mem_filterMap, Option.map_eq_some_iff, Prod.mk.injEq]
  constructor
  · rintro ⟨⟨name, node⟩, hentry, info', hinfo, rfl, rfl⟩
    unfold skillInfo at hinfo
    split at hinfo
    · cases hinfo
    next name entries heq =>
    cases heq
    split at hinfo
    · next content hfile =>
      obtain ⟨data, hdata, rfl⟩ := Option.map_eq_some_iff.mp hinfo
      exact ⟨entries, content, data, (skills.mem_entries _ _).mp hentry, hfile, hdata, rfl⟩
    · cases hinfo
  · rintro ⟨entries, content, data, hget, hfile, hdata, rfl⟩
    refine ⟨(dir, .dir entries), (skills.mem_entries _ _).mpr hget, _, ?_, rfl, rfl⟩
    simp only [skillInfo, hfile, hdata, Option.map_some]

/-- Each entry of the list is read from a directory of its own. -/
theorem nodup_readSkills (rt : MatterRuntime α) (skills : Dict (FileTree Content)) :
    ((readSkills rt skills).map Prod.fst).Nodup := by
  have hkeys : ∀ l : List (String × FileTree Content), ((l.filterMap fun entry =>
      (skillInfo rt entry).map fun info => (entry.1, info)).map Prod.fst).Sublist
        (l.map Prod.fst) := by
    intro l
    induction l with
    | nil => exact .slnil
    | cons entry l ih =>
      cases hinfo : skillInfo rt entry with
      | none => simpa [hinfo] using ih.cons entry.1
      | some info => simpa [hinfo] using ih.cons_cons entry.1
  exact skills.nodup.sublist (hkeys _)

/-- What is listed without a directory is what was listed but for its entry. -/
theorem readSkills_erase {earlier later : List (String × SkillInfo α)}
    (h : readSkills rt skills = earlier ++ (dir, info) :: later) :
    readSkills rt (skills.erase dir) = earlier ++ later := by
  have hfilter : readSkills rt (skills.erase dir) =
      (readSkills rt skills).filter fun entry => entry.1 != dir := by
    simp only [readSkills, Dict.erase, List.filterMap_filter, List.filter_filterMap]
    congr
    funext entry
    cases skillInfo rt entry with
    | none => simp
    | some info => by_cases heq : entry.1 = dir <;> simp [heq, Option.filter]
  have hnodup := nodup_readSkills rt skills
  rw [h, List.map_append, List.map_cons, List.nodup_middle, List.nodup_cons, ← List.map_append]
    at hnodup
  have hkept : ∀ entry ∈ earlier ++ later, (entry.1 != dir) = true := by
    intro entry hentry
    refine bne_iff_ne.mpr fun heq => hnodup.1 ?_
    exact List.mem_map.mpr ⟨entry, hentry, heq⟩
  rw [hfilter, h, List.filter_append, List.filter_cons_of_neg (by simp), ← List.filter_append]
  exact List.filter_eq_self.mpr hkept

/-! ## Deletions by listed names -/

/-- Each skill that is listed can be deleted by its name, which is that of no other: its directory
    goes, and the list is the same but for its entry. -/
def DeletableByName (rt : MatterRuntime α) (skillsDir serverId : String)
    (skills : Dict (FileTree Content)) : Prop :=
  ∀ infos, listSkills rt serverId skills = .ok infos →
    (∀ earlier dir info later, readSkills rt skills = earlier ++ (dir, info) :: later →
      deleteSkill skillsDir serverId info.name skills = .ok (skills.erase dir) ∧
      listSkills rt serverId (skills.erase dir) = .ok ((earlier ++ later).map Prod.snd)) ∧
    (infos.map SkillInfo.name).Nodup

/-- The directories of the skills have valid names, no front matter gives another name than that of
    its directory, and the directory of all skills is not the root. -/
def NamesAgree (rt : MatterRuntime α) (skillsDir : String) (skills : Dict (FileTree Content)) :
    Prop :=
  ∀ dir entries content data, skills.get? dir = some (.dir entries) →
    entries.lookup SKILL_METADATA_FILE = some (.file content) → rt.matter content = some data →
      isValidName dir = true ∧ skillsDir.toList.getLast? ≠ some '/' ∧
        ∀ value, data.name = some value → isTruthy rt value = true → value = .str dir

theorem orElse_eq_iff {value : Option (MatterValue α)} {fallback : String} :
    orElse rt value fallback = .str fallback ↔
      ∀ v, value = some v → isTruthy rt v = true → v = .str fallback := by
  cases value with
  | none => simp [orElse]
  | some v => cases htruthy : isTruthy rt v <;> simp [orElse, Option.filter, htruthy]

/-- The skills of a server can be deleted by their listed names when the names agree. -/
theorem deletable_iff_namesAgree :
    DeletableByName rt skillsDir serverId skills ↔
      (isValidName serverId = true → NamesAgree rt skillsDir skills) := by
  constructor
  · intro h hserver dir entries content data hget hfile hdata
    obtain ⟨earlier, later, hread⟩ := List.append_of_mem
      (mem_readSkills.mpr ⟨entries, content, data, hget, hfile, hdata, rfl⟩)
    obtain ⟨hdelete, _⟩ := (h _ (listSkills_eq_ok.mpr ⟨hserver, rfl⟩)).1 earlier dir _ later hread
    obtain ⟨_, name, hname, hvalid, hsafe, hsome, herase⟩ := deleteSkill_eq_ok.mp hdelete
    -- the directory that goes is the one of the name
    have heq : name = dir := by
      by_contra hne
      have hgone := congrArg (Dict.get? · name) herase
      simp only [Dict.get?_erase, if_neg hne, if_true] at hgone
      exact hsome hgone
    subst heq
    refine ⟨hvalid, fun hroot => ?_, orElse_eq_iff.mp hname⟩
    rw [isPathSafe_of_root (u := ⟨skillsDir, serverId, 0, none, ""⟩) hroot hserver] at hsafe
    cases hsafe
  · intro h infos hinfos
    obtain ⟨hserver, rfl⟩ := listSkills_eq_ok.mp hinfos
    have hname : ∀ entry ∈ readSkills rt skills, entry.2.name = .str entry.1 := by
      rintro ⟨dir, info⟩ hentry
      obtain ⟨entries, content, data, hget, hfile, hdata, rfl⟩ := mem_readSkills.mp hentry
      exact orElse_eq_iff.mpr (h hserver dir entries content data hget hfile hdata).2.2
    constructor
    · intro earlier dir info later hread
      have hmem : (dir, info) ∈ readSkills rt skills := by simp [hread]
      obtain ⟨entries, content, data, hget, hfile, hdata, _⟩ := mem_readSkills.mp hmem
      obtain ⟨hvalid, hroot, _⟩ := h hserver dir entries content data hget hfile hdata
      refine ⟨deleteSkill_eq_ok.mpr ⟨hserver, dir, hname _ hmem, hvalid, ?_, by simp [hget], rfl⟩,
        listSkills_eq_ok.mpr ⟨hserver, by rw [readSkills_erase hread]⟩⟩
      exact isPathSafe_of_not_root (u := ⟨skillsDir, serverId, 0, none, ""⟩) hroot dir
    · have hnames : ((readSkills rt skills).map Prod.snd).map SkillInfo.name =
          ((readSkills rt skills).map Prod.fst).map .str := by
        rw [List.map_map, List.map_map]
        exact List.map_congr_left hname
      rw [hnames]
      exact (nodup_readSkills rt skills).map fun _ _ => MatterValue.str.inj

/-- A front matter that names the directory of another skill: the other skill is deleted. -/
theorem other_skill_deleted :
    ¬∀ (rt : MatterRuntime Bool) (skillsDir serverId : String) (skills : Dict (FileTree Content)),
      DeletableByName rt skillsDir serverId skills := by
  intro h
  -- the lines ---, name: report and ---, and an empty file
  have hdelete := ((h ⟨fun content => if content = [] then some ⟨none, none, none⟩
    else some ⟨some (.str "report"), none, none⟩, id, fun _ => "2025-01-01T00:00:00.000Z"⟩
    "/app/skills" "server" ⟨[("pdf-tools", .dir [("SKILL.md", .file [45, 45, 45, 10, 110, 97, 109,
      101, 58, 32, 114, 101, 112, 111, 114, 116, 10, 45, 45, 45])]),
      ("report", .dir [("SKILL.md", .file [])])], by decide⟩ _ rfl).1 [] _ _ _ rfl).1
  obtain ⟨_, name, ⟨⟩, _, _, _, herase⟩ := deleteSkill_eq_ok.mp hdelete
  have hleft := congrArg (fun d => (d.entries.map Prod.fst)) herase
  exact absurd hleft (by decide +kernel)

end PetaCore.SkillsService
