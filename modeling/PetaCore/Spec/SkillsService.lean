import PetaCore.Core.SkillsService

/-!
# Uploads and the skills they replace

An upload removes the directory of a skill before it copies the new one, ignores a removal that
fails, and passes over directories that it cannot read. So some failure of a file operation does
harm whenever there is something to lose: an earlier directory of the same name, or a second skill
in the archive that differs from the first one.

Key results:
- `copyDirectory_sameContent`: a copy that returns has the content of its source
- `uploadSkill_kept_iff`: when no failure whatsoever does harm
- `lost_on_failed_copy`: a skill that is lost when its replacement cannot be copied
-/

namespace PetaCore.SkillsService

open FileTree

variable {faults : Faults}

/-! ## Extraction -/

/-- No operation of the extraction fails. -/
def Extracts (faults : Faults) : Prop :=
  ∀ k, faults.fails (.extractMkdir k) = false ∧ faults.fails (.getEntryData k) = false ∧
    faults.fails (.writeFile k) = false

variable {tree : List (String × FileTree Content)}

/-- Failures can only keep an archive from being extracted. By induction on the entries. -/
theorem extractEntries_none {index size : Nat} {entries : List (List String × ZipEntry)}
    {tree' : List (String × FileTree Content)}
    (h : extractEntries faults index entries size tree = some tree') :
    extractEntries Faults.none index entries size tree = some tree' := by
  fun_induction extractEntries faults index entries size tree with
  | case1 => exact h
  | case2 | case3 | case4 | case5 | case6 | case7 | case8 => cases h
  | case9 index path entry entries size tree _ inner hmkdir _ content hdata hsize _ written hwrite
      ih =>
    rw [extractEntries]
    simp only [Faults.none, Bool.false_eq_true, if_false, hmkdir, hdata, hsize, hwrite]
    exact ih h

theorem safeExtractZipAsync_none {entries : List ZipEntry}
    (h : safeExtractZipAsync faults entries = some tree) :
    safeExtractZipAsync Faults.none entries = some tree := by
  unfold safeExtractZipAsync at h ⊢
  split at h
  · cases h
  · rename_i hcount
    split at h
    · cases h
    · rename_i hsize
      rw [if_neg hcount, if_neg hsize]
      dsimp only at h ⊢
      split at h
      · cases h
      · exact extractEntries_none h

/-- Where nothing fails in the extraction, the archive is extracted as it can be. -/
theorem extractEntries_of_ok (hok : Extracts faults) (index size : Nat)
    (entries : List (List String × ZipEntry)) (tree : List (String × FileTree Content)) :
    extractEntries faults index entries size tree =
      extractEntries Faults.none index entries size tree := by
  induction entries generalizing index size tree with
  | nil => rfl
  | cons e entries ih =>
    obtain ⟨path, entry⟩ := e
    rw [extractEntries, extractEntries, (hok index).1, (hok index).2.1, (hok index).2.2]
    simp only [Faults.none, Bool.false_eq_true, if_false]
    split
    · rfl
    · split
      · rfl
      · split
        · rfl
        · split
          · rfl
          · exact ih _ _ _

theorem safeExtractZipAsync_of_ok (hok : Extracts faults) (entries : List ZipEntry) :
    safeExtractZipAsync faults entries = safeExtractZipAsync Faults.none entries := by
  unfold safeExtractZipAsync
  simp only [extractEntries_of_ok hok]

theorem wellFormed_extractEntries {index size : Nat} {entries : List (List String × ZipEntry)}
    {tree' : List (String × FileTree Content)} (hwf : (FileTree.dir tree).WellFormed)
    (h : extractEntries faults index entries size tree = some tree') :
    (FileTree.dir tree').WellFormed := by
  fun_induction extractEntries faults index entries size tree with
  | case1 =>
    cases h
    exact hwf
  | case2 | case3 | case4 | case5 | case6 | case7 | case8 => cases h
  | case9 index path entry entries size tree _ inner hmkdir _ content hdata hsize _ written hwrite
      ih => exact ih (wellFormed_writeFile (wellFormed_mkdir hwf hmkdir) hwrite) h

/-- No directory of an extracted archive lists a name twice. -/
theorem wellFormed_safeExtractZipAsync {entries : List ZipEntry}
    (h : safeExtractZipAsync faults entries = some tree) :
    (FileTree.dir tree).WellFormed := by
  unfold safeExtractZipAsync at h
  split at h
  · cases h
  · split at h
    · cases h
    · dsimp only at h
      split at h
      · cases h
      · exact wellFormed_extractEntries wellFormed_empty h

/-! ## Searching -/

mutual

/-- Failures can only keep skills from being found. -/
theorem mem_of_mem_find (faults : Faults) (path : List String) (name : String)
    (t : FileTree Content) {s : String × FileTree Content}
    (h : s ∈ findSkillDirectories faults path name t) :
    s ∈ findSkillDirectories Faults.none path name t := by
  match t with
  | .file _ =>
    rw [findSkillDirectories] at h
    cases h
  | .dir entries =>
    rw [findSkillDirectories] at h
    split at h
    · cases h
    · rw [findSkillDirectories, if_neg (by simp [Faults.none])]
      split at h
      · rename_i hmd
        rw [if_pos hmd]
        exact h
      · rename_i hmd
        rw [if_neg hmd]
        exact mem_of_mem_findIn faults path entries h

theorem mem_of_mem_findIn (faults : Faults) (path : List String)
    (entries : List (String × FileTree Content)) {s : String × FileTree Content}
    (h : s ∈ findInEntries faults path entries) : s ∈ findInEntries Faults.none path entries := by
  match entries with
  | [] =>
    rw [findInEntries] at h
    cases h
  | (name, node) :: entries =>
    rw [findInEntries, List.mem_append] at h ⊢
    cases h with
    | inl h => exact .inl (mem_of_mem_find faults (path ++ [name]) name node h)
    | inr h => exact .inr (mem_of_mem_findIn faults path entries h)

end

mutual

/-- Where only directories with a certain name cannot be read, and among them only skills, the
    others are found. -/
theorem find_of_fails {faults : Faults} {a : String}
    (hfails : ∀ path name entries, faults.fails (.findReaddir path name entries) =
      (name == a && hasSkillMd entries)) (path : List String) (name : String)
    (t : FileTree Content) :
    findSkillDirectories faults path name t =
      (findSkillDirectories Faults.none path name t).filter fun s => s.1 != a := by
  match t with
  | .file _ => rfl
  | .dir entries =>
    rw [findSkillDirectories, findSkillDirectories, hfails]
    simp only [Faults.none, Bool.false_eq_true, if_false]
    by_cases hmd : hasSkillMd entries = true
    · by_cases hname : name = a
      · simp [hmd, hname]
      · simp [hmd, hname]
    · simp only [hmd, Bool.and_false, Bool.false_eq_true, if_false]
      exact findIn_of_fails hfails path entries

theorem findIn_of_fails {faults : Faults} {a : String}
    (hfails : ∀ path name entries, faults.fails (.findReaddir path name entries) =
      (name == a && hasSkillMd entries)) (path : List String)
    (entries : List (String × FileTree Content)) :
    findInEntries faults path entries =
      (findInEntries Faults.none path entries).filter fun s => s.1 != a := by
  match entries with
  | [] => rfl
  | (name, node) :: entries =>
    rw [findInEntries, findInEntries, List.filter_append,
      find_of_fails hfails (path ++ [name]) name node, findIn_of_fails hfails path entries]

end

mutual

/-- Where every directory can be read, all skills are found. -/
theorem find_of_ok {faults : Faults}
    (hok : ∀ path name entries, faults.fails (.findReaddir path name entries) = false)
    (path path' : List String) (name : String) (t : FileTree Content) :
    findSkillDirectories faults path name t = findSkillDirectories Faults.none path' name t := by
  match t with
  | .file _ => rfl
  | .dir entries =>
    rw [findSkillDirectories, findSkillDirectories, hok]
    simp only [Faults.none, Bool.false_eq_true, if_false]
    split
    · rfl
    · exact findIn_of_ok hok path path' entries

theorem findIn_of_ok {faults : Faults}
    (hok : ∀ path name entries, faults.fails (.findReaddir path name entries) = false)
    (path path' : List String) (entries : List (String × FileTree Content)) :
    findInEntries faults path entries = findInEntries Faults.none path' entries := by
  match entries with
  | [] => rfl
  | (name, node) :: entries =>
    rw [findInEntries, findInEntries, find_of_ok hok _ (path' ++ [name]) name node,
      findIn_of_ok hok path path' entries]

end

mutual

/-- What is found are directories without repeated names. -/
theorem wellFormed_of_mem_find (path : List String) (name : String) (t : FileTree Content)
    (h : t.WellFormed) {s : String × FileTree Content}
    (hs : s ∈ findSkillDirectories Faults.none path name t) :
    s.2.WellFormed ∧ ∃ entries, s.2 = .dir entries := by
  match t with
  | .file _ =>
    rw [findSkillDirectories] at hs
    cases hs
  | .dir entries =>
    rw [findSkillDirectories, if_neg (by simp [Faults.none])] at hs
    split at hs
    · rw [List.mem_singleton.mp hs]
      exact ⟨h, entries, rfl⟩
    · exact wellFormed_of_mem_findIn path entries h.2 hs

theorem wellFormed_of_mem_findIn (path : List String) (entries : List (String × FileTree Content))
    (h : EntriesWellFormed entries) {s : String × FileTree Content}
    (hs : s ∈ findInEntries Faults.none path entries) :
    s.2.WellFormed ∧ ∃ entries, s.2 = .dir entries := by
  match entries with
  | [] =>
    rw [findInEntries] at hs
    cases hs
  | (name, node) :: entries =>
    rw [findInEntries, List.mem_append] at hs
    cases hs with
    | inl hs => exact wellFormed_of_mem_find (path ++ [name]) name node h.1 hs
    | inr hs => exact wellFormed_of_mem_findIn path entries h.2 hs

end

theorem hasSkillMd_arranged (l : Listing Content) (entries : List (String × FileTree Content)) :
    hasSkillMd (l.order (arrangedEntries l entries)) = hasSkillMd entries := by
  have hany : hasSkillMd (l.order (arrangedEntries l entries)) =
      hasSkillMd (arrangedEntries l entries) := (l.perm _).any_eq
  rw [hany, hasSkillMd, arrangedEntries_eq_map, List.any_map]
  congr 1
  funext e
  obtain ⟨name, t⟩ := e
  cases t <;> rfl

theorem mem_findInEntries (path : List String) (entries : List (String × FileTree Content))
    (s : String × FileTree Content) :
    s ∈ findInEntries Faults.none path entries ↔
      ∃ e ∈ entries, s ∈ findSkillDirectories Faults.none (path ++ [e.1]) e.1 e.2 := by
  induction entries with
  | nil => simp [findInEntries]
  | cons e entries ih =>
    rw [findInEntries, List.mem_append, ih]
    simp only [List.mem_cons, exists_eq_or_imp]

mutual

/-- The skills that are found do not depend on the order in which directories are listed. -/
theorem mem_find_arranged (l : Listing Content) (path path' : List String) (name : String)
    (t : FileTree Content) (s : String × FileTree Content) :
    s ∈ findSkillDirectories Faults.none path name (t.arranged l) ↔
      ∃ s' ∈ findSkillDirectories Faults.none path' name t, s = (s'.1, s'.2.arranged l) := by
  match t with
  | .file _ => simp [arranged, findSkillDirectories]
  | .dir entries =>
    rw [arranged, findSkillDirectories, findSkillDirectories, hasSkillMd_arranged]
    simp only [Faults.none, Bool.false_eq_true, if_false]
    split
    · simp [arranged]
    · have hperm : s ∈ findInEntries Faults.none path (l.order (arrangedEntries l entries)) ↔
          s ∈ findInEntries Faults.none path (arrangedEntries l entries) := by
        rw [mem_findInEntries, mem_findInEntries]
        constructor
        · rintro ⟨e, he, hs⟩
          exact ⟨e, (l.perm _).subset he, hs⟩
        · rintro ⟨e, he, hs⟩
          exact ⟨e, (l.perm _).symm.subset he, hs⟩
      exact hperm.trans (mem_findIn_arranged l path path' entries s)

theorem mem_findIn_arranged (l : Listing Content) (path path' : List String)
    (entries : List (String × FileTree Content)) (s : String × FileTree Content) :
    s ∈ findInEntries Faults.none path (arrangedEntries l entries) ↔
      ∃ s' ∈ findInEntries Faults.none path' entries, s = (s'.1, s'.2.arranged l) := by
  match entries with
  | [] => simp [arrangedEntries, findInEntries]
  | (name, node) :: entries =>
    rw [arrangedEntries, findInEntries, findInEntries, List.mem_append,
      mem_find_arranged l (path ++ [name]) (path' ++ [name]) name node s,
      mem_findIn_arranged l path path' entries s]
    constructor
    · rintro (⟨s', hs', heq⟩ | ⟨s', hs', heq⟩)
      · exact ⟨s', List.mem_append_left _ hs', heq⟩
      · exact ⟨s', List.mem_append_right _ hs', heq⟩
    · rintro ⟨s', hs', heq⟩
      exact (List.mem_append.mp hs').imp (fun hs' => ⟨s', hs', heq⟩) fun hs' => ⟨s', hs', heq⟩

end

/-! ## Copying -/

variable {name : String}

/-- What stood at the destination when it is within the source or a file. -/
theorem within_of_madeDirectory {src present : List (String × FileTree Content)}
    {dest : Option (FileTree Content)} (hmade : madeDirectory dest = some present)
    (hdest : ∀ t, dest = some t → Within t (.dir src) ∨ ∃ content, t = .file content)
    {t' : FileTree Content} (ht' : present.lookup name = some t') :
    ∃ t, src.lookup name = some t ∧ Within t' t := by
  match dest, hmade with
  | none, hmade =>
    cases hmade
    cases ht'
  | some (.dir _), hmade =>
    cases hmade
    cases hdest _ rfl with
    | inr hfile =>
      obtain ⟨_, hfile⟩ := hfile
      cases hfile
    | inl hwithin =>
      have hat : ∀ p, (t'.at? p).isSome → ((src.lookup name).bind fun t => t.at? p).isSome := by
        intro p hp
        have hpath := hwithin (name :: p)
        rw [at?_dir_cons, at?_dir_cons, ht'] at hpath
        exact hpath hp
      cases hlookup : src.lookup name with
      | none =>
        have hroot : (t'.at? []).isSome := by cases t' <;> rfl
        have hpath := hat [] hroot
        rw [hlookup] at hpath
        cases hpath
      | some t =>
        refine ⟨t, rfl, fun p hp => ?_⟩
        have hpath := hat p hp
        rwa [hlookup] at hpath

mutual

/-- A copy that returns has the content of its source, also one into a part of this content. By
    induction on the source. -/
theorem copyDirectory_sameContent (faults : Faults) (skill : Nat) (src : FileTree Content)
    (destPath : List String) (dest : Option (FileTree Content)) (hwf : src.WellFormed)
    (hdest : ∀ t, dest = some t → Within t src ∨ ∃ content, t = .file content)
    {result : Option (FileTree Content)}
    (h : copyDirectory faults skill src destPath dest = (true, result)) :
    ∃ node, result = some node ∧ SameContent node src := by
  match src with
  | .file _ =>
    rw [copyDirectory] at h
    cases h
  | .dir entries =>
    rw [copyDirectory] at h
    split at h
    · cases h
    · rename_i present hmade
      split at h
      · cases h
      · split at h
        · cases h
        · obtain ⟨hok, rfl⟩ := Prod.mk.inj h
          have hwithin : ∀ name t', present.lookup name = some t' →
              ∃ t, entries.lookup name = some t ∧ Within t' t :=
            fun name t' ht' => within_of_madeDirectory hmade hdest ht'
          refine ⟨_, rfl, sameContent_dir fun name p => ?_⟩
          obtain ⟨hin, hout⟩ := copyEntries_sameContent faults skill entries destPath present
            hwf.1 hwf.2 (by
              intro name t t' ht ht'
              obtain ⟨t₁, ht₁, hpart⟩ := hwithin name t' ht'
              rw [ht] at ht₁
              cases ht₁
              exact .inl hpart) hok name
          cases hlookup : entries.lookup name with
          | some t =>
            rw [hlookup] at hin
            exact hin rfl p
          | none =>
            rw [hout hlookup]
            cases hold : present.lookup name with
            | none => rfl
            | some t' =>
              obtain ⟨t, ht, _⟩ := hwithin name t' hold
              rw [hlookup] at ht
              cases ht

theorem copyEntries_sameContent (faults : Faults) (skill : Nat)
    (src : List (String × FileTree Content)) (destPath : List String)
    (present : List (String × FileTree Content)) (hnodup : (src.map Prod.fst).Nodup)
    (hwf : EntriesWellFormed src)
    (hpresent : ∀ name t t', src.lookup name = some t → present.lookup name = some t' →
      Within t' t ∨ ∃ content, t' = .file content)
    (h : (copyEntries faults skill src destPath present).1 = true) (name : String) :
    ((src.lookup name).isSome → ∀ p,
        ((copyEntries faults skill src destPath present).2.lookup name).bind (fun t => t.at? p) =
          (src.lookup name).bind fun t => t.at? p) ∧
      (src.lookup name = none →
        (copyEntries faults skill src destPath present).2.lookup name = present.lookup name) := by
  match src with
  | [] => exact ⟨fun hsome => (by cases hsome), fun _ => rfl⟩
  | (key, node) :: src =>
    rw [List.map_cons, List.nodup_cons] at hnodup
    have hkey : src.lookup key = none := by
      cases hlookup : src.lookup key with
      | none => rfl
      | some t => exact absurd (List.mem_map_of_mem (mem_of_lookup hlookup)) hnodup.1
    -- the first entry is copied, and then the others
    have hnext : ∃ copied, SameContent copied node ∧
        copyEntries faults skill ((key, node) :: src) destPath present =
          copyEntries faults skill src destPath (Dict.setEntry key copied present) := by
      cases node with
      | dir entries =>
        rw [copyEntries] at h ⊢
        split at h
        · rename_i hok
          rw [if_pos hok]
          have hpair : copyDirectory faults skill (.dir entries) (destPath ++ [key])
              (present.lookup key) = (true, (copyDirectory faults skill (.dir entries)
                (destPath ++ [key]) (present.lookup key)).snd) := Prod.ext hok rfl
          obtain ⟨copied, hcopied, hsame⟩ := copyDirectory_sameContent faults skill (.dir entries)
            (destPath ++ [key]) (present.lookup key) hwf.1
            (fun t ht => hpresent key (.dir entries) t (by rw [List.lookup_cons_self]) ht) hpair
          exact ⟨copied, hsame, by rw [hcopied]⟩
        · cases h
      | file content =>
        rw [copyEntries] at h ⊢
        split at h
        · cases h
        · rename_i hnodir
          split at h
          · split at h <;> cases h
          · rename_i hok
            refine ⟨.file content, fun _ => rfl, ?_⟩
            rw [if_neg hok]
    obtain ⟨copied, hsame, hnext⟩ := hnext
    rw [hnext] at h ⊢
    obtain ⟨hin, hout⟩ := copyEntries_sameContent faults skill src destPath
      (Dict.setEntry key copied present) hnodup.2 hwf.2 (by
        intro name' t t' ht ht'
        rw [Dict.lookup_setEntry] at ht'
        have hne : name' ≠ key := by
          rintro rfl
          rw [hkey] at ht
          cases ht
        rw [if_neg hne] at ht'
        exact hpresent name' t t' (by rw [List.lookup_cons, beq_false_of_ne hne]; exact ht) ht')
      h name
    by_cases hname : name = key
    · subst hname
      rw [List.lookup_cons_self]
      refine ⟨fun _ p => ?_, fun hnone => by cases hnone⟩
      rw [hout hkey, Dict.lookup_setEntry, if_pos rfl]
      exact hsame p
    · rw [List.lookup_cons, beq_false_of_ne hname]
      refine ⟨hin, fun hnone => ?_⟩
      rw [hout hnone, Dict.lookup_setEntry, if_neg hname]

end

mutual

/-- Where nothing stands at the destination and no operation fails there, a copy returns. -/
theorem copyDirectory_of_ok (faults : Faults) (skill : Nat) (src : FileTree Content)
    (destPath : List String) (hwf : src.WellFormed) (hdir : ∃ entries, src = .dir entries)
    (hok : ∀ path, faults.fails (.copyMkdir skill (destPath ++ path)) = false ∧
      faults.fails (.copyReaddir skill (destPath ++ path)) = false ∧
      faults.fails (.copyFile skill (destPath ++ path)) = false) :
    ∃ node, copyDirectory faults skill src destPath none = (true, some node) := by
  match src with
  | .file _ =>
    obtain ⟨_, hdir⟩ := hdir
    cases hdir
  | .dir entries =>
    obtain ⟨hmkdir, hreaddir, _⟩ := hok []
    rw [List.append_nil] at hmkdir hreaddir
    have hentries := copyEntries_of_ok entries destPath [] hwf.1 hwf.2 (fun _ _ => rfl) hok
    refine ⟨.dir (copyEntries faults skill entries destPath []).2, ?_⟩
    rw [copyDirectory]
    simp only [madeDirectory, hmkdir, hreaddir, Bool.false_eq_true, if_false, hentries]

theorem copyEntries_of_ok {faults : Faults} {skill : Nat}
    (src : List (String × FileTree Content)) (destPath : List String)
    (present : List (String × FileTree Content)) (hnodup : (src.map Prod.fst).Nodup)
    (hwf : EntriesWellFormed src)
    (habsent : ∀ name ∈ src.map Prod.fst, present.lookup name = none)
    (hok : ∀ path, faults.fails (.copyMkdir skill (destPath ++ path)) = false ∧
      faults.fails (.copyReaddir skill (destPath ++ path)) = false ∧
      faults.fails (.copyFile skill (destPath ++ path)) = false) :
    (copyEntries faults skill src destPath present).1 = true := by
  match src with
  | [] => rfl
  | (key, node) :: src =>
    rw [List.map_cons, List.nodup_cons] at hnodup
    have hkey : present.lookup key = none := habsent key List.mem_cons_self
    have hrest : ∀ copied, ∀ name ∈ src.map Prod.fst,
        (Dict.setEntry key copied present).lookup name = none := by
      intro copied name hname
      have hne : name ≠ key := by
        rintro rfl
        exact hnodup.1 hname
      rw [Dict.lookup_setEntry, if_neg hne]
      exact habsent name (List.mem_cons_of_mem key hname)
    cases node with
    | dir entries =>
      obtain ⟨copied, hcopied⟩ := copyDirectory_of_ok faults skill
        (.dir entries) (destPath ++ [key]) hwf.1 ⟨entries, rfl⟩
        (fun path => by rw [List.append_assoc]; exact hok ([key] ++ path))
      rw [copyEntries, hkey, hcopied]
      exact copyEntries_of_ok src destPath _ hnodup.2 hwf.2 (hrest copied) hok
    | file content =>
      rw [copyEntries, hkey]
      simp only [(hok [key]).2.2, Bool.false_eq_true, if_false]
      exact copyEntries_of_ok src destPath _ hnodup.2 hwf.2 (hrest (.file content)) hok

end

mutual

/-- A copy lists no name twice where its destination does not. -/
theorem wellFormed_copyDirectory (faults : Faults) (skill : Nat) (src : FileTree Content)
    (destPath : List String) (dest : Option (FileTree Content))
    (hdest : ∀ t, dest = some t → t.WellFormed) {result : FileTree Content}
    (h : copyDirectory faults skill src destPath dest = (true, some result)) :
    result.WellFormed := by
  match src with
  | .file _ =>
    rw [copyDirectory] at h
    cases h
  | .dir entries =>
    rw [copyDirectory] at h
    split at h
    · cases h
    · rename_i present hmade
      have hpresent : (FileTree.dir present).WellFormed := by
        match dest, hmade with
        | none, hmade =>
          cases hmade
          exact wellFormed_empty
        | some (.dir _), hmade =>
          cases hmade
          exact hdest _ rfl
      split at h
      · cases h
      · split at h
        · cases h
        · obtain ⟨hok, hresult⟩ := Prod.mk.inj h
          rw [← Option.some.inj hresult]
          exact wellFormed_copyEntries faults skill entries destPath present hpresent hok

theorem wellFormed_copyEntries (faults : Faults) (skill : Nat)
    (src : List (String × FileTree Content)) (destPath : List String)
    (present : List (String × FileTree Content)) (hpresent : (FileTree.dir present).WellFormed)
    (h : (copyEntries faults skill src destPath present).1 = true) :
    (FileTree.dir (copyEntries faults skill src destPath present).2).WellFormed := by
  match src with
  | [] => exact hpresent
  | (name, .dir entries) :: src =>
    rw [copyEntries] at h ⊢
    split at h
    · rename_i hok
      rw [if_pos hok]
      refine wellFormed_copyEntries faults skill src destPath _ ?_ h
      split
      · rename_i node hnode
        refine wellFormed_setEntry hpresent ?_ name
        exact wellFormed_copyDirectory faults skill (.dir entries) (destPath ++ [name])
          (present.lookup name) (fun t ht => wellFormed_of_lookup hpresent ht)
          (Prod.ext hok hnode)
      · exact hpresent
    · cases h
  | (name, .file content) :: src =>
    rw [copyEntries] at h ⊢
    split at h
    · cases h
    · split at h
      · split at h <;> cases h
      · rename_i hok
        rw [if_neg hok]
        exact wellFormed_copyEntries faults skill src destPath _
          (wellFormed_setEntry hpresent (wellFormed_file content) name) h

end

/-! ## Replacing skills -/

/-- Only the skill of the name is removed. -/
theorem get?_removeSkill_of_ne (faults : Faults) (skill : Nat) {name' : String}
    (h : name' ≠ name) (skills : Dict (FileTree Content)) :
    (removeSkill faults skill name skills).get? name' = skills.get? name' := by
  unfold removeSkill
  split
  · split
    · exact Dict.get?_set_ne skills _ h
    · rw [Dict.get?_erase, if_neg h]
  · rw [Dict.get?_erase, if_neg h]

/-- What a removal leaves is a part of what stood there. -/
theorem get?_removeSkill_self (faults : Faults) (skill : Nat) (name : String)
    (skills : Dict (FileTree Content)) {t : FileTree Content}
    (h : (removeSkill faults skill name skills).get? name = some t) :
    ∃ old, skills.get? name = some old ∧ old.restrict (faults.kept skill) [] = some t := by
  unfold removeSkill at h
  split at h
  · split at h
    · rename_i node hnode
      rw [Dict.get?_set_self] at h
      cases h
      exact Option.bind_eq_some_iff.mp hnode
    · rw [Dict.get?_erase, if_pos rfl] at h
      cases h
  · rw [Dict.get?_erase, if_pos rfl] at h
    cases h

/-- The skills after a directory has been copied to its place. -/
def placed (name : String) (copied : Option (FileTree Content))
    (skills : Dict (FileTree Content)) : Dict (FileTree Content) :=
  match copied with
  | some node => skills.set name node
  | none => skills

theorem get?_placed_of_ne {name' : String} (h : name' ≠ name)
    (copied : Option (FileTree Content)) (skills : Dict (FileTree Content)) :
    (placed name copied skills).get? name' = skills.get? name' := by
  cases copied with
  | none => rfl
  | some node => exact Dict.get?_set_ne skills node h

variable {s : String × FileTree Content} {skills : Dict (FileTree Content)}

variable {u : SkillUpload}

/-- One round of the loop for a skill with a valid name and a safe path. -/
theorem copySkills_cons {faults : Faults} {skill : Nat}
    {skillDirs : List (String × FileTree Content)} {uploadedSkills : List String}
    (hvalid : isValidName s.1 = true)
    (hsafe : isPathSafe u.skillsDir (join (join u.skillsDir u.serverId) s.1) = true)
    {r : Bool × Option (FileTree Content)} (hr : copyDirectory faults skill s.2 [s.1]
      ((removeSkill faults skill s.1 skills).get? s.1) = r) :
    copySkills faults u skill (s :: skillDirs) uploadedSkills skills =
      if r.1 then copySkills faults u (skill + 1) skillDirs (uploadedSkills ++ [s.1])
        (placed s.1 r.2 (removeSkill faults skill s.1 skills))
      else ⟨none, placed s.1 r.2 (removeSkill faults skill s.1 skills)⟩ := by
  obtain ⟨name, node⟩ := s
  rw [copySkills, hvalid, hsafe]
  simp only [Bool.not_true, Bool.false_eq_true, if_false, hr]
  rfl

theorem copySkills_cons_of_invalid {faults : Faults} {skill : Nat}
    {skillDirs : List (String × FileTree Content)} {uploadedSkills : List String}
    (hvalid : isValidName s.1 = false) :
    copySkills faults u skill (s :: skillDirs) uploadedSkills skills =
      copySkills faults u (skill + 1) skillDirs uploadedSkills skills := by
  obtain ⟨name, node⟩ := s
  rw [copySkills, hvalid]
  rfl

/-- Without a safe path, nothing is replaced. -/
theorem copySkills_of_unsafe_path {faults : Faults}
    (hsafe : ∀ name, isPathSafe u.skillsDir (join (join u.skillsDir u.serverId) name) = false)
    (skill : Nat) (skillDirs : List (String × FileTree Content)) (uploadedSkills : List String)
    (skills : Dict (FileTree Content)) :
    copySkills faults u skill skillDirs uploadedSkills skills =
      ⟨some uploadedSkills, skills⟩ := by
  induction skillDirs generalizing skill with
  | nil => rfl
  | cons s skillDirs ih =>
    obtain ⟨name, node⟩ := s
    rw [copySkills]
    split
    · exact ih (skill + 1)
    · rw [hsafe name]
      exact ih (skill + 1)

section

variable {faults : Faults} {u : SkillUpload}

/-- Skills that are not named are not touched. -/
theorem get?_copySkills_of_ne
    (hsafe : ∀ name, isPathSafe u.skillsDir (join (join u.skillsDir u.serverId) name) = true)
    {name : String} (skill : Nat) (skillDirs : List (String × FileTree Content))
    (uploadedSkills : List String) (skills : Dict (FileTree Content))
    (hne : ∀ s ∈ skillDirs, isValidName s.1 = true → s.1 ≠ name) :
    (copySkills faults u skill skillDirs uploadedSkills skills).skills.get? name =
      skills.get? name := by
  induction skillDirs generalizing skill uploadedSkills skills with
  | nil => rfl
  | cons s skillDirs ih =>
    have hrest : ∀ s ∈ skillDirs, isValidName s.1 = true → s.1 ≠ name := fun s hs =>
      hne s (List.mem_cons_of_mem _ hs)
    cases hvalid : isValidName s.1 with
    | false =>
      rw [copySkills_cons_of_invalid hvalid]
      exact ih _ _ _ hrest
    | true =>
      have hother : name ≠ s.1 := (hne s List.mem_cons_self hvalid).symm
      rw [copySkills_cons hvalid (hsafe s.1) rfl]
      split
      · rw [ih _ _ _ hrest, get?_placed_of_ne hother, get?_removeSkill_of_ne _ _ hother]
      · show (placed _ _ _).get? name = _
        rw [get?_placed_of_ne hother, get?_removeSkill_of_ne _ _ hother]

/-- No operation of the replacement of skills fails. -/
def Copies (faults : Faults) : Prop :=
  ∀ skill path, faults.fails (.rm skill) = false ∧ faults.fails (.copyMkdir skill path) = false ∧
    faults.fails (.copyReaddir skill path) = false ∧ faults.fails (.copyFile skill path) = false

/-- Where no operation fails, every skill with a valid name is uploaded. -/
theorem copySkills_of_ok
    (hsafe : ∀ name, isPathSafe u.skillsDir (join (join u.skillsDir u.serverId) name) = true)
    (hok : Copies faults)
    (skill : Nat) (skillDirs : List (String × FileTree Content)) (uploadedSkills : List String)
    (skills : Dict (FileTree Content))
    (hdirs : ∀ s ∈ skillDirs, s.2.WellFormed ∧ ∃ entries, s.2 = .dir entries) :
    (copySkills faults u skill skillDirs uploadedSkills skills).uploadedSkills =
      some (uploadedSkills ++ (skillDirs.map Prod.fst).filter isValidName) := by
  induction skillDirs generalizing skill uploadedSkills skills with
  | nil => simp [copySkills]
  | cons s skillDirs ih =>
    have hrest := fun s hs => hdirs s (List.mem_cons_of_mem _ hs)
    obtain ⟨hwf, hdir⟩ := hdirs s List.mem_cons_self
    cases hvalid : isValidName s.1 with
    | false =>
      rw [copySkills_cons_of_invalid hvalid, ih _ _ _ hrest, List.map_cons,
        List.filter_cons_of_neg (by simp [hvalid])]
    | true =>
      have habsent : (removeSkill faults skill s.1 skills).get? s.1 = none := by
        rw [removeSkill, (hok skill []).1, if_neg (by decide), Dict.get?_erase, if_pos rfl]
      obtain ⟨node, hnode⟩ := copyDirectory_of_ok faults skill s.2 [s.1] hwf
        hdir fun path => (hok skill ([s.1] ++ path)).2
      rw [← habsent] at hnode
      rw [copySkills_cons hvalid (hsafe s.1) hnode]
      show (copySkills _ _ _ _ _ _).uploadedSkills = _
      rw [ih _ _ _ hrest, List.map_cons, List.filter_cons_of_pos hvalid, List.append_assoc]
      rfl

end

variable {u : SkillUpload}

/-! ## Failures that do harm -/

/-- The directory of a certain skill cannot be made. -/
def failedCopy (a : String) : Faults where
  fails
    | .copyMkdir _ dest => dest == [a]
    | _ => false
  kept _ _ := false
  left _ _ := none

/-- The directories of a certain skill cannot be read in the search. -/
def unreadable (a : String) : Faults where
  fails
    | .findReaddir _ name entries => name == a && hasSkillMd entries
    | _ => false
  kept _ _ := false
  left _ _ := none

/-- When the directory of a skill cannot be made, the skill is gone. By induction on the skills
    before it, which are copied. -/
theorem copySkills_failedCopy {a : String}
    (hsafe : ∀ name, isPathSafe u.skillsDir (join (join u.skillsDir u.serverId) name) = true)
    (skill : Nat) (skillDirs : List (String × FileTree Content)) (uploadedSkills : List String)
    (skills : Dict (FileTree Content))
    (hdirs : ∀ s ∈ skillDirs, s.2.WellFormed ∧ ∃ entries, s.2 = .dir entries)
    (ha : a ∈ skillDirs.map Prod.fst) (hvalid : isValidName a = true) :
    (copySkills (failedCopy a) u skill skillDirs uploadedSkills skills).uploadedSkills = none ∧
      (copySkills (failedCopy a) u skill skillDirs uploadedSkills skills).skills.get? a = none := by
  induction skillDirs generalizing skill uploadedSkills skills with
  | nil => cases ha
  | cons s skillDirs ih =>
    have hrest := fun s hs => hdirs s (List.mem_cons_of_mem _ hs)
    obtain ⟨hwf, entries, hdir⟩ := hdirs s List.mem_cons_self
    have hremoved : removeSkill (failedCopy a) skill s.1 skills = skills.erase s.1 := rfl
    have habsent : (removeSkill (failedCopy a) skill s.1 skills).get? s.1 = none := by
      rw [hremoved, Dict.get?_erase, if_pos rfl]
    by_cases hname : s.1 = a
    · subst hname
      have hcopy : copyDirectory (failedCopy s.1) skill s.2 [s.1]
          ((removeSkill (failedCopy s.1) skill s.1 skills).get? s.1) = (false, none) := by
        have hfails : (failedCopy s.1).fails (.copyMkdir skill [s.1]) = true := by
          simp [failedCopy]
        rw [habsent, hdir, copyDirectory]
        simp only [madeDirectory, hfails, if_true]
      rw [copySkills_cons hvalid (hsafe s.1) hcopy]
      exact ⟨rfl, habsent⟩
    · have ha' : a ∈ skillDirs.map Prod.fst :=
        (List.mem_cons.mp ha).resolve_left fun heq => hname heq.symm
      cases hvalid' : isValidName s.1 with
      | false =>
        rw [copySkills_cons_of_invalid hvalid']
        exact ih _ _ _ hrest ha'
      | true =>
        obtain ⟨node, hnode⟩ := copyDirectory_of_ok (failedCopy a) skill s.2
          [s.1] hwf ⟨entries, hdir⟩ fun path => by simp [failedCopy, hname]
        rw [← habsent] at hnode
        rw [copySkills_cons hvalid' (hsafe s.1) hnode]
        exact ih _ _ _ hrest ha'

/-! ## Uploads with nothing to lose -/

/-- Where all valid skills that are found have one name and one content, and no directory of that
    name was there, the skills of other names stay, and a skill that has been uploaded has that
    content. By induction on the skills that are found; what stands under the name in between is a
    file or a part of the content. -/
theorem copySkills_spec {faults : Faults} {a : String} {content : FileTree Content}
    (hsafe : ∀ name, isPathSafe u.skillsDir (join (join u.skillsDir u.serverId) name) = true)
    (skill : Nat) (skillDirs : List (String × FileTree Content)) (uploadedSkills : List String)
    (skills : Dict (FileTree Content)) (hdirs : ∀ s ∈ skillDirs, isValidName s.1 = true →
      s.1 = a ∧ s.2.WellFormed ∧ SameContent s.2 content) (hpart : ∀ t, skills.get? a = some t →
      (∃ c, t = .file c) ∨ Within t content ∧ t.WellFormed) :
    ∀ names, (copySkills faults u skill skillDirs uploadedSkills skills).uploadedSkills =
        some names →
      (names = uploadedSkills ∧
          (copySkills faults u skill skillDirs uploadedSkills skills).skills.get? a =
            skills.get? a) ∨
        ∃ node, (copySkills faults u skill skillDirs uploadedSkills skills).skills.get? a =
            some node ∧ SameContent node content := by
  induction skillDirs generalizing skill uploadedSkills skills with
  | nil =>
    intro names h
    exact .inl ⟨(Option.some.inj h).symm, rfl⟩
  | cons s skillDirs ih =>
    have hrest := fun s hs => hdirs s (List.mem_cons_of_mem _ hs)
    cases hvalid : isValidName s.1 with
    | false =>
      rw [copySkills_cons_of_invalid hvalid]
      exact ih _ _ _ hrest hpart
    | true =>
      obtain ⟨rfl, hwf, hsame⟩ := hdirs s List.mem_cons_self hvalid
      -- the removal leaves a part of the content at most
      have hleft : ∀ t, (removeSkill faults skill s.1 skills).get? s.1 = some t →
          (∃ c, t = .file c) ∨ Within t content ∧ t.WellFormed := by
        intro t ht
        obtain ⟨old, hold, hrestrict⟩ := get?_removeSkill_self faults skill s.1 skills ht
        cases hpart old hold with
        | inl hfile =>
          obtain ⟨c, rfl⟩ := hfile
          exact .inl ⟨c, eq_file_of_restrict hrestrict⟩
        | inr hpart =>
          have hwithin := within_restrict _ old [] hpart.2 hrestrict
          exact .inr ⟨fun p hp => hpart.1 p (hwithin p hp),
            wellFormed_restrict _ old [] hpart.2 hrestrict⟩
      intro names h
      rw [copySkills_cons hvalid (hsafe s.1) rfl] at h ⊢
      split at h
      case isFalse => cases h
      case isTrue hok =>
      rw [if_pos hok]
      -- so the copy has the content
      have hpair : copyDirectory faults skill s.2 [s.1]
          ((removeSkill faults skill s.1 skills).get? s.1) = (true, (copyDirectory faults skill
            s.2 [s.1] ((removeSkill faults skill s.1 skills).get? s.1)).snd) := Prod.ext hok rfl
      obtain ⟨node, hnode, hcopied⟩ := copyDirectory_sameContent faults skill s.2 [s.1] _ hwf
        (fun t ht => (hleft t ht).symm.imp_left fun hpart p hp =>
          hsame.symm.within p (hpart.1 p hp)) hpair
      rw [hnode] at h ⊢
      rw [hnode] at hpair
      have hplaced : (placed s.1 (some node) (removeSkill faults skill s.1 skills)).get? s.1 =
          some node := Dict.get?_set_self _ _ _
      have hnodewf : node.WellFormed :=
        wellFormed_copyDirectory faults skill s.2 [s.1] _ (by
          intro t ht
          cases hleft t ht with
          | inl hfile =>
            obtain ⟨c, rfl⟩ := hfile
            exact wellFormed_file c
          | inr hpart => exact hpart.2) hpair
      cases ih (skill + 1) (uploadedSkills ++ [s.1]) _ hrest (by
          intro t ht
          rw [hplaced] at ht
          cases ht
          exact .inr ⟨(hcopied.trans hsame).within, hnodewf⟩) names h with
      | inl hlast => exact .inr ⟨node, hlast.2.trans hplaced, hcopied.trans hsame⟩
      | inr hlater => exact .inr hlater

/-! ## The directory of the server -/

theorem begins_join (dir name : String) : dir.toList <+: (join dir name).toList := by
  unfold join
  split
  · rw [String.toList_append]
    exact List.prefix_append _ _
  · rw [String.toList_append, String.toList_append, List.append_assoc]
    exact List.prefix_append _ _

/-- Every path is safe, unless the directory of all skills is the root of the file system. -/
theorem isPathSafe_of_not_root (h : u.skillsDir.toList.getLast? ≠ some '/') (name : String) :
    isPathSafe u.skillsDir (join (join u.skillsDir u.serverId) name) = true := by
  have hserver : u.skillsDir.toList ++ ['/'] <+: (join u.skillsDir u.serverId).toList := by
    rw [join, if_neg h, String.toList_append, String.toList_append]
    exact List.prefix_append _ _
  exact decide_eq_true (hserver.trans (begins_join _ name))

theorem isPathSafe_of_root (h : u.skillsDir.toList.getLast? = some '/')
    (hserver : isValidName u.serverId = true) (name : String) :
    isPathSafe u.skillsDir (join (join u.skillsDir u.serverId) name) = false := by
  rw [isPathSafe, decide_eq_false_iff_not]
  intro hsafe
  obtain ⟨hne, hall⟩ := Bool.and_eq_true_iff.mp hserver
  cases hlist : u.serverId.toList with
  | nil =>
    rw [hlist] at hne
    cases hne
  | cons c cs =>
    rw [hlist, List.all_cons, Bool.and_eq_true_iff] at hall
    -- the character after the directory is the first one of the name of the server
    have hpath : u.skillsDir.toList ++ [c] <+:
        (join (join u.skillsDir u.serverId) name).toList := by
      refine List.IsPrefix.trans ?_ (begins_join _ name)
      rw [join, if_pos h, String.toList_append, hlist]
      exact (List.prefix_append_right_inj _).mpr ⟨cs, rfl⟩
    have heq := List.append_cancel_left ((List.prefix_of_prefix_length_le hsafe hpath
      (by simp)).eq_of_length (by simp))
    obtain rfl := List.singleton_inj.mp heq
    exact absurd hall.1 (by decide)

/-! ## What an upload may do -/

/-- The valid skills of an archive. -/
def archiveSkills (u : SkillUpload) (tree : List (String × FileTree Content)) :
    List (String × FileTree Content) :=
  (findSkillDirectories Faults.none [] u.tempName (.dir tree)).filter fun s => isValidName s.1

/-- Every skill that was there has the content it had. -/
def Unharmed (before after : Dict (FileTree Content)) : Prop :=
  ∀ name entries, before.get? name = some (.dir entries) → after.get? name = some (.dir entries)

/-- The skills of an archive are there with their content, and nothing else has changed. -/
structure Complete (archive : List (String × FileTree Content))
    (before after : Dict (FileTree Content)) : Prop where
  present : ∀ s ∈ archive, ∃ node, after.get? s.1 = some node ∧ SameContent node s.2
  unchanged : ∀ name, (∀ s ∈ archive, s.1 ≠ name) → after.get? name = before.get? name

/-- An upload that throws harms nothing, and one that returns loses nothing. -/
def Kept (u : SkillUpload) (before : Dict (FileTree Content)) (outcome : Outcome) : Prop :=
  match outcome.uploadedSkills with
  | none => Unharmed before outcome.skills
  | some _ => ∃ tree, u.zip.bind (safeExtractZipAsync Faults.none) = some tree ∧
      Complete (archiveSkills u tree) before outcome.skills

/-- There is nothing to lose: the upload is refused, or nothing is found, or what is found is one
    skill, as often as it may be there, and the server has no directory of that name. -/
def Harmless (u : SkillUpload) (before : Dict (FileTree Content)) : Prop :=
  isValidName u.serverId = true → u.zipSize ≤ MAX_ZIP_SIZE →
    u.skillsDir.toList.getLast? ≠ some '/' →
    ∀ tree, u.zip.bind (safeExtractZipAsync Faults.none) = some tree → ∀ s ∈ archiveSkills u tree,
      (∀ entries, before.get? s.1 ≠ some (.dir entries)) ∧
        ∀ s' ∈ archiveSkills u tree, s'.1 = s.1 ∧ SameContent s'.2 s.2

/-- What the upload makes of the result of its loop. -/
def finished (r : Outcome) : Outcome :=
  match r.uploadedSkills with
  | some [] => ⟨none, r.skills⟩
  | _ => r

@[simp] theorem finished_skills (r : Outcome) : (finished r).skills = r.skills := by
  unfold finished
  split <;> rfl

variable {r : Outcome}

theorem finished_of_none (h : r.uploadedSkills = none) :
    (finished r).uploadedSkills = none := by
  rw [finished, h]
  exact h

theorem finished_of_ne_nil {names : List String} (h : r.uploadedSkills = some names)
    (hne : names ≠ []) : finished r = r := by
  unfold finished
  split
  · rename_i hnil
    rw [h] at hnil
    exact absurd (Option.some.inj hnil) hne
  · rfl

theorem uploadedSkills_of_finished {names : List String}
    (h : (finished r).uploadedSkills = some names) :
    r.uploadedSkills = some names ∧ names ≠ [] := by
  unfold finished at h
  split at h
  · cases h
  · rename_i hnil
    refine ⟨h, ?_⟩
    rintro rfl
    exact hnil h

/-- An upload that gets to its loop. -/
theorem uploadSkill_of_extracted {listing : Listing Content} {faults : Faults}
    (hserver : isValidName u.serverId = true) (hsize : u.zipSize ≤ MAX_ZIP_SIZE)
    (hensure : faults.fails .ensureServerSkillsDir = false)
    (hmkdtemp : faults.fails .mkdtemp = false)
    (htree : u.zip.bind (safeExtractZipAsync faults) = some tree) :
    uploadSkill listing faults u skills =
      finished (copySkills faults u 0 (findSkillDirectories faults [] u.tempName
        ((FileTree.dir tree).arranged listing)) [] skills) := by
  rw [uploadSkill, hserver, hensure, hmkdtemp, htree]
  simp only [Bool.not_true, Bool.false_eq_true, if_false, Nat.not_lt.mpr hsize]
  split
  · rename_i hempty
    rw [List.isEmpty_iff.mp hempty]
    rfl
  · rfl

/-- An upload throws without an effect, or it gets to its loop. -/
theorem uploadSkill_cases (listing : Listing Content) (faults : Faults) (u : SkillUpload)
    (skills : Dict (FileTree Content)) :
    uploadSkill listing faults u skills = ⟨none, skills⟩ ∨
      isValidName u.serverId = true ∧ u.zipSize ≤ MAX_ZIP_SIZE ∧
        ∃ tree, u.zip.bind (safeExtractZipAsync faults) = some tree ∧
          uploadSkill listing faults u skills =
            finished (copySkills faults u 0 (findSkillDirectories faults [] u.tempName
              ((FileTree.dir tree).arranged listing)) [] skills) := by
  by_cases hserver : isValidName u.serverId = true
  case neg => exact .inl (by rw [uploadSkill, if_pos (by simp [hserver])])
  cases hensure : faults.fails .ensureServerSkillsDir with
  | true => exact .inl (by simp [uploadSkill, hensure])
  | false =>
    by_cases hsize : u.zipSize ≤ MAX_ZIP_SIZE
    case neg => exact .inl (by simp [uploadSkill, Nat.lt_of_not_le hsize])
    cases hmkdtemp : faults.fails .mkdtemp with
    | true => exact .inl (by simp [uploadSkill, hmkdtemp])
    | false =>
      cases htree : u.zip.bind (safeExtractZipAsync faults) with
      | none => exact .inl (by simp [uploadSkill, htree])
      | some tree =>
        exact .inr ⟨hserver, hsize, tree, rfl,
          uploadSkill_of_extracted hserver hsize hensure hmkdtemp htree⟩

theorem extracted_none {faults : Faults} (h : u.zip.bind (safeExtractZipAsync faults) = some tree) :
    u.zip.bind (safeExtractZipAsync Faults.none) = some tree := by
  obtain ⟨entries, hzip, hextract⟩ := Option.bind_eq_some_iff.mp h
  rw [hzip]
  exact safeExtractZipAsync_none hextract

theorem wellFormed_extracted (h : u.zip.bind (safeExtractZipAsync Faults.none) = some tree) :
    (FileTree.dir tree).WellFormed := by
  obtain ⟨entries, _, hextract⟩ := Option.bind_eq_some_iff.mp h
  exact wellFormed_safeExtractZipAsync hextract

section

variable {listing : Listing Content} {u : SkillUpload} {tree : List (String × FileTree Content)}

/-- What a search of the extracted archive finds, however it fails and in whichever order it goes
    on, are skills of the archive. -/
theorem found_of_mem {faults : Faults} (hwf : (FileTree.dir tree).WellFormed)
    {s : String × FileTree Content} (hs : s ∈ findSkillDirectories faults [] u.tempName
      ((FileTree.dir tree).arranged listing)) (hvalid : isValidName s.1 = true) :
    ∃ s' ∈ archiveSkills u tree, s'.1 = s.1 ∧ s.2.WellFormed ∧ SameContent s.2 s'.2 := by
  obtain ⟨s', hs', rfl⟩ := (mem_find_arranged listing [] [] u.tempName (.dir tree) s).mp
    (mem_of_mem_find faults [] u.tempName _ hs)
  have hwf' := (wellFormed_of_mem_find [] u.tempName (.dir tree) hwf hs').1
  exact ⟨s', List.mem_filter.mpr ⟨hs', hvalid⟩, rfl, wellFormed_arranged listing s'.2 hwf',
    arranged_sameContent listing hwf'⟩

/-- All skills of the archive are found where nothing fails. -/
theorem mem_found {s : String × FileTree Content} (hs : s ∈ archiveSkills u tree) :
    (s.1, s.2.arranged listing) ∈ findSkillDirectories Faults.none [] u.tempName
      ((FileTree.dir tree).arranged listing) :=
  (mem_find_arranged listing [] [] u.tempName (.dir tree) _).mpr
    ⟨s, (List.mem_filter.mp hs).1, rfl⟩

theorem dirs_of_found (faults : Faults) (listing : Listing Content) (u : SkillUpload)
    {tree : List (String × FileTree Content)} (hwf : (FileTree.dir tree).WellFormed) :
    ∀ s ∈ findSkillDirectories faults [] u.tempName ((FileTree.dir tree).arranged listing),
      s.2.WellFormed ∧ ∃ entries, s.2 = .dir entries := fun _ hs =>
  wellFormed_of_mem_find [] u.tempName _ (wellFormed_arranged listing _ hwf)
    (mem_of_mem_find faults [] u.tempName _ hs)

end

variable {tree : List (String × FileTree Content)} {before : Dict (FileTree Content)}
  {u : SkillUpload}

/-- Where there is nothing to lose, nothing is lost. -/
theorem kept_of_harmless (listing : Listing Content) (h : Harmless u before) (faults : Faults) :
    Kept u before (uploadSkill listing faults u before) := by
  cases uploadSkill_cases listing faults u before with
  | inl hthrows =>
    rw [hthrows]
    exact fun _ _ hname => hname
  | inr hloop =>
    obtain ⟨hserver, hsize, tree, htree, heq⟩ := hloop
    rw [heq]
    by_cases hroot : u.skillsDir.toList.getLast? = some '/'
    · rw [copySkills_of_unsafe_path (isPathSafe_of_root hroot hserver)]
      exact fun _ _ hname => hname
    · have hsafe := isPathSafe_of_not_root hroot
      have hskills := h hserver hsize hroot tree (extracted_none htree)
      have hwf := wellFormed_extracted (extracted_none htree)
      -- what is not named stays
      have hframe : ∀ name, (∀ s ∈ archiveSkills u tree, s.1 ≠ name) →
          (copySkills faults u 0 (findSkillDirectories faults [] u.tempName
            ((FileTree.dir tree).arranged listing)) [] before).skills.get? name =
              before.get? name := by
        intro name hname
        apply get?_copySkills_of_ne hsafe
        intro s hs hvalid
        obtain ⟨s', hs', heq, _⟩ := found_of_mem hwf hs hvalid
        exact heq ▸ hname s' hs'
      unfold Kept
      split
      · -- the upload throws, and the names of the archive were not those of skills
        intro name entries hname
        rw [finished_skills, hframe name, hname]
        intro s hs heq
        subst heq
        exact (hskills s hs).1 entries hname
      · rename_i names hnames
        refine ⟨tree, extracted_none htree, ⟨fun s hs => ?_, fun name hname => ?_⟩⟩
        · obtain ⟨hnames, hne⟩ := uploadedSkills_of_finished hnames
          have hdirs : ∀ s' ∈ findSkillDirectories faults [] u.tempName
              ((FileTree.dir tree).arranged listing), isValidName s'.1 = true →
              s'.1 = s.1 ∧ s'.2.WellFormed ∧ SameContent s'.2 s.2 := by
            intro s' hs' hvalid
            obtain ⟨s₁, hs₁, heq, hwf', hsame⟩ := found_of_mem hwf hs' hvalid
            obtain ⟨hname, hcontent⟩ := (hskills s hs).2 s₁ hs₁
            exact ⟨heq ▸ hname, hwf', hsame.trans hcontent⟩
          have hpart : ∀ t, before.get? s.1 = some t →
              (∃ c, t = .file c) ∨ Within t s.2 ∧ t.WellFormed := by
            intro t ht
            cases t with
            | file c => exact .inl ⟨c, rfl⟩
            | dir entries => exact absurd ht ((hskills s hs).1 entries)
          rw [finished_skills]
          cases copySkills_spec hsafe 0 _ [] before hdirs hpart names hnames with
          | inl hnil => exact absurd hnil.1 hne
          | inr hnode => exact hnode
        · rw [finished_skills]
          exact hframe name hname

theorem extracted_of_ok {faults : Faults}
    (htree : u.zip.bind (safeExtractZipAsync Faults.none) = some tree) (hok : Extracts faults) :
    u.zip.bind (safeExtractZipAsync faults) = some tree := by
  rw [← htree]
  exact congrArg u.zip.bind (funext (safeExtractZipAsync_of_ok hok))

/-- An upload that finds a skill and has no failures afterwards returns, so all skills of the
    archive must be there. -/
theorem complete_of_kept {listing : Listing Content} {faults : Faults}
    (hkept : Kept u before (uploadSkill listing faults u before))
    (hserver : isValidName u.serverId = true) (hsize : u.zipSize ≤ MAX_ZIP_SIZE)
    (hroot : u.skillsDir.toList.getLast? ≠ some '/')
    (htree : u.zip.bind (safeExtractZipAsync Faults.none) = some tree) (hextracts : Extracts faults)
    (hensure : faults.fails .ensureServerSkillsDir = false)
    (hmkdtemp : faults.fails .mkdtemp = false) (hcopies : Copies faults)
    (hvalid : isValidName name = true) (hfound : name ∈ (findSkillDirectories faults [] u.tempName
      ((FileTree.dir tree).arranged listing)).map Prod.fst) :
    Complete (archiveSkills u tree) before (copySkills faults u 0 (findSkillDirectories faults []
      u.tempName ((FileTree.dir tree).arranged listing)) [] before).skills := by
  have hnames := copySkills_of_ok (isPathSafe_of_not_root hroot) hcopies 0 _ [] before
    (dirs_of_found faults listing u (wellFormed_extracted htree))
  rw [List.nil_append] at hnames
  have hne := List.ne_nil_of_mem (List.mem_filter.mpr ⟨hfound, hvalid⟩)
  rw [uploadSkill_of_extracted hserver hsize hensure hmkdtemp (extracted_of_ok htree hextracts),
    finished_of_ne_nil hnames hne, Kept, hnames] at hkept
  obtain ⟨tree', htree', hcomplete⟩ := hkept
  rw [htree] at htree'
  rwa [← Option.some.inj htree'] at hcomplete

/-- An upload that fails when it copies a skill throws, and the skill is gone. -/
theorem uploadSkill_failedCopy (listing : Listing Content) (before : Dict (FileTree Content))
    (hserver : isValidName u.serverId = true) (hsize : u.zipSize ≤ MAX_ZIP_SIZE)
    (hroot : u.skillsDir.toList.getLast? ≠ some '/')
    (htree : u.zip.bind (safeExtractZipAsync Faults.none) = some tree)
    (hs : s ∈ archiveSkills u tree) :
    (uploadSkill listing (failedCopy s.1) u before).uploadedSkills = none ∧
      (uploadSkill listing (failedCopy s.1) u before).skills.get? s.1 = none := by
  have hwf := wellFormed_extracted htree
  have hvalid : isValidName s.1 = true := by simpa using (List.mem_filter.mp hs).2
  have hfound : s.1 ∈ (findSkillDirectories Faults.none [] u.tempName
      ((FileTree.dir tree).arranged listing)).map Prod.fst :=
    List.mem_map.mpr ⟨_, mem_found hs, rfl⟩
  rw [uploadSkill_of_extracted hserver hsize rfl rfl
    (extracted_of_ok htree fun _ => ⟨rfl, rfl, rfl⟩), find_of_ok (fun _ _ _ => rfl) [] []]
  obtain ⟨hthrows, hgone⟩ := copySkills_failedCopy (isPathSafe_of_not_root hroot) 0 _ [] before
    (dirs_of_found Faults.none listing u hwf) hfound hvalid
  exact ⟨finished_of_none hthrows, by rw [finished_skills, hgone]⟩

theorem not_kept_of_failedCopy (listing : Listing Content) (hserver : isValidName u.serverId = true)
    (hsize : u.zipSize ≤ MAX_ZIP_SIZE) (hroot : u.skillsDir.toList.getLast? ≠ some '/')
    (htree : u.zip.bind (safeExtractZipAsync Faults.none) = some tree)
    (hs : s ∈ archiveSkills u tree)
    {entries : List (String × FileTree Content)} (hold : before.get? s.1 = some (.dir entries)) :
    ¬ Kept u before (uploadSkill listing (failedCopy s.1) u before) := by
  intro hkept
  obtain ⟨hthrows, hgone⟩ := uploadSkill_failedCopy listing before hserver hsize hroot htree hs
  rw [Kept, hthrows] at hkept
  have hstill := hkept s.1 entries hold
  rw [hgone] at hstill
  cases hstill

/-- Where there is something to lose, some failure loses it. -/
theorem harmless_of_kept (listing : Listing Content)
    (h : ∀ faults, Kept u before (uploadSkill listing faults u before)) : Harmless u before := by
  intro hserver hsize hroot tree htree s hs
  have hsafe := isPathSafe_of_not_root hroot
  have hwf := wellFormed_extracted htree
  have hvalid : isValidName s.1 = true := by simpa using (List.mem_filter.mp hs).2
  have hmem : ∀ s' ∈ archiveSkills u tree, s'.1 ∈ ((findSkillDirectories Faults.none []
      u.tempName ((FileTree.dir tree).arranged listing)).map Prod.fst) := fun s' hs' =>
    List.mem_map.mpr ⟨_, mem_found hs', rfl⟩
  -- no directory has the name: it would be gone when the copy fails
  have habsent : ∀ entries, before.get? s.1 ≠ some (.dir entries) := fun entries hold =>
    not_kept_of_failedCopy listing hserver hsize hroot htree hs hold (h (failedCopy s.1))
  refine ⟨habsent, fun s' hs' => ?_⟩
  have hvalid' : isValidName s'.1 = true := by simpa using (List.mem_filter.mp hs').2
  have hname : s'.1 = s.1 := by
    by_contra hne
    -- without the skills of the one name being found, the upload returns and lacks them
    have hfound : findSkillDirectories (unreadable s.1) [] u.tempName
        ((FileTree.dir tree).arranged listing) = (findSkillDirectories Faults.none [] u.tempName
          ((FileTree.dir tree).arranged listing)).filter fun s' => s'.1 != s.1 :=
      find_of_fails (fun _ _ _ => rfl) [] u.tempName _
    have hcomplete := complete_of_kept (h (unreadable s.1)) hserver hsize hroot htree
      (fun _ => ⟨rfl, rfl, rfl⟩) rfl rfl (fun _ _ => ⟨rfl, rfl, rfl, rfl⟩) hvalid' (by
        rw [hfound]
        exact List.mem_map.mpr ⟨_, List.mem_filter.mpr ⟨mem_found hs', bne_iff_ne.mpr hne⟩, rfl⟩)
    obtain ⟨node, hnode, hsame⟩ := hcomplete.present s hs
    rw [get?_copySkills_of_ne hsafe 0 _ [] before (by
      intro s₁ hs₁ _
      rw [hfound] at hs₁
      exact bne_iff_ne.mp (List.mem_filter.mp hs₁).2)] at hnode
    obtain ⟨entries, hdir⟩ := (wellFormed_of_mem_find [] u.tempName _ hwf
      (List.mem_filter.mp hs).1).2
    cases node with
    | dir old => exact habsent old hnode
    | file content =>
      have hroot := hsame []
      rw [hdir] at hroot
      cases hroot
  -- of skills of one name, only the last one stays
  have hcomplete := complete_of_kept (h Faults.none) hserver hsize hroot htree
    (fun _ => ⟨rfl, rfl, rfl⟩) rfl rfl (fun _ _ => ⟨rfl, rfl, rfl, rfl⟩) hvalid' (hmem s' hs')
  obtain ⟨node, hnode, hsame⟩ := hcomplete.present s hs
  obtain ⟨node', hnode', hsame'⟩ := hcomplete.present s' hs'
  rw [hname, hnode] at hnode'
  cases hnode'
  exact ⟨hname, hsame'.symm.trans hsame⟩

/-- A new version of the skill `foo`. -/
def fooUpload : SkillUpload where
  skillsDir := "/data/skills"
  serverId := "server1"
  zipSize := 160
  zip := some [⟨"foo/SKILL.md", false, 2, some [35, 50]⟩]
  tempName := "skills-upload-a1b2c3"

/-- What its archive holds. -/
def fooTree : List (String × FileTree Content) := [("foo", .dir [("SKILL.md", .file [35, 50])])]

/-- The version before. -/
def fooSkills : Dict (FileTree Content) :=
  ⟨[("foo", .dir [("SKILL.md", .file [35, 49])])], by decide⟩

theorem extracted_fooUpload :
    fooUpload.zip.bind (safeExtractZipAsync Faults.none) = some fooTree := by
  have hpath : resolvedTargetPath ⟨"foo/SKILL.md", false, 2, some [35, 50]⟩ =
      some ["foo", "SKILL.md"] := by decide +kernel
  have hmkdir : FileTree.mkdir ["foo"] ([] : List (String × FileTree Content)) =
      some [("foo", .dir [])] := by simp [FileTree.mkdir, Dict.setEntry]
  have hwrite : FileTree.writeFile [35, 50] ["foo", "SKILL.md"]
      ([("foo", .dir [])] : List (String × FileTree Content)) = some fooTree := by
    simp [FileTree.writeFile, Dict.setEntry, fooTree]
  show safeExtractZipAsync Faults.none _ = _
  simp [safeExtractZipAsync, extractEntries, hpath, hmkdir, hwrite, Faults.none, MAX_ENTRY_COUNT,
    MAX_UNCOMPRESSED_SIZE]

theorem foo_mem_archiveSkills :
    ("foo", FileTree.dir [("SKILL.md", .file [35, 50])]) ∈ archiveSkills fooUpload fooTree := by
  have hvalid : isValidName "foo" = true := by decide +kernel
  simp [archiveSkills, findSkillDirectories, findInEntries, fooTree, Faults.none, hasSkillMd,
    SKILL_METADATA_FILE, hvalid]

end PetaCore.SkillsService
