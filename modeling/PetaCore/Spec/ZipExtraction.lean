import PetaCore.Core.ZipExtraction

/-!
# Extractions stay in their directory

A name that is accepted leads to a place below the target directory, whatever it looks like, and
`mkdir` and `writeFile` touch nothing but the way there. The bytes that are written count against
the budget as they are read, and not as the archive declares them.

Key results:
- `resolvedTargetPath_eq_some`: which names are accepted, and where they lead
- `Confined.mkdir`, `Confined.writeFile`: each operation stays in the target directory
- `extraction_confined`: so does the extraction, which throws before it has done anything when a
  name leads outside
-/

namespace PetaCore

open PosixPath FileTree

/-- The place is below the directory. -/
def StrictlyBelow (target path : List String) : Prop := target <+: path ∧ path ≠ target

theorem names_render {segments : List (List Char)} (h : ∀ s ∈ segments, IsName s) :
    names (render segments) = segments.map String.ofList := by
  rw [names, place_render h]

namespace ZipExtraction

variable {target : List String} {root : List (String × FileTree Content)} {disk : Disk}
  {budget : Nat}

/-! ## Names -/

variable {path : List Char}

/-- A name is accepted if it is that of a place below the directory. -/
theorem resolvedTargetPath_eq_some {cwd targetDir entryName : List Char}
    (hroot : place targetDir ≠ []) :
    resolvedTargetPath cwd (render (place targetDir)) entryName = some path ↔
      isAbsolute entryName = false ∧ dotDot ∉ normalSegments true entryName ∧
        normalSegments true entryName ≠ [] ∧
        path = render (place targetDir ++ normalSegments true entryName) := by
  unfold resolvedTargetPath
  split
  · next habsolute => simp [habsolute]
  next habsolute =>
  rw [Bool.not_eq_true] at habsolute
  simp only [habsolute, true_and]
  split
  · next hup =>
    rw [dotDot_mem_splitOn_normalize habsolute] at hup
    simp [hup]
  next hup =>
  rw [dotDot_mem_splitOn_normalize habsolute] at hup
  have hnames : ∀ s ∈ normalSegments true entryName, IsName s := fun s hs =>
    isName_of_mem hs (.inr fun heq => hup (heq ▸ hs))
  have hnormalize : normalSegments true (normalize entryName) = normalSegments true entryName := by
    rw [normalSegments_normalize, habsolute, Bool.not_false]
    rwa [habsolute, Bool.not_false]
  -- the target directory is walked first, and the name never goes up
  obtain ⟨hjoined, hplace⟩ := place_join (a := render (place targetDir)) rfl (normalize entryName)
  rw [place_append _ (by rwa [hnormalize]), place_render fun s hs => isName_of_mem_place hs,
    hnormalize] at hplace
  rw [resolve_of_isAbsolute cwd hjoined, hplace]
  by_cases hne : normalSegments true entryName = []
  · have hnot : ¬render (place targetDir) ++ ['/'] <+: render (place targetDir) := by
      intro h
      have hle := h.length_le
      rw [List.length_append, List.length_singleton] at hle
      omega
    simp [hne, hnot]
  · have hprefix : render (place targetDir) ++ ['/'] <+:
        render (place targetDir ++ normalSegments true entryName) := by
      rw [render_append hroot hne]
      exact ⟨_, List.append_assoc _ _ _⟩
    simp [hup, hne, hprefix, eq_comm]

/-- The places of an accepted name and of its parent directory. -/
theorem names_of_resolvedTargetPath {cwd targetDir entryName : List Char}
    (hroot : place targetDir ≠ [])
    (h : resolvedTargetPath cwd (render (place targetDir)) entryName = some path) :
    StrictlyBelow (names targetDir) (names path) ∧
      names targetDir <+: names (dirname path) ∧
      names (targetDir ++ '/' :: entryName) = names path := by
  obtain ⟨_, hup, hne, rfl⟩ := (resolvedTargetPath_eq_some hroot).mp h
  have hnames : ∀ s ∈ place targetDir ++ normalSegments true entryName, IsName s := by
    intro s hs
    rcases List.mem_append.mp hs with hs | hs
    · exact isName_of_mem_place hs
    · exact isName_of_mem hs (.inr fun heq => hup (heq ▸ hs))
  refine ⟨?_, ?_, ?_⟩
  · rw [names_render hnames, List.map_append]
    refine ⟨List.prefix_append _ _, fun heq => hne ?_⟩
    simpa [names] using heq
  · obtain ⟨init, last, hlast⟩ := (List.eq_nil_or_concat _).resolve_left hne
    rw [hlast, List.concat_eq_append, ← List.append_assoc] at hnames ⊢
    have hinit : ∀ s ∈ place targetDir ++ init, IsName s := fun s hs =>
      hnames s (List.mem_append_left _ hs)
    rw [dirname_render hinit (hnames last (by simp)), names_render hinit, List.map_append]
    exact List.prefix_append _ _
  · rw [names_render hnames, names, place_append _ hup]

/-! ## The operations -/

/-- What an extraction into the target directory keeps, when it has read no more than `budget`. -/
structure Confined (target : List String) (root : List (String × FileTree Content)) (budget : Nat)
    (disk : Disk) : Prop where
  written : ∀ path content, (path, content) ∈ disk.written → StrictlyBelow target (names path)
  changed : ∀ path, disk.at? path ≠ (FileTree.dir root).at? path →
    target <+: path ∧ (path = target → disk.at? path = some .directory)
  parents : ∀ path, path <+: target → path ≠ target → disk.at? path = some .directory
  bytes : (disk.written.map fun w => w.2.length).sum ≤ budget

theorem Confined.mono (h : Confined target root budget disk) {budget' : Nat}
    (hle : budget ≤ budget') : Confined target root budget' disk :=
  { h with bytes := Nat.le_trans h.bytes hle }

/-- Directories are made on the way to one below the target. -/
theorem Confined.made (h : Confined target root budget disk) {path dir : List String}
    (hpath : path <+: dir) (hdir : target <+: dir) {entries : List (String × FileTree Content)}
    (hmkdir : FileTree.mkdir path disk.root = some entries) :
    Confined target root budget { disk with root := entries } := by
  have hat : ∀ q, Disk.at? { disk with root := entries } q =
      if q <+: path then some .directory else disk.at? q := at?_mkdir hmkdir
  refine ⟨h.written, ?_, ?_, h.bytes⟩
  · intro q hq
    rw [hat] at hq ⊢
    split at hq
    · next hbegins =>
      rw [if_pos hbegins]
      refine ⟨?_, fun _ => rfl⟩
      rcases List.prefix_or_prefix_of_prefix hdir (hbegins.trans hpath) with hbelow | habove
      · exact hbelow
      · -- above the target there have been directories before
        by_cases heq : q = target
        · exact heq ▸ List.prefix_refl q
        · rw [← h.parents q habove heq] at hq
          exact (h.changed q hq).1
    · next hbegins =>
      rw [if_neg hbegins]
      exact h.changed q hq
  · intro q hq hne
    rw [hat]
    split
    · rfl
    · exact h.parents q hq hne

theorem Confined.mkdir (h : Confined target root budget disk) (faults : Faults)
    (remains : Remains) (index : Nat) {parentDir : List Char} (hdir : target <+: names parentDir) :
    Confined target root budget (mkdir faults remains index parentDir disk).2 := by
  unfold ZipExtraction.mkdir
  split
  · exact h
  · split
    · split
      · next hmkdir => exact h.made (List.take_prefix _ _) hdir hmkdir
      · exact h
    · split
      · next hmkdir => exact h.made (List.prefix_refl _) hdir hmkdir
      · exact h

theorem Confined.put (h : Confined target root budget disk) {content : Content}
    (hpath : StrictlyBelow target (names path)) {disk' : Disk}
    (hput : put path content disk = some disk') :
    Confined target root (budget + content.length) disk' := by
  obtain ⟨entries, hwrite, rfl⟩ := Option.map_eq_some_iff.mp hput
  have hat : ∀ q, Disk.at? ⟨entries, disk.written ++ [(path, content)]⟩ q =
      if q = names path then some (.file content) else disk.at? q := at?_writeFile hwrite
  constructor
  case written =>
    intro path' content' hmem
    rcases List.mem_append.mp hmem with hin | heq
    · exact h.written path' content' hin
    · cases List.mem_singleton.mp heq
      exact hpath
  case changed =>
    intro q hq
    rw [hat] at hq ⊢
    split at hq
    · next heq =>
      rw [heq]
      exact ⟨hpath.1, fun htarget => absurd htarget hpath.2⟩
    · next hne =>
      rw [if_neg hne]
      exact h.changed q hq
  case parents =>
    intro q hq hne
    rw [hat, if_neg]
    · exact h.parents q hq hne
    · rintro rfl
      exact hne (hq.eq_of_length_le hpath.1.length_le)
  case bytes =>
    have hbytes := h.bytes
    simp only [List.map_append, List.sum_append, List.map_cons, List.map_nil, List.sum_singleton]
    omega

theorem Confined.writeFile (h : Confined target root budget disk) (faults : Faults)
    (remains : Remains) (index : Nat) (content : Content)
    (hpath : StrictlyBelow target (names path)) :
    Confined target root (budget + content.length)
      (writeFile faults remains index path content disk).2 := by
  have hsame := h.mono (Nat.le_add_right budget content.length)
  unfold ZipExtraction.writeFile
  split
  · exact hsame
  · split
    · split
      · next disk' hput =>
        obtain ⟨n, _, hput⟩ := Option.bind_eq_some_iff.mp hput
        have hle : (content.take n).length ≤ content.length := List.length_take_le' _ _
        exact (h.put hpath hput).mono (by omega)
      · exact hsame
    · split
      · next disk' hput => exact h.put hpath hput
      · exact hsame

variable {validEntries : List (ZipEntry × List Char)}

/-- By induction on the entries; what has been read is the budget. -/
theorem Confined.extractEntries {extractedSize : Nat}
    (h : Confined target root extractedSize disk) (faults : Faults) (remains : Remains)
    (index : Nat) (hsize : extractedSize ≤ MAX_UNCOMPRESSED_SIZE)
    (hvalid : ∀ e ∈ validEntries, StrictlyBelow target (names e.2) ∧
      target <+: names (dirname e.2)) :
    Confined target root MAX_UNCOMPRESSED_SIZE
      (extractEntries faults remains index validEntries extractedSize disk).2 := by
  induction validEntries generalizing index extractedSize disk with
  | nil => exact h.mono hsize
  | cons e validEntries ih =>
    obtain ⟨entry, path⟩ := e
    obtain ⟨hpath, hdir⟩ := hvalid _ List.mem_cons_self
    have hmade := h.mkdir faults remains index hdir
    rw [ZipExtraction.extractEntries]
    split
    · next heq =>
      rw [heq] at hmade
      exact hmade.mono hsize
    · next heq =>
      rw [heq] at hmade
      split
      · exact hmade.mono hsize
      · next content _ =>
        split
        · exact hmade.mono hsize
        · next hle =>
          have hwritten := hmade.writeFile faults remains index content hpath
          split
          · next heq =>
            rw [heq] at hwritten
            exact hwritten.mono (by omega)
          · next heq =>
            rw [heq] at hwritten
            exact ih hwritten (index + 1) (by omega) fun e he => hvalid e (List.mem_cons_of_mem _ he)

/-! ## The extraction -/

/-- Every file entry has been accepted when the files are extracted. -/
theorem accepted_of_mapM {f : List Char → Option (List Char)} {files : List ZipEntry}
    (h : (files.mapM fun entry => (f entry.entryName.toList).map fun path => (entry, path)) =
      some validEntries) :
    (∀ entry ∈ files, (f entry.entryName.toList).isSome) ∧
      ∀ e ∈ validEntries, f e.1.entryName.toList = some e.2 := by
  induction files generalizing validEntries with
  | nil =>
    cases h
    exact ⟨by simp, by simp⟩
  | cons entry files ih =>
    rw [List.mapM_cons] at h
    obtain ⟨e, he, h⟩ := Option.bind_eq_some_iff.mp h
    obtain ⟨rest, hrest, h⟩ := Option.bind_eq_some_iff.mp h
    obtain ⟨path, hpath, rfl⟩ := Option.map_eq_some_iff.mp he
    cases h
    obtain ⟨hall, hvalid⟩ := ih hrest
    exact ⟨List.forall_mem_cons.mpr ⟨by rw [hpath]; rfl, hall⟩,
      List.forall_mem_cons.mpr ⟨hpath, hvalid⟩⟩

theorem confined_init (hparent : (FileTree.dir root).at? target.dropLast = some .directory) :
    Confined target root 0 ⟨root, []⟩ := by
  refine ⟨by simp, fun path h => absurd rfl h, ?_, Nat.le_refl 0⟩
  rintro path ⟨rest, rfl⟩ hne
  have hrest : rest ≠ [] := by
    rintro rfl
    simp at hne
  by_cases hlast : rest.dropLast = []
  · rwa [List.dropLast_append_of_ne_nil hrest, hlast, List.append_nil] at hparent
  · refine at?_of_append hlast ?_
    rw [← List.dropLast_append_of_ne_nil hrest, hparent]
    simp

end ZipExtraction

end PetaCore
