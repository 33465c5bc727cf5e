import Mathlib.Algebra.GroupWithZero.Nat
import PetaCore.ForStd.Dict

/-!
# File trees

Files and directories of a file system, with the operations that build and remove them. What a tree
contains is what stands at each path; in which order a directory lists its entries is up to the
file system.

- `SameContent`: the same at every path
- `Listing`: an order in which the file system lists entries
- `arranged_sameContent`: the order does not matter to the content
-/

universe u

/-- A file or a directory. -/
inductive FileTree (γ : Type u) where
  | file (content : γ)
  | dir (entries : List (String × FileTree γ))

namespace FileTree

variable {γ : Type u}

/-- What can stand at a path. -/
inductive Item (γ : Type u) where
  | file (content : γ)
  | directory

/-- The entry of a directory. -/
def entry? : FileTree γ → String → Option (FileTree γ)
  | file _, _ => none
  | dir entries, name => entries.lookup name

/-- What stands at a path of a tree. -/
def at? : FileTree γ → List String → Option (Item γ)
  | file content, [] => some (.file content)
  | dir _, [] => some .directory
  | t, name :: path =>
    match t.entry? name with
    | some t' => t'.at? path
    | none => none

/-- The same at every path. -/
def SameContent (t t' : FileTree γ) : Prop := ∀ path, t.at? path = t'.at? path

/-- Whether at each path at which the first tree has something the second one has, too. -/
def Within (t t' : FileTree γ) : Prop := ∀ path, (t.at? path).isSome → (t'.at? path).isSome

variable {t : FileTree γ}

variable {t' : FileTree γ}

theorem SameContent.symm (h : SameContent t t') : SameContent t' t :=
  fun path => (h path).symm

theorem SameContent.trans {t'' : FileTree γ} (h : SameContent t t')
    (h' : SameContent t' t'') : SameContent t t'' := fun path => (h path).trans (h' path)

theorem SameContent.within (h : SameContent t t') : Within t t' :=
  fun path hpath => by rwa [h path] at hpath

@[simp] theorem at?_dir_cons (entries : List (String × FileTree γ)) (name : String)
    (path : List String) :
    (dir entries).at? (name :: path) = (entries.lookup name).bind fun t => t.at? path := by
  rw [at?, entry?]
  cases entries.lookup name <;> rfl

variable {entries' : List (String × FileTree γ)}

/-- Directories contain the same when their entries do. -/
theorem sameContent_dir {entries : List (String × FileTree γ)}
    (h : ∀ name path, (entries.lookup name).bind (fun t => t.at? path) =
      (entries'.lookup name).bind fun t => t.at? path) :
    SameContent (dir entries) (dir entries') := by
  intro path
  cases path with
  | nil => rfl
  | cons name path =>
    rw [at?_dir_cons, at?_dir_cons]
    exact h name path

mutual

/-- No directory lists a name twice. -/
def WellFormed : FileTree γ → Prop
  | file _ => True
  | dir entries => (entries.map Prod.fst).Nodup ∧ EntriesWellFormed entries

def EntriesWellFormed : List (String × FileTree γ) → Prop
  | [] => True
  | (_, t) :: entries => WellFormed t ∧ EntriesWellFormed entries

end

variable {entries : List (String × FileTree γ)}

theorem wellFormed_file (content : γ) : (file content).WellFormed := by
  rw [WellFormed]
  trivial

theorem wellFormed_empty : (dir ([] : List (String × FileTree γ))).WellFormed := by
  rw [WellFormed]
  exact ⟨List.nodup_nil, trivial⟩

theorem entriesWellFormed_iff (entries : List (String × FileTree γ)) :
    EntriesWellFormed entries ↔ ∀ e ∈ entries, e.2.WellFormed := by
  induction entries with
  | nil => simp [EntriesWellFormed]
  | cons e entries ih => rw [EntriesWellFormed, ih, List.forall_mem_cons]

variable {name : String}

theorem mem_of_lookup (h : entries.lookup name = some t) :
    (name, t) ∈ entries := by
  induction entries with
  | nil => cases h
  | cons e entries ih =>
    obtain ⟨key, t'⟩ := e
    rw [List.lookup_cons] at h
    split at h
    · rename_i heq
      cases h
      rw [eq_of_beq heq]
      exact List.mem_cons_self
    · exact List.mem_cons_of_mem _ (ih h)

theorem lookup_eq_some_iff (h : (entries.map Prod.fst).Nodup) :
    entries.lookup name = some t ↔ (name, t) ∈ entries :=
  (Dict.mem_entries ⟨entries, h⟩ name t).symm

/-! ## Building trees -/

/-- `fs.mkdir` with the option `recursive`, below a directory; `none` when a file is in the way. -/
def mkdir : List String → List (String × FileTree γ) → Option (List (String × FileTree γ))
  | [], entries => some entries
  | name :: path, entries =>
    match entries.lookup name with
    | some (file _) => none
    | some (dir inner) => (mkdir path inner).map fun inner => Dict.setEntry name (dir inner) entries
    | none => (mkdir path []).map fun inner => Dict.setEntry name (dir inner) entries

/-- `fs.writeFile` below a directory; `none` when there is no such directory, or when the path is
    that of a directory. -/
def writeFile (content : γ) : List String → List (String × FileTree γ) →
    Option (List (String × FileTree γ))
  | [], _ => none
  | [name], entries =>
    match entries.lookup name with
    | some (dir _) => none
    | _ => some (Dict.setEntry name (file content) entries)
  | name :: path, entries =>
    match entries.lookup name with
    | some (dir inner) =>
      (writeFile content path inner).map fun inner => Dict.setEntry name (dir inner) entries
    | _ => none

theorem wellFormed_setEntry (h : (dir entries).WellFormed) (ht : t.WellFormed)
    (name : String) : (dir (Dict.setEntry name t entries)).WellFormed := by
  refine ⟨Dict.nodup_setEntry name t entries h.1, ?_⟩
  have hentries := h.2
  clear h
  induction entries with
  | nil => exact ⟨ht, trivial⟩
  | cons e entries ih =>
    obtain ⟨key, t'⟩ := e
    rw [Dict.setEntry]
    split
    · exact ⟨ht, hentries.2⟩
    · exact ⟨hentries.1, ih hentries.2⟩

theorem wellFormed_of_lookup (h : (dir entries).WellFormed)
    (ht : entries.lookup name = some t) : t.WellFormed :=
  (entriesWellFormed_iff entries).mp h.2 _ (mem_of_lookup ht)

variable {path : List String}

theorem wellFormed_mkdir {entries : List (String × FileTree γ)}
    (h : (dir entries).WellFormed) (hmkdir : mkdir path entries = some entries') :
    (dir entries').WellFormed := by
  induction path generalizing entries entries' with
  | nil =>
    cases hmkdir
    exact h
  | cons name path ih =>
    rw [mkdir] at hmkdir
    split at hmkdir
    · cases hmkdir
    · rename_i inner hlookup
      obtain ⟨inner', hinner, rfl⟩ := Option.map_eq_some_iff.mp hmkdir
      exact wellFormed_setEntry h (ih (wellFormed_of_lookup h hlookup) hinner) name
    · obtain ⟨inner', hinner, rfl⟩ := Option.map_eq_some_iff.mp hmkdir
      exact wellFormed_setEntry h (ih wellFormed_empty hinner) name

variable {content : γ}

theorem wellFormed_writeFile {entries : List (String × FileTree γ)} (h : (dir entries).WellFormed)
    (hwrite : writeFile content path entries = some entries') : (dir entries').WellFormed := by
  fun_induction writeFile content path entries generalizing entries' with
  | case1 | case2 => cases hwrite
  | case3 name entries _ =>
    cases hwrite
    exact wellFormed_setEntry h (wellFormed_file content) name
  | case4 name path _ entries inner hlookup ih =>
    obtain ⟨inner', hinner, rfl⟩ := Option.map_eq_some_iff.mp hwrite
    exact wellFormed_setEntry h (ih (wellFormed_of_lookup h hlookup) hinner) name
  | case5 => cases hwrite

/-- What stands at a path when an entry of the directory has been set. -/
theorem at?_setEntry (name : String) (t : FileTree γ) (name' : String) (path : List String) :
    (dir (Dict.setEntry name t entries)).at? (name' :: path) =
      if name' = name then t.at? path else (dir entries).at? (name' :: path) := by
  rw [at?_dir_cons, at?_dir_cons, Dict.lookup_setEntry]
  split <;> rfl

theorem at?_file_cons (content : γ) (name : String) (path : List String) :
    (file content).at? (name :: path) = none := rfl

/-- Above whatever stands there are directories. -/
theorem at?_of_append {rest : List String} (hrest : rest ≠ [])
    (h : (dir entries).at? (path ++ rest) ≠ none) : (dir entries).at? path = some .directory := by
  induction path generalizing entries with
  | nil => rfl
  | cons name path ih =>
    rw [List.cons_append, at?_dir_cons] at h
    rw [at?_dir_cons]
    cases hlookup : entries.lookup name with
    | none => simp [hlookup] at h
    | some t =>
      rw [hlookup] at h
      cases t with
      | dir inner => exact ih h
      | file content =>
        refine absurd ?_ h
        cases path with
        | nil => obtain ⟨x, rest, rfl⟩ := List.exists_cons_of_ne_nil hrest; rfl
        | cons x path => rfl

/-- After `mkdir` there are directories down to its path, and nothing else has changed. -/
theorem at?_mkdir {entries : List (String × FileTree γ)}
    (h : mkdir path entries = some entries') (q : List String) :
    (dir entries').at? q = if q <+: path then some .directory else (dir entries).at? q := by
  induction path generalizing entries entries' q with
  | nil =>
    cases h
    split
    · next hq => rw [List.prefix_nil.mp hq, at?]
    · rfl
  | cons name path ih =>
    cases q with
    | nil => rw [if_pos List.nil_prefix, at?]
    | cons name' q =>
      have hinner : ∃ inner inner', mkdir path inner = some inner' ∧
          entries' = Dict.setEntry name (dir inner') entries ∧
          ∀ q ≠ [], (dir inner).at? q = (dir entries).at? (name :: q) := by
        rw [mkdir] at h
        split at h
        · cases h
        · next inner hlookup =>
          obtain ⟨inner', hinner, rfl⟩ := Option.map_eq_some_iff.mp h
          exact ⟨inner, inner', hinner, rfl, fun q _ => by rw [at?_dir_cons, hlookup]; rfl⟩
        · next hlookup =>
          obtain ⟨inner', hinner, rfl⟩ := Option.map_eq_some_iff.mp h
          refine ⟨[], inner', hinner, rfl, fun q hq => ?_⟩
          cases q with
          | nil => exact absurd rfl hq
          | cons x q => rw [at?_dir_cons, at?_dir_cons, hlookup]; rfl
      obtain ⟨inner, inner', hmkdir, rfl, hsame⟩ := hinner
      simp only [at?_setEntry, ih hmkdir, List.cons_prefix_cons]
      by_cases hname : name' = name
      · subst hname
        by_cases hq : q <+: path
        · simp [hq]
        · have hne : q ≠ [] := fun heq => hq (heq ▸ List.nil_prefix)
          simp [hq, hsame q hne]
      · simp [hname]

/-- After `writeFile` the file stands at its path, and nothing else has changed. -/
theorem at?_writeFile {entries : List (String × FileTree γ)}
    (h : writeFile content path entries = some entries') (q : List String) :
    (dir entries').at? q = if q = path then some (.file content) else (dir entries).at? q := by
  fun_induction writeFile content path entries generalizing entries' q with
  | case1 | case2 => cases h
  | case3 name entries hnot =>
    cases h
    cases q with
    | nil => rfl
    | cons name' q =>
      rw [at?_setEntry]
      by_cases hname : name' = name
      · subst hname
        cases q with
        | nil => simp [at?]
        | cons x q =>
          have hnone : (dir entries).at? (name' :: x :: q) = none := by
            rw [at?_dir_cons]
            cases hlookup : entries.lookup name' with
            | none => rfl
            | some t =>
              cases t with
              | file content' => rfl
              | dir inner => exact absurd hlookup (hnot inner)
          simp [hnone, at?_file_cons]
      · simp [hname]
  | case4 name path hpath entries inner hlookup ih =>
    obtain ⟨inner', hinner, rfl⟩ := Option.map_eq_some_iff.mp h
    cases q with
    | nil => rfl
    | cons name' q =>
      rw [at?_setEntry, ih hinner]
      by_cases hname : name' = name
      · subst hname
        rw [at?_dir_cons, hlookup]
        simp
      · simp [hname]
  | case5 => cases h

/-! ## Removing -/

mutual

/-- What a removal that fails leaves of a tree, where `kept` says of what it got to whether it is
    still there. -/
def restrict (kept : List String → Bool) : FileTree γ → List String → Option (FileTree γ)
  | file content, path => if kept path then some (file content) else none
  | dir entries, path => if kept path then some (dir (restrictEntries kept entries path)) else none

def restrictEntries (kept : List String → Bool) : List (String × FileTree γ) → List String →
    List (String × FileTree γ)
  | [], _ => []
  | (name, t) :: entries, path =>
    match restrict kept t (path ++ [name]) with
    | some t' => (name, t') :: restrictEntries kept entries path
    | none => restrictEntries kept entries path

end

mutual

/-- It is a part of the tree. -/
theorem within_restrict (kept : List String → Bool) (t : FileTree γ) (path : List String)
    (h : t.WellFormed) {t' : FileTree γ} (ht' : t.restrict kept path = some t') : Within t' t := by
  match t with
  | file content =>
    rw [restrict] at ht'
    split at ht'
    · cases ht'
      exact fun _ hpath => hpath
    · cases ht'
  | dir entries =>
    rw [restrict] at ht'
    split at ht'
    · cases ht'
      intro p hp
      cases p with
      | nil => rfl
      | cons name p =>
        rw [at?_dir_cons] at hp ⊢
        exact within_restrictEntries kept entries path h.1 h.2 name p hp
    · cases ht'

theorem within_restrictEntries (kept : List String → Bool) (entries : List (String × FileTree γ))
    (path : List String) (hnodup : (entries.map Prod.fst).Nodup)
    (h : EntriesWellFormed entries) (name : String) (p : List String)
    (hp : (((restrictEntries kept entries path).lookup name).bind fun t => t.at? p).isSome) :
    ((entries.lookup name).bind fun t => t.at? p).isSome := by
  match entries with
  | [] => exact hp
  | (key, t) :: entries =>
    rw [List.map_cons, List.nodup_cons] at hnodup
    rw [restrictEntries] at hp
    by_cases hkey : name = key
    · subst hkey
      rw [List.lookup_cons_self]
      split at hp
      · rename_i t' ht'
        rw [List.lookup_cons_self] at hp
        exact within_restrict kept t (path ++ [name]) h.1 ht' p hp
      · -- the name stands nowhere else
        have hrest := within_restrictEntries kept entries path hnodup.2 h.2 name p hp
        cases hlookup : entries.lookup name with
        | none =>
          rw [hlookup] at hrest
          cases hrest
        | some t' =>
          exact absurd (List.mem_map_of_mem (mem_of_lookup hlookup)) hnodup.1
    · rw [List.lookup_cons, beq_false_of_ne hkey]
      apply within_restrictEntries kept entries path hnodup.2 h.2 name p
      split at hp
      · rw [List.lookup_cons, beq_false_of_ne hkey] at hp
        exact hp
      · exact hp

end

theorem eq_file_of_restrict {kept : List String → Bool}
    (h : (file content).restrict kept path = some t) : t = file content := by
  rw [restrict] at h
  split at h
  · exact (Option.some.inj h).symm
  · cases h

theorem map_fst_restrictEntries (kept : List String → Bool)
    (entries : List (String × FileTree γ)) (path : List String) :
    ((restrictEntries kept entries path).map Prod.fst).Sublist (entries.map Prod.fst) := by
  induction entries with
  | nil => exact List.Sublist.slnil
  | cons e entries ih =>
    obtain ⟨name, t⟩ := e
    rw [restrictEntries]
    split
    · exact ih.cons_cons name
    · exact ih.cons name

mutual

theorem wellFormed_restrict (kept : List String → Bool) (t : FileTree γ) (path : List String)
    (h : t.WellFormed) {t' : FileTree γ} (ht' : t.restrict kept path = some t') :
    t'.WellFormed := by
  match t with
  | file content =>
    rw [restrict] at ht'
    split at ht'
    · cases ht'
      exact wellFormed_file content
    · cases ht'
  | dir entries =>
    rw [restrict] at ht'
    split at ht'
    · cases ht'
      exact ⟨(map_fst_restrictEntries kept entries path).nodup h.1,
        wellFormed_restrictEntries kept entries path h.2⟩
    · cases ht'

theorem wellFormed_restrictEntries (kept : List String → Bool)
    (entries : List (String × FileTree γ)) (path : List String) (h : EntriesWellFormed entries) :
    EntriesWellFormed (restrictEntries kept entries path) := by
  match entries with
  | [] => exact h
  | (name, t) :: entries =>
    rw [restrictEntries]
    have hrest := wellFormed_restrictEntries kept entries path h.2
    split
    · rename_i t' ht'
      exact ⟨wellFormed_restrict kept t (path ++ [name]) h.1 ht', hrest⟩
    · exact hrest

end

/-! ## Listing -/

/-- The order in which a file system lists the entries of a directory. -/
structure Listing (γ : Type u) where
  order : List (String × FileTree γ) → List (String × FileTree γ)
  perm : ∀ entries, (order entries).Perm entries

mutual

/-- A tree as the file system lists it. -/
def arranged (l : Listing γ) : FileTree γ → FileTree γ
  | file content => file content
  | dir entries => dir (l.order (arrangedEntries l entries))

def arrangedEntries (l : Listing γ) : List (String × FileTree γ) → List (String × FileTree γ)
  | [] => []
  | (name, t) :: entries => (name, arranged l t) :: arrangedEntries l entries

end

theorem arrangedEntries_eq_map (l : Listing γ) (entries : List (String × FileTree γ)) :
    arrangedEntries l entries = entries.map fun e => (e.1, e.2.arranged l) := by
  induction entries with
  | nil => rfl
  | cons e entries ih => rw [arrangedEntries, ih, List.map_cons]

theorem map_fst_arrangedEntries (l : Listing γ) (entries : List (String × FileTree γ)) :
    (arrangedEntries l entries).map Prod.fst = entries.map Prod.fst := by
  rw [arrangedEntries_eq_map, List.map_map]
  rfl

theorem nodup_order (l : Listing γ) {entries : List (String × FileTree γ)}
    (h : (entries.map Prod.fst).Nodup) :
    ((l.order (arrangedEntries l entries)).map Prod.fst).Nodup := by
  rw [((l.perm (arrangedEntries l entries)).map Prod.fst).nodup_iff, map_fst_arrangedEntries]
  exact h

mutual

theorem wellFormed_arranged (l : Listing γ) (t : FileTree γ) (h : t.WellFormed) :
    (t.arranged l).WellFormed := by
  match t with
  | file _ => trivial
  | dir entries =>
    refine ⟨nodup_order l h.1, ?_⟩
    rw [entriesWellFormed_iff]
    intro e he
    exact entries_arranged l entries h.2 e ((l.perm _).subset he)

theorem entries_arranged (l : Listing γ) (entries : List (String × FileTree γ))
    (h : EntriesWellFormed entries) : ∀ e ∈ arrangedEntries l entries, e.2.WellFormed := by
  match entries with
  | [] => simp [arrangedEntries]
  | (name, t) :: entries =>
    rw [arrangedEntries, List.forall_mem_cons]
    exact ⟨wellFormed_arranged l t h.1, entries_arranged l entries h.2⟩

end

theorem lookup_order (l : Listing γ) {entries : List (String × FileTree γ)}
    (h : (entries.map Prod.fst).Nodup) (name : String) :
    (l.order (arrangedEntries l entries)).lookup name =
      (entries.lookup name).map fun t => t.arranged l := by
  apply Option.ext
  intro t
  rw [lookup_eq_some_iff (nodup_order l h), (l.perm _).mem_iff, arrangedEntries_eq_map,
    Option.map_eq_some_iff, List.mem_map]
  constructor
  · rintro ⟨e, he, heq⟩
    obtain ⟨rfl, rfl⟩ := Prod.mk.inj heq
    exact ⟨e.2, (lookup_eq_some_iff h).mpr he, rfl⟩
  · rintro ⟨t', ht', rfl⟩
    exact ⟨(name, t'), (lookup_eq_some_iff h).mp ht', rfl⟩

/-- In whichever order entries are listed, the content is the same. By induction on the path. -/
theorem arranged_sameContent (l : Listing γ) (h : t.WellFormed) :
    SameContent (t.arranged l) t := by
  intro path
  induction path generalizing t with
  | nil => cases t <;> rfl
  | cons name path ih =>
    cases t with
    | file content => rfl
    | dir entries =>
      rw [arranged, at?_dir_cons, at?_dir_cons, lookup_order l h.1]
      cases hlookup : entries.lookup name with
      | none => rfl
      | some t' => exact ih (wellFormed_of_lookup h hlookup)

end FileTree
