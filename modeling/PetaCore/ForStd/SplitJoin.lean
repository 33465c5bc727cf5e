import Mathlib.Data.List.Infix

/-!
# Replacing all occurrences of a key

`text.split(key).join(value)`: the occurrences of a key are replaced from left to right, and what
is put in is not looked at again. The replacement goes part by part through a text in which no
occurrence of the key lies across the border of two parts.

- `replace_append`: two parts
- `replace_append_sep`: two parts around an element that the key does not have
-/

universe u

namespace SplitJoin

variable {α : Type u} [DecidableEq α]

/-- Scan a text of which some elements belong to an occurrence that has been replaced. -/
def scan (key value : List α) : (skip : Nat) → List α → List α
  | _, [] => []
  | skip + 1, _ :: text => scan key value skip text
  | 0, c :: text =>
    if key <+: c :: text then value ++ scan key value (key.length - 1) text
    else c :: scan key value 0 text

/-- `text.split(key).join(value)`, for a key that is not empty. -/
def replace (key value text : List α) : List α := scan key value 0 text

variable {key value : List α}

@[simp] theorem replace_nil : replace key value [] = [] := rfl

theorem scan_skip (skip : Nat) (text : List α) :
    scan key value skip text = replace key value (text.drop skip) := by
  induction skip generalizing text with
  | zero => rfl
  | succ skip ih =>
    cases text with
    | nil => rfl
    | cons c text => exact ih text

theorem replace_cons {c : α} {text : List α} (h : ¬key <+: c :: text) :
    replace key value (c :: text) = c :: replace key value text := by
  rw [replace, scan, if_neg h]
  rfl

/-- An occurrence at the start is replaced. -/
theorem replace_key_append (hkey : key ≠ []) (text : List α) :
    replace key value (key ++ text) = value ++ replace key value text := by
  cases key with
  | nil => exact absurd rfl hkey
  | cons k key =>
    have hbegins : k :: key <+: k :: (key ++ text) := List.prefix_append (k :: key) text
    rw [replace, List.cons_append, scan, if_pos hbegins]
    show value ++ scan (k :: key) value key.length (key ++ text) = _
    rw [scan_skip, List.drop_left]

/-- A text without the key stays. -/
theorem replace_eq_self {text : List α} (h : ¬key <:+: text) :
    replace key value text = text := by
  induction text with
  | nil => rfl
  | cons c text ih =>
    have hhead : ¬key <+: c :: text := fun hprefix => h hprefix.isInfix
    have htail : ¬key <:+: text := fun hin =>
      h (hin.trans (List.suffix_cons c text).isInfix)
    rw [replace_cons hhead, ih htail]

theorem mem_replace {c : α} {text : List α} (h : c ∈ replace key value text) :
    c ∈ value ∨ c ∈ text := by
  have hscan : ∀ (text : List α) (skip : Nat), c ∈ scan key value skip text →
      c ∈ value ∨ c ∈ text := by
    intro text
    induction text with
    | nil => intro skip h; cases skip <;> cases h
    | cons d text ih =>
      intro skip h
      cases skip with
      | succ skip => exact (ih skip h).imp_right (List.mem_cons_of_mem d)
      | zero =>
        rw [scan] at h
        split at h
        · cases List.mem_append.mp h with
          | inl h => exact Or.inl h
          | inr h => exact (ih _ h).imp_right (List.mem_cons_of_mem d)
        · cases List.mem_cons.mp h with
          | inl h => exact Or.inr (h ▸ List.mem_cons_self)
          | inr h => exact (ih _ h).imp_right (List.mem_cons_of_mem d)
  exact hscan text 0 h

/-- No occurrence of the key begins in one text and ends in the other one. -/
def Parted (key z rest : List α) : Prop :=
  ∀ k k', key = k ++ k' → k ≠ [] → k' ≠ [] → k <:+ z → ¬k' <+: rest

/-- The replacement goes through the parts by themselves. -/
theorem replace_append (hkey : key ≠ []) (z rest : List α) (h : Parted key z rest) :
    replace key value (z ++ rest) = replace key value z ++ replace key value rest := by
  by_cases hbegins : key <+: z ++ rest
  · cases z with
    | nil => rfl
    | cons c z =>
      obtain hz | hz := List.prefix_or_prefix_of_prefix hbegins (List.prefix_append (c :: z) rest)
      · -- the occurrence lies in the first part
        obtain ⟨z', hz'⟩ := hz
        have hlen : z'.length < (c :: z).length := by
          have hpos := List.length_pos_iff.mpr hkey
          rw [← hz', List.length_append]
          omega
        have hparted : Parted key z' rest := fun k k' hk hne hne' hsuffix =>
          h k k' hk hne hne' (hz' ▸ hsuffix.trans (List.suffix_append key z'))
        rw [← hz', List.append_assoc, replace_key_append hkey, replace_key_append hkey,
          replace_append hkey z' rest hparted, List.append_assoc]
      · -- the first part is a prefix of the occurrence, and has to be all of it
        obtain ⟨k', hk'⟩ := hz
        by_cases hne : k' = []
        · subst hne
          rw [List.append_nil] at hk'
          have hself : replace key value (key ++ []) = value ++ replace key value [] :=
            replace_key_append hkey []
          rw [List.append_nil, replace_nil, List.append_nil] at hself
          rw [hk', replace_key_append hkey, hself]
        · have hrest : k' <+: rest := by
            rw [← hk'] at hbegins
            exact (List.prefix_append_right_inj (c :: z)).mp hbegins
          exact absurd hrest (h (c :: z) k' hk'.symm (List.cons_ne_nil c z) hne List.suffix_rfl)
  · cases z with
    | nil => rfl
    | cons c z =>
      have hhead : ¬key <+: c :: z := fun hstarts =>
        hbegins (hstarts.trans (List.prefix_append (c :: z) rest))
      have hparted : Parted key z rest := fun k k' hk hne hne' hsuffix =>
        h k k' hk hne hne' (hsuffix.trans (List.suffix_cons c z))
      rw [List.cons_append] at hbegins ⊢
      rw [replace_cons hbegins, replace_cons hhead, replace_append hkey z rest hparted,
        List.cons_append]
termination_by z.length

/-- An element that the key does not have parts the text. -/
theorem replace_append_sep {sep : α} (hkey : key ≠ []) (hsep : sep ∉ key) (z rest : List α) :
    replace key value (z ++ sep :: rest) =
      replace key value z ++ sep :: replace key value rest := by
  have hparted : Parted key z (sep :: rest) := by
    intro k k' hk _ hne _ hprefix
    cases k' with
    | nil => exact hne rfl
    | cons x k' =>
      obtain ⟨t, ht⟩ := hprefix
      obtain ⟨rfl, _⟩ := List.cons.inj ht
      exact hsep (hk ▸ List.mem_append_right k List.mem_cons_self)
  have hhead : ¬key <+: sep :: rest := by
    rintro ⟨t, ht⟩
    cases key with
    | nil => exact hkey rfl
    | cons x key =>
      obtain ⟨rfl, _⟩ := List.cons.inj ht
      exact hsep List.mem_cons_self
  rw [replace_append hkey z _ hparted, replace_cons hhead]

end SplitJoin
