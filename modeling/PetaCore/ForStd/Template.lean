import Mathlib.Data.List.Find
import Mathlib.Data.List.Infix
import Mathlib.Data.List.Nodup

/-!
# Filling templates

A template is a text with placeholders. Its fields, each a placeholder with a value, are filled in
all at once, or one after the other by replacing the first occurrence of each placeholder in what
the ones before it have left.

- `fill`: all at once
- `sequential_eq_fill`: when one after the other gives the same
- `settled_of_free`: placeholders that are delimited, and values without placeholders
-/

universe u

namespace Template

variable {α : Type u}

/-! ## The first occurrence -/

section

variable [DecidableEq α]

/-- What stands before and behind the first occurrence of a name. -/
def cut (name : List α) : List α → Option (List α × List α)
  | [] => if name = [] then some ([], []) else none
  | c :: text =>
    if name <+: c :: text then some ([], (c :: text).drop name.length)
    else (cut name text).map fun r => (c :: r.1, r.2)

/-- Replace the first occurrence of a name; the value can depend on what stands before and behind
    it. -/
def replaceFirst (name : List α) (value : List α → List α → List α) (text : List α) : List α :=
  match cut name text with
  | some (before, after) => before ++ value before after ++ after
  | none => text

end

/-- No occurrence of a name begins before the one that stands behind `before`. -/
def First (name before : List α) : Prop := ¬name <:+: before ++ name.dropLast

theorem dropLast_prefix_append (name after : List α) : name.dropLast <+: name ++ after :=
  name.dropLast_prefix.trans (List.prefix_append name after)

variable {before name : List α}

theorem First.of_cons {c : α} (h : First name (c :: before)) :
    First name before := by
  intro hin
  exact h (hin.trans (List.suffix_cons c _).isInfix)

/-- Where a name stands for the first time, it does not stand before. -/
theorem First.not_begins {after : List α} {c : α} (h : First name (c :: before))
    (hname : name ≠ []) : ¬name <+: c :: (before ++ name ++ after) := by
  intro hbegins
  apply h
  have hpos : 0 < name.length := List.length_pos_iff.mpr hname
  have hpart : c :: before ++ name.dropLast <+: c :: (before ++ name ++ after) := by
    rw [List.cons_append, List.cons_prefix_cons, List.append_assoc]
    exact ⟨rfl, (List.prefix_append_right_inj before).mpr (dropLast_prefix_append name after)⟩
  have hlen : name.length ≤ (c :: before ++ name.dropLast).length := by
    simp only [List.length_append, List.length_cons, List.length_dropLast]
    omega
  exact (List.prefix_of_prefix_length_le hbegins hpart hlen).isInfix

/-- A name that occurs has a first occurrence. -/
theorem exists_first {text : List α} (hname : name ≠ []) (h : name <:+: text) :
    ∃ before after, text = before ++ name ++ after ∧ First name before := by
  have hstart : ∀ after, First name [] ∧ name ++ after = [] ++ name ++ after := by
    intro after
    refine ⟨fun hin => ?_, rfl⟩
    have hlen := hin.length_le
    have hpos : 0 < name.length := List.length_pos_iff.mpr hname
    simp only [List.nil_append, List.length_dropLast] at hlen
    omega
  induction text with
  | nil => exact absurd (List.infix_nil.mp h) hname
  | cons c text ih =>
    by_cases hbegins : name <+: c :: text
    · obtain ⟨after, hafter⟩ := hbegins
      exact ⟨[], after, hafter.symm.trans (hstart after).2, (hstart after).1⟩
    · have hrest : name <:+: text := (List.infix_cons_iff.mp h).resolve_left hbegins
      obtain ⟨before, after, htext, hfirst⟩ := ih hrest
      refine ⟨c :: before, after, by rw [htext]; rfl, fun hin => ?_⟩
      cases List.infix_cons_iff.mp hin with
      | inl hprefix =>
        apply hbegins
        rw [htext]
        refine hprefix.trans ?_
        rw [← List.cons_append, ← List.cons_append, List.append_assoc]
        exact (List.prefix_append_right_inj (c :: before)).mpr (dropLast_prefix_append name after)
      | inr hin => exact hfirst hin

section

variable [DecidableEq α]

theorem cut_of_first {name before after : List α} (hname : name ≠ []) (h : First name before) :
    cut name (before ++ name ++ after) = some (before, after) := by
  induction before with
  | nil =>
    cases name with
    | nil => exact absurd rfl hname
    | cons c name =>
      rw [List.nil_append, List.cons_append, cut, if_pos (by simp)]
      simp
  | cons c before ih =>
    rw [List.cons_append, List.cons_append, cut, if_neg (h.not_begins hname), ih h.of_cons]
    rfl

theorem replaceFirst_of_first {name before after : List α} {value : List α → List α → List α}
    (hname : name ≠ []) (h : First name before) :
    replaceFirst name value (before ++ name ++ after) =
      before ++ value before after ++ after := by
  simp only [replaceFirst, cut_of_first hname h]

/-- A name replaced by itself. -/
theorem replaceFirst_self {name : List α} (hname : name ≠ []) (text : List α) :
    replaceFirst name (fun _ _ => name) text = text := by
  have hcut : ∀ text before after, cut name text = some (before, after) →
      before ++ name ++ after = text := by
    intro text
    induction text with
    | nil =>
      intro before after h
      rw [cut, if_neg hname] at h
      cases h
    | cons c text ih =>
      intro before after h
      rw [cut] at h
      split at h
      · rename_i hbegins
        cases h
        exact List.prefix_iff_eq_append.mp hbegins
      · obtain ⟨r, hr, heq⟩ := Option.map_eq_some_iff.mp h
        cases heq
        rw [List.cons_append, List.cons_append, ih r.1 r.2 hr]
  unfold replaceFirst
  split
  · rename_i before after h
    exact hcut text before after h
  · rfl

end

/-! ## All at once -/

section

variable [DecidableEq α]

/-- Fill in all fields; the first elements may belong to a placeholder already. -/
def fillFrom (fields : List (List α × List α)) : (skip : Nat) → List α → List α
  | _, [] => []
  | skip + 1, _ :: text => fillFrom fields skip text
  | 0, c :: text =>
    match fields.find? fun f => decide (f.1 <+: c :: text) with
    | some f => f.2 ++ fillFrom fields (f.1.length - 1) text
    | none => c :: fillFrom fields 0 text

/-- The template with every field filled in. -/
def fill (fields : List (List α × List α)) (text : List α) : List α := fillFrom fields 0 text

theorem fillFrom_skip (fields : List (List α × List α)) (skip : Nat) (text : List α) :
    fillFrom fields skip text = fill fields (text.drop skip) := by
  induction skip generalizing text with
  | zero => rfl
  | succ skip ih =>
    cases text with
    | nil => rfl
    | cons c text => exact ih text

variable {fields : List (List α × List α)}

@[simp] theorem fill_nil : fill fields [] = [] := rfl

variable {text : List α}

theorem fill_cons {c : α} (h : ∀ f ∈ fields, ¬f.1 <+: c :: text) :
    fill fields (c :: text) = c :: fill fields text := by
  have hnone : (fields.find? fun f => decide (f.1 <+: c :: text)) = none := by
    rw [List.find?_eq_none]
    intro f hf
    simpa using h f hf
  rw [fill, fillFrom, hnone]
  rfl

theorem fill_field {f : List α × List α} {rest : List α} (hne : f.1 ≠ [])
    (h : (fields.find? fun f' => decide (f'.1 <+: f.1 ++ rest)) = some f) :
    fill fields (f.1 ++ rest) = f.2 ++ fill fields rest := by
  obtain ⟨name, value⟩ := f
  cases name with
  | nil => exact absurd rfl hne
  | cons c name =>
    simp only [List.cons_append] at h ⊢
    rw [fill, fillFrom, h]
    show value ++ fillFrom fields name.length (name ++ rest) = _
    rw [fillFrom_skip, List.drop_left]

/-- No placeholder lies across the border of two parts of a template. -/
def Parted (fields : List (List α × List α)) (text rest : List α) : Prop :=
  ∀ f ∈ fields, ∀ s₁ s₂, text = s₁ ++ s₂ → s₂ ≠ [] → f.1 <+: s₂ ++ rest → f.1 <+: s₂

/-- Parts with no placeholder across their border are filled in separately. -/
theorem fill_append (text rest : List α) (hne : ∀ f ∈ fields, f.1 ≠ [])
    (h : Parted fields text rest) :
    fill fields (text ++ rest) = fill fields text ++ fill fields rest := by
  induction hlen : text.length using Nat.strong_induction_on generalizing text with
  | _ k ih =>
  cases text with
  | nil => rfl
  | cons c text =>
    have hsame : (fields.find? fun f => decide (f.1 <+: c :: text ++ rest)) =
        fields.find? fun f => decide (f.1 <+: c :: text) := by
      apply List.find?_congr
      intro f hf
      rw [decide_eq_decide]
      exact ⟨h f hf [] (c :: text) rfl (List.cons_ne_nil c text),
        fun hbegins => hbegins.trans (List.prefix_append _ rest)⟩
    cases hfind : fields.find? fun f => decide (f.1 <+: c :: text) with
    | some f =>
      have hf := List.mem_of_find?_eq_some hfind
      have hbegins : f.1 <+: c :: text := by simpa using List.find?_some hfind
      obtain ⟨tail, htail⟩ := hbegins
      have htail' : Parted fields tail rest := by
        intro g hg s₁ s₂ hs
        exact h g hg (f.1 ++ s₁) s₂ (by rw [← htail, hs, List.append_assoc])
      rw [hfind, ← htail, List.append_assoc] at hsame
      rw [← htail] at hfind hlen ⊢
      have hpos : 0 < f.1.length := List.length_pos_iff.mpr (hne f hf)
      rw [List.length_append] at hlen
      rw [List.append_assoc, fill_field (hne f hf) hsame, fill_field (hne f hf) hfind,
        ih tail.length (by omega) tail htail' rfl, List.append_assoc]
    | none =>
      rw [hfind] at hsame
      have hnone : ∀ f ∈ fields, ¬f.1 <+: c :: text := by
        intro f hf
        simpa using List.find?_eq_none.mp hfind f hf
      have hnone' : ∀ f ∈ fields, ¬f.1 <+: c :: (text ++ rest) := by
        intro f hf
        simpa using List.find?_eq_none.mp hsame f hf
      have htail : Parted fields text rest := by
        intro g hg s₁ s₂ hs
        exact h g hg (c :: s₁) s₂ (by rw [hs]; rfl)
      rw [List.cons_append, fill_cons hnone', fill_cons hnone,
        ih text.length (by rw [← hlen]; exact Nat.lt_succ_self _) text htail rfl]
      rfl

/-- A text without placeholders stays. -/
theorem fill_eq_self (h : ∀ f ∈ fields, ¬f.1 <:+: text) :
    fill fields text = text := by
  induction text with
  | nil => rfl
  | cons c text ih =>
    rw [fill_cons fun f hf hbegins => h f hf hbegins.isInfix,
      ih fun f hf hin => h f hf (hin.trans (List.suffix_cons c text).isInfix)]

/-- Only the fields whose placeholder occurs count. -/
theorem fill_append_fields {f : List α × List α} (h : ¬f.1 <:+: text) :
    fill (fields ++ [f]) text = fill fields text := by
  have hscan : ∀ (text : List α) (skip : Nat), ¬f.1 <:+: text →
      fillFrom (fields ++ [f]) skip text = fillFrom fields skip text := by
    intro text
    induction text with
    | nil => intro skip _; cases skip <;> rfl
    | cons c text ih =>
      intro skip h
      have htail : ¬f.1 <:+: text := fun hin =>
        h (hin.trans (List.suffix_cons c text).isInfix)
      cases skip with
      | succ skip => exact ih skip htail
      | zero =>
        have hbegins : ¬f.1 <+: c :: text := fun hbegins => h hbegins.isInfix
        have hfind : ((fields ++ [f]).find? fun f => decide (f.1 <+: c :: text)) =
            fields.find? fun f => decide (f.1 <+: c :: text) := by
          rw [List.find?_append]
          simp [hbegins]
        rw [fillFrom, fillFrom, hfind]
        cases fields.find? fun f => decide (f.1 <+: c :: text) with
        | none => simp only [ih 0 htail]
        | some g => simp only [ih _ htail]
  exact hscan text 0 h

end

variable {fields : List (List α × List α)} {f g : List α × List α}

/-! ## Placeholders that stand apart -/

/-- An occurrence of the second name can begin within one of the first. -/
def Meets (m n : List α) : Prop := ∃ k < m.length, m.drop k <+: n ∨ n <+: m.drop k

instance [DecidableEq α] (m n : List α) : Decidable (Meets m n) :=
  inferInstanceAs (Decidable (∃ k < m.length, _ ∨ _))

/-- Placeholders of which no two occurrences share an element. -/
structure Apart (names : List (List α)) : Prop where
  nonempty : ∀ n ∈ names, n ≠ []
  nodup : names.Nodup
  apart : ∀ m ∈ names, ∀ n ∈ names, m ≠ n → ¬Meets m n

theorem Apart.sublist {names names' : List (List α)} (h : Apart names)
    (hsub : names'.Sublist names) : Apart names' :=
  ⟨fun n hn => h.nonempty n (hsub.subset hn), h.nodup.sublist hsub,
    fun m hm n hn => h.apart m (hsub.subset hm) n (hsub.subset hn)⟩

theorem Apart.perm {names names' : List (List α)} (h : Apart names) (hperm : names'.Perm names) :
    Apart names' :=
  ⟨fun n hn => h.nonempty n (hperm.subset hn), hperm.nodup_iff.mpr h.nodup,
    fun m hm n hn => h.apart m (hperm.subset hm) n (hperm.subset hn)⟩

/-- Fields with one placeholder are the same. -/
theorem Apart.eq_of_name (h : Apart (fields.map Prod.fst)) (hf : f ∈ fields) (hg : g ∈ fields)
    (heq : f.1 = g.1) : f = g :=
  List.inj_on_of_nodup_map h.nodup hf hg heq

theorem Apart.not_meets (h : Apart (fields.map Prod.fst)) (hf : f ∈ fields) (hg : g ∈ fields)
    (hne : f.1 ≠ g.1) : ¬Meets f.1 g.1 :=
  h.apart f.1 (List.mem_map_of_mem hf) g.1 (List.mem_map_of_mem hg) hne

theorem Apart.not_meets_of_cons (h : Apart ((f :: fields).map Prod.fst)) (hg : g ∈ fields) :
    ¬Meets f.1 g.1 ∧ ¬Meets g.1 f.1 := by
  have hne : f.1 ≠ g.1 := by
    intro heq
    have hnodup := h.nodup
    rw [List.map_cons, List.nodup_cons] at hnodup
    exact hnodup.1 (by rw [heq]; exact List.mem_map_of_mem hg)
  exact ⟨h.not_meets List.mem_cons_self (List.mem_cons_of_mem f hg) hne,
    h.not_meets (List.mem_cons_of_mem f hg) List.mem_cons_self hne.symm⟩

theorem Apart.ne_of_last (h : Apart ((fields ++ [f]).map Prod.fst)) (hg : g ∈ fields) :
    g.1 ≠ f.1 := by
  have hnodup := h.nodup
  rw [List.map_append, List.nodup_append] at hnodup
  exact hnodup.2.2 g.1 (List.mem_map_of_mem hg) f.1 (by simp)

/-- A name that begins before another one and reaches into it. -/
theorem meets_of_begins {m n s rest : List α} (h : m <+: s ++ n ++ rest) :
    m <+: s ∨ Meets m n := by
  by_cases hlen : m.length ≤ s.length
  · left
    rw [List.append_assoc] at h
    exact List.prefix_of_prefix_length_le h (List.prefix_append s _) hlen
  · right
    refine ⟨s.length, by omega, ?_⟩
    have hpre : s <+: m := by
      rw [List.append_assoc] at h
      exact List.prefix_of_prefix_length_le (List.prefix_append s _) h (by omega)
    obtain ⟨t, rfl⟩ := hpre
    rw [List.drop_left]
    rw [List.append_assoc, List.prefix_append_right_inj] at h
    by_cases ht : t.length ≤ n.length
    · exact .inl (List.prefix_of_prefix_length_le h (List.prefix_append n rest) ht)
    · exact .inr (List.prefix_of_prefix_length_le (List.prefix_append n rest) h (by omega))

/-- A name that begins within another one. -/
theorem meets_of_suffix {m n s t rest : List α} (hm : m = s ++ t) (ht : t ≠ [])
    (h : n <+: t ++ rest) : Meets m n := by
  have hpos : 0 < t.length := List.length_pos_iff.mpr ht
  refine ⟨s.length, by rw [hm, List.length_append]; omega, ?_⟩
  rw [hm, List.drop_left]
  by_cases hlen : n.length ≤ t.length
  · exact .inr (List.prefix_of_prefix_length_le h (List.prefix_append t rest) hlen)
  · exact .inl (List.prefix_of_prefix_length_le (List.prefix_append t rest) h (by omega))

/-- The placeholder occurs once in the template. -/
def OccursOnce (name text : List α) : Prop :=
  ∃ before after, text = before ++ name ++ after ∧
    ∀ before' after', text = before' ++ name ++ after' → before' = before

theorem OccursOnce.not_infix_before {after : List α} (hname : name ≠ [])
    (h : OccursOnce name (before ++ name ++ after)) : ¬name <:+: before := by
  rintro ⟨s, t, rfl⟩
  obtain ⟨b, _, _, hunique⟩ := h
  have h₁ := hunique _ after rfl
  have h₂ := hunique s (t ++ name ++ after) (by simp only [List.append_assoc])
  have hlen := congrArg List.length (h₁.trans h₂.symm)
  have hpos : 0 < name.length := List.length_pos_iff.mpr hname
  simp only [List.length_append] at hlen
  omega

theorem OccursOnce.not_infix_after {after : List α} (hname : name ≠ [])
    (h : OccursOnce name (before ++ name ++ after)) : ¬name <:+: after := by
  rintro ⟨s, t, rfl⟩
  obtain ⟨b, _, _, hunique⟩ := h
  have h₁ := hunique before (s ++ name ++ t) rfl
  have h₂ := hunique (before ++ name ++ s) t (by simp only [List.append_assoc])
  have hlen := congrArg List.length (h₁.trans h₂.symm)
  have hpos : 0 < name.length := List.length_pos_iff.mpr hname
  simp only [List.length_append] at hlen
  omega

/-- It does not begin before its place either. -/
theorem OccursOnce.not_begins {s₁ s₂ after : List α} (hs₂ : s₂ ≠ [])
    (h : OccursOnce name (s₁ ++ s₂ ++ name ++ after)) : ¬name <+: s₂ ++ (name ++ after) := by
  rintro ⟨t, ht⟩
  obtain ⟨b, _, _, hunique⟩ := h
  have h₁ := hunique (s₁ ++ s₂) after rfl
  have h₂ := hunique s₁ t (by
    rw [List.append_assoc, List.append_assoc s₁ name, ht]
    simp only [List.append_assoc])
  have hlen := congrArg List.length (h₁.trans h₂.symm)
  have hpos : 0 < s₂.length := List.length_pos_iff.mpr hs₂
  simp only [List.length_append] at hlen
  omega

/-! ## One after the other -/

section

variable [DecidableEq α] {fields : List (List α × List α)} {f : List α × List α}

/-- Where a placeholder begins, its field is filled in. -/
theorem find?_field (h : Apart (fields.map Prod.fst)) (hf : f ∈ fields) (rest : List α) :
    (fields.find? fun g => decide (g.1 <+: f.1 ++ rest)) = some f := by
  have hname : f.1 ≠ [] := h.nonempty f.1 (List.mem_map_of_mem hf)
  cases hfind : fields.find? fun g => decide (g.1 <+: f.1 ++ rest) with
  | none =>
    have hnot := List.find?_eq_none.mp hfind f hf
    simp at hnot
  | some g =>
    have hg := List.mem_of_find?_eq_some hfind
    have hbegins : g.1 <+: f.1 ++ rest := by simpa using List.find?_some hfind
    have hmeets : Meets f.1 g.1 := meets_of_suffix (s := []) rfl hname hbegins
    by_cases heq : f.1 = g.1
    · rw [h.eq_of_name hf hg heq]
    · exact absurd hmeets (h.not_meets hf hg heq)

/-- A placeholder that is filled in later keeps its place. -/
theorem fill_around (h : Apart ((fields ++ [f]).map Prod.fst)) (before after : List α) :
    fill fields (before ++ f.1 ++ after) =
      fill fields before ++ f.1 ++ fill fields after := by
  have hne : ∀ g ∈ fields, g.1 ≠ [] := fun g hg =>
    h.nonempty g.1 (List.mem_map_of_mem (List.mem_append_left [f] hg))
  have hf : f ∈ fields ++ [f] := by simp
  have hapart : ∀ g ∈ fields, ¬Meets g.1 f.1 ∧ ¬Meets f.1 g.1 := by
    intro g hg
    have hg' : g ∈ fields ++ [f] := List.mem_append_left [f] hg
    exact ⟨h.not_meets hg' hf (h.ne_of_last hg), h.not_meets hf hg' (h.ne_of_last hg).symm⟩
  have hleft : Parted fields before (f.1 ++ after) := by
    intro g hg s₁ s₂ _ _ hbegins
    rw [← List.append_assoc] at hbegins
    exact (meets_of_begins hbegins).resolve_right (hapart g hg).1
  have hright : Parted fields f.1 after := by
    intro g hg s₁ s₂ hs hs₂ hbegins
    exact absurd (meets_of_suffix hs hs₂ hbegins) (hapart g hg).2
  have hself : fill fields f.1 = f.1 := by
    apply fill_eq_self
    rintro g hg ⟨s, t, hst⟩
    have ht : g.1 ++ t ≠ [] := by simp [hne g hg]
    have hbegins : g.1 <+: g.1 ++ t ++ [] := by simp
    have hsplit : f.1 = s ++ (g.1 ++ t) := by rw [← hst, List.append_assoc]
    exact (hapart g hg).2 (meets_of_suffix hsplit ht hbegins)
  rw [List.append_assoc, fill_append before (f.1 ++ after) hne hleft,
    fill_append f.1 after hne hright, hself, List.append_assoc]

/-- Filled in itself, it is replaced at its place. -/
theorem fill_at (h : Apart (fields.map Prod.fst)) (hf : f ∈ fields) {before after : List α}
    (honce : OccursOnce f.1 (before ++ f.1 ++ after)) :
    fill fields (before ++ f.1 ++ after) =
      fill fields before ++ f.2 ++ fill fields after := by
  have hname : f.1 ≠ [] := h.nonempty f.1 (List.mem_map_of_mem hf)
  have hne : ∀ g ∈ fields, g.1 ≠ [] := fun g hg => h.nonempty g.1 (List.mem_map_of_mem hg)
  have hleft : Parted fields before (f.1 ++ after) := by
    intro g hg s₁ s₂ hs hs₂ hbegins
    by_cases hother : g.1 = f.1
    · rw [hother] at hbegins
      rw [hs] at honce
      exact absurd hbegins (honce.not_begins hs₂)
    · rw [← List.append_assoc] at hbegins
      exact (meets_of_begins hbegins).resolve_right (h.not_meets hg hf hother)
  rw [List.append_assoc, fill_append before (f.1 ++ after) hne hleft,
    fill_field hname (find?_field h hf after), List.append_assoc]

/-- The fields filled in one after the other. -/
def sequential (fields : List (List α × List α)) (text : List α) : List α :=
  fields.foldl (fun text f => replaceFirst f.1 (fun _ _ => f.2) text) text

/-- No placeholder appears before its place when the ones before it are filled in, unless it is
    its own value. -/
def Settled (fields : List (List α × List α)) (text : List α) : Prop :=
  ∀ done f rest, fields = done ++ f :: rest → f.2 = f.1 ∨
    ∀ before after, text = before ++ f.1 ++ after → First f.1 (fill done before)

/-- Fields that are settled are filled in one after the other as they are all at once. By induction
    on how many are done. -/
theorem sequential_eq_fill (h : Apart (fields.map Prod.fst)) {text : List α}
    (honce : ∀ f ∈ fields, OccursOnce f.1 text) (hsettled : Settled fields text) :
    sequential fields text = fill fields text := by
  induction fields using List.reverseRecOn with
  | nil => exact (fill_eq_self fun f hf => by cases hf).symm
  | append_singleton done f ih =>
    have hdone : Apart (done.map Prod.fst) := by
      rw [List.map_append] at h
      exact h.sublist (List.sublist_append_left _ _)
    have hrest := ih hdone (fun g hg => honce g (List.mem_append_left [f] hg))
      (fun d g r heq => hsettled d g (r ++ [f]) (by rw [heq, List.append_assoc]; rfl))
    have hname : f.1 ≠ [] := h.nonempty f.1 (by simp)
    have hf : OccursOnce f.1 text := honce f (by simp)
    obtain ⟨before, after, rfl, _⟩ := id hf
    rw [fill_at h (by simp) hf, fill_append_fields (hf.not_infix_before hname),
      fill_append_fields (hf.not_infix_after hname), sequential, List.foldl_append]
    show replaceFirst f.1 (fun _ _ => f.2) (sequential done _) = _
    rw [hrest, fill_around h]
    cases hsettled done f [] rfl with
    | inl hself => rw [hself, replaceFirst_self hname]
    | inr hfirst => rw [replaceFirst_of_first hname (hfirst before after rfl)]

end

/-! ## Delimited placeholders -/

/-- An element of no placeholder. -/
def Outside (fields : List (List α × List α)) (d : α) : Prop := ∀ f ∈ fields, d ∉ f.1

/-- Next to each placeholder stand elements of no placeholder. -/
def Delimited (fields : List (List α × List α)) (text : List α) : Prop :=
  ∀ f ∈ fields, ∀ s t, text = s ++ f.1 ++ t →
    (∃ s' d, s = s' ++ [d] ∧ Outside fields d) ∧ ∃ d t', t = d :: t' ∧ Outside fields d

/-- No value holds a placeholder that is filled in later, unless that one is its own value. -/
def Free (fields : List (List α × List α)) : Prop :=
  ∀ done f rest, fields = done ++ f :: rest → f.2 = f.1 ∨ ∀ g ∈ done, ¬f.1 <:+: g.2

/-- A name lies on one side of an element that it does not hold. -/
theorem infix_split {d : α} {p u v : List α} (hd : d ∉ p) (h : p <:+: u ++ d :: v) :
    p <:+: u ∨ p <:+: v := by
  obtain ⟨s, t, hst⟩ := h
  cases List.append_eq_append_iff.mp hst with
  | inl h =>
    obtain ⟨a, hu, _⟩ := h
    exact .inl ⟨s, a, hu.symm⟩
  | inr h =>
    obtain ⟨c, hsp, hv⟩ := h
    cases c with
    | nil => exact .inl ⟨s, [], by simpa using hsp⟩
    | cons c cs =>
      obtain ⟨rfl, rfl⟩ := List.cons.inj hv
      cases List.append_eq_append_iff.mp hsp with
      | inl h =>
        obtain ⟨a, _, hp⟩ := h
        exact absurd (by rw [hp]; simp) hd
      | inr h =>
        obtain ⟨a, _, hp⟩ := h
        cases a with
        | nil =>
          have hp' : p = d :: cs := hp.symm
          exact absurd (by rw [hp']; simp) hd
        | cons b a =>
          obtain ⟨_, rfl⟩ := List.cons.inj hp
          exact .inr ⟨a, t, rfl⟩

/-- A placeholder ends before an element that it does not hold. -/
theorem prefix_of_outside {d : α} {p s rest : List α} (hd : d ∉ p) (h : p <+: s ++ d :: rest) :
    p <+: s := by
  by_cases hlen : p.length ≤ s.length
  · exact List.prefix_of_prefix_length_le h (List.prefix_append s _) hlen
  · have hpart : s ++ [d] <+: s ++ d :: rest := by simp
    have hbegins : s ++ [d] <+: p :=
      List.prefix_of_prefix_length_le hpart h (by rw [List.length_append, List.length_singleton]; omega)
    exact absurd (hbegins.subset (by simp)) hd

theorem parted_outside {fields : List (List α × List α)} {d : α} (hd : Outside fields d)
    (text rest : List α) :
    Parted fields text (d :: rest) :=
  fun f hf _ _ _ _ hbegins => prefix_of_outside (hd f hf) hbegins

section

variable [DecidableEq α] {fields done : List (List α × List α)}

theorem fill_outside (hne : ∀ f ∈ fields, f.1 ≠ []) {d : α} (hd : Outside fields d)
    (text : List α) : fill fields (d :: text) = d :: fill fields text := by
  apply fill_cons
  intro f hf hbegins
  cases hname : f.1 with
  | nil => exact hne f hf hname
  | cons c n =>
    rw [hname, List.cons_prefix_cons] at hbegins
    exact hd f hf (by rw [hname, hbegins.1]; simp)

/-- A name in a filled template stands in the template or in a value. By induction on the rest of
    the template, `w` being the part of it just before. -/
theorem infix_of_infix_fill (hne : ∀ f ∈ done, f.1 ≠ []) {p : List α} {D : α → Prop}
    (hD : ∀ d, D d → Outside done d ∧ d ∉ p) (w text : List α)
    (hdelim : ∀ f ∈ done, ∀ s t, text = s ++ f.1 ++ t →
      (w ++ s = [] ∨ ∃ s' d, w ++ s = s' ++ [d] ∧ D d) ∧ (t = [] ∨ ∃ d t', t = d :: t' ∧ D d))
    (h : p <:+: w ++ fill done text) : p <:+: w ++ text ∨ ∃ g ∈ done, p <:+: g.2 := by
  induction hlen : text.length using Nat.strong_induction_on generalizing w text with
  | _ k ih =>
  cases text with
  | nil => exact .inl h
  | cons c text =>
    cases hfind : done.find? fun f => decide (f.1 <+: c :: text) with
    | none =>
      have hnone : ∀ f ∈ done, ¬f.1 <+: c :: text := by
        intro f hf
        simpa using List.find?_eq_none.mp hfind f hf
      rw [fill_cons hnone] at h
      have hrest := ih text.length (by rw [← hlen]; exact Nat.lt_succ_self _) (w ++ [c]) text
        (by
          intro f hf s t hs
          rw [List.append_assoc]
          exact hdelim f hf (c :: s) t (by rw [hs]; rfl))
        (by rw [List.append_assoc]; exact h) rfl
      rwa [List.append_assoc] at hrest
    | some f =>
      have hf := List.mem_of_find?_eq_some hfind
      have hbegins : f.1 <+: c :: text := by simpa using List.find?_some hfind
      obtain ⟨t, ht⟩ := hbegins
      rw [← ht] at hfind hdelim hlen h ⊢
      rw [fill_field (hne f hf) hfind] at h
      have hpos : 0 < f.1.length := List.length_pos_iff.mpr (hne f hf)
      rw [List.length_append] at hlen
      obtain ⟨hw, ht'⟩ := hdelim f hf [] t rfl
      rw [List.append_nil] at hw
      -- what stands before the value is cut off by the element before it
      have hvalue : p <:+: f.2 ++ fill done t ∨ p <:+: w := by
        cases hw with
        | inl hw =>
          rw [hw] at h
          exact .inl h
        | inr hw =>
          obtain ⟨w', d, rfl, hd⟩ := hw
          rw [List.append_assoc] at h
          cases infix_split (hD d hd).2 h with
          | inl h => exact .inr (h.trans (List.prefix_append w' [d]).isInfix)
          | inr h => exact .inl h
      cases hvalue with
      | inr h => exact .inl (h.trans (List.prefix_append w _).isInfix)
      | inl h =>
        cases ht' with
        | inl ht' =>
          rw [ht', fill_nil, List.append_nil] at h
          exact .inr ⟨f, hf, h⟩
        | inr ht' =>
          obtain ⟨d, t', rfl, hd⟩ := ht'
          rw [fill_outside hne (hD d hd).1] at h
          cases infix_split (hD d hd).2 h with
          | inl h => exact .inr ⟨f, hf, h⟩
          | inr h =>
            rw [List.length_cons] at hlen
            have hrest := ih t'.length (by omega) [] t'
              (by
                intro g hg s u hs
                obtain ⟨hbefore, hafter⟩ := hdelim g hg (f.1 ++ d :: s) u (by
                  rw [hs]
                  simp only [List.append_assoc, List.cons_append])
                refine ⟨?_, hafter⟩
                by_cases hempty : s = []
                · exact .inl hempty
                · right
                  obtain ⟨s', b, rfl⟩ := List.eq_nil_or_concat' s |>.resolve_left hempty
                  refine ⟨s', b, rfl, ?_⟩
                  cases hbefore with
                  | inl hbefore => simp at hbefore
                  | inr hbefore =>
                    obtain ⟨s'', b', heq, hb'⟩ := hbefore
                    have hlast := congrArg List.getLast? heq
                    rw [← List.append_assoc, ← List.cons_append, ← List.append_assoc] at hlast
                    simp only [List.getLast?_concat] at hlast
                    rw [Option.some.inj hlast]
                    exact hb')
              h rfl
            cases hrest with
            | inl hrest =>
              left
              refine hrest.trans ?_
              exact ⟨w ++ f.1 ++ [d], [], by simp⟩
            | inr hrest => exact .inr hrest

/-- In a delimited template, only placeholders within values come before their place. -/
theorem settled_of_free (h : Apart (fields.map Prod.fst)) {text : List α}
    (honce : ∀ f ∈ fields, OccursOnce f.1 text) (hdelim : Delimited fields text)
    (hfree : Free fields) : Settled fields text := by
  intro done f rest hfields
  cases hfree done f rest hfields with
  | inl hself => exact .inl hself
  | inr hfree =>
    right
    rintro before after rfl
    have hf : f ∈ fields := by rw [hfields]; simp
    have hdone : ∀ g ∈ done, g ∈ fields := fun g hg => by rw [hfields]; simp [hg]
    have hname : f.1 ≠ [] := h.nonempty f.1 (List.mem_map_of_mem hf)
    have hne : ∀ g ∈ done, g.1 ≠ [] := fun g hg =>
      h.nonempty g.1 (List.mem_map_of_mem (hdone g hg))
    obtain ⟨⟨b, d, rfl, hd⟩, _⟩ := hdelim f hf before after rfl
    have hd' : Outside done d := fun g hg => hd g (hdone g hg)
    have hsplit : fill done (b ++ [d]) = fill done b ++ [d] := by
      rw [fill_append b [d] hne (parted_outside hd' b []), fill_outside hne hd', fill_nil]
    intro hin
    rw [hsplit, List.append_assoc] at hin
    cases infix_split (hd f hf) hin with
    | inr hlast =>
      have hlen : f.1.length ≤ f.1.dropLast.length := hlast.length_le
      have hpos : 0 < f.1.length := List.length_pos_iff.mpr hname
      rw [List.length_dropLast] at hlen
      omega
    | inl hin =>
      have hbefore : ¬f.1 <:+: b := fun hb =>
        (honce f hf).not_infix_before hname (hb.trans (List.prefix_append b [d]).isInfix)
      have hplaces : ∀ g ∈ done, ∀ s t, b = s ++ g.1 ++ t →
          ([] ++ s = [] ∨ ∃ s' e, [] ++ s = s' ++ [e] ∧ Outside fields e) ∧
            (t = [] ∨ ∃ e t', t = e :: t' ∧ Outside fields e) := by
        intro g hg s t hb
        obtain ⟨hleft, e, t', ht, he⟩ := hdelim g (hdone g hg) s (t ++ [d] ++ f.1 ++ after)
          (by rw [hb]; simp only [List.append_assoc])
        refine ⟨.inr hleft, ?_⟩
        cases t with
        | nil => exact .inl rfl
        | cons c t =>
          obtain ⟨rfl, _⟩ := List.cons.inj ht
          exact .inr ⟨c, t, rfl, he⟩
      cases infix_of_infix_fill hne (D := Outside fields)
          (fun e he => ⟨fun g hg => he g (hdone g hg), he f hf⟩) [] b hplaces hin with
      | inl hb => exact hbefore hb
      | inr hvalue =>
        obtain ⟨g, hg, hvalue⟩ := hvalue
        exact hfree g hg hvalue

end

end Template
