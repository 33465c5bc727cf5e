import Mathlib.Data.List.Infix
import Mathlib.Data.List.Nodup

/-!
# Replacing names in a text

Names are replaced in a text, each by itself followed by a mark: in one scan, in which the longest
name at a place is replaced and what follows it is scanned further, or in sequence, one name after
the other over the whole text.

- `once`: the scan
- `sequential`: one name after the other
- `Separate`: a name that comes after another one does not touch what the other one leaves behind
- `sequential_eq_once_iff`: when both give the same for every text
-/

universe u

namespace Replacement

variable {α : Type u} [DecidableEq α]

/-! ## One scan -/

/-- The longest name that a text begins with; the empty one is not looked for. -/
def longestPrefix (text : List α) : List (List α) → Option (List α)
  | [] => none
  | n :: names =>
    match longestPrefix text names with
    | none => if n ≠ [] ∧ n <+: text then some n else none
    | some n' => if n'.length < n.length ∧ n <+: text then some n else some n'

/-- Scan a text of which some elements belong to a name that has been replaced. -/
def scan (names : List (List α)) (mark : List α) : (skip : Nat) → List α → List α
  | _, [] => []
  | skip + 1, _ :: text => scan names mark skip text
  | 0, c :: text =>
    match longestPrefix (c :: text) names with
    | some n => n ++ mark ++ scan names mark (n.length - 1) text
    | none => c :: scan names mark 0 text

/-- Replace the names in one scan. -/
def once (names : List (List α)) (mark text : List α) : List α := scan names mark 0 text

variable {names : List (List α)}

theorem longestPrefix_eq_none {text : List α} :
    longestPrefix text names = none ↔ ∀ n ∈ names, n ≠ [] → ¬n <+: text := by
  induction names with
  | nil => simp [longestPrefix]
  | cons n names ih =>
    rw [longestPrefix, List.forall_mem_cons, ← ih]
    cases longestPrefix text names with
    | none => simp
    | some n' =>
      simp only [reduceCtorEq, and_false, iff_false]
      split <;> simp

/-- The longest name is one that the text begins with, and no other one is longer. -/
theorem longestPrefix_eq_some {text n : List α} (h : longestPrefix text names = some n) :
    n ∈ names ∧ n ≠ [] ∧ n <+: text ∧ ∀ m ∈ names, m <+: text → m.length ≤ n.length := by
  induction names generalizing n with
  | nil => cases h
  | cons x names ih =>
    rw [longestPrefix] at h
    cases hrest : longestPrefix text names with
    | none =>
      simp only [hrest] at h
      split at h
      · rename_i hx
        cases h
        refine ⟨List.mem_cons_self, hx.1, hx.2, ?_⟩
        intro m hm hbegins
        cases List.mem_cons.mp hm with
        | inl hm => rw [hm]
        | inr hm =>
          by_contra hlen
          have hne : m ≠ [] := List.ne_nil_of_length_pos (by omega)
          exact longestPrefix_eq_none.mp hrest m hm hne hbegins
      · cases h
    | some n' =>
      obtain ⟨hmem, hne, hbegins, hlongest⟩ := ih hrest
      simp only [hrest] at h
      split at h
      · rename_i hx
        cases h
        refine ⟨List.mem_cons_self, List.ne_nil_of_length_pos (by omega), hx.2, ?_⟩
        intro m hm hm'
        cases List.mem_cons.mp hm with
        | inl hm => rw [hm]
        | inr hm => exact (hlongest m hm hm').trans (by omega)
      · rename_i hx
        cases h
        refine ⟨List.mem_cons_of_mem x hmem, hne, hbegins, ?_⟩
        intro m hm hm'
        cases List.mem_cons.mp hm with
        | inl hm =>
          subst hm
          by_contra hlen
          exact hx ⟨by omega, hm'⟩
        | inr hm => exact hlongest m hm hm'

/-- Names of one length that a text begins with are the same. -/
theorem longestPrefix_unique {text n : List α} (hmem : n ∈ names)
    (hne : n ≠ []) (hbegins : n <+: text)
    (hlongest : ∀ m ∈ names, m <+: text → m.length ≤ n.length) :
    longestPrefix text names = some n := by
  cases h : longestPrefix text names with
  | none => exact absurd hbegins (longestPrefix_eq_none.mp h n hmem hne)
  | some n' =>
    obtain ⟨hmem', _, hbegins', hlongest'⟩ := longestPrefix_eq_some h
    have hlen := Nat.le_antisymm (hlongest n' hmem' hbegins') (hlongest' n hmem hbegins)
    have heq := List.prefix_of_prefix_length_le hbegins' hbegins hlen.le
    rw [heq.eq_of_length hlen]

/-- Only the set of the names matters. -/
theorem longestPrefix_congr {text : List α} {names' : List (List α)}
    (h : ∀ n, n ∈ names ↔ n ∈ names') : longestPrefix text names = longestPrefix text names' := by
  cases hnames' : longestPrefix text names' with
  | none =>
    rw [longestPrefix_eq_none] at hnames' ⊢
    intro n hn
    exact hnames' n ((h n).mp hn)
  | some n =>
    obtain ⟨hmem, hne, hbegins, hlongest⟩ := longestPrefix_eq_some hnames'
    exact longestPrefix_unique ((h n).mpr hmem) hne hbegins fun m hm => hlongest m ((h m).mp hm)

section

variable {names : List (List α)} {mark : List α}

theorem scan_skip (skip : Nat) (text : List α) :
    scan names mark skip text = once names mark (text.drop skip) := by
  induction skip generalizing text with
  | zero => rfl
  | succ skip ih =>
    cases text with
    | nil => rfl
    | cons c text => exact ih text

@[simp] theorem once_nil : once names mark [] = [] := rfl

theorem once_cons_of_none {c : α} {text : List α}
    (h : longestPrefix (c :: text) names = none) :
    once names mark (c :: text) = c :: once names mark text := by
  rw [once, scan, h]
  rfl

/-- A name is replaced, and what follows it is scanned. -/
theorem once_of_some {n rest : List α} (h : longestPrefix (n ++ rest) names = some n) :
    once names mark (n ++ rest) = n ++ mark ++ once names mark rest := by
  obtain ⟨_, hne, _⟩ := longestPrefix_eq_some h
  cases n with
  | nil => exact absurd rfl hne
  | cons c n =>
    rw [List.cons_append] at h ⊢
    rw [once, scan, h]
    show c :: n ++ mark ++ scan names mark n.length (n ++ rest) = _
    rw [scan_skip, List.drop_left]

/-- Where no name begins, the text stays. -/
theorem once_append {z rest : List α} (h : ∀ z₁ z₂, z = z₁ ++ z₂ → z₂ ≠ [] →
    longestPrefix (z₂ ++ rest) names = none) :
    once names mark (z ++ rest) = z ++ once names mark rest := by
  induction z with
  | nil => rfl
  | cons c z ih =>
    have htail : ∀ z₁ z₂, z = z₁ ++ z₂ → z₂ ≠ [] → longestPrefix (z₂ ++ rest) names = none :=
      fun z₁ z₂ hz => h (c :: z₁) z₂ (by rw [hz, List.cons_append])
    have hhead : longestPrefix (c :: (z ++ rest)) names = none :=
      h [] (c :: z) rfl (List.cons_ne_nil c z)
    rw [List.cons_append, once_cons_of_none hhead, ih htail, List.cons_append]

theorem once_eq_self {text : List α} (h : ∀ n ∈ names, n ≠ [] → ¬n <:+: text) :
    once names mark text = text := by
  have happend : once names mark (text ++ []) = text ++ once names mark [] := by
    apply once_append
    intro z₁ z₂ htext _
    rw [longestPrefix_eq_none]
    intro n hn hne hbegins
    apply h n hn hne
    rw [List.append_nil] at hbegins
    exact htext ▸ hbegins.isInfix.trans (List.suffix_append z₁ z₂).isInfix
  simpa using happend

theorem once_congr {names' : List (List α)} (h : ∀ n, n ∈ names ↔ n ∈ names') (text : List α) :
    once names mark text = once names' mark text := by
  have hscan : ∀ (text : List α) (skip : Nat),
      scan names mark skip text = scan names' mark skip text := by
    intro text
    induction text with
    | nil => intro skip; cases skip <;> rfl
    | cons c text ih =>
      intro skip
      cases skip with
      | succ skip => exact ih skip
      | zero =>
        rw [scan, scan, longestPrefix_congr h]
        cases longestPrefix (c :: text) names' with
        | none => simp only [ih]
        | some n => simp only [ih]
  exact hscan text 0

/-- A text is empty, or begins with a name, or does not. -/
theorem text_cases (names : List (List α)) (text : List α) :
    text = [] ∨ (∃ n rest, text = n ++ rest ∧ longestPrefix text names = some n) ∨
      ∃ c rest, text = c :: rest ∧ longestPrefix text names = none := by
  cases text with
  | nil => exact .inl rfl
  | cons c text =>
    cases h : longestPrefix (c :: text) names with
    | none => exact .inr (.inr ⟨c, text, rfl, rfl⟩)
    | some n =>
      obtain ⟨_, _, ⟨rest, hrest⟩, _⟩ := longestPrefix_eq_some h
      exact .inr (.inl ⟨n, rest, hrest.symm, rfl⟩)

end

/-! ## One name -/

section

variable {mark n : List α}

/-- Replace one name. -/
def replace (n mark text : List α) : List α := once [n] mark text

theorem longestPrefix_singleton_eq_none {text : List α} (h : ¬n <+: text) :
    longestPrefix text [n] = none := by
  rw [longestPrefix_eq_none]
  intro m hm _
  rw [List.mem_singleton.mp hm]
  exact h

theorem longestPrefix_singleton_eq_some (hn : n ≠ []) (rest : List α) :
    longestPrefix (n ++ rest) [n] = some n := by
  refine longestPrefix_unique List.mem_cons_self hn (List.prefix_append n rest) ?_
  intro m hm _
  rw [List.mem_singleton.mp hm]

theorem replace_append_self (hn : n ≠ []) (rest : List α) :
    replace n mark (n ++ rest) = n ++ mark ++ replace n mark rest :=
  once_of_some (longestPrefix_singleton_eq_some hn rest)

theorem replace_append {z rest : List α}
    (h : ∀ z₁ z₂, z = z₁ ++ z₂ → z₂ ≠ [] → ¬n <+: z₂ ++ rest) :
    replace n mark (z ++ rest) = z ++ replace n mark rest :=
  once_append fun z₁ z₂ hz hne => longestPrefix_singleton_eq_none (h z₁ z₂ hz hne)

theorem replace_eq_self {text : List α} (h : ¬n <:+: text) : replace n mark text = text := by
  apply once_eq_self
  intro m hm _
  rw [List.mem_singleton.mp hm]
  exact h

/-- A text grows by the mark at least if the name occurs in it. -/
theorem length_replace (hn : n ≠ []) (text : List α) :
    text.length ≤ (replace n mark text).length ∧
      (n <:+: text → text.length + mark.length ≤ (replace n mark text).length) := by
  induction hlen : text.length using Nat.strong_induction_on generalizing text with
  | _ k ih =>
    obtain rfl | ⟨m, rest, rfl, hm⟩ | ⟨c, rest, rfl, hnone⟩ := text_cases [n] text
    · refine ⟨by simp [← hlen], ?_⟩
      intro hoccurs
      exact absurd (List.infix_nil.mp hoccurs) hn
    · obtain rfl := List.mem_singleton.mp (longestPrefix_eq_some hm).1
      have hpos := List.length_pos_of_ne_nil hn
      have hrest := (ih rest.length (by rw [← hlen, List.length_append]; omega) rest rfl).1
      rw [replace_append_self hn]
      simp only [List.length_append] at hlen ⊢
      omega
    · have hshort := ih rest.length (by rw [← hlen, List.length_cons]; omega) rest rfl
      have hone : replace n mark (c :: rest) = c :: replace n mark rest := once_cons_of_none hnone
      rw [hone, List.length_cons]
      simp only [List.length_cons] at hlen
      refine ⟨by omega, ?_⟩
      intro hoccurs
      cases List.infix_cons_iff.mp hoccurs with
      | inl hbegins =>
        exact absurd hbegins (longestPrefix_eq_none.mp hnone n List.mem_cons_self hn)
      | inr hoccurs =>
        have hlt := hshort.2 hoccurs
        omega

end

/-! ## In sequence -/

/-- Replace the names one after the other. -/
def sequential (names : List (List α)) (mark text : List α) : List α :=
  names.foldl (fun t n => replace n mark t) text

section

variable {mark : List α}

theorem sequential_append (names names' : List (List α)) (text : List α) :
    sequential (names ++ names') mark text =
      sequential names' mark (sequential names mark text) :=
  List.foldl_append

theorem sequential_eq_self {names : List (List α)} {text : List α}
    (h : ∀ n ∈ names, ¬n <:+: text) : sequential names mark text = text := by
  induction names with
  | nil => rfl
  | cons n names ih =>
    show sequential names mark (replace n mark text) = text
    rw [replace_eq_self (h n List.mem_cons_self)]
    exact ih fun m hm => h m (List.mem_cons_of_mem n hm)

theorem length_sequential {names : List (List α)} (hnames : ∀ n ∈ names, n ≠ [])
    (text : List α) : text.length ≤ (sequential names mark text).length ∧
      ((∃ n ∈ names, n <:+: text) →
        text.length + mark.length ≤ (sequential names mark text).length) := by
  induction names generalizing text with
  | nil =>
    refine ⟨Nat.le_refl _, ?_⟩
    intro h
    obtain ⟨n, hn, _⟩ := h
    cases hn
  | cons x names ih =>
    have htail : ∀ n ∈ names, n ≠ [] := fun n hn => hnames n (List.mem_cons_of_mem x hn)
    have hx := @length_replace _ _ mark x (hnames x List.mem_cons_self) text
    have hrest := ih htail (replace x mark text)
    show text.length ≤ (sequential names mark (replace x mark text)).length ∧ _
    refine ⟨hx.1.trans hrest.1, ?_⟩
    intro h
    show text.length + mark.length ≤ (sequential names mark (replace x mark text)).length
    by_cases hoccurs : x <:+: text
    · exact (hx.2 hoccurs).trans hrest.1
    · obtain ⟨n, hn, hn'⟩ := h
      rw [replace_eq_self hoccurs] at hrest ⊢
      cases List.mem_cons.mp hn with
      | inl hn => exact absurd (hn ▸ hn') hoccurs
      | inr hn => exact hrest.2 ⟨n, hn, hn'⟩

end

/-! ## Separate names -/

/-- A name `n` that is replaced after `m` is found nowhere in what replaces `m`, does not end where
`m` begins, and does not begin where what replaces `m` ends. -/
structure Separate (mark m n : List α) : Prop where
  notWithin : ¬n <:+: m ++ mark
  notBefore : ∀ z w, n = z ++ w → z ≠ [] → w ≠ [] → ¬w <+: m
  notAfter : ∀ u v, n = u ++ v → u ≠ [] → v ≠ [] → ¬u <:+ m ++ mark

omit [DecidableEq α] in
/-- The same by the places at which the later name can be cut. -/
theorem separate_iff {mark m n : List α} : Separate mark m n ↔ ¬n <:+: m ++ mark ∧
    ∀ i, i < n.length → 0 < i → ¬n.drop i <+: m ∧ ¬n.take i <:+ m ++ mark := by
  constructor
  · intro h
    refine ⟨h.notWithin, ?_⟩
    intro i hi hpos
    have hleft : n.take i ≠ [] := List.ne_nil_of_length_pos (by rw [List.length_take]; omega)
    have hright : n.drop i ≠ [] := List.ne_nil_of_length_pos (by rw [List.length_drop]; omega)
    have hsplit := (List.take_append_drop i n).symm
    exact ⟨h.notBefore _ _ hsplit hleft hright, h.notAfter _ _ hsplit hleft hright⟩
  · intro h
    have hcut : ∀ x y : List α, n = x ++ y → x ≠ [] → y ≠ [] →
        ¬y <+: m ∧ ¬x <:+ m ++ mark := by
      intro x y hn hx hy
      have hxpos := List.length_pos_of_ne_nil hx
      have hypos := List.length_pos_of_ne_nil hy
      have hat := h.2 x.length (by rw [hn, List.length_append]; omega) hxpos
      rwa [hn, List.drop_left, List.take_left] at hat
    exact ⟨h.1, fun z w hn hz hw => (hcut z w hn hz hw).1,
      fun u v hn hu hv => (hcut u v hn hu hv).2⟩

instance (mark m n : List α) : Decidable (Separate mark m n) := decidable_of_iff _ separate_iff.symm

section

variable {mark n : List α} {names : List (List α)}

/-- A replaced text begins with no more of the next name than the text itself. -/
theorem prefix_of_prefix_once (hoccurs : ∀ m ∈ names, ¬m <:+: n)
    (hseparate : ∀ m ∈ names, Separate mark m n) {z w text : List α} (hn : n = z ++ w)
    (hz : z ≠ []) (hw : w <+: once names mark text) : w <+: text := by
  induction w generalizing z text with
  | nil => exact List.nil_prefix
  | cons d w ih =>
    obtain rfl | ⟨m, rest, rfl, hm⟩ | ⟨c, rest, rfl, hnone⟩ := text_cases names text
    · exact hw
    · obtain ⟨hmem, _⟩ := longestPrefix_eq_some hm
      rw [once_of_some hm, List.append_assoc] at hw
      cases List.prefix_or_prefix_of_prefix hw (List.prefix_append m _) with
      | inl h => exact absurd h ((hseparate m hmem).notBefore z (d :: w) hn hz (by simp))
      | inr h =>
        have hsuffix : d :: w <:+ n := hn ▸ List.suffix_append z (d :: w)
        exact absurd (h.isInfix.trans hsuffix.isInfix) (hoccurs m hmem)
    · rw [once_cons_of_none hnone] at hw
      obtain ⟨rfl, hrest⟩ := List.cons_prefix_cons.mp hw
      have hrest := ih (z := z ++ [d]) (by rw [hn, List.append_assoc]; rfl) (by simp) hrest
      exact List.cons_prefix_cons.mpr ⟨rfl, hrest⟩

/-! ### One more name -/

theorem longestPrefix_concat_eq_none {text : List α} (h : longestPrefix text names = none)
    (hbegins : ¬n <+: text) : longestPrefix text (names ++ [n]) = none := by
  rw [longestPrefix_eq_none] at h ⊢
  intro m hm
  cases List.mem_append.mp hm with
  | inl hm => exact h m hm
  | inr hm =>
    rw [List.mem_singleton.mp hm]
    exact fun _ => hbegins

/-- A name that the new one does not contain is found as before. -/
theorem longestPrefix_concat_eq_some {text m : List α} (h : longestPrefix text names = some m)
    (hoccurs : ¬m <:+: n) : longestPrefix text (names ++ [n]) = some m := by
  obtain ⟨hmem, hne, hbegins, hlongest⟩ := longestPrefix_eq_some h
  refine longestPrefix_unique (List.mem_append_left [n] hmem) hne hbegins ?_
  intro m' hm' hbegins'
  cases List.mem_append.mp hm' with
  | inl hm' => exact hlongest m' hm' hbegins'
  | inr hm' =>
    rw [List.mem_singleton.mp hm'] at hbegins' ⊢
    cases List.prefix_or_prefix_of_prefix hbegins' hbegins with
    | inl h => exact h.length_le
    | inr h => exact absurd h.isInfix hoccurs

/-- The new name is found where no other one begins. -/
theorem longestPrefix_concat_self {rest : List α} (hn : n ≠ [])
    (h : longestPrefix (n ++ rest) names = none) :
    longestPrefix (n ++ rest) (names ++ [n]) = some n := by
  refine longestPrefix_unique (List.mem_append_right names List.mem_cons_self) hn
    (List.prefix_append n rest) ?_
  intro m hm hbegins
  cases List.mem_append.mp hm with
  | inl hm =>
    by_cases hne : m = []
    · simp [hne]
    · exact absurd hbegins (longestPrefix_eq_none.mp h m hm hne)
  | inr hm => rw [List.mem_singleton.mp hm]

/-- What has replaced a name is not looked at again. -/
theorem Separate.replace_append {m : List α} (h : Separate mark m n) (text : List α) :
    replace n mark (m ++ mark ++ text) = m ++ mark ++ replace n mark text := by
  apply Replacement.replace_append
  intro z₁ z₂ hz hz₂ hbegins
  have hsuffix : z₂ <:+ m ++ mark := hz ▸ List.suffix_append z₁ z₂
  cases List.prefix_or_prefix_of_prefix hbegins (List.prefix_append z₂ _) with
  | inl hpre => exact h.notWithin (hpre.isInfix.trans hsuffix.isInfix)
  | inr hpre =>
    obtain ⟨v, rfl⟩ := hpre
    by_cases hv : v = []
    · rw [hv, List.append_nil] at h
      exact h.notWithin hsuffix.isInfix
    · exact h.notAfter z₂ v rfl hz₂ hv hsuffix

/-- No other name begins within the new one. -/
theorem once_append_separate (hoccurs : ∀ m ∈ names, ¬m <:+: n)
    (hseparate : ∀ m ∈ names, Separate mark m n) {rest : List α}
    (h : longestPrefix (n ++ rest) names = none) :
    once names mark (n ++ rest) = n ++ once names mark rest := by
  apply once_append
  intro z₁ z₂ hz hz₂
  rw [longestPrefix_eq_none] at h ⊢
  intro m hmem hne hbegins
  by_cases hz₁ : z₁ = []
  · rw [hz₁, List.nil_append] at hz
    exact h m hmem hne (hz ▸ hbegins)
  · cases List.prefix_or_prefix_of_prefix hbegins (List.prefix_append z₂ rest) with
    | inl hpre =>
      have hsuffix : z₂ <:+ n := hz ▸ List.suffix_append z₁ z₂
      exact hoccurs m hmem (hpre.isInfix.trans hsuffix.isInfix)
    | inr hpre => exact (hseparate m hmem).notBefore z₁ z₂ hz hz₁ hz₂ hpre

/-- One more name after some: the scan for all of them is the one for these, and then the name. -/
theorem replace_once (hn : n ≠ []) (hoccurs : ∀ m ∈ names, ¬m <:+: n)
    (hseparate : ∀ m ∈ names, Separate mark m n) (text : List α) :
    replace n mark (once names mark text) = once (names ++ [n]) mark text := by
  induction hlen : text.length using Nat.strong_induction_on generalizing text with
  | _ k ih =>
    obtain rfl | ⟨m, rest, rfl, hm⟩ | ⟨c, rest, rfl, hc⟩ := text_cases names text
    · rfl
    · -- a name that was replaced before
      obtain ⟨hmem, hne, _⟩ := longestPrefix_eq_some hm
      have hpos := List.length_pos_of_ne_nil hne
      have hrest := ih rest.length (by rw [← hlen, List.length_append]; omega) rest rfl
      rw [once_of_some hm, once_of_some (longestPrefix_concat_eq_some hm (hoccurs m hmem)),
        ← hrest]
      exact (hseparate m hmem).replace_append _
    · by_cases hbegins : n <+: c :: rest
      · -- the name itself
        obtain ⟨rest', hrest'⟩ := hbegins
        rw [← hrest'] at hc ⊢
        have hpos := List.length_pos_of_ne_nil hn
        have hlt : rest'.length < k := by
          rw [← hlen, ← hrest', List.length_append]
          omega
        have hrest := ih rest'.length hlt rest' rfl
        rw [once_append_separate hoccurs hseparate hc,
          once_of_some (longestPrefix_concat_self hn hc), replace_append_self hn, hrest]
      · have hhead : longestPrefix (c :: once names mark rest) [n] = none := by
          apply longestPrefix_singleton_eq_none
          intro h
          apply hbegins
          cases n with
          | nil => exact absurd rfl hn
          | cons d n =>
            obtain ⟨rfl, htail⟩ := List.cons_prefix_cons.mp h
            exact List.cons_prefix_cons.mpr ⟨rfl, prefix_of_prefix_once hoccurs hseparate
              (z := [d]) rfl (List.cons_ne_nil d []) htail⟩
        have hrest := ih rest.length (by rw [← hlen, List.length_cons]; omega) rest rfl
        rw [once_cons_of_none hc, once_cons_of_none (longestPrefix_concat_eq_none hc hbegins),
          ← hrest]
        exact once_cons_of_none hhead

/-- Separate names can be replaced one after the other. -/
theorem sequential_eq_once (hnames : ∀ n ∈ names, n ≠ [])
    (horder : names.Pairwise fun m n => ¬m <:+: n) (hseparate : names.Pairwise (Separate mark))
    (text : List α) : sequential names mark text = once names mark text := by
  induction names using List.reverseRecOn with
  | nil => exact (once_eq_self fun n hn => absurd hn List.not_mem_nil).symm
  | append_singleton names n ih =>
    have hlast : n ∈ names ++ [n] := List.mem_append_right names List.mem_cons_self
    obtain ⟨horder, _, hoccurs⟩ := List.pairwise_append.mp horder
    obtain ⟨hseparate, _, hsep⟩ := List.pairwise_append.mp hseparate
    have hfirst := ih (fun m hm => hnames m (List.mem_append_left [n] hm)) horder hseparate
    rw [sequential_append, hfirst]
    exact replace_once (hnames n hlast) (fun m hm => hoccurs m hm n List.mem_cons_self)
      (fun m hm => hsep m hm n List.mem_cons_self) text

end

/-! ## Names that are not separate -/

/-- A name stands before another one in the list. -/
def Before (names : List (List α)) (m n : List α) : Prop :=
  m ∈ names ∧ n ∈ names ∧ names.idxOf m < names.idxOf n

section

variable {mark m n p : List α} {names : List (List α)}

theorem Before.trans (h : Before names m n) (h' : Before names n p) : Before names m p :=
  ⟨h.1, h'.2.1, h.2.2.trans h'.2.2⟩

theorem Before.ne (h : Before names m n) : m ≠ n := by
  intro heq
  exact absurd h.2.2 (by rw [heq]; exact Nat.lt_irrefl _)

theorem before_or_before (hm : m ∈ names) (hn : n ∈ names) (hne : m ≠ n) :
    Before names m n ∨ Before names n m := by
  have hidx : names.idxOf m ≠ names.idxOf n := fun h => hne ((List.idxOf_inj hm).mp h)
  cases Nat.lt_or_gt_of_ne hidx with
  | inl h => exact .inl ⟨hm, hn, h⟩
  | inr h => exact .inr ⟨hn, hm, h⟩

/-- The list around the first of two names. -/
theorem Before.split (h : Before names m n) (hnodup : names.Nodup) :
    ∃ xs ys, names = xs ++ m :: ys ∧ n ∈ ys ∧ ∀ x ∈ xs, Before names x m := by
  obtain ⟨hm, hn, hlt⟩ := h
  obtain ⟨xs, ys, rfl⟩ := List.append_of_mem hm
  obtain ⟨_, hright, hdisjoint⟩ := List.nodup_append.mp hnodup
  have hnot : m ∉ xs := fun hmem => hdisjoint m hmem m List.mem_cons_self rfl
  have hidx : (xs ++ m :: ys).idxOf m = xs.length := by
    rw [List.idxOf_append_of_notMem hnot, List.idxOf_cons_self, Nat.add_zero]
  have hbefore : ∀ x ∈ xs, (xs ++ m :: ys).idxOf x < (xs ++ m :: ys).idxOf m := by
    intro x hx
    rw [hidx, List.idxOf_append_of_mem hx]
    exact List.idxOf_lt_length_iff.mpr hx
  refine ⟨xs, ys, rfl, ?_, fun x hx => ⟨List.mem_append_left _ hx, hm, hbefore x hx⟩⟩
  cases List.mem_append.mp hn with
  | inl hn => exact absurd (hbefore n hn) (Nat.lt_asymm hlt)
  | inr hn =>
    cases List.mem_cons.mp hn with
    | inl hn => exact absurd hlt (by rw [hn]; exact Nat.lt_irrefl _)
    | inr hn => exact hn

theorem pairwise_iff_before {R : List α → List α → Prop} (hnodup : names.Nodup) :
    names.Pairwise R ↔ ∀ m n, Before names m n → R m n := by
  rw [List.pairwise_iff_getElem]
  constructor
  · intro h m n hbefore
    obtain ⟨hm, hn, hlt⟩ := hbefore
    have hpair := h _ _ (List.idxOf_lt_length_iff.mpr hm) (List.idxOf_lt_length_iff.mpr hn) hlt
    rwa [List.getElem_idxOf, List.getElem_idxOf] at hpair
  · intro h i j hi hj hlt
    refine h _ _ ⟨List.getElem_mem hi, List.getElem_mem hj, ?_⟩
    rwa [hnodup.idxOf_getElem i hi, hnodup.idxOf_getElem j hj]

/-- What is assumed of the names: each is there once, none is empty, and none occurs in a later
one. -/
structure Ordered (names : List (List α)) : Prop where
  nodup : names.Nodup
  nonempty : ∀ n ∈ names, n ≠ []
  order : names.Pairwise fun m n => ¬m <:+: n

/-- Both replacements give the same for every text. -/
def Agree (names : List (List α)) (mark : List α) : Prop :=
  ∀ text, sequential names mark text = once names mark text

theorem Ordered.not_occurs (h : Ordered names) (hbefore : Before names m n) : ¬m <:+: n :=
  (pairwise_iff_before h.nodup).mp h.order m n hbefore

/-- In sequence, the names before `m` do nothing to a text in which they do not occur, and a later
name that occurs in what is left by `m` adds a mark to it. -/
theorem length_sequential_before (h : Ordered names) (hbefore : Before names m n)
    {text text' : List α} (hothers : ∀ x, Before names x m → ¬x <:+: text)
    (hreplace : replace m mark text = text') (hn : n <:+: text') :
    text'.length + mark.length ≤ (sequential names mark text).length := by
  obtain ⟨xs, ys, hsplit, hmem, hxs⟩ := hbefore.split h.nodup
  have hys : ∀ y ∈ ys, y ≠ [] := by
    intro y hy
    apply h.nonempty y
    rw [hsplit]
    exact List.mem_append_right xs (List.mem_cons_of_mem m hy)
  have hseq : sequential names mark text = sequential ys mark text' := by
    have hkeep : sequential xs mark text = text :=
      sequential_eq_self fun x hx => hothers x (hxs x hx)
    rw [hsplit, sequential_append, hkeep, ← hreplace]
    rfl
  rw [hseq]
  exact (length_sequential hys text').2 ⟨n, hmem, hn⟩

/-- The text of a name alone: nothing may be found in what replaces it. -/
theorem not_within_of_agree (h : Ordered names) (hmark : mark ≠ []) (hagree : Agree names mark)
    (hbefore : Before names m n) : ¬n <:+: m ++ mark := by
  intro hoccurs
  have hne : m ≠ [] := h.nonempty m hbefore.1
  have hself : replace m mark m = m ++ mark := by
    have hself := @replace_append_self _ _ mark m hne []
    simpa [replace] using hself
  have hlen := length_sequential_before h hbefore (fun x hx => h.not_occurs hx) hself hoccurs
  have honce : once names mark m = m ++ mark := by
    have hlongest : longestPrefix (m ++ []) names = some m := by
      rw [List.append_nil]
      exact longestPrefix_unique hbefore.1 hne (List.prefix_refl m) fun _ _ hp => hp.length_le
    have honce := @once_of_some _ _ names mark m [] hlongest
    simpa using honce
  rw [hagree m, honce] at hlen
  have hpos := List.length_pos_of_ne_nil hmark
  omega

/-- No name occurs in another one. -/
theorem not_infix_of_agree (h : Ordered names) (hmark : mark ≠ []) (hagree : Agree names mark)
    (hm : m ∈ names) (hn : n ∈ names) (hne : m ≠ n) : ¬m <:+: n := by
  cases before_or_before hm hn hne with
  | inl hbefore => exact h.not_occurs hbefore
  | inr hbefore =>
    intro hoccurs
    have hwithin := not_within_of_agree h hmark hagree hbefore
    exact hwithin (hoccurs.trans (List.prefix_append n mark).isInfix)

/-- Two names that overlap, the one that is replaced first behind the other one. -/
structure Overlap (names : List (List α)) (z w r : List α) : Prop where
  before : Before names (w ++ r) (z ++ w)
  left : z ≠ []
  middle : w ≠ []

/-- If the names overlap in no shorter text, no other name occurs in the text of two that do. -/
theorem Overlap.only (hoccurs : ∀ m ∈ names, ∀ n ∈ names, m ≠ n → ¬m <:+: n) {z w r : List α}
    (hover : Overlap names z w r)
    (hshortest : ∀ z' w' r', z'.length + w'.length + r'.length < z.length + w.length + r.length →
      ¬Overlap names z' w' r') (hp : p ∈ names) (hocc : p <:+: z ++ w ++ r) :
    p = w ++ r ∨ p = z ++ w := by
  by_contra hneither
  obtain ⟨hne, hne'⟩ := not_or.mp hneither
  have hm := hover.before.1
  have hn := hover.before.2.1
  obtain ⟨s, t, hst⟩ := hocc
  rw [List.append_assoc, List.append_assoc] at hst
  -- it begins within `z`
  obtain ⟨a, rfl, ha, hrest⟩ : ∃ a, z = s ++ a ∧ a ≠ [] ∧ p ++ t = a ++ (w ++ r) := by
    obtain ⟨a, rfl, hrest⟩ | ⟨a, rfl, hrest⟩ := List.append_eq_append_iff.mp hst
    · refine ⟨a, rfl, ?_, hrest⟩
      intro ha
      rw [ha, List.nil_append] at hrest
      exact hoccurs p hp _ hm hne (hrest ▸ (List.prefix_append p t).isInfix)
    · exact absurd ⟨a, t, by rw [hrest, List.append_assoc]⟩ (hoccurs p hp _ hm hne)
  -- and ends within `r`
  rw [← List.append_assoc] at hrest
  obtain ⟨b, rfl, rfl, hb⟩ : ∃ b, p = a ++ w ++ b ∧ r = b ++ t ∧ b ≠ [] := by
    obtain ⟨b, hp', hr⟩ | ⟨b, hp', hr⟩ := List.append_eq_append_iff.mp hrest
    · have hwithin : p <:+: s ++ a ++ w :=
        ⟨s, b, by rw [List.append_assoc, ← hp', List.append_assoc]⟩
      exact absurd hwithin (hoccurs p hp _ hn hne')
    · refine ⟨b, hp', hr, ?_⟩
      intro hb
      rw [hb, List.append_nil] at hp'
      have hwithin : p <:+: s ++ a ++ w := ⟨s, [], by rw [hp']; simp⟩
      exact absurd hwithin (hoccurs p hp _ hn hne')
  -- so it overlaps with one of the two in a shorter text
  have hs : s ≠ [] := by
    intro hs
    rw [hs] at hn
    exact hoccurs _ hn _ hp (Ne.symm (by rwa [hs] at hne')) ⟨[], b, by simp⟩
  have ht : t ≠ [] := by
    intro ht
    rw [ht, List.append_nil] at hm
    exact hoccurs _ hm _ hp (Ne.symm (by rwa [ht, List.append_nil] at hne)) ⟨a, [], by simp⟩
  have hspos := List.length_pos_of_ne_nil hs
  have htpos := List.length_pos_of_ne_nil ht
  cases before_or_before hp hn hne' with
  | inl hbefore =>
    refine hshortest s (a ++ w) b (by simp only [List.length_append]; omega) ⟨?_, hs, ?_⟩
    · rwa [List.append_assoc s a w] at hbefore
    · exact List.append_ne_nil_of_left_ne_nil ha w
  | inr hbefore =>
    refine hshortest a (w ++ b) t (by simp only [List.length_append]; omega) ⟨?_, ha, ?_⟩
    · have htrans := hover.before.trans hbefore
      rwa [← List.append_assoc w b t, List.append_assoc a w b] at htrans
    · exact List.append_ne_nil_of_left_ne_nil hover.middle b

/-- If the names overlap in no shorter text, the name on the right is found behind `z` only. -/
theorem Overlap.not_prefix (hoccurs : ∀ m ∈ names, ∀ n ∈ names, m ≠ n → ¬m <:+: n)
    {z w r : List α} (hover : Overlap names z w r)
    (hshortest : ∀ z' w' r', z'.length + w'.length + r'.length < z.length + w.length + r.length →
      ¬Overlap names z' w' r') (z₁ z₂ : List α) (hz : z = z₁ ++ z₂) (hz₂ : z₂ ≠ []) :
    ¬w ++ r <+: z₂ ++ (w ++ r) := by
  intro hbegins
  obtain ⟨hm, hn, _⟩ := hover.before
  have hne := hover.before.ne
  have hz₂pos := List.length_pos_of_ne_nil hz₂
  have hw : z₂ ++ w <+: z₂ ++ (w ++ r) := by
    rw [← List.append_assoc]
    exact List.prefix_append (z₂ ++ w) r
  have hsuffix : z₂ ++ w <:+ z ++ w := by
    rw [hz, List.append_assoc]
    exact List.suffix_append z₁ (z₂ ++ w)
  cases List.prefix_or_prefix_of_prefix hbegins hw with
  | inl hpre => exact hoccurs _ hm _ hn hne (hpre.isInfix.trans hsuffix.isInfix)
  | inr hpre =>
    by_cases hz₁ : z₁ = []
    · rw [hz₁, List.nil_append] at hz
      rw [← hz] at hpre
      exact hoccurs _ hn _ hm hne.symm hpre.isInfix
    · -- it overlaps with what is left of the other one
      obtain ⟨r', hr'⟩ := hpre
      have hlen := congrArg List.length hr'
      refine hshortest z₁ (z₂ ++ w) r' ?_ ⟨?_, hz₁, ?_⟩
      · rw [hz]
        simp only [List.length_append] at hlen ⊢
        omega
      · rw [hr', ← List.append_assoc, ← hz]
        exact hover.before
      · exact List.append_ne_nil_of_left_ne_nil hz₂ w

/-- The text of two names that overlap is not replaced alike: the scan finds the one on the left,
and in sequence both are found. -/
theorem not_overlap_of_agree (h : Ordered names) (hmark : mark ≠ []) (hagree : Agree names mark)
    (z w r : List α) : ¬Overlap names z w r := by
  induction hlen : z.length + w.length + r.length using Nat.strong_induction_on
    generalizing z w r with
  | _ k ih =>
    intro hover
    have hoccurs : ∀ m ∈ names, ∀ n ∈ names, m ≠ n → ¬m <:+: n :=
      fun m hm n hn => not_infix_of_agree h hmark hagree hm hn
    have hshortest : ∀ z' w' r', z'.length + w'.length + r'.length <
        z.length + w.length + r.length → ¬Overlap names z' w' r' :=
      fun z' w' r' hlt => ih _ (hlen ▸ hlt) z' w' r' rfl
    have honly := fun p hp hocc => hover.only (p := p) hoccurs hshortest hp hocc
    have hright := hover.not_prefix hoccurs hshortest
    obtain ⟨hm, hn, _⟩ := hover.before
    have hzpos := List.length_pos_of_ne_nil hover.left
    have hwpos := List.length_pos_of_ne_nil hover.middle
    have hmarkpos := List.length_pos_of_ne_nil hmark
    -- in sequence
    have hreplace : replace (w ++ r) mark (z ++ w ++ r) = z ++ (w ++ r ++ mark) := by
      have hself := @replace_append_self _ _ mark _ (h.nonempty _ hm) []
      rw [List.append_nil] at hself
      rw [List.append_assoc, replace_append hright, hself]
      simp [replace]
    have hothers : ∀ x, Before names x (w ++ r) → ¬x <:+: z ++ w ++ r := by
      intro x hx hocc
      cases honly x hx.1 hocc with
      | inl hxm => exact hx.ne hxm
      | inr hxn => exact (hx.trans hover.before).ne hxn
    have hseq := length_sequential_before h hover.before hothers hreplace
      ⟨[], r ++ mark, by simp only [List.nil_append, List.append_assoc]⟩
    -- in one scan
    have hlongest : longestPrefix (z ++ w ++ r) names = some (z ++ w) := by
      refine longestPrefix_unique hn (h.nonempty _ hn) (List.prefix_append (z ++ w) r) ?_
      intro p hp hbegins
      cases honly p hp hbegins.isInfix with
      | inl hpm =>
        rw [hpm, List.append_assoc] at hbegins
        exact absurd hbegins (hright [] z rfl hover.left)
      | inr hpn => rw [hpn]
    have hrest : once names mark r = r := by
      apply once_eq_self
      intro p hp _ hocc
      have hpm : p = w ++ r := by
        by_contra hpm
        exact hoccurs p hp _ hm hpm (hocc.trans (List.suffix_append w r).isInfix)
      have hle := hocc.length_le
      rw [hpm, List.length_append] at hle
      omega
    rw [hagree, once_of_some hlongest, hrest] at hseq
    simp only [List.length_append] at hseq
    omega

/-- The text of a name and what is left of one that begins at its end: the scan does not find the
second one. -/
theorem not_after_of_agree (h : Ordered names) (hmark : mark ≠ []) (hagree : Agree names mark)
    {u v : List α} (hbefore : Before names m (u ++ v)) (hu : u ≠ []) : ¬u <:+ m ++ mark := by
  intro hsuffix
  have hoccurs : ∀ p ∈ names, ∀ q ∈ names, p ≠ q → ¬p <:+: q :=
    fun p hp q hq => not_infix_of_agree h hmark hagree hp hq
  have hm := hbefore.1
  have hupos := List.length_pos_of_ne_nil hu
  have hmarkpos := List.length_pos_of_ne_nil hmark
  -- no name is in the rest of the second one
  have hrest : ∀ p ∈ names, ¬p <:+: v := by
    intro p hp hocc
    have hpn : p = u ++ v := by
      by_contra hpn
      exact hoccurs p hp _ hbefore.2.1 hpn (hocc.trans (List.suffix_append u v).isInfix)
    have hle := hocc.length_le
    rw [hpn, List.length_append] at hle
    omega
  have hothers : ∀ x, Before names x m → ¬x <:+: m ++ v := by
    intro x hx hocc
    obtain ⟨s, t, hst⟩ := hocc
    rw [List.append_assoc] at hst
    obtain ⟨a, rfl, ha⟩ | ⟨a, rfl, ha⟩ := List.append_eq_append_iff.mp hst
    · -- it begins within `m` and ends within `v`
      obtain ⟨b, rfl, _⟩ | ⟨b, hab, hv'⟩ := List.append_eq_append_iff.mp ha
      · exact hoccurs x hx.1 _ hm hx.ne ⟨s, b, by rw [List.append_assoc]⟩
      · by_cases hs : s = []
        · rw [hs, List.nil_append] at hm hx
          exact hoccurs a hm x hx.1 hx.ne.symm (hab ▸ (List.prefix_append a b).isInfix)
        · by_cases ha' : a = []
          · rw [ha', List.nil_append] at hab
            exact hrest x hx.1 ⟨[], t, by rw [List.nil_append, hab, hv']⟩
          · exact not_overlap_of_agree h hmark hagree s a b ⟨hab ▸ hx, hs, ha'⟩
    · exact hrest x hx.1 ⟨a, t, by rw [ha, List.append_assoc]⟩
  have hreplace : replace m mark (m ++ v) = m ++ mark ++ v := by
    rw [replace_append_self (h.nonempty m hm), replace_eq_self (hrest m hm)]
  have hfound : u ++ v <:+: m ++ mark ++ v := by
    obtain ⟨x, hx⟩ := hsuffix
    exact ⟨x, [], by rw [← hx, List.append_nil, List.append_assoc]⟩
  have hseq := length_sequential_before h hbefore hothers hreplace hfound
  have hlongest : longestPrefix (m ++ v) names = some m := by
    refine longestPrefix_unique hm (h.nonempty m hm) (List.prefix_append m v) ?_
    intro p hp hbegins
    cases List.prefix_or_prefix_of_prefix hbegins (List.prefix_append m v) with
    | inl hpre => exact hpre.length_le
    | inr hpre =>
      by_cases hpm : m = p
      · rw [hpm]
      · exact absurd hpre.isInfix (hoccurs m hm p hp hpm)
  have honce : once names mark v = v := once_eq_self fun p hp _ => hrest p hp
  rw [hagree, once_of_some hlongest, honce] at hseq
  omega

end

/-- One scan and a sequence of replacements give the same for every text exactly if the names are
separate. -/
theorem sequential_eq_once_iff {mark : List α} (h : Ordered names) (hmark : mark ≠ []) :
    (∀ text, sequential names mark text = once names mark text) ↔ names.Pairwise (Separate mark) := by
  constructor
  · intro hagree
    rw [pairwise_iff_before h.nodup]
    intro m n hbefore
    refine ⟨not_within_of_agree h hmark hagree hbefore, ?_, ?_⟩
    · intro z w hn hz hw hbegins
      obtain ⟨r, rfl⟩ := hbegins
      exact not_overlap_of_agree h hmark hagree z w r ⟨hn ▸ hbefore, hz, hw⟩
    · intro u v hn hu _
      exact not_after_of_agree h hmark hagree (hn ▸ hbefore) hu
  · intro hseparate
    exact sequential_eq_once h.nonempty h.order hseparate

end Replacement
