import PetaCore.ForStd.Template

/-!
# Substitution patterns

`String.prototype.replace` with a string reads special patterns in it: `$$`, `$&`, and the text
before or behind the match. Fields that are filled into a template this way, one after the other,
give the filled template for every delimited template exactly when no value holds such a pattern
or a placeholder that comes later.

- `expand`: what a replacement text stands for
- `sequentialString_eq_fill_iff`: when values can be filled in one after the other
-/

universe u

namespace Template

/-! ## Templates with equal gaps -/

section

variable {α : Type u}

/-- The parts of a template behind its first gap. -/
def slotsFrom (d : α) (gap : Nat) : List (List α) → List α
  | [] => []
  | n :: names => n ++ List.replicate (gap + 1) d ++ slotsFrom d gap names

/-- The template that holds the given names between gaps of one element repeated. -/
def slots (d : α) (gap : Nat) (names : List (List α)) : List α :=
  List.replicate (gap + 1) d ++ slotsFrom d gap names

theorem slotsFrom_append (d : α) (gap : Nat) (names names' : List (List α)) :
    slotsFrom d gap (names ++ names') = slotsFrom d gap names ++ slotsFrom d gap names' := by
  induction names with
  | nil => rfl
  | cons n names ih => simp only [List.cons_append, slotsFrom, ih, List.append_assoc]

theorem slots_concat (d : α) (gap : Nat) (names : List (List α)) (n : List α) :
    slots d gap (names ++ [n]) = slots d gap names ++ n ++ List.replicate (gap + 1) d := by
  simp only [slots, slotsFrom_append, slotsFrom, List.append_nil, List.append_assoc]

theorem slots_last (d : α) (gap : Nat) (names : List (List α)) :
    ∃ w, slots d gap names = w ++ [d] := by
  cases names using List.reverseRecOn with
  | nil => exact ⟨List.replicate gap d, by simp [slots, slotsFrom, List.replicate_succ']⟩
  | append_singleton names n =>
    exact ⟨slots d gap names ++ n ++ List.replicate gap d, by
      rw [slots_concat, List.replicate_succ', ← List.append_assoc]⟩

variable {n : List α} {names : List (List α)}

/-- Where a name that does not hold the element stands between such gaps, or within one of the
    names. By induction on the names. -/
theorem slotsFrom_split {d : α} {gap k : Nat} {s t : List α}
    (hne : n ≠ []) (hd : d ∉ n) (hapart : ∀ m ∈ names, m ≠ n → ¬Meets m n)
    (h : List.replicate k d ++ slotsFrom d gap names = s ++ n ++ t) :
    ∃ pre post, names = pre ++ n :: post ∧ s = List.replicate k d ++ slotsFrom d gap pre ∧
      t = List.replicate (gap + 1) d ++ slotsFrom d gap post := by
  induction names generalizing k s with
  | nil =>
    obtain ⟨c, n', rfl⟩ := List.exists_cons_of_ne_nil hne
    have hmem : c ∈ List.replicate k d ++ slotsFrom d gap [] := by rw [h]; simp
    rw [slotsFrom, List.append_nil] at hmem
    exact absurd (by rw [List.eq_of_mem_replicate hmem]; simp) hd
  | cons m names ih =>
    -- the name does not begin in the gap
    have hgap : List.replicate k d <+: s := by
      rw [List.append_assoc] at h
      have hleft : List.replicate k d <+: s ++ (n ++ t) := ⟨_, h⟩
      by_cases hlen : k ≤ s.length
      · exact List.prefix_of_prefix_length_le hleft (List.prefix_append s _) (by simpa using hlen)
      · obtain ⟨c, n', rfl⟩ := List.exists_cons_of_ne_nil hne
        have hshort' : s ++ [c] <+: s ++ (c :: n' ++ t) := by simp
        have hshort : s ++ [c] <+: List.replicate k d := by
          apply List.prefix_of_prefix_length_le hshort' hleft
          rw [List.length_append, List.length_singleton, List.length_replicate]
          omega
        have hc : c ∈ List.replicate k d := hshort.subset (by simp)
        exact absurd (by rw [List.eq_of_mem_replicate hc]; simp) hd
    obtain ⟨s', rfl⟩ := hgap
    rw [List.append_assoc, List.append_assoc, List.append_cancel_left_eq] at h
    rw [slotsFrom, List.append_assoc] at h
    by_cases hlen : m.length ≤ s'.length
    · have hm : m <+: s' := by
        have hleft : m <+: s' ++ (n ++ t) := ⟨_, h⟩
        exact List.prefix_of_prefix_length_le hleft (List.prefix_append s' _) hlen
      obtain ⟨s'', rfl⟩ := hm
      rw [List.append_assoc, List.append_cancel_left_eq, ← List.append_assoc s''] at h
      obtain ⟨pre, post, rfl, rfl, ht⟩ := ih (fun x hx => hapart x (List.mem_cons_of_mem m hx)) h
      exact ⟨m :: pre, post, rfl, by simp only [slotsFrom, List.append_assoc], ht⟩
    · have hs' : s' <+: m := by
        have hright : m <+: s' ++ (n ++ t) := ⟨_, h⟩
        exact List.prefix_of_prefix_length_le (List.prefix_append s' _) hright (by omega)
      obtain ⟨m', rfl⟩ := hs'
      rw [List.append_assoc, List.append_cancel_left_eq] at h
      have hm' : m' ≠ [] := by
        rintro rfl
        simp at hlen
      have hbegins : n <+: m' ++ (List.replicate (gap + 1) d ++ slotsFrom d gap names) :=
        ⟨t, h.symm⟩
      have hwithin : n <+: m' := by
        rw [List.replicate_succ, List.cons_append] at hbegins
        exact prefix_of_outside hd hbegins
      by_cases heq : s' ++ m' = n
      · have hs : s' = [] := by
          have hlen' := hwithin.length_le
          rw [← heq, List.length_append] at hlen'
          exact List.length_eq_zero_iff.mp (by omega)
        subst hs
        rw [List.nil_append] at heq
        subst heq
        exact ⟨[], names, rfl, by simp [slotsFrom], (List.append_cancel_left h).symm⟩
      · exact absurd (meets_of_suffix rfl hm' hbegins)
          (hapart (s' ++ m') List.mem_cons_self heq)

/-- A name between such gaps. -/
theorem slots_split {d : α} {gap : Nat} {s t : List α}
    (hne : n ≠ []) (hd : d ∉ n) (hapart : ∀ m ∈ names, m ≠ n → ¬Meets m n)
    (h : slots d gap names = s ++ n ++ t) :
    ∃ pre post, names = pre ++ n :: post ∧ s = slots d gap pre ∧ t = slots d gap post :=
  slotsFrom_split hne hd hapart h

theorem infix_slots {d : α} {gap : Nat} (hn : n ∈ names) :
    n <:+: slots d gap names := by
  obtain ⟨pre, post, rfl⟩ := List.append_of_mem hn
  refine ⟨slots d gap pre, List.replicate (gap + 1) d ++ slotsFrom d gap post, ?_⟩
  simp only [slots, slotsFrom_append, slotsFrom, List.append_assoc]

variable {fields : List (List α × List α)} {d : α} {names : List (List α)}

/-- Every placeholder occurs once in the template of all of them, in any order. -/
theorem occursOnce_slots (h : Apart names) (hn : n ∈ names) (hd : d ∉ n) (gap : Nat) :
    OccursOnce n (slots d gap names) := by
  have hapart : ∀ m ∈ names, m ≠ n → ¬Meets m n := fun m hm hmn => h.apart m hm n hn hmn
  obtain ⟨pre, post, hpre⟩ := List.append_of_mem hn
  have hsplit : slots d gap names =
      slots d gap pre ++ n ++ (List.replicate (gap + 1) d ++ slotsFrom d gap post) := by
    rw [hpre]
    simp only [slots, slotsFrom_append, slotsFrom, List.append_assoc]
  refine ⟨_, _, hsplit, ?_⟩
  intro s t hs
  obtain ⟨pre', post', hpre', rfl, _⟩ := slots_split (h.nonempty n hn) hd hapart hs
  have hnodup := h.nodup
  rw [hpre'] at hnodup hpre
  have hnot : n ∉ pre' := fun hmem =>
    (List.nodup_append.mp hnodup).2.2 n hmem n List.mem_cons_self rfl
  have hnot' : n ∉ pre := by
    rw [hpre] at hnodup
    exact fun hmem => (List.nodup_append.mp hnodup).2.2 n hmem n List.mem_cons_self rfl
  have hsame := List.append_eq_append_iff.mp hpre
  cases hsame with
  | inl h =>
    obtain ⟨a, rfl, ha⟩ := h
    cases a with
    | nil => simp
    | cons b a =>
      obtain ⟨rfl, _⟩ := List.cons.inj ha
      simp at hnot'
  | inr h =>
    obtain ⟨a, rfl, ha⟩ := h
    cases a with
    | nil => simp
    | cons b a =>
      obtain ⟨rfl, _⟩ := List.cons.inj ha
      simp at hnot

theorem delimited_slots (h : Apart names) (hnames : ∀ f ∈ fields, f.1 ∈ names)
    (hd : Outside fields d) (gap : Nat) : Delimited fields (slots d gap names) := by
  intro f hf s t hs
  have hn := hnames f hf
  obtain ⟨pre, post, _, rfl, rfl⟩ := slots_split (h.nonempty f.1 hn) (hd f hf)
    (fun m hm hmn => h.apart m hm f.1 hn hmn) hs
  obtain ⟨w, hw⟩ := slots_last d gap pre
  exact ⟨⟨w, d, hw, hd⟩, d, List.replicate gap d ++ slotsFrom d gap post, rfl, hd⟩

end

/-! ## Filling them -/

section

variable {α : Type u} [DecidableEq α] {fields : List (List α × List α)} {d : α}

theorem fill_replicate (hne : ∀ f ∈ fields, f.1 ≠ []) (hd : Outside fields d) (k : Nat)
    (text : List α) :
    fill fields (List.replicate k d ++ text) = List.replicate k d ++ fill fields text := by
  induction k with
  | zero => rfl
  | succ k ih => rw [List.replicate_succ, List.cons_append, fill_outside hne hd, ih]; rfl

/-- The values stand where the placeholders stood. -/
theorem fill_slots (h : Apart (fields.map Prod.fst)) (hd : Outside fields d) (gap : Nat)
    {parts : List (List α × List α)} (hparts : ∀ f ∈ parts, f ∈ fields) :
    fill fields (slots d gap (parts.map Prod.fst)) = slots d gap (parts.map Prod.snd) := by
  have hne : ∀ f ∈ fields, f.1 ≠ [] := fun f hf => h.nonempty f.1 (List.mem_map_of_mem hf)
  rw [slots, slots, fill_replicate hne hd]
  congr 1
  induction parts with
  | nil => rfl
  | cons f parts ih =>
    have hf := hparts f List.mem_cons_self
    rw [List.map_cons, List.map_cons, slotsFrom, slotsFrom, List.append_assoc,
      fill_field (hne f hf) (find?_field h hf _), fill_replicate hne hd,
      ih fun g hg => hparts g (List.mem_cons_of_mem f hg), List.append_assoc]

/-! ## Values that hold a later placeholder -/

omit [DecidableEq α] in
/-- Of two names that stand apart, one lies before or behind an occurrence of the other. -/
theorem infix_apart {m n before after : List α} (hmn : ¬Meets m n) (hnm : ¬Meets n m)
    (h : n <:+: before ++ m ++ after) : n <:+: before ∨ n <:+: after := by
  obtain ⟨s, t, hst⟩ := h
  have hleft : s <+: before ++ m ++ after := ⟨n ++ t, by rw [← hst, List.append_assoc]⟩
  rw [List.append_assoc] at hleft
  by_cases hs : s.length ≤ before.length
  · obtain ⟨b, rfl⟩ := List.prefix_of_prefix_length_le hleft (List.prefix_append before _) hs
    rw [List.append_assoc, List.append_assoc, List.append_assoc, List.append_cancel_left_eq] at hst
    have hbegins : n <+: b ++ m ++ after := ⟨t, by rw [hst, List.append_assoc]⟩
    have hb := (meets_of_begins hbegins).resolve_right hnm
    exact .inl (hb.isInfix.trans (List.suffix_append s b).isInfix)
  · obtain ⟨r, rfl⟩ := List.prefix_of_prefix_length_le (List.prefix_append before _) hleft
      (by omega)
    rw [List.append_assoc, List.append_assoc, List.append_assoc, List.append_cancel_left_eq] at hst
    have hright : r <+: m ++ after := ⟨n ++ t, hst⟩
    by_cases hr : r.length < m.length
    · obtain ⟨m', rfl⟩ := List.prefix_of_prefix_length_le hright (List.prefix_append m _) (by omega)
      rw [List.append_assoc, List.append_cancel_left_eq] at hst
      have hne : m' ≠ [] := by
        rintro rfl
        simp at hr
      exact absurd (meets_of_suffix rfl hne ⟨t, hst⟩) hmn
    · obtain ⟨r', rfl⟩ := List.prefix_of_prefix_length_le (List.prefix_append m _) hright (by omega)
      rw [List.append_assoc, List.append_cancel_left_eq] at hst
      exact .inr ⟨r', t, by rw [List.append_assoc]; exact hst⟩

variable {f : List α × List α}

/-- A name that occurs in the first part of a text is replaced there, and a name apart from it
    stays in that part. -/
theorem replaceFirst_within (hname : f.1 ≠ []) {text : List α} (h : f.1 <:+: text) (tail : List α) :
    ∃ text', replaceFirst f.1 (fun _ _ => f.2) (text ++ tail) = text' ++ tail ∧ f.2 <:+: text' ∧
      ∀ n, ¬Meets f.1 n ∧ ¬Meets n f.1 → n <:+: text → n <:+: text' := by
  obtain ⟨before, after, rfl, hfirst⟩ := exists_first hname h
  refine ⟨before ++ f.2 ++ after, ?_, ⟨before, after, rfl⟩, ?_⟩
  · rw [List.append_assoc (before ++ f.1), replaceFirst_of_first hname hfirst,
      List.append_assoc (before ++ f.2)]
  · intro n hn hin
    cases infix_apart hn.1 hn.2 hin with
    | inl hin =>
      rw [List.append_assoc]
      exact List.IsInfix.trans hin (List.prefix_append before _).isInfix
    | inr hin => exact List.IsInfix.trans hin (List.suffix_append _ after).isInfix

/-- So are all names that occur in it. By induction on the fields. -/
theorem sequential_within (h : Apart (fields.map Prod.fst)) (text tail : List α)
    (hwithin : ∀ f ∈ fields, f.1 <:+: text) :
    ∃ text', sequential fields (text ++ tail) = text' ++ tail ∧
      ∀ n, (∀ f ∈ fields, ¬Meets f.1 n ∧ ¬Meets n f.1) → n <:+: text → n <:+: text' := by
  induction fields generalizing text with
  | nil => exact ⟨text, rfl, fun n _ hn => hn⟩
  | cons f fields ih =>
    have hname : f.1 ≠ [] := h.nonempty f.1 (by simp)
    obtain ⟨text₁, hreplace, _, hkeep⟩ :=
      replaceFirst_within hname (hwithin f List.mem_cons_self) tail
    obtain ⟨text', hseq, hstay⟩ := ih (h.sublist (List.sublist_cons_self _ _)) text₁ fun g hg =>
      hkeep g.1 (h.not_meets_of_cons hg) (hwithin g (List.mem_cons_of_mem f hg))
    refine ⟨text', ?_, fun n hn hin => hstay n (fun g hg => hn g (List.mem_cons_of_mem f hg))
      (hkeep n (hn f List.mem_cons_self) hin)⟩
    rw [← hseq, ← hreplace]
    rfl

theorem sequential_append (fields fields' : List (List α × List α)) (text : List α) :
    sequential (fields ++ fields') text = sequential fields' (sequential fields text) :=
  List.foldl_append

omit [DecidableEq α] in
/-- What stands behind a long gap at the end of two texts is the same. -/
theorem eq_of_append_gap {d : α} {k : Nat} {u v p x : List α} (hp : d ∉ p) (hx : x.head? ≠ some d)
    (hk : x.length < k)
    (h : u ++ List.replicate k d ++ p = v ++ List.replicate k d ++ x) : p = x := by
  obtain ⟨k, rfl⟩ : ∃ j, k = j + 1 := ⟨k - 1, by omega⟩
  cases List.append_eq_append_iff.mp h with
  | inl h =>
    obtain ⟨a, hv, hpa⟩ := h
    cases a using List.reverseRecOn with
    | nil => exact hpa
    | append_singleton a c =>
      rw [List.replicate_succ', ← List.append_assoc, ← List.append_assoc] at hv
      have hlast := congrArg List.getLast? hv
      simp only [List.getLast?_concat, Option.some.injEq] at hlast
      exact absurd (by rw [hpa, hlast]; simp) hp
  | inr h =>
    obtain ⟨c, hu, hxc⟩ := h
    cases c with
    | nil => exact hxc.symm
    | cons b c =>
      have hlen := congrArg List.length hxc
      rw [List.length_append, List.length_cons] at hlen
      have hsuffix : b :: c <:+ List.replicate (k + 1) d := by
        apply List.suffix_of_suffix_length_le ⟨_, hu.symm⟩ (List.suffix_append u _)
        rw [List.length_cons, List.length_replicate]
        omega
      have hb : b = d := List.eq_of_mem_replicate (hsuffix.subset List.mem_cons_self)
      exact absurd (by rw [hxc, hb]; rfl) hx

/-- Placeholders that come up inside the first part of a text, the one of `g` once `f` is filled
    in, leave the second part alone. -/
theorem sequential_within_of_value {first mid rest : List (List α × List α)}
    {g : List α × List α} (h : Apart ((first ++ f :: (mid ++ g :: rest)).map Prod.fst))
    (hin : g.1 <:+: f.2) (text tail : List α)
    (hwithin : ∀ x ∈ first ++ f :: (mid ++ rest), x.1 <:+: text) :
    ∃ text', sequential (first ++ f :: (mid ++ g :: rest)) (text ++ tail) = text' ++ tail := by
  have hfields := h
  rw [List.map_append] at h
  have hlater : Apart ((f :: (mid ++ g :: rest)).map Prod.fst) :=
    h.sublist (List.sublist_append_right _ _)
  have hfirst : Apart (first.map Prod.fst) := h.sublist (List.sublist_append_left _ _)
  obtain ⟨text₁, hseq₁, hstay₁⟩ := sequential_within hfirst text tail fun x hx =>
    hwithin x (List.mem_append_left _ hx)
  have hapart : ∀ x ∈ f :: (mid ++ g :: rest), ∀ y ∈ first, ¬Meets y.1 x.1 ∧ ¬Meets x.1 y.1 := by
    intro x hx y hy
    have hne : y.1 ≠ x.1 := (List.nodup_append.mp h.nodup).2.2 y.1 (List.mem_map_of_mem hy) x.1
      (List.mem_map_of_mem hx)
    have hx' : x ∈ first ++ f :: (mid ++ g :: rest) := List.mem_append_right first hx
    have hy' : y ∈ first ++ f :: (mid ++ g :: rest) := List.mem_append_left _ hy
    exact ⟨hfields.not_meets hy' hx' hne, hfields.not_meets hx' hy' hne.symm⟩
  have hname : f.1 ≠ [] := hlater.nonempty f.1 (by simp)
  have hf : f.1 <:+: text₁ :=
    hstay₁ f.1 (hapart f List.mem_cons_self) (hwithin f (by simp))
  obtain ⟨text₂, hreplace, hvalue, hstay₂⟩ := replaceFirst_within hname hf tail
  have hrest : ∀ x ∈ mid ++ g :: rest, x.1 <:+: text₂ := by
    intro x hx
    by_cases hxg : x = g
    · rw [hxg]
      exact List.IsInfix.trans hin hvalue
    · have hx' : x ∈ mid ++ rest := by
        simp only [List.mem_append, List.mem_cons] at hx ⊢
        exact hx.elim Or.inl fun hx => Or.inr (hx.resolve_left hxg)
      exact hstay₂ x.1 (hlater.not_meets_of_cons hx)
        (hstay₁ x.1 (hapart x (List.mem_cons_of_mem f hx))
          (hwithin x (List.mem_append_right first (List.mem_cons_of_mem f hx'))))
  obtain ⟨text', hseq, _⟩ :=
    sequential_within (hlater.sublist (List.sublist_cons_self _ _)) text₂ tail hrest
  refine ⟨text', ?_⟩
  rw [sequential_append, hseq₁, ← hseq, ← hreplace]
  rfl

/-- A value that holds a placeholder which is filled in later, and is not its own value, makes a
    difference to some template: to one in which the later placeholder comes last. -/
theorem exists_sequential_ne_fill (h : Apart (fields.map Prod.fst)) {d e : α}
    (hd : Outside fields d) (he : Outside fields e) (hde : d ≠ e)
    {done : List (List α × List α)} {g : List α × List α} {rest : List (List α × List α)}
    (hfields : fields = done ++ g :: rest) (hvalue : g.2 ≠ g.1)
    (hf : f ∈ done) (hin : g.1 <:+: f.2) :
    ∃ text, (∀ f ∈ fields, OccursOnce f.1 text) ∧ Delimited fields text ∧
      sequential fields text ≠ fill fields text := by
  obtain ⟨c, hc, hhead⟩ : ∃ c, Outside fields c ∧ g.2.head? ≠ some c := by
    by_cases hhead : g.2.head? = some d
    · exact ⟨e, he, by rw [hhead]; simpa using hde⟩
    · exact ⟨d, hd, hhead⟩
  obtain ⟨first, mid, rfl⟩ := List.append_of_mem hf
  rw [List.append_assoc, List.cons_append] at hfields
  obtain ⟨others, hothers⟩ : ∃ others, others = first ++ mid ++ rest := ⟨_, rfl⟩
  have hperm : (others ++ [f, g]).Perm fields := by
    rw [hothers, hfields, List.perm_iff_count]
    intro x
    simp only [List.count_append, List.count_cons, List.count_nil]
    omega
  have hnames : Apart ((others ++ [f, g]).map Prod.fst) := h.perm (hperm.map _)
  -- a gap longer than the value of the later placeholder
  obtain ⟨gap, hgap⟩ : ∃ gap, gap = List.replicate (g.2.length + 1) c := ⟨_, rfl⟩
  have hslots : ∀ p : List α × List α → List α, slots c g.2.length ((others ++ [f, g]).map p) =
      slots c g.2.length (others.map p) ++ p f ++ (gap ++ p g ++ gap) := by
    intro p
    have hlist : (others ++ [f, g]).map p = others.map p ++ [p f] ++ [p g] := by simp
    rw [hlist, slots_concat, slots_concat, hgap]
    simp only [List.append_assoc]
  refine ⟨slots c g.2.length ((others ++ [f, g]).map Prod.fst), ?_, ?_, ?_⟩
  · intro f' hf'
    exact occursOnce_slots hnames (List.mem_map_of_mem (hperm.symm.subset hf')) (hc f' hf') _
  · exact delimited_slots hnames (fun f' hf' => List.mem_map_of_mem (hperm.symm.subset hf')) hc _
  · rw [fill_slots h hc _ fun f' hf' => hperm.subset hf', hslots, hslots]
    have hwithin : ∀ x ∈ first ++ f :: (mid ++ rest),
        x.1 <:+: slots c g.2.length (others.map Prod.fst) ++ f.1 := by
      intro x hx
      by_cases hxf : x = f
      · rw [hxf]
        exact (List.suffix_append _ _).isInfix
      · have hx' : x ∈ others := by
          rw [hothers]
          simp only [List.mem_append, List.mem_cons] at hx ⊢
          tauto
        exact List.IsInfix.trans (infix_slots (List.mem_map_of_mem hx'))
          (List.prefix_append _ _).isInfix
    rw [hfields] at h ⊢
    obtain ⟨text', hseq⟩ := sequential_within_of_value h hin _ (gap ++ g.1 ++ gap) hwithin
    rw [hseq]
    intro heq
    rw [← List.append_assoc, ← List.append_assoc, ← List.append_assoc, ← List.append_assoc,
      List.append_cancel_right_eq, hgap] at heq
    have hg : g ∈ fields := by rw [hfields]; simp
    exact hvalue (eq_of_append_gap (hc g hg) hhead (Nat.lt_succ_self _) heq).symm

end

/-! ## Patterns -/

/-- `GetSubstitution`: what a replacement text stands for, when nothing is captured. -/
def expand (matched before after : List Char) : List Char → List Char
  | '$' :: '$' :: cs => '$' :: expand matched before after cs
  | '$' :: '&' :: cs => matched ++ expand matched before after cs
  | '$' :: '\x60' :: cs => before ++ expand matched before after cs
  | '$' :: '\'' :: cs => after ++ expand matched before after cs
  | c :: cs => c :: expand matched before after cs
  | [] => []

/-- Whether a replacement text holds a special pattern. -/
def hasPattern : List Char → Bool
  | '$' :: '$' :: _ => true
  | '$' :: '&' :: _ => true
  | '$' :: '\x60' :: _ => true
  | '$' :: '\'' :: _ => true
  | _ :: cs => hasPattern cs
  | [] => false

/-- `text.replace(name, replacement)` -/
def replaceString (name replacement text : List Char) : List Char :=
  replaceFirst name (fun before after => expand name before after replacement) text

theorem expand_eq_self {matched before after cs : List Char} (h : hasPattern cs = false) :
    expand matched before after cs = cs := by
  fun_induction hasPattern cs with
  | case1 | case2 | case3 | case4 => cases h
  | case5 c cs h₁ h₂ h₃ h₄ ih => rw [expand, ih h] <;> assumption
  | case6 => rfl

/-- A replacement text stands for something that begins with no dollar sign, unless it does so
    itself. By induction on the text. -/
theorem expand_ne_dollars {matched before after cs : List Char} {d : Char}
    (hmatched : ∃ c cs, matched = c :: cs ∧ c ≠ '$') (hbefore : ∃ c cs, before = c :: cs ∧ c ≠ '$')
    (hafter : ∃ c cs, after = c :: cs ∧ c ≠ '$') (hd : d ≠ '$') (k : Nat) (u v : List Char) :
    expand matched before after cs ++ d :: u ≠
      List.replicate (k + 1) '$' ++ (cs ++ d :: v) := by
  have hshift : ∀ (k : Nat) (text : List Char),
      List.replicate k '$' ++ '$' :: text = '$' :: (List.replicate k '$' ++ text) := by
    intro k text
    rw [← List.cons_append, ← List.replicate_succ, List.replicate_succ', List.append_assoc]
    rfl
  intro heq
  rw [List.replicate_succ, List.cons_append] at heq
  fun_induction expand matched before after cs generalizing k with
  | case1 cs ih =>
    apply ih (k + 1)
    rw [List.cons_append, List.cons_append, List.cons_append, List.cons.injEq] at heq
    rw [heq.2, hshift, hshift, List.replicate_succ, List.cons_append]
  | case2 cs ih =>
    obtain ⟨c, m, rfl, hc⟩ := hmatched
    exact hc (List.cons.inj heq).1
  | case3 cs ih =>
    obtain ⟨c, m, rfl, hc⟩ := hbefore
    exact hc (List.cons.inj heq).1
  | case4 cs ih =>
    obtain ⟨c, m, rfl, hc⟩ := hafter
    exact hc (List.cons.inj heq).1
  | case5 c cs h₁ h₂ h₃ h₄ ih =>
    obtain ⟨rfl, htail⟩ := List.cons.inj heq
    exact ih k (htail.trans (hshift k _))
  | case6 => exact hd (List.cons.inj heq).1

/-- A text with a special pattern is not replaced by itself. -/
theorem expand_ne {matched before after cs : List Char} {d : Char}
    (hmatched : ∃ c cs, matched = c :: cs ∧ c ≠ '$') (hbefore : ∃ c cs, before = c :: cs ∧ c ≠ '$')
    (hafter : ∃ c cs, after = c :: cs ∧ c ≠ '$') (hd : d ≠ '$') (u v : List Char)
    (h : hasPattern cs = true) :
    expand matched before after cs ++ d :: u ≠ cs ++ d :: v := by
  fun_induction hasPattern cs with
  | case1 cs =>
    intro heq
    exact expand_ne_dollars hmatched hbefore hafter hd 0 u v (List.cons.inj heq).2
  | case2 cs =>
    obtain ⟨c, m, rfl, hc⟩ := hmatched
    exact fun heq => hc (List.cons.inj heq).1
  | case3 cs =>
    obtain ⟨c, m, rfl, hc⟩ := hbefore
    exact fun heq => hc (List.cons.inj heq).1
  | case4 cs =>
    obtain ⟨c, m, rfl, hc⟩ := hafter
    exact fun heq => hc (List.cons.inj heq).1
  | case5 c cs h₁ h₂ h₃ h₄ ih =>
    intro heq
    rw [expand] at heq
    · exact ih h (List.cons.inj heq).2
    all_goals assumption
  | case6 => cases h

/-! ## Filling in strings -/

section

variable {fields : List (List Char × List Char)} {d : Char}

/-- The fields filled in one after the other by `replace`. -/
def sequentialString (fields : List (List Char × List Char)) (text : List Char) : List Char :=
  fields.foldl (fun text f => replaceString f.1 f.2 text) text

theorem sequentialString_eq_sequential (h : ∀ f ∈ fields, hasPattern f.2 = false)
    (text : List Char) : sequentialString fields text = sequential fields text := by
  induction fields generalizing text with
  | nil => rfl
  | cons f fields ih =>
    have hf : replaceString f.1 f.2 text = replaceFirst f.1 (fun _ _ => f.2) text := by
      rw [replaceString]
      congr 1
      funext before after
      exact expand_eq_self (h f List.mem_cons_self)
    show sequentialString fields (replaceString f.1 f.2 text) = _
    rw [hf, ih fun g hg => h g (List.mem_cons_of_mem f hg)]
    rfl

/-- In the template in which the fields come in reverse, each one is replaced at its place. -/
theorem sequentialString_slots_cons {f : List Char × List Char}
    (h : Apart ((f :: fields).map Prod.fst)) (hd : d ∉ f.1) (tail : List Char) :
    sequentialString (f :: fields) (slots d 0 ((f :: fields).reverse.map Prod.fst) ++ tail) =
      sequentialString fields (slots d 0 (fields.reverse.map Prod.fst) ++
        (expand f.1 (slots d 0 (fields.reverse.map Prod.fst)) (d :: tail) f.2 ++ d :: tail)) := by
  have hname : f.1 ≠ [] := h.nonempty f.1 (by simp)
  have hfirst : First f.1 (slots d 0 (fields.reverse.map Prod.fst)) := by
    intro hin
    obtain ⟨w, hw⟩ := slots_last d 0 (fields.reverse.map Prod.fst)
    have hnot : ¬f.1 <:+: slots d 0 (fields.reverse.map Prod.fst) := by
      rintro ⟨s, t, hst⟩
      have hapart : ∀ m ∈ fields.reverse.map Prod.fst, m ≠ f.1 → ¬Meets m f.1 := by
        intro m hm _
        obtain ⟨g, hg, rfl⟩ := List.mem_map.mp hm
        exact (h.not_meets_of_cons (List.mem_reverse.mp hg)).2
      obtain ⟨pre, post, hpre, _⟩ := slots_split hname hd hapart hst.symm
      have hmem : f.1 ∈ fields.reverse.map Prod.fst := by rw [hpre]; simp
      have hnodup := h.nodup
      rw [List.map_cons, List.nodup_cons] at hnodup
      rw [List.map_reverse, List.mem_reverse] at hmem
      exact hnodup.1 hmem
    rw [hw, List.append_assoc] at hin
    cases infix_split hd hin with
    | inl hin =>
      rw [hw] at hnot
      exact hnot (List.IsInfix.trans hin (List.prefix_append w [d]).isInfix)
    | inr hin =>
      have hlen : f.1.length ≤ f.1.dropLast.length := hin.length_le
      have hpos : 0 < f.1.length := List.length_pos_iff.mpr hname
      rw [List.length_dropLast] at hlen
      omega
  have hslots : slots d 0 ((f :: fields).reverse.map Prod.fst) ++ tail =
      slots d 0 (fields.reverse.map Prod.fst) ++ f.1 ++ d :: tail := by
    rw [List.reverse_cons, List.map_append, List.map_cons, List.map_nil, slots_concat]
    simp
  rw [hslots, sequentialString, List.foldl_cons, replaceString, replaceFirst_of_first hname hfirst,
    List.append_assoc]
  rfl

theorem slots_snd_cons (f : List Char × List Char) (tail : List Char) :
    slots d 0 ((f :: fields).reverse.map Prod.snd) ++ tail =
      slots d 0 (fields.reverse.map Prod.snd) ++ (f.2 ++ d :: tail) := by
  rw [List.reverse_cons, List.map_append, List.map_cons, List.map_nil, slots_concat]
  simp

/-- Values without patterns are filled in there. -/
theorem sequentialString_slots (h : Apart (fields.map Prod.fst)) (hd : Outside fields d)
    (hplain : ∀ f ∈ fields, hasPattern f.2 = false) (tail : List Char) :
    sequentialString fields (slots d 0 (fields.reverse.map Prod.fst) ++ tail) =
      slots d 0 (fields.reverse.map Prod.snd) ++ tail := by
  induction fields generalizing tail with
  | nil => rfl
  | cons f fields ih =>
    rw [sequentialString_slots_cons h (hd f List.mem_cons_self),
      expand_eq_self (hplain f List.mem_cons_self), slots_snd_cons,
      ih (h.sublist (List.sublist_cons_self _ _)) (fun g hg => hd g (List.mem_cons_of_mem f hg))
        fun g hg => hplain g (List.mem_cons_of_mem f hg)]

/-- A value with a pattern is not. By induction on the fields. -/
theorem sequentialString_slots_ne (h : Apart (fields.map Prod.fst)) (hd : Outside fields d)
    (hdollar : d ≠ '$') (hnames : ∀ f ∈ fields, f.1.head? ≠ some '$')
    (hpattern : ∃ f ∈ fields, hasPattern f.2 = true) (tail tail' : List Char) :
    sequentialString fields (slots d 0 (fields.reverse.map Prod.fst) ++ tail) ≠
      slots d 0 (fields.reverse.map Prod.snd) ++ tail' := by
  induction fields generalizing tail tail' with
  | nil =>
    obtain ⟨f, hf, _⟩ := hpattern
    cases hf
  | cons f fields ih =>
    have hrest : Apart (fields.map Prod.fst) := h.sublist (List.sublist_cons_self _ _)
    have hd' : Outside fields d := fun g hg => hd g (List.mem_cons_of_mem f hg)
    rw [sequentialString_slots_cons h (hd f List.mem_cons_self), slots_snd_cons]
    by_cases hlater : ∃ g ∈ fields, hasPattern g.2 = true
    · exact ih hrest hd' (fun g hg => hnames g (List.mem_cons_of_mem f hg)) hlater _ _
    · have hplain : ∀ g ∈ fields, hasPattern g.2 = false := by
        intro g hg
        by_contra hg'
        exact hlater ⟨g, hg, by simpa using hg'⟩
      have hf : hasPattern f.2 = true := by
        obtain ⟨g, hg, hg'⟩ := hpattern
        cases List.mem_cons.mp hg with
        | inl hg => rw [← hg]; exact hg'
        | inr hg => exact absurd hg' (by rw [hplain g hg]; decide)
      rw [sequentialString_slots hrest hd' hplain, ne_eq, List.append_cancel_left_eq]
      apply expand_ne _ _ ⟨d, tail, rfl, hdollar⟩ hdollar _ _ hf
      · obtain ⟨c, cs, hc⟩ := List.exists_cons_of_ne_nil (h.nonempty f.1 (by simp))
        refine ⟨c, cs, hc, ?_⟩
        rintro rfl
        exact hnames f List.mem_cons_self (by rw [hc]; rfl)
      · exact ⟨d, slotsFrom d 0 (fields.reverse.map Prod.fst), rfl, hdollar⟩

/-- Values are filled in right into every delimited template exactly when none holds a pattern, or
    a placeholder that is filled in later and is not its own value. -/
theorem sequentialString_eq_fill_iff (h : Apart (fields.map Prod.fst)) {d e : Char}
    (hd : Outside fields d) (he : Outside fields e) (hde : d ≠ e) (hdollar : d ≠ '$')
    (hnames : ∀ f ∈ fields, f.1.head? ≠ some '$') :
    (∀ text, (∀ f ∈ fields, OccursOnce f.1 text) → Delimited fields text →
        sequentialString fields text = fill fields text) ↔
      (∀ f ∈ fields, hasPattern f.2 = false) ∧ Free fields := by
  constructor
  · intro hall
    have hplain : ∀ f ∈ fields, hasPattern f.2 = false := by
      intro f hf
      by_contra hpattern
      have hreverse : (fields.reverse.map Prod.fst).Perm (fields.map Prod.fst) :=
        (List.reverse_perm fields).map _
      have hapart : Apart (fields.reverse.map Prod.fst) := h.perm hreverse
      have hmem : ∀ g ∈ fields, g.1 ∈ fields.reverse.map Prod.fst := fun g hg =>
        hreverse.symm.subset (List.mem_map_of_mem hg)
      have heq := hall (slots d 0 (fields.reverse.map Prod.fst))
        (fun g hg => occursOnce_slots hapart (hmem g hg) (hd g hg) 0)
        (delimited_slots hapart hmem hd 0)
      rw [fill_slots h hd 0 fun g hg => List.mem_reverse.mp hg] at heq
      have hne := sequentialString_slots_ne h hd hdollar hnames ⟨f, hf, by simpa using hpattern⟩
        [] []
      rw [List.append_nil, List.append_nil] at hne
      exact hne heq
    refine ⟨hplain, ?_⟩
    intro done g rest hfields
    by_contra hnot
    rw [not_or] at hnot
    obtain ⟨hvalue, hin⟩ := hnot
    simp only [not_forall, not_not] at hin
    obtain ⟨f, hf, hin⟩ := hin
    obtain ⟨text, honce, hdelim, hne⟩ :=
      exists_sequential_ne_fill h hd he hde hfields hvalue hf hin
    apply hne
    rw [← sequentialString_eq_sequential hplain, hall text honce hdelim]
  · rintro ⟨hplain, hfree⟩ text honce hdelim
    rw [sequentialString_eq_sequential hplain]
    exact sequential_eq_fill h honce (settled_of_free h honce hdelim hfree)

end

end Template
