import PetaCore.Core.ConsentPage

/-!
# What the consent page is filled with

The values are escaped, but `replace` reads special patterns in them, and an escaped value can hold
the placeholder of a later one. Without either, the values stand at their places in every template
whose placeholders are delimited, and in every other one in which no placeholder comes up before
its place.

Key results:
- `page_eq_iff`: when the page is the template with every placeholder replaced by its value
- `proxy_key_in_name`: a client name that makes the page show the proxy key
-/

namespace PetaCore.ConsentPage

open Template

/-! ## Placeholders and values -/

theorem apart_placeholders : Apart placeholders := by
  refine ⟨by decide, by decide, ?_⟩
  intro m hm n hn
  revert m n
  decide +kernel

theorem Values.length_escaped (v : Values) (list : List Char) :
    (v.escaped list).length = placeholders.length := by
  simp only [Values.escaped, placeholders, List.length_cons]

variable {fields : List (List Char × List Char)}

theorem Values.map_fst_fields {v : Values}
    (h : v.fields = some fields) : fields.map Prod.fst = placeholders := by
  obtain ⟨list, _, rfl⟩ := Option.map_eq_some_iff.mp h
  exact List.map_fst_zip (Nat.le_of_eq (v.length_escaped list).symm)

theorem outside_of_not_mem {v : Values}
    (h : v.fields = some fields) {d : Char} (hd : ∀ n ∈ placeholders, d ∉ n) :
    Outside fields d := by
  intro f hf
  apply hd
  rw [← v.map_fst_fields h]
  exact List.mem_map_of_mem hf

/-! ## The page -/

/-- A template in which each placeholder occurs once. -/
def IsTemplate (html : List Char) : Prop := ∀ n ∈ placeholders, OccursOnce n html

theorem IsTemplate.occursOnce {v : Values}
    (h : v.fields = some fields) {html : List Char} (hhtml : IsTemplate html) :
    ∀ f ∈ fields, OccursOnce f.1 html := by
  intro f hf
  apply hhtml
  rw [← v.map_fst_fields h]
  exact List.mem_map_of_mem hf

/-- The page is the template with all placeholders replaced at once, for every template that
    delimits its placeholders, exactly when no escaped value holds a replacement pattern or a later
    placeholder that is not its own value. Without patterns, it also is for every other template in
    which no placeholder comes up before its place. -/
theorem page_eq_iff {v : Values} {fields : List (List Char × List Char)}
    (h : v.fields = some fields) :
    ((∀ html, IsTemplate html → Delimited fields html → v.page html = some (fill fields html)) ↔
        (∀ f ∈ fields, hasPattern f.2 = false) ∧ Free fields) ∧
      ((∀ f ∈ fields, hasPattern f.2 = false) → ∀ html, IsTemplate html → Settled fields html →
        v.page html = some (fill fields html)) := by
  have hapart : Apart (fields.map Prod.fst) := by
    rw [v.map_fst_fields h]
    exact apart_placeholders
  have hpage : ∀ html, v.page html = some (fill fields html) ↔
      sequentialString fields html = fill fields html := by
    intro html
    rw [Values.page, h, Option.map_some, Option.some.injEq]
  have hspace : Outside fields ' ' := outside_of_not_mem h (by decide)
  have hsemicolon : Outside fields ';' := outside_of_not_mem h (by decide)
  have hdollar : ∀ f ∈ fields, f.1.head? ≠ some '$' := by
    intro f hf
    have hf' : f.1 ∈ placeholders := by
      rw [← v.map_fst_fields h]
      exact List.mem_map_of_mem hf
    revert hf'
    generalize f.1 = n
    revert n
    decide
  constructor
  · rw [← sequentialString_eq_fill_iff hapart hspace hsemicolon (by decide) (by decide) hdollar]
    constructor
    · intro hall html honce hdelim
      refine (hpage html).mp (hall html (fun n hn => ?_) hdelim)
      rw [← v.map_fst_fields h] at hn
      obtain ⟨f, hf, rfl⟩ := List.mem_map.mp hn
      exact honce f hf
    · intro hall html hhtml hdelim
      exact (hpage html).mpr (hall html (hhtml.occursOnce h) hdelim)
  · intro hplain html hhtml hsettled
    rw [hpage, sequentialString_eq_sequential hplain]
    exact sequential_eq_fill hapart (hhtml.occursOnce h) hsettled

/-- A client that is named like the placeholder of the proxy key. -/
def namedLikeProxyKey : Values where
  client_name := some "\x7b\x7bPROXY_KEY\x7d\x7d"
  client_id := "client"
  redirect_uri := "https://client"
  scope := none
  state := none
  code_challenge := some "challenge"
  code_challenge_method := some "S256"
  resource := none
  flowId := "flow"
  proxyKey := "key"

theorem page_eq_iff_namedLikeProxyKey : ∃ fields,
    ((∀ html, IsTemplate html → Delimited fields html →
          namedLikeProxyKey.page html = some (fill fields html)) ↔
        (∀ f ∈ fields, hasPattern f.2 = false) ∧ Free fields) ∧
      ((∀ f ∈ fields, hasPattern f.2 = false) → ∀ html, IsTemplate html → Settled fields html →
        namedLikeProxyKey.page html = some (fill fields html)) := by
  obtain ⟨fields, h⟩ := Option.isSome_iff_exists.mp
    (show namedLikeProxyKey.fields.isSome = true by decide +kernel)
  exact ⟨fields, page_eq_iff h⟩

/-- The proxy key is shown in place of this name, and the script does not get it. -/
theorem proxy_key_in_name :
    ¬∀ (v : Values) (fields : List (List Char × List Char)) (html : List Char),
      v.fields = some fields → IsTemplate html → v.page html = some (fill fields html) := by
  intro hall
  obtain ⟨fields, h⟩ := Option.isSome_iff_exists.mp
    (show namedLikeProxyKey.fields.isSome = true by decide +kernel)
  have hspace : ∀ n ∈ placeholders, ' ' ∉ n := by decide
  have heq := hall namedLikeProxyKey fields (slots ' ' 0 placeholders) h fun n hn =>
    occursOnce_slots apart_placeholders hn (hspace n hn) 0
  have hmap : some (fill fields (slots ' ' 0 placeholders)) =
      namedLikeProxyKey.fields.map fun fields => fill fields (slots ' ' 0 placeholders) := by
    rw [h, Option.map_some]
  rw [hmap] at heq
  exact absurd heq (by decide +kernel)

end PetaCore.ConsentPage
