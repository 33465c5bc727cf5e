import PetaCore.Core.Discovery
import PetaCore.ForStd.Run

/-!
# The catalog after overlapping rebuilds

A rebuild writes the rows of the tools that it has read and deletes the server's other rows. When
the calls of a server's rebuilds come in the order of their starts, the rows that are left are those
of the last one. Another server's rebuild can only reach them through an action id, which is the
hash of a text that does not always tell the server's name from the tool's.

## Key results

- `catalog_converges`: after rebuilds whose calls come in order, over tools with texts of their
  own, every server has the rows of its last rebuild
- `catalog_diverges`: two overlapping rebuilds that leave the rows of the first
-/

namespace PetaCore

open Run

/-! ## Action ids -/

namespace DiscoveryIndex

variable {digest : String → String}

theorem actionText_of_actionId (hdigest : Function.Injective digest) {S S' n n' : String}
    (h : actionId digest S n = actionId digest S' n') : actionText S n = actionText S' n' := by
  unfold actionId at h
  have hlist := congrArg String.toList h
  simp only [String.toList_append] at hlist
  exact hdigest (String.toList_inj.mp (List.append_cancel_left hlist))

theorem toolName_of_actionText {S n n' : String} (h : actionText S n = actionText S n') :
    n = n' := by
  have hlist := congrArg String.toList h
  simp only [actionText, String.toList_append] at hlist
  exact String.toList_inj.mp (List.append_cancel_left hlist)

theorem mem_mapTools {S id : String} {tools : List Tool} {row : CatalogAction} :
    (id, row) ∈ mapTools digest S tools ↔
      ∃ tool ∈ tools, id = actionId digest S tool.name ∧ row = mapToolToCatalogAction S tool := by
  unfold mapTools
  rw [List.mem_map]
  constructor
  · intro h
    obtain ⟨tool, htool, heq⟩ := h
    exact ⟨tool, htool, (Prod.mk.inj heq).1.symm, (Prod.mk.inj heq).2.symm⟩
  · intro h
    obtain ⟨tool, htool, hid, hrow⟩ := h
    exact ⟨tool, htool, by rw [hid, hrow]⟩

end DiscoveryIndex

open DiscoveryIndex

/-! ## Rows of a server -/

section Rows

variable {digest : String → String} {catalog : Catalog} {S : String} {tools : List Tool}

/-- Every tool of the list has its row. -/
def HasRows (digest : String → String) (catalog : Catalog) (S : String) (tools : List Tool) :
    Prop :=
  ∀ tool ∈ tools, ∃ tool' ∈ tools, tool'.name = tool.name ∧
    catalog.get? (actionId digest S tool.name) = some (mapToolToCatalogAction S tool')

/-- Every row of the server is the row of a tool of the list. -/
def OnlyRows (digest : String → String) (catalog : Catalog) (S : String) (tools : List Tool) :
    Prop :=
  ∀ id row, catalog.get? id = some row → row.serverId = S →
    ∃ tool ∈ tools, id = actionId digest S tool.name ∧ row = mapToolToCatalogAction S tool

/-- The rows of the list that is written. -/
theorem hasRows_bulkUpsert (hdigest : Function.Injective digest) (catalog : Catalog) (S : String)
    (tools : List Tool) :
    HasRows digest (CatalogActionRepository.bulkUpsert catalog (mapTools digest S tools)) S
      tools := by
  intro tool htool
  have hmem : (actionId digest S tool.name, mapToolToCatalogAction S tool) ∈
      mapTools digest S tools := mem_mapTools.mpr ⟨tool, htool, rfl, rfl⟩
  obtain ⟨row, hrow, hget⟩ := Dict.get?_setAll_of_mem (d := catalog) hmem
  obtain ⟨tool', htool', hid, rfl⟩ := mem_mapTools.mp hrow
  exact ⟨tool', htool', (toolName_of_actionText (actionText_of_actionId hdigest hid)).symm, hget⟩

variable {S' : String}

/-- Another server's rows have other ids. -/
theorem HasRows.bulkUpsert (h : HasRows digest catalog S tools)
    (hdigest : Function.Injective digest) {tools' : List Tool}
    (hapart : ∀ t ∈ tools, ∀ t' ∈ tools', actionText S t.name ≠ actionText S' t'.name) :
    HasRows digest (CatalogActionRepository.bulkUpsert catalog (mapTools digest S' tools')) S
      tools := by
  intro tool htool
  obtain ⟨tool', htool', hname, hget⟩ := h tool htool
  refine ⟨tool', htool', hname, ?_⟩
  unfold CatalogActionRepository.bulkUpsert
  rw [Dict.get?_setAll_of_notMem]
  · exact hget
  · intro row hmem
    obtain ⟨t', ht', hid, _⟩ := mem_mapTools.mp hmem
    exact hapart tool htool t' ht' (actionText_of_actionId hdigest hid)

theorem OnlyRows.bulkUpsert (h : OnlyRows digest catalog S tools) (hne : S' ≠ S)
    (tools' : List Tool) :
    OnlyRows digest (CatalogActionRepository.bulkUpsert catalog (mapTools digest S' tools')) S
      tools := by
  intro id row hget hserver
  cases Dict.get?_setAll hget with
  | inl hmem =>
    obtain ⟨t', _, _, rfl⟩ := mem_mapTools.mp hmem
    exact absurd hserver hne
  | inr hold => exact h id row hold hserver

theorem get?_deleteByServerIdExcept {keep : List String} {id : String} {row : CatalogAction} :
    (CatalogActionRepository.deleteByServerIdExcept catalog S keep).get? id = some row ↔
      catalog.get? id = some row ∧ (row.serverId ≠ S ∨ id ∈ keep) := by
  unfold CatalogActionRepository.deleteByServerIdExcept
  split
  · rename_i hempty
    unfold CatalogActionRepository.deleteByServerId
    rw [Dict.get?_filterKeyed_eq_some, List.isEmpty_iff.mp hempty]
    simp
  · rw [Dict.get?_filterKeyed_eq_some]
    simp

theorem mem_keys_mapTools {id : String} :
    id ∈ (mapTools digest S tools).map Prod.fst ↔
      ∃ tool ∈ tools, id = actionId digest S tool.name := by
  rw [List.mem_map]
  constructor
  · intro h
    obtain ⟨⟨id', row⟩, hmem, rfl⟩ := h
    obtain ⟨tool, htool, hid, _⟩ := mem_mapTools.mp hmem
    exact ⟨tool, htool, hid⟩
  · intro h
    obtain ⟨tool, htool, hid⟩ := h
    exact ⟨(id, mapToolToCatalogAction S tool), mem_mapTools.mpr ⟨tool, htool, hid, rfl⟩, rfl⟩

/-- The rows of the list are kept when the server's others are deleted. -/
theorem HasRows.delete_self (h : HasRows digest catalog S tools) :
    HasRows digest (CatalogActionRepository.deleteByServerIdExcept catalog S
      ((mapTools digest S tools).map Prod.fst)) S tools := by
  intro tool htool
  obtain ⟨tool', htool', hname, hget⟩ := h tool htool
  refine ⟨tool', htool', hname, ?_⟩
  rw [get?_deleteByServerIdExcept]
  exact ⟨hget, .inr (mem_keys_mapTools.mpr ⟨tool, htool, rfl⟩)⟩

theorem HasRows.onlyRows_delete (h : HasRows digest catalog S tools) :
    OnlyRows digest (CatalogActionRepository.deleteByServerIdExcept catalog S
      ((mapTools digest S tools).map Prod.fst)) S tools := by
  intro id row hget hserver
  rw [get?_deleteByServerIdExcept] at hget
  obtain ⟨hget, hkept⟩ := hget
  cases hkept with
  | inl hother => exact absurd hserver hother
  | inr hkept =>
    obtain ⟨tool, htool, hid⟩ := mem_keys_mapTools.mp hkept
    obtain ⟨tool', htool', hname, hget'⟩ := h tool htool
    rw [hid, hget'] at hget
    exact ⟨tool', htool', by rw [hid, hname], (Option.some.inj hget).symm⟩

theorem HasRows.delete_other (h : HasRows digest catalog S tools) (hne : S' ≠ S)
    (keep : List String) :
    HasRows digest (CatalogActionRepository.deleteByServerIdExcept catalog S' keep) S tools := by
  intro tool htool
  obtain ⟨tool', htool', hname, hget⟩ := h tool htool
  refine ⟨tool', htool', hname, ?_⟩
  rw [get?_deleteByServerIdExcept]
  exact ⟨hget, .inl hne.symm⟩

theorem OnlyRows.delete (h : OnlyRows digest catalog S tools) (S' : String)
    (keep : List String) :
    OnlyRows digest (CatalogActionRepository.deleteByServerIdExcept catalog S' keep) S tools := by
  intro id row hget
  rw [get?_deleteByServerIdExcept] at hget
  exact h id row hget.1

end Rows

/-! ## Runs -/

namespace IndexState

/-- The last of a server's rebuilds that has made a call. -/
structure Latest (st : IndexState) (S : String) (k : Nat) (r : Rebuild) : Prop where
  found : st.rebuilds[k]? = some r
  serverId : r.serverId = S
  called : r.stage ≠ .started
  later : ∀ k' r', k < k' → st.rebuilds[k']? = some r' → r'.serverId = S → r'.stage = .started

/-- What holds as long as a server's rebuilds make their calls in order. -/
structure Ok (digest : String → String) (st : IndexState) : Prop where
  apart : ∀ r ∈ st.rebuilds, ∀ r' ∈ st.rebuilds, ∀ t ∈ r.tools, ∀ t' ∈ r'.tools,
    actionText r.serverId t.name = actionText r'.serverId t'.name → r.serverId = r'.serverId
  has : ∀ S k r, st.Latest S k r → HasRows digest st.catalog S r.tools
  only : ∀ S k r, st.Latest S k r → r.stage = .finished → OnlyRows digest st.catalog S r.tools

/-- A step that keeps the order: a rebuild makes no call once a later one of the same server has
    made one, and it reads no tool whose text another server's tool has. -/
def StepOk (st : IndexState) : IndexAction → Prop
  | .start serverId read => ∀ tools, read = .loaded tools → ∀ t ∈ tools, ∀ r ∈ st.rebuilds,
    ∀ t' ∈ r.tools, actionText serverId t.name = actionText r.serverId t'.name →
      serverId = r.serverId
  | .bulkUpsert k | .deleteByServerIdExcept k => ∀ r, st.rebuilds[k]? = some r → ∀ k' r', k < k' →
    st.rebuilds[k']? = some r' → r'.serverId = r.serverId → r'.stage = .started

variable {digest : String → String} {st st' : IndexState}

theorem Ok.start (h : st.Ok digest) {S : String} {tools : List Tool}
    (hapart : ∀ t ∈ tools, ∀ r ∈ st.rebuilds, ∀ t' ∈ r.tools,
      actionText S t.name = actionText r.serverId t'.name → S = r.serverId) :
    Ok digest { st with rebuilds := st.rebuilds ++ [⟨S, tools, .started⟩] } := by
  have hlatest : ∀ S' k r,
      Latest { st with rebuilds := st.rebuilds ++ [⟨S, tools, .started⟩] } S' k r →
        st.Latest S' k r := by
    intro S' k r hlatest
    have hfound : st.rebuilds[k]? = some r := by
      cases (getElem?_snoc _ _ _ _).mp hlatest.found with
      | inl hold => exact hold
      | inr hnew =>
        -- the new rebuild has made no call yet
        rw [← hnew.2] at hlatest
        exact absurd rfl hlatest.called
    refine ⟨hfound, hlatest.serverId, hlatest.called, ?_⟩
    intro k' r' hk hr'
    exact hlatest.later k' r' hk ((getElem?_snoc _ _ _ _).mpr (.inl hr'))
  refine ⟨?_, ?_, ?_⟩
  · intro r hr r' hr' t ht t' ht' heq
    cases List.mem_append.mp hr with
    | inl hr =>
      cases List.mem_append.mp hr' with
      | inl hr' => exact h.apart r hr r' hr' t ht t' ht' heq
      | inr hr' =>
        obtain rfl := List.mem_singleton.mp hr'
        exact (hapart t' ht' r hr t ht heq.symm).symm
    | inr hr =>
      obtain rfl := List.mem_singleton.mp hr
      cases List.mem_append.mp hr' with
      | inl hr' => exact hapart t ht r' hr' t' ht' heq
      | inr hr' =>
        obtain rfl := List.mem_singleton.mp hr'
        rfl
  · intro S' k r hlast
    exact h.has S' k r (hlatest S' k r hlast)
  · intro S' k r hlast
    exact h.only S' k r (hlatest S' k r hlast)

section Call

variable {k : Nat} {r : Rebuild} {stage : RebuildStage} {catalog : Catalog}

variable {r' : Rebuild} {k' : Nat}

theorem getElem?_withCall (h : (st.withCall k r stage catalog).rebuilds[k']? = some r') :
    (k' = k ∧ r' = { r with stage := stage }) ∨ (k' ≠ k ∧ st.rebuilds[k']? = some r') := by
  unfold withCall at h
  rw [List.getElem?_set] at h
  split at h
  · rename_i hk
    split at h
    · exact .inl ⟨hk.symm, (Option.some.inj h).symm⟩
    · cases h
  · rename_i hk
    exact .inr ⟨Ne.symm hk, h⟩

theorem mem_withCall (hr : st.rebuilds[k]? = some r)
    (h : r' ∈ (st.withCall k r stage catalog).rebuilds) :
    ∃ r₀ ∈ st.rebuilds, r'.serverId = r₀.serverId ∧ r'.tools = r₀.tools := by
  obtain ⟨k', hk'⟩ := List.mem_iff_getElem?.mp h
  cases getElem?_withCall hk' with
  | inl hcase => exact ⟨r, List.mem_of_getElem? hr, by rw [hcase.2], by rw [hcase.2]⟩
  | inr hcase => exact ⟨r', List.mem_of_getElem? hcase.2, rfl, rfl⟩

/-- After a call of a server's rebuild, it is the last one to have made a call. -/
theorem latest_withCall_self (hr : st.rebuilds[k]? = some r) (hstage : stage ≠ .started)
    (hlater : ∀ k' r', k < k' → st.rebuilds[k']? = some r' → r'.serverId = r.serverId →
      r'.stage = .started) (h : (st.withCall k r stage catalog).Latest r.serverId k' r') :
    r' = { r with stage := stage } := by
  cases getElem?_withCall h.found with
  | inl hcase => exact hcase.2
  | inr hcase =>
    have hself : (st.withCall k r stage catalog).rebuilds[k]? =
        some { r with stage := stage } := by
      unfold withCall
      simp only [List.getElem?_set_self (List.getElem?_eq_some_iff.mp hr).1]
    cases Nat.lt_or_gt_of_ne hcase.1 with
    | inl hlt => exact absurd (h.later k _ hlt hself rfl) hstage
    | inr hgt => exact absurd (hlater k' r' hgt hcase.2 h.serverId) h.called

/-- The other servers' rebuilds are as they were. -/
theorem latest_withCall_other {S : String} (hr : st.rebuilds[k]? = some r) (hS : r.serverId ≠ S)
    (h : (st.withCall k r stage catalog).Latest S k' r') : st.Latest S k' r' := by
  have hfound : k' ≠ k ∧ st.rebuilds[k']? = some r' := by
    cases getElem?_withCall h.found with
    | inl hcase =>
      have hserver := h.serverId
      rw [hcase.2] at hserver
      exact absurd hserver hS
    | inr hcase => exact hcase
  refine ⟨hfound.2, h.serverId, h.called, ?_⟩
  intro k'' r'' hk hr'' hserver
  have hk'' : k'' ≠ k := by
    intro heq
    rw [heq, hr] at hr''
    rw [← Option.some.inj hr''] at hserver
    exact hS hserver
  apply h.later k'' r'' hk _ hserver
  unfold withCall
  simp only [List.getElem?_set_ne hk''.symm]
  exact hr''

theorem Ok.withCall (h : st.Ok digest) (hr : st.rebuilds[k]? = some r) (hstage : stage ≠ .started)
    (hlater : ∀ k' r', k < k' → st.rebuilds[k']? = some r' → r'.serverId = r.serverId →
      r'.stage = .started)
    (hself : HasRows digest catalog r.serverId r.tools)
    (hselfOnly : stage = .finished → OnlyRows digest catalog r.serverId r.tools)
    (hhas : ∀ r' ∈ st.rebuilds, r'.serverId ≠ r.serverId →
      HasRows digest st.catalog r'.serverId r'.tools →
        HasRows digest catalog r'.serverId r'.tools)
    (honly : ∀ r' ∈ st.rebuilds, r'.serverId ≠ r.serverId →
      OnlyRows digest st.catalog r'.serverId r'.tools →
        OnlyRows digest catalog r'.serverId r'.tools) :
    (st.withCall k r stage catalog).Ok digest := by
  refine ⟨?_, ?_, ?_⟩
  · intro r₁ hr₁ r₂ hr₂ t ht t' ht' heq
    obtain ⟨r₁', hr₁', hserver₁, htools₁⟩ := mem_withCall hr hr₁
    obtain ⟨r₂', hr₂', hserver₂, htools₂⟩ := mem_withCall hr hr₂
    rw [hserver₁, hserver₂] at heq ⊢
    exact h.apart r₁' hr₁' r₂' hr₂' t (htools₁ ▸ ht) t' (htools₂ ▸ ht') heq
  · intro S k' r' hlatest
    by_cases hS : r.serverId = S
    · obtain rfl := hS
      rw [latest_withCall_self hr hstage hlater hlatest]
      exact hself
    · have hbefore := latest_withCall_other hr hS hlatest
      obtain rfl := hbefore.serverId
      exact hhas r' (List.mem_of_getElem? hbefore.found) (Ne.symm hS) (h.has _ k' r' hbefore)
  · intro S k' r' hlatest hfinished
    by_cases hS : r.serverId = S
    · obtain rfl := hS
      have heq := latest_withCall_self hr hstage hlater hlatest
      rw [heq] at hfinished ⊢
      exact hselfOnly hfinished
    · have hbefore := latest_withCall_other hr hS hlatest
      obtain rfl := hbefore.serverId
      exact honly r' (List.mem_of_getElem? hbefore.found) (Ne.symm hS)
        (h.only _ k' r' hbefore hfinished)

end Call

theorem step_bulkUpsert {k : Nat} (h : st.step digest (.bulkUpsert k) = some st') :
    ∃ r, st.rebuilds[k]? = some r ∧ r.stage = .started ∧
      st' = st.withCall k r .upserted (CatalogActionRepository.bulkUpsert st.catalog
        (mapTools digest r.serverId r.tools)) := by
  simp only [step] at h
  obtain ⟨r, hr, h⟩ := Option.bind_eq_some_iff.mp h
  split at h
  · rename_i hstarted
    exact ⟨r, hr, hstarted.1, (Option.some.inj h).symm⟩
  · cases h

theorem step_deleteByServerIdExcept {k : Nat}
    (h : st.step digest (.deleteByServerIdExcept k) = some st') :
    ∃ r, st.rebuilds[k]? = some r ∧
      (r.stage = .upserted ∨ (r.stage = .started ∧ r.tools = [])) ∧
      st' = st.withCall k r .finished (CatalogActionRepository.deleteByServerIdExcept st.catalog
        r.serverId ((mapTools digest r.serverId r.tools).map Prod.fst)) := by
  simp only [step] at h
  obtain ⟨r, hr, h⟩ := Option.bind_eq_some_iff.mp h
  split at h
  · rename_i hstage
    exact ⟨r, hr, hstage, (Option.some.inj h).symm⟩
  · cases h

theorem Ok.step (h : st.Ok digest) (hdigest : Function.Injective digest) {a : IndexAction}
    (hok : st.StepOk a) (hstep : st.step digest a = some st') : st'.Ok digest := by
  cases a with
  | start S read =>
    cases read with
    | noContext =>
      cases hstep
      apply h.start
      intro t ht
      cases ht
    | notLoaded =>
      cases hstep
      exact h
    | loaded tools =>
      cases hstep
      exact h.start (hok tools rfl)
  | bulkUpsert k =>
    obtain ⟨r, hr, _, rfl⟩ := step_bulkUpsert hstep
    apply h.withCall hr (by decide) (hok r hr) (hasRows_bulkUpsert hdigest _ _ _)
    · intro hfinished
      cases hfinished
    · intro r' hr' hserver hhas
      apply hhas.bulkUpsert hdigest
      intro t ht t' ht' heq
      exact hserver (h.apart r' hr' r (List.mem_of_getElem? hr) t ht t' ht' heq)
    · intro r' _ hserver honly
      exact honly.bulkUpsert hserver.symm _
  | deleteByServerIdExcept k =>
    obtain ⟨r, hr, hstage, rfl⟩ := step_deleteByServerIdExcept hstep
    -- the rows of the list have been written, or there are none to write
    have hhas : HasRows digest st.catalog r.serverId r.tools := by
      cases hstage with
      | inl hupserted =>
        exact h.has r.serverId k r ⟨hr, rfl, by simp [hupserted], hok r hr⟩
      | inr hempty =>
        intro tool htool
        rw [hempty.2] at htool
        cases htool
    apply h.withCall hr (by decide) (hok r hr) hhas.delete_self
    · intro _
      exact hhas.onlyRows_delete
    · intro r' _ hserver hhas'
      exact hhas'.delete_other hserver.symm _
    · intro r' _ _ honly
      exact honly.delete _ _

theorem Ok.init (digest : String → String) (catalog : Catalog) :
    Ok digest (⟨catalog, []⟩ : IndexState) := by
  refine ⟨?_, ?_, ?_⟩
  · intro r hr
    cases hr
  all_goals
    intro S k r hlatest
    have hfound := hlatest.found
    simp at hfound

/-- All rebuilds have made their calls. -/
def Finished (st : IndexState) : Prop := ∀ r ∈ st.rebuilds, r.stage = .finished

/-- The rebuild of a server that started last. -/
structure LastStarted (st : IndexState) (S : String) (k : Nat) (r : Rebuild) : Prop where
  found : st.rebuilds[k]? = some r
  serverId : r.serverId = S
  later : ∀ k' r', k < k' → st.rebuilds[k']? = some r' → r'.serverId ≠ S

/-- The catalog has exactly one row for each tool of every server's last list. -/
structure Converged (digest : String → String) (st : IndexState) : Prop where
  hasRows : ∀ S k r, st.LastStarted S k r → HasRows digest st.catalog S r.tools
  onlyRows : ∀ S k r, st.LastStarted S k r → OnlyRows digest st.catalog S r.tools
  distinct : ∀ r ∈ st.rebuilds, ∀ r' ∈ st.rebuilds, ∀ t ∈ r.tools, ∀ t' ∈ r'.tools,
    (r.serverId, t.name) ≠ (r'.serverId, t'.name) →
      actionId digest r.serverId t.name ≠ actionId digest r'.serverId t'.name

theorem Ok.converged (h : st.Ok digest) (hdigest : Function.Injective digest)
    (hfinished : st.Finished) : st.Converged digest := by
  have hlatest : ∀ S k r, st.LastStarted S k r → r.stage = .finished ∧ st.Latest S k r := by
    intro S k r hlast
    have hstage := hfinished r (List.mem_of_getElem? hlast.found)
    refine ⟨hstage, hlast.found, hlast.serverId, by simp [hstage], ?_⟩
    intro k' r' hk hr' hserver
    exact absurd hserver (hlast.later k' r' hk hr')
  refine ⟨?_, ?_, ?_⟩
  · intro S k r hlast
    exact h.has S k r (hlatest S k r hlast).2
  · intro S k r hlast
    exact h.only S k r (hlatest S k r hlast).2 (hlatest S k r hlast).1
  · intro r hr r' hr' t ht t' ht' hne hid
    have htext := actionText_of_actionId hdigest hid
    have hserver := h.apart r hr r' hr' t ht t' ht' htext
    rw [hserver] at htext
    exact hne (by rw [hserver, toolName_of_actionText htext])

end IndexState

/-- From any catalog, in every run of rebuilds of which each reads no tool whose text another
    server's tool has, and makes no call once a later one of its server has made one: when all are
    finished, every server has one row for each tool of the list that its last rebuild has read and
    no others, and different tools have different rows. -/
theorem catalog_converges {digest : String → String} (hdigest : Function.Injective digest)
    {catalog : Catalog} {trs : List (Transition IndexState IndexAction)} {st : IndexState}
    (hrun : IsRun (IndexState.step digest) ⟨catalog, []⟩ trs st)
    (hok : ∀ tr ∈ trs, tr.pre.StepOk tr.act) (hfinished : st.Finished) :
    st.Converged digest := by
  have hst : st.Ok digest := IsRun.history_of (G := fun tr => tr.pre.StepOk tr.act)
    (P := fun _ st => st.Ok digest) (IndexState.Ok.init digest catalog)
    (fun _ _ _ _ _ h hstep hguard => h.step hdigest hguard hstep) hrun hok
  exact hst.converged hdigest hfinished

/-! ### Two rebuilds of a server -/

namespace IndexState

theorem forall_later_iff {α : Type} (l : List α) (k : Nat) (P : α → Prop) :
    (∀ k' a, k < k' → l[k']? = some a → P a) ↔ ∀ a ∈ l.drop (k + 1), P a := by
  constructor
  · intro h a ha
    obtain ⟨i, hi⟩ := List.mem_iff_getElem?.mp ha
    rw [List.getElem?_drop] at hi
    exact h (k + 1 + i) a (by omega) hi
  · intro h k' a hk ha
    apply h a
    rw [List.mem_iff_getElem?]
    refine ⟨k' - (k + 1), ?_⟩
    rw [List.getElem?_drop, show k + 1 + (k' - (k + 1)) = k' by omega]
    exact ha

/-- Whether no later rebuild of the same server has made a call. -/
def inOrder (st : IndexState) (k : Nat) : Bool :=
  match st.rebuilds[k]? with
  | none => true
  | some r => (st.rebuilds.drop (k + 1)).all fun r' =>
    decide (r'.serverId = r.serverId → r'.stage = .started)

theorem inOrder_iff (st : IndexState) (k : Nat) : st.inOrder k = true ↔
    ∀ r, st.rebuilds[k]? = some r → ∀ k' r', k < k' → st.rebuilds[k']? = some r' →
      r'.serverId = r.serverId → r'.stage = .started := by
  unfold inOrder
  cases hr : st.rebuilds[k]? with
  | none => simp
  | some r =>
    rw [List.all_eq_true]
    simp only [decide_eq_true_eq, Option.some.injEq, forall_eq']
    exact (forall_later_iff _ k _).symm

instance decidableStepOk (st : IndexState) : (a : IndexAction) → Decidable (st.StepOk a)
  | .start S (.loaded tools) =>
    decidable_of_iff (∀ t ∈ tools, ∀ r ∈ st.rebuilds, ∀ t' ∈ r.tools,
      actionText S t.name = actionText r.serverId t'.name → S = r.serverId) (by
      simp [StepOk])
  | .start _ .noContext => isTrue (by simp [StepOk])
  | .start _ .notLoaded => isTrue (by simp [StepOk])
  | .bulkUpsert k => decidable_of_iff (st.inOrder k = true) (st.inOrder_iff k)
  | .deleteByServerIdExcept k => decidable_of_iff (st.inOrder k = true) (st.inOrder_iff k)

end IndexState

/-- A tool of the server before and after it was renamed. -/
def oldTool : Tool := ⟨"purge", none, none, none, none⟩

def newTool : Tool := ⟨"remove", none, none, none, none⟩

/-- Both rebuilds make their calls in order. -/
def rebuildsInOrder : List IndexAction :=
  [.start "files" (.loaded [oldTool]), .bulkUpsert 0, .start "files" (.loaded [newTool]),
    .deleteByServerIdExcept 0, .bulkUpsert 1, .deleteByServerIdExcept 1]

/-- The first rebuild is overtaken by the second. -/
def rebuildsOvertaken : List IndexAction :=
  [.start "files" (.loaded [oldTool]), .start "files" (.loaded [newTool]), .bulkUpsert 1,
    .deleteByServerIdExcept 1, .bulkUpsert 0, .deleteByServerIdExcept 0]

theorem catalog_converges_rebuildsInOrder :
    ∃ st, IsRun (IndexState.step id) ⟨.empty, []⟩
        (trace (IndexState.step id) ⟨.empty, []⟩ rebuildsInOrder) st ∧
      st.Finished ∧ st.Converged id := by
  have hobs : (exec (IndexState.step id) ⟨.empty, []⟩ rebuildsInOrder).map (·.rebuilds) =
      some [⟨"files", [oldTool], .finished⟩, ⟨"files", [newTool], .finished⟩] := by decide
  obtain ⟨st, hst, hrebuilds⟩ := Option.map_eq_some_iff.mp hobs
  have hrun := isRun_trace _ _ _ hst
  have hfinished : st.Finished := by
    intro r hr
    rw [hrebuilds] at hr
    simp only [List.mem_cons, List.not_mem_nil, or_false] at hr
    cases hr with
    | inl hr => rw [hr]
    | inr hr => rw [hr]
  exact ⟨st, hrun, hfinished,
    catalog_converges Function.injective_id hrun (by decide) hfinished⟩

theorem catalog_diverges :
    ¬ ∀ (digest : String → String), Function.Injective digest → ∀ (catalog : Catalog)
      (trs : List (Transition IndexState IndexAction)) (st : IndexState),
      IsRun (IndexState.step digest) ⟨catalog, []⟩ trs st → st.Finished → st.Converged digest := by
  intro hall
  have hobs : (exec (IndexState.step id) ⟨.empty, []⟩ rebuildsOvertaken).map
      (fun st => (st.rebuilds, st.catalog.get? (actionId id "files" "remove"))) =
      some ([⟨"files", [oldTool], .finished⟩, ⟨"files", [newTool], .finished⟩], none) := by decide
  obtain ⟨st, hst, hobs⟩ := Option.map_eq_some_iff.mp hobs
  obtain ⟨hrebuilds, hnone⟩ := Prod.mk.inj hobs
  have hfinished : st.Finished := by
    intro r hr
    rw [hrebuilds] at hr
    simp only [List.mem_cons, List.not_mem_nil, or_false] at hr
    cases hr with
    | inl hr => rw [hr]
    | inr hr => rw [hr]
  have hlast : st.LastStarted "files" 1 ⟨"files", [newTool], .finished⟩ := by
    refine ⟨by rw [hrebuilds]; rfl, rfl, ?_⟩
    intro k' r' hk hr'
    rw [hrebuilds, List.getElem?_eq_none (by simp; omega)] at hr'
    cases hr'
  have hconverged := hall id Function.injective_id .empty _ st (isRun_trace _ _ _ hst) hfinished
  -- the new tool has no row
  obtain ⟨_, _, _, hget⟩ := hconverged.hasRows "files" 1 _ hlast newTool (by simp)
  exact absurd (hnone.symm.trans hget) (by simp)

end PetaCore
