import PetaCore.Core.CatalogPaging
import PetaCore.ForStd.Paging

/-!
# Following a catalog search from page to page

The rows that a search offers are those of its scan that the user may use. A page is a slice of
them, ranked, and its cursor is read back as the offset of the next one, so that the pages that are
cut from one scan make up its rows. The scan stops after `MAX_SCAN_SIZE` rows, before the rows are
filtered.

## Key results

- `search_eq`: a page is a slice of the rows offered
- `slices`: how the pages of one walk follow each other
- `catalog_paging`: the walk ends and is complete for what is scanned
-/

namespace PetaCore

open CatalogActionRepository (IsAnswer matching)

namespace DiscoverySearchService

/-! ## The cursor -/

/-- The cursor that a page gives is the offset that the next one begins at. -/
theorem parseCursor_toString (n : Nat) : parseCursor (some (toString n)) = n := by
  obtain ⟨c, cs, hdigits, hall, hread⟩ := exists_toDigits_eq_cons n
  obtain ⟨hdrop, hminus, hplus⟩ := dropWhile_of_isDigit (hall c List.mem_cons_self) cs
  rw [parseCursor, Nat.toList_toString, hdigits, hdrop]
  split
  case h_1 _ hsign => exact absurd (List.cons.inj hsign).1 hminus
  case h_2 _ hsign => exact absurd (List.cons.inj hsign).1 hplus
  case h_3 => rw [hread, Option.getD_some]

end DiscoverySearchService

/-! ## The scan -/

namespace CatalogActionRepository

variable {contains : String → String → Bool} {table : CatalogTable} {params : CatalogSearchParams}
  {rows : List (String × CatalogActionRecord)}

theorem IsAnswer.length_le (h : IsAnswer contains table params rows) :
    rows.length ≤ params.limit := by
  obtain ⟨listed, _, _, rfl⟩ := h
  exact List.length_take_le _ _

/-- No action is scanned twice. -/
theorem IsAnswer.nodup (h : IsAnswer contains table params rows) :
    (rows.map Prod.fst).Nodup := by
  obtain ⟨listed, hperm, _, rfl⟩ := h
  have hmatching : ((matching contains table params).map Prod.fst).Nodup :=
    table.nodup.sublist (List.filter_sublist.map Prod.fst)
  have hlisted : (listed.map Prod.fst).Nodup := (hperm.map Prod.fst).nodup_iff.mpr hmatching
  exact hlisted.sublist (((List.take_sublist _ _).trans (List.drop_sublist _ _)).map Prod.fst)

/-- A scan from the start that has room for every match has them all. -/
theorem IsAnswer.perm_matching (h : IsAnswer contains table params rows)
    (hoffset : params.offset = 0) (hle : (matching contains table params).length ≤ params.limit) :
    rows.Perm (matching contains table params) := by
  obtain ⟨listed, hperm, _, rfl⟩ := h
  rw [hoffset, List.drop_zero, List.take_of_length_le (by rw [hperm.length_eq]; exact hle)]
  exact hperm

/-- An answer of a database that leaves rows indexed at the same time in the table's order. -/
def listing (contains : String → String → Bool) (table : CatalogTable)
    (params : CatalogSearchParams) : List (String × CatalogActionRecord) :=
  (((matching contains table params).mergeSort fun a b =>
    decide (b.2.lastIndexedAt ≤ a.2.lastIndexedAt)).drop params.offset).take params.limit

theorem isAnswer_listing (contains : String → String → Bool) (table : CatalogTable)
    (params : CatalogSearchParams) :
    IsAnswer contains table params (listing contains table params) := by
  refine ⟨_, List.mergeSort_perm _ _, ?_, rfl⟩
  have htrans : ∀ a b c : String × CatalogActionRecord,
      decide (b.2.lastIndexedAt ≤ a.2.lastIndexedAt) = true →
      decide (c.2.lastIndexedAt ≤ b.2.lastIndexedAt) = true →
      decide (c.2.lastIndexedAt ≤ a.2.lastIndexedAt) = true := by
    intro a b c hab hbc
    have hba := of_decide_eq_true hab
    have hcb := of_decide_eq_true hbc
    exact decide_eq_true (le_trans hcb hba)
  have htotal : ∀ a b : String × CatalogActionRecord,
      (decide (b.2.lastIndexedAt ≤ a.2.lastIndexedAt) ||
        decide (a.2.lastIndexedAt ≤ b.2.lastIndexedAt)) = true := by
    intro a b
    simp only [Bool.or_eq_true, decide_eq_true_eq]
    exact le_total _ _
  have hsorted := List.pairwise_mergeSort htrans htotal (matching contains table params)
  exact hsorted.imp fun h => of_decide_eq_true h

end CatalogActionRepository

namespace DiscoverySearchService

/-! ## The rows that a search offers -/

/-- A row passes the filters of a search. -/
def mayUse (service : DiscoverySearchService) (rules : List ExposureRule)
    (directCallableOnly : Option Bool) (e : String × CatalogActionRecord) : Bool :=
  service.user.all (Discovery.isToolEnabledForUser · e.2.serverId e.2.originalName) &&
    service.canUseTool.all (fun canUseTool => canUseTool e.2.serverId e.2.originalName) &&
    (directCallableOnly != some true || Discovery.directCallable rules e.2.toCatalogAction)

theorem filterScanned_eq (service : DiscoverySearchService) (rules : List ExposureRule)
    (directCallableOnly : Option Bool) (scanned : List (String × CatalogActionRecord)) :
    service.filterScanned rules directCallableOnly scanned =
      scanned.filter (service.mayUse rules directCallableOnly) := by
  unfold filterScanned mayUse
  by_cases honly : directCallableOnly = some true
  · cases service.user <;> cases service.canUseTool <;>
      simp [honly, List.filter_filter, Bool.and_comm, Bool.and_left_comm]
  · have hne : (directCallableOnly != some true) = true := by simpa using honly
    cases service.user <;> cases service.canUseTool <;>
      simp [honly, hne, List.filter_filter, Bool.and_comm]

/-- A row that is scanned can be returned: the user may use it. A blank query, no server to search
    and an unknown profile leave no row. -/
def offers (service : DiscoverySearchService) (input : CatalogSearchInput)
    (e : String × CatalogActionRecord) : Bool :=
  trim input.query != "" && !(service.searchedServerIds input).isEmpty &&
    (service.exposureRules input).any fun rules =>
      service.mayUse rules input.directCallableOnly e

/-- The rows that a search can return. -/
def offered (service : DiscoverySearchService)
    (scan : CatalogSearchParams → List (String × CatalogActionRecord))
    (input : CatalogSearchInput) : List (String × CatalogActionRecord) :=
  (scan (service.scanParams input)).filter (service.offers input)

/-- The rows offered in the order in which the pages list them. -/
def ranked (service : DiscoverySearchService)
    (scan : CatalogSearchParams → List (String × CatalogActionRecord))
    (input : CatalogSearchInput) : List (String × CatalogActionRecord) :=
  (service.offered scan input).mergeSort fun a b =>
    decide (service.calculateRank b.2 (trim input.query) ≤
      service.calculateRank a.2 (trim input.query))

theorem ranked_perm (service : DiscoverySearchService)
    (scan : CatalogSearchParams → List (String × CatalogActionRecord))
    (input : CatalogSearchInput) :
    (service.ranked scan input).Perm (service.offered scan input) := List.mergeSort_perm _ _

theorem searchedServerIds_isEmpty {service : DiscoverySearchService} (input : CatalogSearchInput)
    (h : service.authServerIds.isEmpty = true) :
    (service.searchedServerIds input).isEmpty = true := by
  have hnil : service.authServerIds = [] := List.isEmpty_iff.mp h
  rw [searchedServerIds, hnil]
  simp

/-- A page is a slice of the rows offered. -/
theorem search_eq (service : DiscoverySearchService)
    (scan : CatalogSearchParams → List (String × CatalogActionRecord))
    (input : CatalogSearchInput) :
    service.search scan input =
      { results := (((service.ranked scan input).drop (parseCursor input.cursor)).take
          (pageLimit input.limit)).map (searchRow ((service.exposureRules input).getD []))
        nextCursor :=
          if parseCursor input.cursor + pageLimit input.limit < (service.ranked scan input).length
          then some (toString (parseCursor input.cursor + pageLimit input.limit)) else none
        totalCount := (service.ranked scan input).length } := by
  unfold search ranked
  by_cases hquery : trim input.query = ""
  · have hnone : service.offered scan input = [] := by simp [offered, offers, hquery]
    simp [hquery, hnone]
  by_cases hservers : (service.searchedServerIds input).isEmpty = true
  · have hnone : service.offered scan input = [] := by simp [offered, offers, hservers]
    by_cases hauth : service.authServerIds.isEmpty = true
    · simp [hquery, hauth, hnone]
    · simp [hquery, hservers, hauth, hnone]
  · have hauth : ¬service.authServerIds.isEmpty = true :=
      fun h => hservers (searchedServerIds_isEmpty input h)
    simp only [hquery, hservers, hauth, if_false]
    cases hrules : service.exposureRules input with
    | none =>
      have hnone : service.offered scan input = [] := by simp [offered, offers, hrules]
      simp [hnone]
    | some rules =>
      have hoffers : service.offers input = service.mayUse rules input.directCallableOnly := by
        funext e
        simp [offers, hquery, hservers, hrules]
      simp [filterScanned_eq, offered, hoffers]

/-! ## Following the cursor -/

/-- The results of a search from its first page on, each page with the cursor of the one before it
    and otherwise with the same input. The repository's answers may differ from page to page. -/
def Pages (service : DiscoverySearchService)
    (answers : Nat → CatalogSearchParams → List (String × CatalogActionRecord))
    (input : CatalogSearchInput) (pages : List CatalogSearchResult) : Prop :=
  Paging.Followed (fun n cursor => service.search (answers n) { input with cursor := cursor })
    CatalogSearchResult.nextCursor 0 none pages

/-- The action ids of the results, in their order. -/
def actionIds (results : List CatalogSearchRow) : List String := results.map (·.actionId)

/-- The pages together show every row once, and each of them counts the rows. -/
structure Complete (pages : List CatalogSearchResult)
    (rows : List (String × CatalogActionRecord)) : Prop where
  once : (actionIds (pages.flatMap (·.results))).Nodup
  shown : ∀ id, id ∈ actionIds (pages.flatMap (·.results)) ↔ ∃ action, (id, action) ∈ rows
  total : ∀ page ∈ pages, page.totalCount = rows.length

section Walk

variable {contains : String → String → Bool} {table : CatalogTable}
  {service : DiscoverySearchService} {input : CatalogSearchInput}
  {answers : Nat → CatalogSearchParams → List (String × CatalogActionRecord)}

theorem pageLimit_pos (limit : Option Int) : 0 < pageLimit limit := by
  unfold pageLimit
  omega

/-- How the pages of one walk follow each other. -/
theorem slices (service : DiscoverySearchService) (input : CatalogSearchInput)
    (answers : Nat → CatalogSearchParams → List (String × CatalogActionRecord)) :
    Paging.Slices (fun n cursor => service.search (answers n) { input with cursor := cursor })
      CatalogSearchResult.nextCursor (·.results) parseCursor (pageLimit input.limit)
      (fun n => (service.ranked (answers n) input).map
        (searchRow ((service.exposureRules input).getD []))) where
  items_eq n cursor := by
    show (service.search (answers n) { input with cursor := cursor }).results = _
    rw [search_eq, ← List.map_drop, ← List.map_take]
    rfl
  next_eq_none n cursor h := by
    rw [search_eq] at h
    have hlast : ¬(parseCursor cursor + pageLimit input.limit <
        (service.ranked (answers n) input).length) := fun hlt => by
      have hsome := h
      rw [show (service.ranked (answers n) { input with cursor := cursor }) =
        service.ranked (answers n) input from rfl, if_pos hlt] at hsome
      cases hsome
    simpa using hlast
  next_eq_some n cursor c h := by
    rw [search_eq] at h
    obtain ⟨hlt, hc⟩ := Option.ite_none_right_eq_some.mp h
    rw [← Option.some.inj hc, parseCursor_toString, List.length_map]
    exact ⟨rfl, hlt⟩

/-- The pages cut from one scan are complete for it. -/
theorem Pages.complete {pages : List CatalogSearchResult} (h : service.Pages answers input pages)
    (hsame : ∀ n, answers n (service.scanParams input) = answers 0 (service.scanParams input))
    (hnodup : ((answers 0 (service.scanParams input)).map Prod.fst).Nodup) :
    Complete pages (service.offered (answers 0) input) := by
  have hoffered : ∀ n, service.offered (answers n) input = service.offered (answers 0) input :=
    fun n => by rw [offered, offered, hsame n]
  have hranked : ∀ n, service.ranked (answers n) input = service.ranked (answers 0) input :=
    fun n => by rw [ranked, ranked, hoffered n]
  have hresults := (slices service input answers).flatMap_items
    (fun n => by rw [hranked n]) h
  have hids : actionIds (pages.flatMap (·.results)) =
      (service.ranked (answers 0) input).map Prod.fst := by
    rw [actionIds, hresults, show parseCursor none = 0 from rfl, List.drop_zero, List.map_map]
    rfl
  have hperm := (service.ranked_perm (answers 0) input).map Prod.fst
  refine ⟨?_, ?_, ?_⟩
  · rw [hids, hperm.nodup_iff]
    exact hnodup.sublist (List.filter_sublist.map Prod.fst)
  · intro id
    rw [hids, hperm.mem_iff]
    simp
  · intro page hpage
    obtain ⟨n, cursor, rfl⟩ := h.exists_fetch hpage
    rw [search_eq]
    show (service.ranked (answers n) input).length = _
    rw [hranked n]
    exact (service.ranked_perm (answers 0) input).length_eq

theorem offered_perm
    {scan scan' : CatalogSearchParams → List (String × CatalogActionRecord)}
    (h : (scan (service.scanParams input)).Perm (scan' (service.scanParams input))) :
    (service.offered scan input).Perm (service.offered scan' input) := h.filter _

theorem Complete.of_perm {pages : List CatalogSearchResult}
    {rows rows' : List (String × CatalogActionRecord)} (h : Complete pages rows)
    (hperm : rows.Perm rows') : Complete pages rows' := by
  refine ⟨h.once, ?_, ?_⟩
  · intro id
    rw [h.shown id]
    simp [hperm.mem_iff]
  · intro page hpage
    rw [h.total page hpage, hperm.length_eq]

theorem exists_pages (hanswers : ∀ n, IsAnswer contains table (service.scanParams input)
    (answers n (service.scanParams input))) : ∃ pages, service.Pages answers input pages := by
  have hbound : ∀ n, ((service.ranked (answers n) input).map
      (searchRow ((service.exposureRules input).getD []))).length ≤ maxScanSize := by
    intro n
    rw [List.length_map, (service.ranked_perm (answers n) input).length_eq]
    exact (List.length_filter_le _ _).trans (hanswers n).length_le
  exact (slices service input answers).exists_followed (pageLimit_pos _) hbound 0 none

/-- Following the cursor ends. When the repository scans the same for every page, the pages show
    every scanned action that the user may use once, and count them; the scan has every action that
    matches when there are at most `MAX_SCAN_SIZE`, and then the count does not depend on the
    order. -/
theorem catalog_paging (contains : String → String → Bool) (table : CatalogTable)
    (service : DiscoverySearchService) (input : CatalogSearchInput)
    (answers : Nat → CatalogSearchParams → List (String × CatalogActionRecord))
    (hanswers : ∀ n, IsAnswer contains table (service.scanParams input)
      (answers n (service.scanParams input))) :
    (∃ pages, service.Pages answers input pages) ∧
      ∀ pages, service.Pages answers input pages →
        ((∀ n, answers n (service.scanParams input) = answers 0 (service.scanParams input)) →
          Complete pages (service.offered (answers 0) input)) ∧
        ((matching contains table (service.scanParams input)).length ≤ maxScanSize →
          (∀ page ∈ pages,
            page.totalCount = (service.offered (matching contains table) input).length) ∧
          ((∀ n, answers n (service.scanParams input) = answers 0 (service.scanParams input)) →
            Complete pages (service.offered (matching contains table) input))) := by
  have hall : ∀ n, (matching contains table (service.scanParams input)).length ≤ maxScanSize →
      (service.offered (answers n) input).Perm (service.offered (matching contains table) input) :=
    fun n hle => offered_perm ((hanswers n).perm_matching rfl hle)
  refine ⟨exists_pages hanswers, fun pages hpages => ?_⟩
  have hcomplete :
      (∀ n, answers n (service.scanParams input) = answers 0 (service.scanParams input)) →
        Complete pages (service.offered (answers 0) input) :=
    fun hsame => hpages.complete hsame (hanswers 0).nodup
  refine ⟨hcomplete, fun hle => ⟨?_, fun hsame => (hcomplete hsame).of_perm (hall 0 hle)⟩⟩
  intro page hpage
  obtain ⟨n, cursor, rfl⟩ := hpages.exists_fetch hpage
  rw [search_eq]
  show (service.ranked (answers n) input).length = _
  rw [(service.ranked_perm (answers n) input).length_eq, (hall n hle).length_eq]

end Walk

/-! ## Two catalogs -/

/-- A user who may use every tool of one server. -/
def openService : DiscoverySearchService :=
  { user := none
    authServerIds := ["docs"]
    canUseTool := none
    findById := fun _ => none
    getActiveProfile := none
    toLowerCase := id }

def openAction : CatalogActionRecord :=
  { serverId := "docs", originalName := "read", wireName := "read_-_docs"
    displayName := "docs.read", summary := "read", description := none, riskLevel := none
    enabled := true, title := "read", schemaHash := "", searchText := some "read"
    lastIndexedAt := 0 }

/-- A catalog of `n` actions that differ in their ids. -/
def openTable (n : Nat) : CatalogTable where
  entries := (List.range n).map fun i => (String.ofList (List.replicate i 'a'), openAction)
  nodup := by
    rw [List.map_map]
    refine List.nodup_range.map fun i j hij => ?_
    have hlist := congrArg (fun s : String => s.toList.length) hij
    simpa using hlist

def readInput : CatalogSearchInput :=
  { query := "read", profileId := none, serverIds := none, riskMax := none
    directCallableOnly := none, limit := some 2, cursor := none }

theorem offered_openTable (n : Nat) :
    openService.offered (matching includes (openTable n)) readInput = (openTable n).entries := by
  have htrim : trim "read" = "read" := by decide +kernel
  have hrow : ∀ e ∈ (openTable n).entries, e.2 = openAction := by
    intro e he
    obtain ⟨i, _, rfl⟩ := List.mem_map.mp he
    rfl
  have hmatch : CatalogActionRepository.isMatch includes (openService.scanParams readInput)
      openAction = true := by decide +kernel
  have hall : matching includes (openTable n) (openService.scanParams readInput) =
      (openTable n).entries :=
    List.filter_eq_self.mpr fun e he => by rw [hrow e he]; exact hmatch
  rw [offered, hall]
  refine List.filter_eq_self.mpr fun e _ => ?_
  simp [offers, mayUse, exposureRules, searchedServerIds, openService, readInput, htrim]

/-- With one action too many the last one is on no page, and no page counts it. -/
theorem catalog_paging_cut :
    (∃ pages, openService.Pages
        (fun _ => CatalogActionRepository.listing includes (openTable 1001)) readInput pages) ∧
      ∀ pages, openService.Pages
          (fun _ => CatalogActionRepository.listing includes (openTable 1001)) readInput pages →
        (∀ page ∈ pages, page.totalCount ≠
          (openService.offered (matching includes (openTable 1001)) readInput).length) ∧
        ∃ e ∈ openService.offered (matching includes (openTable 1001)) readInput,
          e.1 ∉ actionIds (pages.flatMap (·.results)) := by
  have hanswer := CatalogActionRepository.isAnswer_listing includes (openTable 1001)
    (openService.scanParams readInput)
  refine ⟨exists_pages fun _ => hanswer, fun pages hpages => ?_⟩
  have hcomplete := hpages.complete (fun _ => rfl) hanswer.nodup
  have hscanned : (openService.offered
      (CatalogActionRepository.listing includes (openTable 1001)) readInput).length ≤ 1000 :=
    (List.length_filter_le _ _).trans hanswer.length_le
  have hlarge : (openTable 1001).entries.length = 1001 := by simp [openTable]
  rw [offered_openTable]
  refine ⟨fun page hpage => ?_, ?_⟩
  · rw [hcomplete.total page hpage, hlarge]
    omega
  -- otherwise the scanned rows would have 1001 different ids
  by_contra hnone
  have hsub : (openTable 1001).entries.map Prod.fst ⊆ (openService.offered
      (CatalogActionRepository.listing includes (openTable 1001)) readInput).map Prod.fst := by
    intro id hid
    obtain ⟨e, he, rfl⟩ := List.mem_map.mp hid
    have hshown : e.1 ∈ actionIds (pages.flatMap (·.results)) := by
      by_contra hmissing
      exact hnone ⟨e, he, hmissing⟩
    obtain ⟨action, haction⟩ := (hcomplete.shown e.1).mp hshown
    exact List.mem_map.mpr ⟨_, haction, rfl⟩
  have hle := (List.subperm_of_subset (openTable 1001).nodup hsub).length_le
  rw [List.length_map, List.length_map, hlarge] at hle
  omega

/-- Three actions on pages of two, from a repository that always lists them the same. -/
theorem catalog_paging_three :
    ∃ pages, openService.Pages
        (fun _ => CatalogActionRepository.listing includes (openTable 3)) readInput pages ∧
      Complete pages (openTable 3).entries := by
  obtain ⟨⟨pages, hpages⟩, hcomplete⟩ := catalog_paging includes (openTable 3) openService
    readInput (fun _ => CatalogActionRepository.listing includes (openTable 3))
    (fun _ => CatalogActionRepository.isAnswer_listing _ _ _)
  have hsmall : (matching includes (openTable 3) (openService.scanParams readInput)).length ≤
      maxScanSize := by decide +kernel
  have h := ((hcomplete pages hpages).2 hsmall).2 fun _ => rfl
  rw [offered_openTable] at h
  exact ⟨pages, hpages, h⟩

end DiscoverySearchService

end PetaCore
