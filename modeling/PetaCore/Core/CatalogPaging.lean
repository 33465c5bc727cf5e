import Mathlib.Data.List.Infix
import PetaCore.Core.Discovery
import PetaCore.Core.IpWhitelist

/-!
# The pages of a catalog search

A search asks the repository for the rows that match, ranks those that the user may use, and cuts
one page out of them; its cursor is the offset of the next page. Every page starts from a new
question to the repository. The database's comparison of texts and `toLowerCase` are parameters.
-/

namespace PetaCore

/-- `CatalogRiskLevel` -/
inductive CatalogRiskLevel where
  | low
  | medium
  | high
  | critical
deriving DecidableEq

/-- A row of the table `catalog_action` with the columns that a search reads. -/
structure CatalogActionRecord extends CatalogAction where
  title : String
  schemaHash : String
  searchText : Option String
  lastIndexedAt : Timestamp
deriving DecidableEq

/-- The table as a search sees it; `actionId` is unique. -/
abbrev CatalogTable := Dict CatalogActionRecord

/-- `CatalogSearchParams` -/
structure CatalogSearchParams where
  query : String
  serverIds : List String
  riskMax : Option CatalogRiskLevel
  limit : Nat
  offset : Nat

namespace CatalogActionRepository

/-- `RISK_ORDER` -/
def riskOrder : CatalogRiskLevel → Nat
  | .low => 1
  | .medium => 2
  | .high => 3
  | .critical => 4

/-- The risk level that the index writes, as one of `RISK_ORDER`. -/
def catalogRiskLevel : DirectExposureRiskLevel → CatalogRiskLevel
  | .low => .low
  | .high => .high

/-- The `where` of `search`; `contains` compares a column with the query. -/
def isMatch (contains : String → String → Bool) (params : CatalogSearchParams)
    (action : CatalogActionRecord) : Bool :=
  let textMatches :=
    match action.searchText with
    | none => false
    | some searchText => contains searchText params.query
  let serverMatches := params.serverIds.isEmpty || params.serverIds.contains action.serverId
  let riskMatches :=
    match params.riskMax, action.riskLevel with
    | none, _ => true
    | _, none => true
    | some riskMax, some level => riskOrder (catalogRiskLevel level) ≤ riskOrder riskMax
  action.enabled && textMatches && serverMatches && riskMatches

/-- The rows of the table that match. -/
def matching (contains : String → String → Bool) (table : CatalogTable)
    (params : CatalogSearchParams) : List (String × CatalogActionRecord) :=
  table.entries.filter fun e => isMatch contains params e.2

/-- What `search` can return: of the rows that match, the last indexed ones first, those that
    `skip` and `take` leave. Nothing is said about rows that were indexed at the same time. -/
def IsAnswer (contains : String → String → Bool) (table : CatalogTable)
    (params : CatalogSearchParams) (rows : List (String × CatalogActionRecord)) : Prop :=
  ∃ listed : List (String × CatalogActionRecord),
    listed.Perm (matching contains table params) ∧
    listed.Pairwise (fun a b => b.2.lastIndexedAt ≤ a.2.lastIndexedAt) ∧
    rows = (listed.drop params.offset).take params.limit

end CatalogActionRepository

/-- `CatalogSearchInput`. In the tool's schema the limit is an integer. -/
structure CatalogSearchInput where
  query : String
  profileId : Option String
  serverIds : Option (List String)
  riskMax : Option CatalogRiskLevel
  directCallableOnly : Option Bool
  limit : Option Int
  cursor : Option String

/-- `CatalogSearchResultItem` with all its fields. -/
structure CatalogSearchRow extends CatalogSearchResultItem where
  title : String
  schemaHash : String
deriving DecidableEq

/-- `CatalogSearchResult` -/
structure CatalogSearchResult where
  results : List CatalogSearchRow
  nextCursor : Option String
  totalCount : Nat
deriving DecidableEq

/-- What a search of one user reads besides its input: the user's `permissions`, when there is a
    row of the user, the server ids of `getAuthContextFromUser`, the callback, and the profiles. -/
structure DiscoverySearchService where
  user : Option Json
  authServerIds : List String
  canUseTool : Option (String → String → Bool)
  findById : String → Option DiscoveryProfile
  getActiveProfile : Option DiscoveryProfile
  toLowerCase : String → String

namespace DiscoverySearchService

/-- `MAX_SCAN_SIZE` -/
def maxScanSize : Nat := 1000

/-- `parseCursor`: `parseInt(cursor, 10)`, with 0 for `NaN` and for a negative number. -/
def parseCursor (cursor : Option String) : Nat :=
  match cursor with
  | none => 0
  | some text =>
    match text.toList.dropWhile isJsWhitespace with
    | '-' :: _ => 0
    | '+' :: cs | cs => (parseDigits 10 decimalDigit cs none).getD 0

/-- `text.includes(part)` -/
def includes (text part : String) : Bool := decide (part.toList <:+: text.toList)

/-- `calculateRank` -/
def calculateRank (service : DiscoverySearchService) (action : CatalogActionRecord)
    (query : String) : Nat :=
  let q := service.toLowerCase query
  let displayName := service.toLowerCase action.displayName
  let title := service.toLowerCase action.title
  let summary := service.toLowerCase action.summary
  let searchText := (action.searchText.map service.toLowerCase).getD ""
  (if displayName = q then 1000 else if includes displayName q then 400 else 0) +
    (if title = q then 350 else if includes title q then 200 else 0) +
    (if includes summary q then 80 else 0) +
    (if includes searchText q then 40 else 0)

/-- The page size: `Math.min(Math.max(input.limit ?? 10, 1), 25)` -/
def pageLimit (limit : Option Int) : Nat := (min (max (limit.getD 10) 1) 25).toNat

/-- The servers that are searched. -/
def searchedServerIds (service : DiscoverySearchService) (input : CatalogSearchInput) :
    List String :=
  let requestedServerIds := (input.serverIds.getD []).filter fun id => !isBlank id
  if requestedServerIds.isEmpty then service.authServerIds
  else requestedServerIds.filter fun id => service.authServerIds.contains id

/-- What the repository is asked. -/
def scanParams (service : DiscoverySearchService) (input : CatalogSearchInput) :
    CatalogSearchParams :=
  { query := trim input.query
    serverIds := service.searchedServerIds input
    riskMax := input.riskMax
    limit := maxScanSize
    offset := 0 }

/-- The rules of the profile that is named or active; `none` when the named one does not exist. -/
def exposureRules (service : DiscoverySearchService) (input : CatalogSearchInput) :
    Option (List ExposureRule) :=
  let rulesOf (profile : Option DiscoveryProfile) : List ExposureRule :=
    (profile.map (·.directExposureRules)).getD []
  match input.profileId with
  | none | some "" => some (rulesOf service.getActiveProfile)
  | some profileId =>
    match service.findById profileId with
    | none => none
    | some profile => some (rulesOf (some profile))

/-- The filters of a search, one after another. -/
def filterScanned (service : DiscoverySearchService) (rules : List ExposureRule)
    (directCallableOnly : Option Bool) (scanned : List (String × CatalogActionRecord)) :
    List (String × CatalogActionRecord) :=
  let toolPermissionFiltered :=
    match service.user with
    | none => scanned
    | some permissions => scanned.filter fun e =>
      Discovery.isToolEnabledForUser permissions e.2.serverId e.2.originalName
  let callbackFiltered :=
    match service.canUseTool with
    | none => toolPermissionFiltered
    | some canUseTool => toolPermissionFiltered.filter fun e =>
      canUseTool e.2.serverId e.2.originalName
  if directCallableOnly = some true then
    callbackFiltered.filter fun e => Discovery.directCallable rules e.2.toCatalogAction
  else callbackFiltered

/-- A row as it is reported. -/
def searchRow (rules : List ExposureRule) (e : String × CatalogActionRecord) : CatalogSearchRow :=
  { toCatalogSearchResultItem := Discovery.resultItem rules (e.1, e.2.toCatalogAction)
    title := e.2.title
    schemaHash := e.2.schemaHash }

/-- `search`; `scan` is the repository's answer. -/
def search (service : DiscoverySearchService)
    (scan : CatalogSearchParams → List (String × CatalogActionRecord))
    (input : CatalogSearchInput) : CatalogSearchResult :=
  let nothing : CatalogSearchResult := { results := [], nextCursor := none, totalCount := 0 }
  let query := trim input.query
  if query = "" then nothing
  else if service.authServerIds.isEmpty then nothing
  else if (service.searchedServerIds input).isEmpty then nothing
  else
    let limit := pageLimit input.limit
    let offset := parseCursor input.cursor
    let scanned := scan (service.scanParams input)
    match service.exposureRules input with
    | none => nothing
    | some rules =>
      let filtered := service.filterScanned rules input.directCallableOnly scanned
      let rank (e : String × CatalogActionRecord) : Nat := service.calculateRank e.2 query
      let ranked := filtered.mergeSort fun a b => decide (rank b ≤ rank a)
      { results := ((ranked.drop offset).take limit).map (searchRow rules)
        nextCursor :=
          if offset + limit < ranked.length then some (toString (offset + limit)) else none
        totalCount := ranked.length }

end DiscoverySearchService

end PetaCore
