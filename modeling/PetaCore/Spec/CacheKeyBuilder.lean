import PetaCore.ForStd.JsonText
import PetaCore.ForStd.Segments
import PetaCore.Core.CacheKeyBuilder

/-!
# What the keys of the result cache identify

The text that is hashed for the request parameters is a normal form of the parameters that
are left after the field policies, up to the order of object keys. A stored key can be read
off from both ends, so it determines all its components.

## Key results

- `canonicalParams_eq_iff`: exactly when two parameter values have the same pre-hash text
-/

namespace PetaCore

open Json Segments

/-! ## Parameters -/

/-- What the field policies leave of the parameters: the allowed fields of the value itself,
    without the denied fields at any depth. -/
def filteredParams (denyFields : List String) (allowFields : Option (List String)) (a : Json) :
    Json :=
  filterKeys (fun k => decide (k ∉ denyFields))
    (match allowFields with
      | some allowed => restrictKeys (fun k => decide (k ∈ allowed)) a
      | none => a)

theorem keysDistinct_filteredParams (denyFields : List String)
    (allowFields : Option (List String)) (a : Json) (ha : a.KeysDistinct) :
    (filteredParams denyFields allowFields a).KeysDistinct := by
  refine keysDistinct_filterKeys _ _ ?_
  cases allowFields with
  | none => exact ha
  | some allowed => exact keysDistinct_restrictKeys _ a ha

section

variable (denySet : List String)

mutual

/-- `stripDeniedFields` leaves the denied fields out and lists the rest in property order. -/
theorem stripDeniedFields_eq (a : Json) :
    stripDeniedFields denySet a =
      mapObjects propertyOrder (filterKeys (fun k => decide (k ∉ denySet)) a) := by
  match a with
  | .null | .bool _ | .num _ | .str _ => rfl
  | .arr as => rw [stripDeniedFields, filterKeys, mapObjects, stripDeniedItems_eq as]
  | .obj ms =>
    rw [stripDeniedFields, filterKeys, mapObjects, stripDeniedMembers_eq ms]
    rfl
termination_by sizeOf a

theorem stripDeniedItems_eq (as : List Json) :
    stripDeniedItems denySet as =
      mapItems propertyOrder (filterItems (fun k => decide (k ∉ denySet)) as) := by
  match as with
  | [] => rfl
  | a :: as =>
    rw [stripDeniedItems, filterItems, mapItems, stripDeniedFields_eq a, stripDeniedItems_eq as]
termination_by sizeOf as

theorem stripDeniedMembers_eq (ms : List (String × Json)) :
    stripDeniedMembers denySet ms =
      mapMembers propertyOrder (filterMembers (fun k => decide (k ∉ denySet)) ms) := by
  match ms with
  | [] => rfl
  | (k, a) :: ms =>
    rw [stripDeniedMembers, filterMembers, stripDeniedMembers_eq ms]
    by_cases hk : k ∈ denySet
    · simp [hk]
    · simp [hk, mapMembers, stripDeniedFields_eq a]
termination_by sizeOf ms

end

end

mutual

/-- `stableStringify` prints the objects with their keys sorted. -/
theorem stableChars_eq (a : Json) : stableChars a = chars (mapObjects sortEntries a) := by
  match a with
  | .null | .bool true | .bool false | .num _ | .str _ => simp [stableChars, mapObjects, chars]
  | .arr as =>
    rw [stableChars, mapObjects, stableItems_eq as, chars_arr]
  | .obj ms =>
    -- sorting looks at the keys only, so it does not matter that the values are texts by then
    have hsort : ((mapMembers sortEntries ms).map fun m => (m.1, chars m.2)).insertionSort
        (fun m m' => keyLe m.1 m'.1 = true) =
        (sortEntries (mapMembers sortEntries ms)).map fun m => (m.1, chars m.2) :=
      (List.map_insertionSort _ _ (fun m : String × Json => (m.1, chars m.2)) _
        fun _ _ _ _ => Iff.rfl).symm
    rw [stableChars, mapObjects, stableMembers_eq ms, chars_obj]
    simp only [hsort, List.map_map]
    rfl
termination_by sizeOf a

theorem stableItems_eq (as : List Json) :
    stableItems as = (mapItems sortEntries as).map chars := by
  match as with
  | [] => rfl
  | a :: as => rw [stableItems, mapItems, List.map_cons, stableChars_eq a, stableItems_eq as]
termination_by sizeOf as

theorem stableMembers_eq (ms : List (String × Json)) :
    stableMembers ms = (mapMembers sortEntries ms).map fun m => (m.1, chars m.2) := by
  match ms with
  | [] => rfl
  | (k, a) :: ms =>
    rw [stableMembers, mapMembers, List.map_cons, stableChars_eq a, stableMembers_eq ms]
termination_by sizeOf ms

end

/-- The normal form of what `applyFieldPolicies` leaves. -/
theorem mapObjects_applyFieldPolicies {g : List (String × Json) → List (String × Json)}
    (hg : IsOrdering g) (denyFields : List String) (allowFields : Option (List String)) (a : Json)
    (ha : a.KeysDistinct) :
    (applyFieldPolicies a denyFields allowFields).KeysDistinct ∧
    mapObjects g (applyFieldPolicies a denyFields allowFields) =
      mapObjects g (filteredParams denyFields allowFields a) := by
  have hstrip : ∀ b : Json, b.KeysDistinct → (stripDeniedFields denyFields b).KeysDistinct ∧
      mapObjects g (stripDeniedFields denyFields b) =
        mapObjects g (filterKeys (fun k => decide (k ∉ denyFields)) b) := by
    intro b hb
    have hfilter := keysDistinct_filterKeys (fun k => decide (k ∉ denyFields)) b hb
    rw [stripDeniedFields_eq]
    exact ⟨keysDistinct_mapObjects propertyOrder_perm _ hfilter,
      mapObjects_mapObjects hg propertyOrder_perm _ hfilter⟩
  match allowFields, a with
  | none, a => exact hstrip a ha
  | some allowed, .null | some allowed, .bool _ | some allowed, .num _ | some allowed, .str _
  | some allowed, .arr _ => exact hstrip _ ha
  | some allowed, .obj ms =>
    have hkeep := keysDistinct_restrictKeys (fun k => decide (k ∈ allowed)) (.obj ms) ha
    -- the allowed members in property order are a permutation of the allowed members
    have hperm := propertyOrder_perm (ms.filter fun m => decide (m.1 ∈ allowed))
    have hordered : (Json.obj (propertyOrder (ms.filter fun m => decide (m.1 ∈ allowed))))
        |>.KeysDistinct := by
      refine ⟨((hperm.map Prod.fst).nodup_iff).mpr hkeep.1, ?_⟩
      rw [membersDistinct_iff]
      intro m hm
      exact (membersDistinct_iff _).mp hkeep.2 m (hperm.subset hm)
    obtain ⟨hdistinct, heq⟩ := hstrip _ hordered
    refine ⟨hdistinct, heq.trans ?_⟩
    show Json.obj (g (mapMembers g (filterMembers _ _))) =
      Json.obj (g (mapMembers g (filterMembers _ _)))
    have hmembers : (mapMembers g (filterMembers (fun k => decide (k ∉ denyFields))
        (propertyOrder (ms.filter fun m => decide (m.1 ∈ allowed))))).Perm
        (mapMembers g (filterMembers (fun k => decide (k ∉ denyFields))
          (ms.filter fun m => decide (m.1 ∈ allowed)))) := by
      rw [mapMembers_eq_map, mapMembers_eq_map, filterMembers_eq, filterMembers_eq]
      exact ((hperm.filter _).map _).map _
    refine congrArg Json.obj (hg.canonical _ _ ?_ hmembers)
    rw [map_fst_mapMembers]
    exact hordered.1.sublist (map_fst_filterMembers_sublist _ _)

/-- The pre-hash text of a value is the text of its normal form. -/
theorem canonicalParams_some (denyFields : List String) (allowFields : Option (List String))
    (a : Json) (ha : a.KeysDistinct) :
    canonicalParams (some a) denyFields allowFields =
      stringify (mapObjects sortEntries (filteredParams denyFields allowFields a)) := by
  obtain ⟨hdistinct, heq⟩ :=
    mapObjects_applyFieldPolicies isOrdering_sortEntries denyFields allowFields a ha
  rw [canonicalParams, stableStringify, stableChars_eq, normalizeValue,
    mapObjects_mapObjects isOrdering_sortEntries isOrdering_propertyOrder.perm _ hdistinct, heq,
    stringify]

/-- Two parameter values have the same pre-hash text exactly when what the field policies leave
    of them is equal up to the order of object keys. -/
theorem canonicalParams_eq_iff (denyFields : List String) (allowFields : Option (List String))
    (a b : JsonValue) :
    canonicalParams (some a.1) denyFields allowFields =
        canonicalParams (some b.1) denyFields allowFields ↔
      SameUpToOrder (filteredParams denyFields allowFields a.1)
        (filteredParams denyFields allowFields b.1) := by
  rw [canonicalParams_some _ _ a.1 a.2, canonicalParams_some _ _ b.1 b.2]
  have hiff := mapObjects_eq_iff isOrdering_sortEntries
    (filteredParams denyFields allowFields a.1) (filteredParams denyFields allowFields b.1)
    (keysDistinct_filteredParams denyFields allowFields a.1 a.2)
  rw [← hiff]
  constructor
  · exact stringify_injective
  · intro h
    rw [h]

/-! ## Keys -/

/-- What `digest('hex')` returns: 64 hexadecimal digits. -/
def isDigest (d : String) : Bool :=
  d.length == 64 && d.toList.all fun c => c.isDigit || "abcdef".toList.contains c

theorem notMem_of_isDigest {d : String} (h : isDigest d = true) : ':' ∉ d.toList := by
  simp only [isDigest, Bool.and_eq_true, List.all_eq_true] at h
  intro hmem
  exact absurd (h.2 ':' hmem) (by decide)

/-- What a cached result is the result of. The request is given by the text that is hashed for
    its parameters. -/
structure CacheIdentity where
  operation : CacheOperationType
  serverId : String
  entityId : String
  scopeType : CacheScope
  scopeIdentity : String
  versions : CacheNamespaceVersions
  canonical : String
deriving DecidableEq

namespace CacheIdentity

/-- The components of its keys. -/
def parts (sha256 : String → String) (a : CacheIdentity) : CacheKeyParts where
  operation := a.operation
  serverId := a.serverId
  entityHash := buildEntityHash sha256 a.entityId
  scopeType := a.scopeType
  scopeHash := buildScopeHash sha256 a.scopeIdentity
  versions := a.versions
  requestHash := sha256 a.canonical

/-- Its hashed texts are among the given ones. -/
def Over (texts : Set String) (a : CacheIdentity) : Prop :=
  a.entityId ∈ texts ∧ a.scopeIdentity ∈ texts ∧ a.canonical ∈ texts

end CacheIdentity

/-- The hashes among the components are digests. -/
structure CacheKeyParts.Hashed (p : CacheKeyParts) : Prop where
  entityHash : isDigest p.entityHash = true
  scopeHash : isDigest p.scopeHash = true
  requestHash : isDigest p.requestHash = true

theorem CacheScope.value_inj {s t : CacheScope} (h : s.value = t.value) : s = t := by
  cases s <;> cases t <;> first | rfl | exact absurd h (by decide)

theorem CacheOperationType.value_inj {s t : CacheOperationType} (h : s.value = t.value) :
    s = t := by
  cases s <;> cases t <;> first | rfl | exact absurd h (by decide)

/-- The segments of a key after the server id, none of which has a colon. -/
def keySegments (p : CacheKeyParts) : List (List Char) :=
  [p.entityHash.toList, p.scopeType.value.toList, p.scopeHash.toList,
    'g' :: 'v' :: (toString p.versions.globalVersion).toList,
    's' :: 'v' :: (toString p.versions.serverVersion).toList,
    'e' :: 'v' :: (toString p.versions.entityVersion).toList, p.requestHash.toList]

theorem notMem_keySegments {p : CacheKeyParts} (hp : p.Hashed) :
    ∀ s ∈ keySegments p, ':' ∉ s := by
  have hversion : ∀ (x y : Char) (n : Nat), x ≠ ':' → y ≠ ':' →
      ':' ∉ x :: y :: (toString n).toList := by
    intro x y n hx hy hmem
    simp only [List.mem_cons] at hmem
    rcases hmem with rfl | rfl | hmem
    · exact hx rfl
    · exact hy rfl
    · exact Nat.notMem_toString (by decide) n hmem
  have hscope : ':' ∉ p.scopeType.value.toList := by
    cases p.scopeType <;> decide
  intro s hs
  simp only [keySegments, List.mem_cons, List.not_mem_nil, or_false] at hs
  rcases hs with rfl | rfl | rfl | rfl | rfl | rfl | rfl
  · exact notMem_of_isDigest hp.entityHash
  · exact hscope
  · exact notMem_of_isDigest hp.scopeHash
  · exact hversion 'g' 'v' _ (by decide) (by decide)
  · exact hversion 's' 'v' _ (by decide) (by decide)
  · exact hversion 'e' 'v' _ (by decide) (by decide)
  · exact notMem_of_isDigest hp.requestHash

/-- A key as the text before the server id, the server id, and the segments after it. -/
theorem toList_buildEntryKey (tag keyPrefix : String) (p : CacheKeyParts) :
    (buildEntryKey tag keyPrefix p).toList =
      joinSegments ':' (keyPrefix.toList ++ ':' :: (tag.toList ++ ":v2:".toList ++
        (p.operation.value.toList ++ ':' :: p.serverId.toList))) (keySegments p) := by
  unfold buildEntryKey joinSegments keySegments
  rw [String.toList_append_sep _ ":" _ [':'] (by decide),
    String.toList_append_sep _ ":ev" _ [':', 'e', 'v'] (by decide),
    String.toList_append_sep _ ":sv" _ [':', 's', 'v'] (by decide),
    String.toList_append_sep _ ":gv" _ [':', 'g', 'v'] (by decide),
    String.toList_append_sep _ ":" _ [':'] (by decide),
    String.toList_append_sep _ ":" _ [':'] (by decide),
    String.toList_append_sep _ ":" _ [':'] (by decide),
    String.toList_append_sep _ ":" _ [':'] (by decide), String.toList_append,
    String.toList_append, String.toList_append_sep _ ":" _ [':'] (by decide)]
  simp only [List.foldl_cons, List.foldl_nil, List.append_assoc, List.cons_append,
    List.nil_append]

/-- A key determines its components. -/
theorem buildEntryKey_inj {tag keyPrefix : String} {p q : CacheKeyParts} (hp : p.Hashed)
    (hq : q.Hashed) (h : buildEntryKey tag keyPrefix p = buildEntryKey tag keyPrefix q) :
    p = q := by
  have hlist := congrArg String.toList h
  rw [toList_buildEntryKey, toList_buildEntryKey] at hlist
  have hlen : (keySegments p).length = (keySegments q).length := rfl
  obtain ⟨hhead, hsegments⟩ :=
    joinSegments_inj hlen (notMem_keySegments hp) (notMem_keySegments hq) hlist
  have htail := List.append_cancel_left (List.cons.inj (List.append_cancel_left hhead)).2
  have hop : ∀ o : CacheOperationType, ':' ∉ o.value.toList := by
    intro o
    cases o <;> decide
  obtain ⟨hoperation, hserver⟩ := append_sep_inj (hop _) (hop _) htail
  simp only [keySegments, List.cons.injEq, true_and, and_true, String.toList_inj] at hsegments
  obtain ⟨hentity, hscopeType, hscope, hgv, hsv, hev, hrequest⟩ := hsegments
  obtain ⟨o, s, e, st, sh, ⟨gv, sv, ev⟩, r⟩ := p
  obtain ⟨o', s', e', st', sh', ⟨gv', sv', ev'⟩, r'⟩ := q
  obtain rfl := CacheOperationType.value_inj (String.toList_inj.mp hoperation)
  obtain rfl := String.toList_inj.mp hserver
  obtain rfl := CacheScope.value_inj hscopeType
  obtain rfl := Nat.toString_inj hgv
  obtain rfl := Nat.toString_inj hsv
  obtain rfl := Nat.toString_inj hev
  simp only at hentity hscope hrequest
  rw [hentity, hscope, hrequest]

/-- The start of a key after the prefix. -/
private theorem buildEntryKey_start (tag keyPrefix : String) (p : CacheKeyParts) :
    ∃ rest, (buildEntryKey tag keyPrefix p).toList =
      keyPrefix.toList ++ (':' :: tag.toList ++ ':' :: rest) := by
  have hstart : ∀ (segments : List (List Char)) (a b : List Char),
      ∃ rest, joinSegments ':' (a ++ ':' :: b) segments = a ++ ':' :: (b ++ rest) := by
    intro segments
    induction segments with
    | nil =>
      intro a b
      exact ⟨[], by simp [joinSegments]⟩
    | cons s segments ih =>
      intro a b
      obtain ⟨rest, hrest⟩ := ih a (b ++ ':' :: s)
      refine ⟨':' :: s ++ rest, ?_⟩
      simp only [joinSegments, List.foldl_cons, List.append_assoc, List.cons_append] at hrest ⊢
      rw [hrest]
  rw [toList_buildEntryKey]
  obtain ⟨rest, hrest⟩ := hstart (keySegments p) keyPrefix.toList
    (tag.toList ++ ":v2:".toList ++ (p.operation.value.toList ++ ':' :: p.serverId.toList))
  refine ⟨"v2:".toList ++ (p.operation.value.toList ++ ':' :: p.serverId.toList) ++ rest, ?_⟩
  rw [hrest]
  simp

private theorem buildNamespaceKey_start (keyPrefix : String) (parts : List String) :
    ∃ rest, (buildNamespaceKey keyPrefix parts).toList =
      keyPrefix.toList ++ (':' :: "rcns".toList ++ ':' :: rest) := by
  refine ⟨(":".intercalate parts).toList, ?_⟩
  rw [buildNamespaceKey, String.toList_append_sep _ ":rcns:" _ [':', 'r', 'c', 'n', 's', ':']
    (by decide)]
  rfl

/-- Keys of families with different tags are different. -/
private theorem ne_of_start {keyPrefix x y tag tag' : String} (htag : ':' ∉ tag.toList)
    (htag' : ':' ∉ tag'.toList) (hne : tag ≠ tag')
    (hx : ∃ rest, x.toList = keyPrefix.toList ++ (':' :: tag.toList ++ ':' :: rest))
    (hy : ∃ rest, y.toList = keyPrefix.toList ++ (':' :: tag'.toList ++ ':' :: rest)) :
    x ≠ y := by
  intro heq
  obtain ⟨rest, hx⟩ := hx
  obtain ⟨rest', hy⟩ := hy
  rw [heq, hy] at hx
  have htail := (List.cons.inj (List.append_cancel_left hx)).2
  exact hne (String.toList_inj.mp (append_sep_inj htag' htag htail).1).symm

/-- Over any set of texts on which `sha256` is injective with digests as values: a result key
    determines everything it is the key of, so does an admission key, and result, admission and
    namespace keys are different from each other. -/
theorem cache_keys_exact (sha256 : String → String) (texts : Set String)
    (hinj : Set.InjOn sha256 texts) (hdigest : ∀ s ∈ texts, isDigest (sha256 s) = true)
    (keyPrefix : String) :
    (∀ a b : CacheIdentity, a.Over texts → b.Over texts →
      buildResultEntryKey keyPrefix (a.parts sha256) =
        buildResultEntryKey keyPrefix (b.parts sha256) → a = b) ∧
    (∀ a b : CacheIdentity, a.Over texts → b.Over texts →
      buildAdmissionKey keyPrefix (a.parts sha256) =
        buildAdmissionKey keyPrefix (b.parts sha256) → a = b) ∧
    (∀ p q : CacheKeyParts, buildResultEntryKey keyPrefix p ≠ buildAdmissionKey keyPrefix q) ∧
    (∀ (p : CacheKeyParts) (parts : List String),
      buildResultEntryKey keyPrefix p ≠ buildNamespaceKey keyPrefix parts) ∧
    ∀ (p : CacheKeyParts) (parts : List String),
      buildAdmissionKey keyPrefix p ≠ buildNamespaceKey keyPrefix parts := by
  have hhashed : ∀ a : CacheIdentity, a.Over texts → (a.parts sha256).Hashed :=
    fun a ha => ⟨hdigest _ ha.1, hdigest _ ha.2.1, hdigest _ ha.2.2⟩
  have hidentity : ∀ (tag : String) (a b : CacheIdentity), a.Over texts → b.Over texts →
      buildEntryKey tag keyPrefix (a.parts sha256) =
        buildEntryKey tag keyPrefix (b.parts sha256) → a = b := by
    intro tag a b ha hb h
    have hparts := buildEntryKey_inj (hhashed a ha) (hhashed b hb) h
    obtain ⟨o, s, e, st, si, v, c⟩ := a
    obtain ⟨o', s', e', st', si', v', c'⟩ := b
    simp only [CacheIdentity.parts, CacheKeyParts.mk.injEq] at hparts
    obtain ⟨rfl, rfl, hentity, rfl, hscope, rfl, hrequest⟩ := hparts
    obtain rfl := hinj ha.1 hb.1 hentity
    obtain rfl := hinj ha.2.1 hb.2.1 hscope
    obtain rfl := hinj ha.2.2 hb.2.2 hrequest
    rfl
  refine ⟨hidentity "rc", hidentity "rcadm", ?_, ?_, ?_⟩
  · intro p q
    exact ne_of_start (by decide) (by decide) (by decide) (buildEntryKey_start "rc" keyPrefix p)
      (buildEntryKey_start "rcadm" keyPrefix q)
  · intro p parts
    exact ne_of_start (by decide) (by decide) (by decide) (buildEntryKey_start "rc" keyPrefix p)
      (buildNamespaceKey_start keyPrefix parts)
  · intro p parts
    exact ne_of_start (by decide) (by decide) (by decide)
      (buildEntryKey_start "rcadm" keyPrefix p) (buildNamespaceKey_start keyPrefix parts)

/-- The digests of the texts of the example; those of other texts are left open. -/
def exampleDigest (s : String) : String :=
  if s = "purge" then "c1a4373e1006096b0e1c0dcc8e2bc05f8063e3520cc0502a7292627b14bb9061"
  else if s = "alice" then "2bd806c97f0e00af1a1fc3328fa763a9269723c8db8fac4f93af71db186d6e90"
  else if s = "\x7b\x7d" then
    "44136fa355b3678a1146ad16f7e8649e94fb4fc21fe77e8310c060f61caaff8a"
  else ""

/-- The texts of the example. -/
def exampleTexts : Set String := {"purge", "alice", "\x7b\x7d"}

theorem injOn_exampleDigest : Set.InjOn exampleDigest exampleTexts := by
  intro s hs t ht h
  simp only [exampleTexts, Set.mem_insert_iff, Set.mem_singleton_iff] at hs ht
  rcases hs with rfl | rfl | rfl <;> rcases ht with rfl | rfl | rfl <;>
    first | rfl | exact absurd h (by decide)

theorem isDigest_exampleDigest : ∀ s ∈ exampleTexts, isDigest (exampleDigest s) = true := by
  intro s hs
  simp only [exampleTexts, Set.mem_insert_iff, Set.mem_singleton_iff] at hs
  rcases hs with rfl | rfl | rfl <;> decide

/-- Results of one tool on two servers, one with a colon in its id, have different keys. -/
theorem cache_keys_exact_example :
    buildResultEntryKey "peta" (CacheIdentity.parts exampleDigest
        ⟨.tool, "files:a", "purge", .user, "alice", ⟨1, 2, 3⟩, "\x7b\x7d"⟩) ≠
      buildResultEntryKey "peta" (CacheIdentity.parts exampleDigest
        ⟨.tool, "files", "purge", .user, "alice", ⟨1, 2, 3⟩, "\x7b\x7d"⟩) := by
  intro h
  have hover : ∀ serverId, CacheIdentity.Over exampleTexts
      ⟨.tool, serverId, "purge", .user, "alice", ⟨1, 2, 3⟩, "\x7b\x7d"⟩ := by
    intro serverId
    simp [CacheIdentity.Over, exampleTexts]
  have hsame := (cache_keys_exact exampleDigest exampleTexts injOn_exampleDigest
    isDigest_exampleDigest "peta").1 _ _ (hover "files:a") (hover "files") h
  exact absurd hsame (by decide)

end PetaCore
