import PetaCore.Core.HeaderAnnotations

/-!
# Header annotations read on both sides

The client validates an annotation where it finds it, and gives up on the first bad one. The
server first collects the annotations and checks their types, then it builds the header names and
looks for duplicates. `normalizeFrom` is the second pass of the server over a part of the list,
with the names seen by then: the client's single pass is the collection followed by it.

Key results:
- `headerAnnotations_eq`: one pass of the client is two passes of the server
- `annotations_agree`: both sides accept the same schemas, with the same annotations
-/

namespace PetaCore

open ModernHttpDownstreamCodec ModernMcpController

/-! ## The second pass -/

/-- The second pass without its errors, and the names seen after it. -/
def normalizeFrom : List HeaderAnnotation → List String →
    Option (List HeaderAnnotation × List String)
  | [], seen => some ([], seen)
  | ann :: annotations, seen =>
    let headerName := paramHeader ann.headerName
    if !isParamHeader headerName || seen.contains (lowerCase headerName) then none
    else do
      let (rest, seen) ← normalizeFrom annotations (seen ++ [lowerCase headerName])
      some (⟨headerName, ann.path⟩ :: rest, seen)

theorem normalizeHeaderAnnotations_toOption (toolName : String)
    (annotations : List HeaderAnnotation) (seen : List String) :
    (normalizeHeaderAnnotations toolName annotations seen).toOption =
      (normalizeFrom annotations seen).map (·.1) := by
  induction annotations generalizing seen with
  | nil => rfl
  | cons ann annotations ih =>
    have hrest := ih (seen ++ [lowerCase (paramHeader ann.headerName)])
    simp only [normalizeHeaderAnnotations, normalizeFrom]
    cases isParamHeader (paramHeader ann.headerName) with
    | false => rfl
    | true =>
      cases seen.contains (lowerCase (paramHeader ann.headerName)) with
      | true => rfl
      | false =>
        show Except.toOption (Except.bind _ _) = Option.map _ (Option.bind _ _)
        cases hres : normalizeHeaderAnnotations toolName annotations
            (seen ++ [lowerCase (paramHeader ann.headerName)]) with
        | error e =>
          rw [hres] at hrest
          have hnone := Option.map_eq_none_iff.mp hrest.symm
          rw [hnone]
          rfl
        | ok rest =>
          rw [hres] at hrest
          obtain ⟨r, hr, hfst⟩ := Option.map_eq_some_iff.mp hrest.symm
          rw [hr, ← hfst]
          rfl

/-- The second pass over a list goes on with the names seen in its first part. -/
theorem normalizeFrom_append (xs ys : List HeaderAnnotation) (seen : List String) :
    normalizeFrom (xs ++ ys) seen = (normalizeFrom xs seen).bind fun first =>
      (normalizeFrom ys first.2).map fun second => (first.1 ++ second.1, second.2) := by
  induction xs generalizing seen with
  | nil => simp [normalizeFrom]
  | cons ann xs ih =>
    simp only [List.cons_append, normalizeFrom, ih]
    split
    · rfl
    · simp [Option.bind_assoc, Option.map_eq_bind]

/-- The names seen after the second pass are those seen before and the new ones, all different. -/
theorem normalizeFrom_seen {annotations result : List HeaderAnnotation} {seen seen' : List String}
    (h : normalizeFrom annotations seen = some (result, seen')) (hseen : seen.Nodup) :
    seen' = seen ++ result.map (fun ann => lowerCase ann.headerName) ∧
      seen'.Nodup := by
  induction annotations generalizing result seen with
  | nil =>
    obtain ⟨rfl, rfl⟩ := Prod.mk.inj (Option.some.inj h)
    exact ⟨by simp, hseen⟩
  | cons ann annotations ih =>
    simp only [normalizeFrom] at h
    split at h
    · cases h
    · next hname =>
      obtain ⟨⟨rest, last⟩, hrest, hresult⟩ := Option.bind_eq_some_iff.mp h
      obtain ⟨rfl, rfl⟩ := Prod.mk.inj (Option.some.inj hresult)
      have hnew : lowerCase (paramHeader ann.headerName) ∉ seen := by
        simp only [Bool.or_eq_true, List.contains_iff_mem, not_or] at hname
        exact hname.2
      have hnodup : (seen ++ [lowerCase (paramHeader ann.headerName)]).Nodup := by
        rw [List.nodup_append]
        exact ⟨hseen, List.nodup_singleton _, by
          intro a ha b hb hab
          rw [List.mem_singleton.mp hb] at hab
          exact hnew (hab ▸ ha)⟩
      obtain ⟨hlast, hdistinct⟩ := ih hrest hnodup
      exact ⟨by rw [hlast]; simp, hdistinct⟩

/-! ## One pass for two -/

theorem ownAnnotation_eq (propertySchema : Json) (childPath seen : List String) :
    ownAnnotation propertySchema childPath seen =
      ( findOwnAnnotation propertySchema childPath).toOption.bind (normalizeFrom · seen) := by
  unfold ownAnnotation findOwnAnnotation
  cases property? "x-mcp-header" propertySchema with
  | none => rfl
  | some suffix =>
    cases suffix with
    | str suffix =>
      cases hempty : suffix.isEmpty with
      | true =>
        -- the header name is then `Mcp-Param-`, which no annotation may have
        have hname : isParamHeader (paramHeader suffix) = false := by
          rw [String.isEmpty_iff.mp hempty]
          decide
        simp [hname, hempty, Except.toOption]
      | false =>
        cases isMirroredType (property? "type" propertySchema) with
        | false => simp [hempty, Except.toOption]
        | true => simp [hempty, Except.toOption, normalizeFrom]
    | null | bool _ | num _ | arr _ | obj _ =>
      have hname : isParamHeader "" = false := by decide
      simp [hname, Except.toOption]

mutual

/-- One pass of the client is the two passes of the server. -/
theorem headerAnnotations_eq (schema : Json) (path seen : List String) :
    headerAnnotations schema path seen =
      (findHeaderAnnotations schema path).toOption.bind (normalizeFrom · seen) := by
  match schema with
  | .null | .bool _ | .num _ | .str _ | .arr _ => rfl
  | .obj members => exact membersAnnotations_eq members path seen

theorem membersAnnotations_eq (members : List (String × Json)) (path seen : List String) :
    membersAnnotations members path seen =
      (findMembersAnnotations members path).toOption.bind (normalizeFrom · seen) := by
  match members with
  | [] => rfl
  | (key, value) :: members =>
    rw [membersAnnotations, findMembersAnnotations]
    split
    · exact propertiesAnnotations_eq value path seen
    · exact membersAnnotations_eq members path seen

theorem propertiesAnnotations_eq (value : Json) (path seen : List String) :
    propertiesAnnotations value path seen =
      (findPropertiesAnnotations value path).toOption.bind (normalizeFrom · seen) := by
  match value with
  | .null | .bool _ | .num _ | .str _ | .arr _ => rfl
  | .obj properties => exact entriesAnnotations_eq properties path seen

theorem entriesAnnotations_eq (entries : List (String × Json)) (path seen : List String) :
    entriesAnnotations entries path seen =
      (findEntriesAnnotations entries path).toOption.bind (normalizeFrom · seen) := by
  match entries with
  | [] => rfl
  | (propertyName, propertySchema) :: entries =>
    rw [entriesAnnotations, findEntriesAnnotations]
    split
    · exact entriesAnnotations_eq entries path seen
    · simp only [ownAnnotation_eq, headerAnnotations_eq propertySchema,
        entriesAnnotations_eq entries]
      cases findOwnAnnotation propertySchema (path ++ [propertyName]) with
      | error e => rfl
      | ok own =>
        -- a failure further on is one of the client too, whatever it has accepted before
        cases findHeaderAnnotations propertySchema (path ++ [propertyName]) with
        | error e => simp [Except.toOption, bind, Except.bind]
        | ok nested =>
          cases findEntriesAnnotations entries path with
          | error e => simp [Except.toOption, bind, Except.bind]
          | ok rest =>
            simp [Except.toOption, bind, Except.bind, normalizeFrom_append, Option.map_eq_bind,
              Option.bind_assoc]

end

/-! ## The two sides -/

/-- Valid annotations have names that differ in more than case. -/
theorem nodup_schemaAnnotations {schema : Json} {annotations : List HeaderAnnotation}
    (h : schemaAnnotations schema = some annotations) :
    (annotations.map fun ann => lowerCase ann.headerName).Nodup := by
  rw [schemaAnnotations, headerAnnotations_eq] at h
  obtain ⟨⟨result, seen⟩, hbind, rfl⟩ := Option.map_eq_some_iff.mp h
  obtain ⟨found, -, hnormal⟩ := Option.bind_eq_some_iff.mp hbind
  obtain ⟨hseen, hnodup⟩ := normalizeFrom_seen hnormal List.nodup_nil
  rw [hseen] at hnodup
  exact hnodup

theorem toolAnnotations_toOption (toolName : String) (schema : Json) :
    (toolAnnotations toolName schema).toOption = schemaAnnotations schema := by
  rw [schemaAnnotations, headerAnnotations_eq, toolAnnotations]
  cases findHeaderAnnotations schema [] with
  | error e => rfl
  | ok annotations => exact normalizeHeaderAnnotations_toOption toolName annotations []

theorem hasValidHeaderAnnotations_eq (toolName : String) (schema : Json) :
    hasValidHeaderAnnotations ⟨toolName, schema⟩ = (toolAnnotations toolName schema).toOption.isSome
    := by
  cases schema with
  | obj members =>
    rw [hasValidHeaderAnnotations]
    cases toolAnnotations toolName (.obj members) <;> rfl
  | null | bool _ | num _ | str _ | arr _ => rfl

/-- For every schema, the client gets a list of annotations if and only if the server accepts a
    tool with this schema, and then the server's list is the same one. -/
theorem annotations_agree (toolName : String) (schema : Json) :
    ((schemaAnnotations schema).isSome ↔ hasValidHeaderAnnotations ⟨toolName, schema⟩) ∧
    (toolAnnotations toolName schema).toOption = schemaAnnotations schema := by
  constructor
  · rw [hasValidHeaderAnnotations_eq, toolAnnotations_toOption]
  · exact toolAnnotations_toOption toolName schema

/-- A nested annotation, and one that is a duplicate of it but for case. -/
example :
    let region := Json.obj [("type", .str "string"), ("x-mcp-header", .str "Region")]
    let place := Json.obj [("properties", .obj [("region", region)])]
    let again := Json.obj [("type", .str "string"), ("x-mcp-header", .str "REGION")]
    schemaAnnotations (.obj [("properties", .obj [("place", place)])]) =
        some [⟨"Mcp-Param-Region", ["place", "region"]⟩] ∧
      schemaAnnotations (.obj [("properties", .obj [("place", place), ("r", again)])]) = none := by
  decide

end PetaCore
