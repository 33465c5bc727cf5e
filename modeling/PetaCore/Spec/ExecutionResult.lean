import PetaCore.Core.ExecutionResult

/-!
# Stored execution results do not depend on secrets

The walk replaces what stands under a sensitive key without looking at it, and the size and the
preview are taken of what the walk leaves.

Key results:
- `walk_eq`: results that differ only under sensitive keys are redacted to the same
- `walk_clean`: in a redacted result every sensitive key holds the replacement
-/

namespace PetaCore

namespace ApprovalService

/-! ## Results that differ only in secrets -/

mutual

/-- Equal apart from the values under sensitive keys, at every depth. -/
inductive EqualApart : Json → Json → Prop
  | same (a : Json) : EqualApart a a
  | arr {as bs : List Json} (h : ItemsApart as bs) : EqualApart (.arr as) (.arr bs)
  | obj {ms ms' : List (String × Json)} (h : MembersApart ms ms') : EqualApart (.obj ms) (.obj ms')

/-- The items of two arrays, position by position. -/
inductive ItemsApart : List Json → List Json → Prop
  | nil : ItemsApart [] []
  | cons {a b : Json} {as bs : List Json} (h : EqualApart a b) (hs : ItemsApart as bs) :
      ItemsApart (a :: as) (b :: bs)

/-- The members of two objects, key by key. -/
inductive MembersApart : List (String × Json) → List (String × Json) → Prop
  | nil : MembersApart [] []
  | secret {k : String} (a b : Json) {ms ms' : List (String × Json)}
      (hk : isSensitiveKey k = true) (hs : MembersApart ms ms') :
      MembersApart ((k, a) :: ms) ((k, b) :: ms')
  | cons {k : String} {a b : Json} {ms ms' : List (String × Json)} (h : EqualApart a b)
      (hs : MembersApart ms ms') : MembersApart ((k, a) :: ms) ((k, b) :: ms')

end

mutual

theorem walk_eq (a b : Json) (h : EqualApart a b) : walk a = walk b := by
  match a, b, h with
  | a, _, .same _ => rfl
  | .arr as, .arr bs, .arr hs => rw [walk, walk, walkItems_eq as bs hs]
  | .obj ms, .obj ms', .obj hs => rw [walk, walk, walkMembers_eq ms ms' hs]
termination_by sizeOf a

theorem walkItems_eq (as bs : List Json) (h : ItemsApart as bs) : walkItems as = walkItems bs := by
  match as, bs, h with
  | [], _, .nil => rfl
  | a :: as, b :: bs, .cons h hs =>
    rw [walkItems, walkItems, walk_eq a b h, walkItems_eq as bs hs]
termination_by sizeOf as

theorem walkMembers_eq (ms ms' : List (String × Json)) (h : MembersApart ms ms') :
    walkMembers ms = walkMembers ms' := by
  match ms, ms', h with
  | [], _, .nil => rfl
  | (k, _) :: ms, (_, _) :: ms', .secret _ _ hk hs =>
    rw [walkMembers, walkMembers, if_pos hk, if_pos hk, walkMembers_eq ms ms' hs]
  | (k, a) :: ms, (_, b) :: ms', .cons h hs =>
    rw [walkMembers, walkMembers, walk_eq a b h, walkMembers_eq ms ms' hs]
termination_by sizeOf ms

end

/-! ## Results without secrets -/

mutual

/-- Every sensitive key holds the replacement, at every depth and also in prototypes. -/
def Clean : Json → Prop
  | .arr items => ItemsClean items
  | .obj members => MembersClean members
  | _ => True

def ItemsClean : List Json → Prop
  | [] => True
  | item :: items => Clean item ∧ ItemsClean items

def MembersClean : List (String × Json) → Prop
  | [] => True
  | (key, value) :: members =>
    (isSensitiveKey key = true → value = redactedText) ∧ Clean value ∧ MembersClean members

end

theorem assignMember_clean {key : String} {value : Json} {rest : List (String × Json)}
    (hkey : isSensitiveKey key = true → value = redactedText) (hvalue : Clean value)
    (hrest : MembersClean rest) : MembersClean (assignMember key value rest) := by
  unfold assignMember
  split
  · split
    iterate 3
      · exact ⟨hkey, hvalue, hrest⟩
    · exact hrest
  · exact ⟨hkey, hvalue, hrest⟩

mutual

theorem walk_clean (a : Json) : Clean (walk a) := by
  match a with
  | .null | .bool _ | .num _ | .str _ => trivial
  | .arr items =>
    rw [walk]
    exact walkItems_clean items
  | .obj members =>
    rw [walk]
    exact walkMembers_clean members
termination_by sizeOf a

theorem walkItems_clean (items : List Json) : ItemsClean (walkItems items) := by
  match items with
  | [] => trivial
  | item :: items =>
    rw [walkItems]
    exact ⟨walk_clean item, walkItems_clean items⟩
termination_by sizeOf items

theorem walkMembers_clean (members : List (String × Json)) :
    MembersClean (walkMembers members) := by
  match members with
  | [] => trivial
  | (key, value) :: members =>
    rw [walkMembers]
    split
    · exact assignMember_clean (fun _ => rfl) trivial (walkMembers_clean members)
    · rename_i hkey
      exact assignMember_clean (fun h => absurd h hkey) (walk_clean value)
        (walkMembers_clean members)
termination_by sizeOf members

end

end ApprovalService

open ApprovalService

/-- Two execution results that are equal apart from the values under sensitive keys are stored as
the same, and what is stored is a redacted result, in which every sensitive key holds the
replacement, or computed from the text of one, or does not depend on the result at all. -/
theorem stored_result_secret_free (a b : Json) (h : EqualApart a b) :
    sanitizeExecutionResult a = sanitizeExecutionResult b ∧
      ∃ redacted, Clean redacted ∧
        (sanitizeExecutionResult a = .result redacted ∨
          sanitizeExecutionResult a =
            .notice (truncatedNotice (utf16 (Json.stringify (ownMembers redacted)))) ∨
          sanitizeExecutionResult a = .notice unavailableNotice) := by
  have heq := walk_eq a b h
  have hsame : sanitizeExecutionResult a = sanitizeExecutionResult b := by
    cases h with
    | same => rfl
    | arr _ => rfl
    | obj _ =>
      show storedResult (walk _) = storedResult (walk _)
      rw [heq]
  refine ⟨hsame, walk a, walk_clean a, ?_⟩
  cases a with
  | obj members =>
    show storedResult (walk (.obj members)) = _ ∨ _ ∨ _
    unfold storedResult
    by_cases hsize : (utf16 (Json.stringify (ownMembers (walk (.obj members))))).length ≤
        MAX_EXECUTION_RESULT_BYTES
    · exact .inl (if_pos hsize)
    · exact .inr (.inl (if_neg hsize))
  | _ => exact .inr (.inr rfl)

/-- Two results with different secrets at two depths. -/
theorem stored_result_secret_free_login :
    sanitizeExecutionResult (.obj [("accessToken", .str "t1"),
        ("items", .arr [.obj [("db_Password", .obj [("x", .null)]), ("ok", .bool true)]])]) =
      sanitizeExecutionResult (.obj [("accessToken", .str "t2"),
        ("items", .arr [.obj [("db_Password", .bool false), ("ok", .bool true)]])]) :=
  (stored_result_secret_free _ _ (.obj (.secret _ _ (by decide)
    (.cons (.arr (.cons (.obj (.secret _ _ (by decide) (.cons (.same _) .nil))) .nil)) .nil)))).1

end PetaCore
