import PetaCore.ForStd.JsonText
import PetaCore.ForStd.JsonOrder
import PetaCore.Core.ApprovalRequestHasher

/-!
# What the request hash identifies

The pre-hash string determines the user, server, tool, policy version and canonical
arguments, and the canonical arguments are a normal form of the arguments up to the order of
object keys. With an injective `sha256` the same holds of the hash.

## Key results

- `hashInput_eq_iff`: exactly when two requests have the same pre-hash string
-/

namespace PetaCore

open Json

/-! ## Canonical arguments -/

mutual

/-- `sortKeys` rewrites every object to its sorted members, which the object then lists with
    the array indices first. -/
theorem sortKeys_eq_mapObjects (a : Json) :
    sortKeys a = mapObjects (fun ms => propertyOrder (sortEntries ms)) a := by
  match a with
  | .null | .bool _ | .num _ | .str _ => rfl
  | .arr as => rw [sortKeys, mapObjects, sortItems_eq_mapItems as]
  | .obj ms =>
    rw [sortKeys, mapObjects, sortMembers_eq_mapMembers ms]
    rfl
termination_by sizeOf a

theorem sortItems_eq_mapItems (as : List Json) :
    sortItems as = mapItems (fun ms => propertyOrder (sortEntries ms)) as := by
  match as with
  | [] => rfl
  | a :: as => rw [sortItems, mapItems, sortKeys_eq_mapObjects a, sortItems_eq_mapItems as]
termination_by sizeOf as

theorem sortMembers_eq_mapMembers (ms : List (String × Json)) :
    sortMembers ms = mapMembers (fun ms => propertyOrder (sortEntries ms)) ms := by
  match ms with
  | [] => rfl
  | (k, a) :: ms =>
    rw [sortMembers, mapMembers, sortKeys_eq_mapObjects a, sortMembers_eq_mapMembers ms]
termination_by sizeOf ms

end

/-- Sorting the keys of a value gives its normal form. -/
theorem sortKeys_eq_iff (a b : JsonValue) :
    sortKeys a.1 = sortKeys b.1 ↔ SameUpToOrder a.1 b.1 := by
  rw [sortKeys_eq_mapObjects, sortKeys_eq_mapObjects]
  exact mapObjects_eq_iff isOrdering_propertyOrder a.1 b.1 a.2

/-! ## The hash -/

theorem hashInput_inj {userId userId' : String} {serverId serverId' : Option String}
    {toolName toolName' : String} {args args' : Json} {version version' : Nat}
    (h : hashInput userId serverId toolName args version =
      hashInput userId' serverId' toolName' args' version') :
    userId = userId' ∧ serverId = serverId' ∧ toolName = toolName' ∧
      sortKeys args = sortKeys args' ∧ version = version' := by
  have harr := Json.arr.inj (Json.stringify_injective h)
  simp only [List.cons.injEq, Json.str.injEq, Json.num.injEq, and_true, true_and] at harr
  obtain ⟨huser, hserver, htool, hargs, hversion⟩ := harr
  refine ⟨huser, ?_, htool, Json.stringify_injective hargs, JsNumber.ofNat_injective hversion⟩
  cases serverId with
  | none =>
    cases serverId' with
    | none => rfl
    | some id' => cases hserver
  | some id =>
    cases serverId' with
    | none => cases hserver
    | some id' => rw [Json.str.inj hserver]

/-- Two requests have the same pre-hash string exactly when their users, servers, tools and
    policy versions are equal and their arguments are equal up to the order of object keys. -/
theorem hashInput_eq_iff (userId userId' : String) (serverId serverId' : Option String)
    (toolName toolName' : String) (args args' : JsonValue) (version version' : Nat) :
    hashInput userId serverId toolName args.1 version =
        hashInput userId' serverId' toolName' args'.1 version' ↔
      userId = userId' ∧ serverId = serverId' ∧ toolName = toolName' ∧ version = version' ∧
        SameUpToOrder args.1 args'.1 := by
  constructor
  · intro h
    obtain ⟨huser, hserver, htool, hargs, hversion⟩ := hashInput_inj h
    exact ⟨huser, hserver, htool, hversion, (sortKeys_eq_iff args args').mp hargs⟩
  · intro ⟨huser, hserver, htool, hversion, hargs⟩
    have hsorted := (sortKeys_eq_iff args args').mpr hargs
    rw [huser, hserver, htool, hversion]
    simp only [hashInput, canonicalizeArgs, hsorted]

/-- Equal hashes come from the same request. -/
theorem computeHash_inj {sha256 : String → String} (hsha : Function.Injective sha256)
    {userId userId' : String} {serverId serverId' : Option String}
    {toolName toolName' : String} {args args' : Json} {version version' : Nat}
    (h : computeHash sha256 userId serverId toolName args version =
      computeHash sha256 userId' serverId' toolName' args' version') :
    userId = userId' ∧ serverId = serverId' ∧ toolName = toolName' ∧
      sortKeys args = sortKeys args' ∧ version = version' :=
  hashInput_inj (hsha h)

end PetaCore
