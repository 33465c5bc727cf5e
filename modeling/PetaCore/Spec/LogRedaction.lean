import PetaCore.Core.LogRedaction

/-!
# Redacted log fields do not depend on secrets

The walk replaces what stands under a sensitive key without looking at it. A string that is a JSON
text is replaced by the text of its redacted value, so only what it stands for counts; a string
that is none goes through the patterns as it is.

Key results:
- `Alike`: values that differ only in secrets
- `redactStructuredField_eq`: texts of such values are redacted to the same
-/

namespace PetaCore.LogRedaction

/-! ## Values that differ only in secrets -/

mutual

/-- The same shape and leaves except below sensitive keys; strings that are JSON texts are compared
    by their values. -/
inductive Alike : Json → Json → Prop
  | null : Alike .null .null
  | bool (b : Bool) : Alike (.bool b) (.bool b)
  | num (n : JsNumber) : Alike (.num n) (.num n)
  | text (s : String) (h : Json.parse s.toList = none) : Alike (.str s) (.str s)
  | nested {s s' : String} {a b : Json} (hs : Json.parse s.toList = some a)
      (hs' : Json.parse s'.toList = some b) (h : Alike a b) : Alike (.str s) (.str s')
  | arr {as bs : List Json} (h : ItemsAlike as bs) : Alike (.arr as) (.arr bs)
  | obj {ms ms' : List (String × Json)} (h : MembersAlike ms ms') : Alike (.obj ms) (.obj ms')

/-- The items of two arrays, position by position. -/
inductive ItemsAlike : List Json → List Json → Prop
  | nil : ItemsAlike [] []
  | cons {a b : Json} {as bs : List Json} (h : Alike a b) (hs : ItemsAlike as bs) :
      ItemsAlike (a :: as) (b :: bs)

/-- The members of two objects, key by key. -/
inductive MembersAlike : List (String × Json) → List (String × Json) → Prop
  | nil : MembersAlike [] []
  | secret {key : String} (a b : Json) {ms ms' : List (String × Json)}
      (hkey : isSensitiveKey key.toList = true) (hs : MembersAlike ms ms') :
      MembersAlike ((key, a) :: ms) ((key, b) :: ms')
  | cons {key : String} {a b : Json} {ms ms' : List (String × Json)} (h : Alike a b)
      (hs : MembersAlike ms ms') : MembersAlike ((key, a) :: ms) ((key, b) :: ms')

end

/-! ## The walk -/

theorem redactParsedValue_nested {s : String} {a : Json} (h : Json.parse s.toList = some a) :
    redactParsedValue (.str s) = .str (stringify (redactParsedValue a)) := by
  rw [redactParsedValue]
  split
  · rename_i value heq
    obtain rfl := Option.some.inj (h.symm.trans heq)
    rfl
  · rename_i heq
    rw [h] at heq
    cases heq

mutual

/-- What is left of two such values is the same. By induction on how they are alike, which goes
    down into the texts of strings. -/
theorem redactParsedValue_eq {a b : Json} (h : Alike a b) :
    redactParsedValue a = redactParsedValue b := by
  match h with
  | .null | .bool _ | .num _ | .text _ _ => rfl
  | .nested hs hs' h =>
    rw [redactParsedValue_nested hs, redactParsedValue_nested hs', redactParsedValue_eq h]
  | .arr h => rw [redactParsedValue, redactParsedValue, redactParsedItems_eq h]
  | .obj h => rw [redactParsedValue, redactParsedValue, redactParsedMembers_eq h]

theorem redactParsedItems_eq {as bs : List Json} (h : ItemsAlike as bs) :
    redactParsedItems as = redactParsedItems bs := by
  match h with
  | .nil => rfl
  | .cons h hs =>
    rw [redactParsedItems, redactParsedItems, redactParsedValue_eq h, redactParsedItems_eq hs]

theorem redactParsedMembers_eq {ms ms' : List (String × Json)} (h : MembersAlike ms ms') :
    redactParsedMembers ms = redactParsedMembers ms' := by
  match h with
  | .nil => rfl
  | .secret _ _ hkey hs =>
    rw [redactParsedMembers, redactParsedMembers, if_pos hkey, if_pos hkey,
      redactParsedMembers_eq hs]
  | .cons h hs =>
    rw [redactParsedMembers, redactParsedMembers, redactParsedValue_eq h, redactParsedMembers_eq hs]

end

/-! ## Structured fields -/

/-- Texts of values that differ only in secrets are redacted to the same. -/
theorem redactStructuredField_eq {value value' : String} {a b : Json}
    (hvalue : Json.parse value.toList = some a) (hvalue' : Json.parse value'.toList = some b)
    (h : Alike a b) :
    redactStructuredField (some value) = redactStructuredField (some value') := by
  simp only [redactStructuredField, hvalue, hvalue', redactParsedValue_eq h]

/-- The object that a program holds with one member. -/
theorem held_member {key : String} {a : Json}
    (hkey : key.toList.any (fun c => !c.isDigit) = true) (ha : a.Held) :
    (Json.obj [(key, a)]).Held := by
  refine ⟨List.nodup_singleton key, Json.fromEntries_of_plain ?_, ha, trivial⟩
  intro m hm
  rw [List.mem_singleton.mp hm]
  exact Json.arrayIndex?_eq_none hkey

/-- A token inside the text of a string makes no difference, whatever it is. -/
theorem redactStructuredField_eq_connection :
    redactStructuredField (some (Json.stringify (.obj [("connection",
        .str (Json.stringify (.obj [("token", .str "a")])))]))) =
      redactStructuredField (some (Json.stringify (.obj [("connection",
        .str (Json.stringify (.obj [("token", .arr [.null])])))]))) :=
  have hinner : (Json.obj [("token", .str "a")]).Held := held_member (by decide) trivial
  have hinner' : (Json.obj [("token", .arr [.null])]).Held :=
    held_member (by decide) ⟨trivial, trivial⟩
  redactStructuredField_eq (Json.parse_stringify (held_member (by decide) trivial))
    (Json.parse_stringify (held_member (by decide) trivial))
    (.obj (.cons (.nested (Json.parse_stringify hinner) (Json.parse_stringify hinner')
      (.obj (.secret _ _ (by decide) .nil))) .nil))

end PetaCore.LogRedaction
