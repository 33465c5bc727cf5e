import PetaCore.ForStd.Dict

/-!
# Patches

A patch says for some keys of a map what is to be there instead. An operation that rewrites a map
from a snapshot of it makes the change of its patch, and no other, when the snapshot agrees with
the map on all keys that are not patched.
-/

universe u v

/-- For each key, what is to be there instead; `none` where nothing changes. -/
def Patch (κ : Type u) (α : Type v) := κ → Option (Option α)

namespace Patch

variable {κ : Type u} {α : Type v}

def empty : Patch κ α := fun _ => none

/-- One key gets the value, or loses it. -/
def single [DecidableEq κ] (k : κ) (v : Option α) : Patch κ α :=
  fun k' => if k' = k then some v else none

def apply (p : Patch κ α) (f : κ → Option α) : κ → Option α := fun k => (p k).getD (f k)

theorem apply_of_eq_none {p : Patch κ α} {f : κ → Option α} {k : κ} (h : p k = none) :
    p.apply f k = f k := by
  simp [apply, h]

/-- The snapshot agrees with the map on the keys that are not patched. -/
theorem apply_congr {p : Patch κ α} {f g : κ → Option α} (h : ∀ k, p k = none → f k = g k) :
    p.apply f = p.apply g := by
  funext k
  cases hk : p k with
  | none => simp [apply, hk, h k hk]
  | some v => simp [apply, hk]

/-- The patches of a run, one after the other. -/
def applyAll (ps : List (Patch κ α)) (f : κ → Option α) : κ → Option α :=
  ps.foldl (fun f p => p.apply f) f

theorem applyAll_snoc (ps : List (Patch κ α)) (p : Patch κ α) (f : κ → Option α) :
    applyAll (ps ++ [p]) f = p.apply (applyAll ps f) := by
  simp [applyAll]

theorem applyAll_of_eq_none {ps : List (Patch κ α)} {k : κ} (h : ∀ p ∈ ps, p k = none)
    (f : κ → Option α) : applyAll ps f k = f k := by
  induction ps generalizing f with
  | nil => rfl
  | cons p ps ih =>
    have htail := ih (fun q hq => h q (List.mem_cons_of_mem p hq)) (p.apply f)
    exact htail.trans (apply_of_eq_none (h p List.mem_cons_self))

end Patch

namespace Dict

variable {α : Type u}

theorem get?_set_eq_apply (d : Dict α) (k : String) (a : α) :
    (d.set k a).get? = (Patch.single k (some a)).apply d.get? := by
  funext k'
  rw [get?_set]
  by_cases h : k' = k <;> simp [Patch.apply, Patch.single, h]

theorem get?_erase_eq_apply (d : Dict α) (k : String) :
    (d.erase k).get? = (Patch.single k none).apply d.get? := by
  funext k'
  rw [get?_erase]
  by_cases h : k' = k <;> simp [Patch.apply, Patch.single, h]

/-- The dictionaries have the same entries, but for the keys that are left out. -/
def agreesOff [DecidableEq α] (out : String → Bool) (d d' : Dict α) : Bool :=
  d.entries.all (fun e => out e.1 || decide (d'.get? e.1 = some e.2)) &&
    d'.entries.all fun e => out e.1 || decide (d.get? e.1 = some e.2)

theorem get?_eq_of_agreesOff [DecidableEq α] {out : String → Bool} {d d' : Dict α}
    (h : agreesOff out d d' = true) {k : String} (hk : out k = false) : d.get? k = d'.get? k := by
  simp only [agreesOff, Bool.and_eq_true, List.all_eq_true, Bool.or_eq_true,
    decide_eq_true_eq] at h
  obtain ⟨hleft, hright⟩ := h
  cases hd : d.get? k with
  | some a =>
    rcases hleft (k, a) ((d.mem_entries k a).mpr hd) with hout | hsame
    · simp [hk] at hout
    · exact hsame.symm
  | none =>
    cases hd' : d'.get? k with
    | none => rfl
    | some a =>
      rcases hright (k, a) ((d'.mem_entries k a).mpr hd') with hout | hsame
      · simp [hk] at hout
      · simp [hd] at hsame

/-- A column written from a snapshot with one entry set. -/
theorem get?_set_of_agreesOff [DecidableEq α] {snapshot d : Dict α} {k : String} (a : α)
    (h : agreesOff (· == k) snapshot d = true) :
    (snapshot.set k a).get? = (Patch.single k (some a)).apply d.get? := by
  rw [get?_set_eq_apply]
  refine Patch.apply_congr fun k' hk' => get?_eq_of_agreesOff h ?_
  by_cases heq : k' = k <;> simp [Patch.single, heq] at hk' ⊢

/-- A column written from a snapshot with one entry deleted. -/
theorem get?_erase_of_agreesOff [DecidableEq α] {snapshot d : Dict α} {k : String}
    (h : agreesOff (· == k) snapshot d = true) :
    (snapshot.erase k).get? = (Patch.single k none).apply d.get? := by
  rw [get?_erase_eq_apply]
  refine Patch.apply_congr fun k' hk' => get?_eq_of_agreesOff h ?_
  by_cases heq : k' = k <;> simp [Patch.single, heq] at hk' ⊢

end Dict
