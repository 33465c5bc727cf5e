import PetaCore.Core.SubscribeCall

/-!
# What a failed subscribe leaves recorded

The two parts of a call of `subscribeResource`, before and after its await, are compared with the
table before the call and with what the other operations have made of it. A call that fails at the
downstream server takes its session back; a call that finds no connection does not.

Key results:
- `entry_modify`, `entry_create`, `entry_delete`: what each change does to the object of a key
- `startSubscribe_cases`: what the first part does
- `subscribeFails_keeps`: what the `catch` does
- `startCleanup_releases`: the unsubscriptions that find their entries release them
- `failed_subscribe`: when a call that throws leaves no trace
-/

namespace PetaCore

/-- The session is in `subscribedSessions`. -/
def ScopeSubscription.Has (value : ScopeSubscription) (sessionId : String) : Prop :=
  value.subscribedSessions.get? sessionId = some ()

theorem ScopeSubscription.isSome_iff_has (value : ScopeSubscription) {sessionId : String} :
    (value.subscribedSessions.get? sessionId).isSome = true ↔ value.Has sessionId := by
  rw [Has]
  cases value.subscribedSessions.get? sessionId <;> simp

/-- An object without sessions. -/
theorem ScopeSubscription.entries_eq_nil {value : ScopeSubscription} :
    value.subscribedSessions.entries = [] ↔ ∀ sessionId, ¬value.Has sessionId := by
  constructor
  · intro h sessionId hhas
    rw [Has, Dict.get?_of_entries h] at hhas
    cases hhas
  · intro h
    refine Dict.entries_of_get? fun sessionId => ?_
    cases hget : value.subscribedSessions.get? sessionId with
    | none => rfl
    | some u => exact absurd hget (h sessionId)

namespace SubscriptionTable

variable {t : SubscriptionTable} {key sessionId : String} {state : Nat} {value : ScopeSubscription}

/-! ## Objects of keys -/

theorem entry_eq_some {t : SubscriptionTable} {key : String} {state : Nat}
    {value : ScopeSubscription} :
    t.entry key = some (state, value) ↔
      t.resourceSubscriptions.get? key = some state ∧ t.states.get? state = some value := by
  simp only [entry, Option.bind_eq_some_iff, Option.map_eq_some_iff, Prod.mk.injEq]
  constructor
  · rintro ⟨i, hi, v, hv, rfl, rfl⟩
    exact ⟨hi, hv⟩
  · rintro ⟨hi, hv⟩
    exact ⟨state, hi, value, hv, rfl, rfl⟩

theorem key_of_entry (h : t.entry key = some (state, value)) : value.key = key := by
  obtain ⟨hkey, hvalue⟩ := entry_eq_some.mp h
  obtain ⟨value', hvalue', hkey'⟩ := t.keyed key state hkey
  rw [hvalue] at hvalue'
  rw [Option.some.inj hvalue', hkey']

/-- An object is found under one key. -/
theorem entry_unique {key' : String} {value' : ScopeSubscription}
    (h : t.entry key = some (state, value)) (h' : t.entry key' = some (state, value')) :
    key = key' := by
  have hvalue : value = value' :=
    Option.some.inj ((entry_eq_some.mp h).2.symm.trans (entry_eq_some.mp h').2)
  rw [← key_of_entry h, ← key_of_entry h', hvalue]

theorem entry_modify (f : SubscriptionProgress → SubscriptionProgress) :
    (t.modify state f).entry key = (t.entry key).map fun e =>
      if e.1 = state then
        (e.1, { e.2 with toSubscriptionProgress := f e.2.toSubscriptionProgress })
      else e := by
  show ((t.resourceSubscriptions.get? key).bind fun i =>
    ((t.modifyStates state f).get? i).map fun value => (i, value)) = _
  rw [entry]
  cases t.resourceSubscriptions.get? key with
  | none => rfl
  | some i =>
    simp only [Option.bind_some, get?_modifyStates]
    by_cases hi : i = state
    all_goals cases t.states.get? i <;> simp [hi]

theorem entry_create : (t.create value).entry key =
    if key = value.key then some (t.states.next, value) else t.entry key := by
  simp only [entry, create, Dict.get?_set]
  split
  · rw [Option.bind_some, Table.get?_add_next, Option.map_some]
  · cases hi : t.resourceSubscriptions.get? key with
    | none => rfl
    | some i =>
      obtain ⟨value', hvalue', -⟩ := t.keyed key i hi
      rw [Option.bind_some, Option.bind_some, hvalue', Table.get?_add_of_some hvalue']

theorem entry_delete (key₀ : String) :
    (t.delete key₀).entry key = if key = key₀ then none else t.entry key := by
  simp only [entry, delete, Dict.get?_erase]
  split <;> rfl

/-! ## Recorded sessions -/

/-- The session is recorded under the key. -/
def Recorded (t : SubscriptionTable) (key sessionId : String) : Prop :=
  ∃ state value, t.entry key = some (state, value) ∧ value.Has sessionId

/-- The key has an object without sessions. -/
def Unused (t : SubscriptionTable) (key : String) : Prop :=
  ∃ state value, t.entry key = some (state, value) ∧ value.subscribedSessions.entries = []

theorem recorded_of_entry (h : t.entry key = some (state, value)) :
    t.Recorded key sessionId ↔ value.Has sessionId := by
  constructor
  · rintro ⟨state', value', h', hhas⟩
    rw [h] at h'
    cases h'
    exact hhas
  · intro hhas
    exact ⟨state, value, h, hhas⟩

theorem not_recorded_of_none (h : t.entry key = none) : ¬t.Recorded key sessionId := by
  rintro ⟨state, value, h', -⟩
  rw [h] at h'
  cases h'

variable {key₀ : String}

theorem recorded_delete :
    (t.delete key₀).Recorded key sessionId ↔ key ≠ key₀ ∧ t.Recorded key sessionId := by
  simp only [Recorded, entry_delete]
  by_cases hkey : key = key₀ <;> simp [hkey]

/-- A change that leaves the sessions of the object leaves what is recorded. -/
theorem recorded_modify_same {f : SubscriptionProgress → SubscriptionProgress}
    (hf : ∀ p, (f p).subscribedSessions = p.subscribedSessions) :
    (t.modify state f).Recorded key sessionId ↔ t.Recorded key sessionId := by
  simp only [Recorded, entry_modify, ScopeSubscription.Has]
  cases t.entry key with
  | none => simp
  | some e =>
    obtain ⟨i, value⟩ := e
    by_cases hi : i = state <;> simp [hi, hf]

/-- A change that leaves the sessions of the object makes no object without sessions. -/
theorem unused_modify_same {f : SubscriptionProgress → SubscriptionProgress}
    (hf : ∀ p, (f p).subscribedSessions = p.subscribedSessions) :
    (t.modify state f).Unused key ↔ t.Unused key := by
  simp only [Unused, entry_modify]
  cases t.entry key with
  | none => simp
  | some e =>
    obtain ⟨i, value⟩ := e
    by_cases hi : i = state <;> simp [hi, hf]

/-- A key with a session has no object without sessions. -/
theorem not_unused (h : t.Recorded key sessionId) : ¬t.Unused key := by
  rintro ⟨i, v, hentry, hnil⟩
  have hhas := (recorded_of_entry hentry).mp h
  rw [ScopeSubscription.Has, Dict.get?, hnil] at hhas
  cases hhas

/-- A change of the object of `key₀` leaves the other keys. -/
theorem entry_modify_of_ne (h : t.entry key₀ = some (state, value))
    (f : SubscriptionProgress → SubscriptionProgress) (hkey : key ≠ key₀) :
    (t.modify state f).entry key = t.entry key := by
  rw [entry_modify]
  cases hentry : t.entry key with
  | none => rfl
  | some e =>
    have hne : e.1 ≠ state := by
      intro heq
      have hentry' : t.entry key = some (state, e.2) := by
        rw [hentry, ← heq]
      exact hkey (entry_unique hentry' h)
    simp [hne]

theorem entry_modify_self (h : t.entry key = some (state, value))
    (f : SubscriptionProgress → SubscriptionProgress) :
    (t.modify state f).entry key =
      some (state, { value with toSubscriptionProgress := f value.toSubscriptionProgress }) := by
  simp [entry_modify, h]

variable {sessionId₀ : String}

/-- A session is added to the object of `key₀`. -/
theorem recorded_addSession (h : t.entry key₀ = some (state, value)) :
    (t.addSession state sessionId₀).Recorded key sessionId ↔
      t.Recorded key sessionId ∨ (key = key₀ ∧ sessionId = sessionId₀) := by
  by_cases hkey : key = key₀
  · subst hkey
    rw [addSession, recorded_of_entry (entry_modify_self h _), recorded_of_entry h,
      ScopeSubscription.Has, ScopeSubscription.Has, Dict.get?_set]
    by_cases hsession : sessionId = sessionId₀ <;> simp [hsession]
  · simp [Recorded, addSession, entry_modify_of_ne h _ hkey, hkey]

/-- A session is deleted from an object. -/
theorem recorded_deleteSession :
    (t.deleteSession state sessionId₀).Recorded key sessionId ↔
      ∃ i value, t.entry key = some (i, value) ∧ value.Has sessionId ∧
        ¬(i = state ∧ sessionId = sessionId₀) := by
  simp only [Recorded, deleteSession, entry_modify]
  cases t.entry key with
  | none => simp
  | some e =>
    obtain ⟨i, value⟩ := e
    by_cases hi : i = state
    · by_cases hsession : sessionId = sessionId₀
      all_goals simp [hi, hsession, ScopeSubscription.Has, Dict.get?_erase]
    · simp [hi]

theorem recorded_of_deleteSession (h : (t.deleteSession state sessionId₀).Recorded key sessionId) :
    t.Recorded key sessionId := by
  obtain ⟨i, value, hentry, hhas, -⟩ := recorded_deleteSession.mp h
  exact ⟨i, value, hentry, hhas⟩

end SubscriptionTable

namespace SubscriptionGateway

variable {state : Nat} {value : ScopeSubscription} {k : String}

variable {g g' : SubscriptionGateway} {serverId resourceUri sessionId userId key : String}

/-! ## The first part of a call -/

/-- What the first part of a call changes of the table: at most it records the session under the
    key. -/
structure RecordsAt (key sessionId : String) (g g' : SubscriptionGateway) : Prop where
  manager : g'.manager = g.manager
  connection : g'.connection = g.connection
  others : ∀ k x, ¬(k = key ∧ x = sessionId) →
    (g'.table.Recorded k x ↔ g.table.Recorded k x)
  own : g.table.Recorded key sessionId → g'.table.Recorded key sessionId
  unused : ∀ k, g'.table.Unused k → k = key ∨ g.table.Unused k

theorem RecordsAt.refl (key sessionId : String) (g : SubscriptionGateway) :
    RecordsAt key sessionId g g :=
  ⟨rfl, rfl, fun _ _ _ => Iff.rfl, id, fun _ h => .inr h⟩

/-- `getOrCreate` gives the object of the key and leaves what is recorded. -/
theorem getOrCreate_spec {scope : SubscriptionScope} (sessionId : String)
    (h : g.getOrCreate scope = (g', state, value)) :
    RecordsAt scope.key sessionId g g' ∧ g'.table.entry scope.key = some (state, value) ∧
      (value.Has sessionId ↔ g.table.Recorded scope.key sessionId) := by
  unfold getOrCreate at h
  cases hentry : g.table.entry scope.key with
  | some e =>
    obtain ⟨i, v⟩ := e
    rw [hentry] at h
    simp only [Prod.mk.injEq] at h
    obtain ⟨rfl, rfl, rfl⟩ := h
    exact ⟨.refl .., hentry, (SubscriptionTable.recorded_of_entry hentry).symm⟩
  | none =>
    rw [hentry] at h
    simp only [Prod.mk.injEq] at h
    obtain ⟨rfl, rfl, rfl⟩ := h
    have hnew : ∀ k, (g.table.create ⟨scope, ⟨.empty, false, none⟩⟩).entry k =
        if k = scope.key then some (g.table.states.next, ⟨scope, ⟨.empty, false, none⟩⟩)
        else g.table.entry k := fun k => SubscriptionTable.entry_create
    have hempty : ¬g.table.Recorded scope.key sessionId :=
      SubscriptionTable.not_recorded_of_none hentry
    refine ⟨⟨rfl, rfl, ?_, fun h => absurd h hempty, ?_⟩, (hnew _).trans (if_pos rfl), ?_⟩
    · intro k x _
      show (g.table.create _).Recorded k x ↔ _
      by_cases hk : k = scope.key
      · subst hk
        rw [SubscriptionTable.recorded_of_entry ((hnew _).trans (if_pos rfl))]
        have hno : ¬g.table.Recorded scope.key x := SubscriptionTable.not_recorded_of_none hentry
        simp [ScopeSubscription.Has, hno]
      · simp only [SubscriptionTable.Recorded, hnew, if_neg hk]
    · rintro k ⟨i, v, hk, hv⟩
      by_cases hkey : k = scope.key
      · exact .inl hkey
      · have hold : g.table.entry k = some (i, v) := by
          rw [← hk]
          exact ((hnew k).trans (if_neg hkey)).symm
        exact .inr ⟨i, v, hold, hv⟩
    · simp [ScopeSubscription.Has, hempty]

theorem RecordsAt.trans {g₁ g₂ : SubscriptionGateway} (h : RecordsAt key sessionId g g₁)
    (h' : RecordsAt key sessionId g₁ g₂) : RecordsAt key sessionId g g₂ where
  manager := h'.manager.trans h.manager
  connection := h'.connection.trans h.connection
  others k x hne := (h'.others k x hne).trans (h.others k x hne)
  own hown := h'.own (h.own hown)
  unused k hk := by
    cases h'.unused k hk with
    | inl heq => exact .inl heq
    | inr hk => exact h.unused k hk

/-- A change of an object that keeps its sessions. -/
theorem recordsAt_modify {f : SubscriptionProgress → SubscriptionProgress}
    (hf : ∀ p, (f p).subscribedSessions = p.subscribedSessions) :
    RecordsAt key sessionId g (g.setTable (g.table.modify state f)) where
  manager := rfl
  connection := rfl
  others _ _ _ := SubscriptionTable.recorded_modify_same hf
  own h := (SubscriptionTable.recorded_modify_same hf).mpr h
  unused _ hk := .inr ((SubscriptionTable.unused_modify_same hf).mp hk)

theorem recordsAt_addSession (h : g.table.entry key = some (state, value)) :
    RecordsAt key sessionId g (g.setTable (g.table.addSession state sessionId)) where
  manager := rfl
  connection := rfl
  others k x hne := by
    show (g.table.addSession state sessionId).Recorded k x ↔ _
    rw [SubscriptionTable.recorded_addSession h, or_iff_left hne]
  own hown := (SubscriptionTable.recorded_addSession h).mpr (.inl hown)
  unused k hk := by
    obtain ⟨i, v, hentry, hnil⟩ := hk
    by_cases hkey : k = key
    · exact .inl hkey
    · have hold : g.table.entry k = some (i, v) :=
        (SubscriptionTable.entry_modify_of_ne h _ hkey).symm.trans hentry
      exact .inr ⟨i, v, hold, hnil⟩

variable {already : Bool}

/-- What the call comes to after the session has been recorded. -/
theorem requestSubscription_cases {c : ServerContext CapabilityConfig}
    {value value' : ScopeSubscription} {stage : SubscribeStage}
    (sessionId : String) (hentry : g.table.entry key = some (state, value'))
    (h : g.requestSubscription c serverId key state value already = (g', stage)) :
    RecordsAt key sessionId g g' ∧ (∃ value'', g'.table.entry key = some (state, value'')) ∧
      (stage = .returned ∨
        (stage = .threw (.notAvailable serverId) ∧ g.connection c.id = none) ∨
        ((∃ call, stage = .awaits key state already call) ∧ g.connection c.id ≠ none)) := by
  unfold requestSubscription at h
  split at h
  · obtain ⟨rfl, rfl⟩ := Prod.mk.inj h
    exact ⟨.refl .., ⟨value', hentry⟩, .inl rfl⟩
  · split at h
    · next hnone =>
      obtain ⟨rfl, rfl⟩ := Prod.mk.inj h
      exact ⟨.refl .., ⟨value', hentry⟩, .inr (.inl ⟨rfl, hnone⟩)⟩
    · next hera =>
      have hconnection : g.connection c.id ≠ none := by simp [hera]
      split at h
      · obtain ⟨rfl, rfl⟩ := Prod.mk.inj h
        exact ⟨.refl .., ⟨value', hentry⟩, .inr (.inr ⟨⟨_, rfl⟩, hconnection⟩)⟩
      · obtain ⟨rfl, rfl⟩ := Prod.mk.inj h
        have hkept : RecordsAt key sessionId g (g.setTable (g.table.modify state fun p =>
            { p with downstreamSubscription := some g.nextCall })) :=
          recordsAt_modify fun _ => rfl
        exact ⟨⟨rfl, rfl, hkept.others, hkept.own, hkept.unused⟩,
          ⟨_, SubscriptionTable.entry_modify_self hentry _⟩,
          .inr (.inr ⟨⟨_, rfl⟩, hconnection⟩)⟩

/-- The session is added unless it is there. -/
theorem addUnlessThere (h : g.table.entry key = some (state, value)) (sessionId : String) :
    ∃ g₁ value₁, (if (value.subscribedSessions.get? sessionId).isSome then g
        else g.setTable (g.table.addSession state sessionId)) = g₁ ∧
      RecordsAt key sessionId g g₁ ∧ g₁.table.entry key = some (state, value₁) ∧
      g₁.table.Recorded key sessionId := by
  cases hhas : value.subscribedSessions.get? sessionId with
  | some u => exact ⟨g, value, rfl, .refl .., h, ⟨state, value, h, hhas⟩⟩
  | none =>
    exact ⟨_, _, rfl, recordsAt_addSession h, SubscriptionTable.entry_modify_self h _,
      (SubscriptionTable.recorded_addSession h).mpr (.inr ⟨rfl, rfl⟩)⟩

/-- What `subscribeResource` does before it awaits: it returns, or it has recorded the session and
    throws because there is no connection, or it awaits. -/
theorem startSubscribe_cases {stage : SubscribeStage}
    (h : g.startSubscribe serverId resourceUri sessionId userId = (g', stage)) :
    stage = .returned ∨
      ∃ c, g.manager.getServerContext serverId (some userId) = some c ∧
        RecordsAt (buildResourceSubscriptionKey c.id resourceUri) sessionId g g' ∧
        g'.table.Recorded (buildResourceSubscriptionKey c.id resourceUri) sessionId ∧
        ((stage = .threw (.notAvailable serverId) ∧ g.connection c.id = none) ∨
          ∃ state already call value, g.connection c.id ≠ none ∧
            stage = .awaits (buildResourceSubscriptionKey c.id resourceUri) state already call ∧
            g'.table.entry (buildResourceSubscriptionKey c.id resourceUri) =
              some (state, value) ∧
            (already = true ↔
              g.table.Recorded (buildResourceSubscriptionKey c.id resourceUri) sessionId)) := by
  unfold startSubscribe at h
  cases hc : g.manager.getServerContext serverId (some userId) with
  | none =>
    rw [hc] at h
    exact .inl (Prod.mk.inj h).2.symm
  | some c =>
    simp only [hc] at h
    split at h
    · exact .inl (Prod.mk.inj h).2.symm
    · obtain ⟨⟨g₁, state, value⟩, hg₁⟩ : ∃ e, e =
          g.getOrCreate ⟨serverId, c.userId, resourceUri, c.id⟩ := ⟨_, rfl⟩
      rw [← hg₁] at h
      obtain ⟨hmade, hentry, hhas⟩ := getOrCreate_spec sessionId hg₁.symm
      simp only at h
      split at h
      · exact .inl (Prod.mk.inj h).2.symm
      · obtain ⟨g₂, value₂, hg₂, hadded, hentry₂, hown₂⟩ := addUnlessThere hentry sessionId
        rw [hg₂] at h
        obtain ⟨hasked, ⟨value₃, hentry₃⟩, hstage⟩ :=
          requestSubscription_cases sessionId hentry₂ h
        have hown : g'.table.Recorded (buildResourceSubscriptionKey c.id resourceUri) sessionId :=
          hasked.own hown₂
        have halready : (value.subscribedSessions.get? sessionId).isSome = true ↔
            g.table.Recorded (buildResourceSubscriptionKey c.id resourceUri) sessionId :=
          value.isSome_iff_has.trans hhas
        have hsame : g₂.connection c.id = g.connection c.id := by
          rw [hadded.connection, hmade.connection]
        rw [hsame] at hstage
        rcases hstage with hreturned | hthrew | ⟨⟨call, hawaits⟩, hconnection⟩
        · exact .inl hreturned
        · exact .inr ⟨c, rfl, (hmade.trans hadded).trans hasked, hown, .inl hthrew⟩
        · exact .inr ⟨c, rfl, (hmade.trans hadded).trans hasked, hown, .inr
            ⟨state, _, call, value₃, hconnection, hawaits, hentry₃, halready⟩⟩

/-! ## Other operations -/

/-- Other operations do not record the session: where it is recorded after them, it was recorded
    before, in the same object. -/
def KeepsOut (sessionId : String) (others : SubscriptionGateway → SubscriptionGateway) : Prop :=
  ∀ g key state value, (others g).table.entry key = some (state, value) → value.Has sessionId →
    ∃ value', g.table.entry key = some (state, value') ∧ value'.Has sessionId

theorem KeepsOut.recorded {others : SubscriptionGateway → SubscriptionGateway}
    (h : KeepsOut sessionId others) (hrec : (others g).table.Recorded key sessionId) :
    g.table.Recorded key sessionId := by
  obtain ⟨state, value, hentry, hhas⟩ := hrec
  obtain ⟨value', hentry', hhas'⟩ := h g key state value hentry hhas
  exact ⟨state, value', hentry', hhas'⟩

/-- Where the session is recorded when a call goes on, it was recorded when it awaited, in the
    same object. -/
theorem entry_of_awaitCall {a : AwaitedCall} (h : KeepsOut sessionId a.others) {own call : Nat}
    (hentry : (g.awaitCall a own call).table.entry key = some (state, value))
    (hhas : value.Has sessionId) : ∃ value', g.table.entry key = some (state, value') := by
  obtain ⟨value', hentry', -⟩ := h _ key state value hentry hhas
  simp only [settle, setTable, SubscriptionTable.entry_modify, Option.map_eq_some_iff] at hentry'
  obtain ⟨⟨i, v⟩, he, heq⟩ := hentry'
  have hi : i = state := by
    split at heq <;> exact (Prod.mk.inj heq).1
  exact ⟨v, hi ▸ he⟩

/-! ## The catch -/

/-- The own object when its call has failed. -/
structure OwnObject (key sessionId : String) (state : Nat) (g : SubscriptionGateway) : Prop where
  /-- the session is found in no other object -/
  own : ∀ k i value, g.table.entry k = some (i, value) → value.Has sessionId → k = key → i = state
  key : ∀ k value, g.table.entry k = some (state, value) → value.Has sessionId → k = key

theorem OwnObject.recorded_deleteSession (h : OwnObject key sessionId state g) (k x : String) :
    (g.table.deleteSession state sessionId).Recorded k x ↔
      g.table.Recorded k x ∧ ¬(k = key ∧ x = sessionId) := by
  rw [SubscriptionTable.recorded_deleteSession]
  constructor
  · rintro ⟨i, value, hentry, hhas, hnot⟩
    refine ⟨⟨i, value, hentry, hhas⟩, ?_⟩
    rintro ⟨rfl, rfl⟩
    exact hnot ⟨h.own k i value hentry hhas rfl, rfl⟩
  · rintro ⟨⟨i, value, hentry, hhas⟩, hnot⟩
    refine ⟨i, value, hentry, hhas, ?_⟩
    rintro ⟨rfl, rfl⟩
    exact hnot ⟨h.key k value hentry hhas, rfl⟩

/-- What a call has changed of the recorded sessions when it has thrown. `before` is the gateway
    before the call, `awaiting` where it has awaited, `resumed` what the others have made of it
    and `after` the gateway at the end. -/
structure LeavesNoTrace (key sessionId : String)
    (before awaiting resumed after : SubscriptionGateway) : Prop where
  /-- neither part of the call changes what is recorded for others -/
  started : ∀ k x, ¬(k = key ∧ x = sessionId) →
    (awaiting.table.Recorded k x ↔ before.table.Recorded k x)
  finished : ∀ k x, ¬(k = key ∧ x = sessionId) →
    (after.table.Recorded k x ↔ resumed.table.Recorded k x)
  /-- the session is recorded if it was before and the others have left it -/
  own : after.table.Recorded key sessionId ↔
    before.table.Recorded key sessionId ∧ resumed.table.Recorded key sessionId
  /-- no object is left without sessions -/
  unused : ∀ k, (awaiting.table.Unused k → before.table.Unused k) ∧
    (after.table.Unused k → resumed.table.Unused k)
  kept : ∀ state value value', awaiting.table.entry key = some (state, value) →
    after.table.entry key = some (state, value') → value'.subscribedSessions.entries ≠ []

/-- When the call fails, its object has no session but the one it has added itself, and the key
    has another object with sessions. -/
def TakenOver (key sessionId : String) (state : Nat) (before resumed : SubscriptionGateway) :
    Prop :=
  (∀ value x, resumed.table.states.get? state = some value → value.Has x →
    x = sessionId ∧ ¬before.table.Recorded key sessionId) ∧
  ∃ state' value, resumed.table.entry key = some (state', value) ∧ state' ≠ state ∧
    value.subscribedSessions.entries ≠ []

/-- The table after the session has been deleted in the `catch`. -/
def withoutSession (g : SubscriptionGateway) (state : Nat) (sessionId : String)
    (already : Bool) : SubscriptionTable :=
  if already then g.table else g.table.deleteSession state sessionId

theorem OwnObject.recorded_without (h : OwnObject key sessionId state g) (already : Bool)
    (k x : String) :
    (g.withoutSession state sessionId already).Recorded k x ↔
      g.table.Recorded k x ∧ ¬(k = key ∧ x = sessionId ∧ already = false) := by
  cases already with
  | true => simp [withoutSession]
  | false => simpa [withoutSession] using h.recorded_deleteSession k x

/-- The object has no session left. -/
theorem isUnused_without (g : SubscriptionGateway) (state : Nat) (sessionId : String)
    (already : Bool) :
    (g.withoutSession state sessionId already).isUnused state = true ↔
      ∀ value x, g.table.states.get? state = some value → value.Has x →
        x = sessionId ∧ already = false := by
  cases already with
  | true =>
    simp only [withoutSession, if_pos, SubscriptionTable.isUnused]
    cases g.table.states.get? state with
    | none => simp
    | some value =>
      simp only [List.isEmpty_iff, ScopeSubscription.entries_eq_nil, Option.some.injEq]
      constructor
      · rintro hno _ x rfl hhas
        exact absurd hhas (hno x)
      · intro honly x hhas
        cases (honly value x rfl hhas).2
  | false =>
    simp only [withoutSession, Bool.false_eq_true, if_false, SubscriptionTable.isUnused,
      SubscriptionTable.deleteSession, SubscriptionTable.modify,
      SubscriptionTable.get?_modifyStates]
    cases g.table.states.get? state with
    | none => simp
    | some value =>
      simp only [if_pos, Option.map_some, List.isEmpty_iff, Option.some.injEq]
      constructor
      · rintro hnil _ x rfl hhas
        have hnot := Dict.get?_of_entries hnil x
        rw [Dict.get?_erase] at hnot
        by_cases hx : x = sessionId
        · exact ⟨hx, trivial⟩
        · rw [if_neg hx, show value.subscribedSessions.get? x = some () from hhas] at hnot
          cases hnot
      · intro honly
        refine Dict.entries_of_get? fun x => ?_
        rw [Dict.get?_erase]
        split
        · rfl
        · next hx =>
          cases hget : value.subscribedSessions.get? x with
          | none => rfl
          | some u => exact absurd (honly value x rfl hget).1 hx

/-- The table at the end of the `catch`. -/
theorem subscribeFails_recorded (g : SubscriptionGateway) (state : Nat) (already : Bool)
    (k x : String) :
    (g.subscribeFails key state sessionId already).table.Recorded k x ↔
      (g.withoutSession state sessionId already).Recorded k x ∧
        ¬(k = key ∧ (g.withoutSession state sessionId already).isUnused state = true) := by
  show (if (g.withoutSession state sessionId already).isUnused state then
    (g.withoutSession state sessionId already).delete key
    else g.withoutSession state sessionId already).Recorded k x ↔ _
  cases (g.withoutSession state sessionId already).isUnused state with
  | true => simp [SubscriptionTable.recorded_delete, and_comm]
  | false => simp

theorem subscribeFails_entry {state i : Nat}
    (h : (g.subscribeFails key state sessionId already).table.entry k = some (i, value)) :
    (g.withoutSession state sessionId already).entry k = some (i, value) ∧
      ¬(k = key ∧ (g.withoutSession state sessionId already).isUnused state = true) := by
  have h' : (if (g.withoutSession state sessionId already).isUnused state then
    (g.withoutSession state sessionId already).delete key
    else g.withoutSession state sessionId already).entry k = some (i, value) := h
  cases hunused : (g.withoutSession state sessionId already).isUnused state with
  | true =>
    rw [hunused, if_pos rfl, SubscriptionTable.entry_delete] at h'
    split at h'
    · cases h'
    · next hk => exact ⟨h', fun hand => hk hand.1⟩
  | false =>
    rw [hunused, if_neg (by simp)] at h'
    exact ⟨h', by simp⟩

/-- The deletion of the session leaves the objects under their keys. -/
theorem entry_of_without {state i : Nat}
    (h : (g.withoutSession state sessionId already).entry k = some (i, value)) :
    ∃ value', g.table.entry k = some (i, value') := by
  cases already with
  | true => exact ⟨value, h⟩
  | false =>
    have h' : (g.table.deleteSession state sessionId).entry k = some (i, value) := h
    rw [SubscriptionTable.deleteSession, SubscriptionTable.entry_modify,
      Option.map_eq_some_iff] at h'
    obtain ⟨⟨i', v⟩, hentry, heq⟩ := h'
    have hi : i' = i := by
      split at heq <;> exact (Prod.mk.inj heq).1
    exact ⟨v, hi ▸ hentry⟩

/-- An object that the `catch` leaves without sessions had none before. -/
theorem unused_of_subscribeFails (howned : OwnObject key sessionId state g)
    (h : (g.subscribeFails key state sessionId already).table.Unused k) : g.table.Unused k := by
  obtain ⟨i, value, hentry, hnil⟩ := h
  obtain ⟨hwithout, hnot⟩ := subscribeFails_entry hentry
  obtain ⟨value₀, hentry₀⟩ := entry_of_without hwithout
  have hnone : ∀ x, ¬(g.withoutSession state sessionId already).Recorded k x := fun x hx =>
    ScopeSubscription.entries_eq_nil.mp hnil x
      ((SubscriptionTable.recorded_of_entry hwithout).mp hx)
  -- a session it had before can only be the one that was deleted, from the own object
  have honly : ∀ x, value₀.Has x → k = key ∧ x = sessionId ∧ already = false := by
    intro x hhas
    by_contra hne
    exact hnone x ((howned.recorded_without already k x).mpr ⟨⟨i, value₀, hentry₀, hhas⟩, hne⟩)
  refine ⟨i, value₀, hentry₀, ScopeSubscription.entries_eq_nil.mpr fun x hhas => hnot ?_⟩
  obtain ⟨hkey, hx, halready⟩ := honly x hhas
  refine ⟨hkey, (isUnused_without g state sessionId already).mpr ?_⟩
  have hi : i = state := howned.own k i value₀ hentry₀ (hx ▸ hhas) hkey
  intro v y hv hy
  rw [← hi, (SubscriptionTable.entry_eq_some.mp hentry₀).2] at hv
  exact (honly y (Option.some.inj hv ▸ hy)).2

/-- When the `catch` leaves no trace of the call. -/
theorem subscribeFails_leavesNoTrace_iff {before awaiting resumed : SubscriptionGateway}
    (hstart : RecordsAt key sessionId before awaiting)
    (hunused : ∀ k, awaiting.table.Unused k → before.table.Unused k)
    (hentry : awaiting.table.entry key = some (state, value))
    (halready : already = true ↔ before.table.Recorded key sessionId)
    (howned : OwnObject key sessionId state resumed) :
    LeavesNoTrace key sessionId before awaiting resumed
        (resumed.subscribeFails key state sessionId already) ↔
      ¬TakenOver key sessionId state before resumed := by
  have hfalse : already = false ↔ ¬before.table.Recorded key sessionId := by
    rw [← halready, Bool.not_eq_true]
  -- the object of the key, if it has the session, is the own one
  have hown : ∀ i v, resumed.table.entry key = some (i, v) → v.Has sessionId → i = state :=
    fun i v hi hv => howned.own key i v hi hv rfl
  constructor
  · rintro htrace ⟨honly, i, v, hi, hne, hsessions⟩
    obtain ⟨x, hx⟩ : ∃ x, v.Has x := by
      by_contra hno
      exact hsessions (ScopeSubscription.entries_eq_nil.mpr fun x hx => hno ⟨x, hx⟩)
    have hxne : ¬(key = key ∧ x = sessionId) := by
      rintro ⟨-, rfl⟩
      exact hne (hown i v hi hx)
    have hafter := (htrace.finished key x hxne).mpr ⟨i, v, hi, hx⟩
    refine ((subscribeFails_recorded resumed state already key x).mp hafter).2 ⟨rfl, ?_⟩
    refine (isUnused_without resumed state sessionId already).mpr fun v' y hv' hy => ?_
    rw [hfalse]
    exact honly v' y hv' hy
  · intro hnot
    refine ⟨hstart.others, ?_, ?_, ?_, ?_⟩
    · intro k x hne
      rw [subscribeFails_recorded, howned.recorded_without]
      constructor
      · intro h
        exact h.1.1
      · intro hrec
        refine ⟨⟨hrec, fun h => hne ⟨h.1, h.2.1⟩⟩, ?_⟩
        rintro ⟨rfl, hleft⟩
        have honly := (isUnused_without resumed state sessionId already).mp hleft
        obtain ⟨i, v, hi, hx⟩ := hrec
        by_cases hstate : i = state
        · have hv := (SubscriptionTable.entry_eq_some.mp hi).2
          exact hne ⟨rfl, (honly v x (hstate ▸ hv) hx).1⟩
        · refine hnot ⟨fun v' y hv' hy => ?_, i, v, hi, hstate, fun hnil =>
            ScopeSubscription.entries_eq_nil.mp hnil x hx⟩
          rw [← hfalse]
          exact honly v' y hv' hy
    · rw [subscribeFails_recorded, howned.recorded_without]
      constructor
      · rintro ⟨⟨hrec, hkept⟩, -⟩
        refine ⟨?_, hrec⟩
        by_contra hno
        exact hkept ⟨rfl, rfl, hfalse.mpr hno⟩
      · rintro ⟨hbefore, hrec⟩
        have htrue := halready.mpr hbefore
        refine ⟨⟨hrec, fun h => by simp [htrue] at h⟩, ?_⟩
        rintro ⟨-, hleft⟩
        obtain ⟨i, v, hi, hhas⟩ := hrec
        have hv := (SubscriptionTable.entry_eq_some.mp hi).2
        rw [hown i v hi hhas] at hv
        have hboth := (isUnused_without resumed state sessionId already).mp hleft v sessionId hv hhas
        simp [htrue] at hboth
    · intro k
      exact ⟨hunused k, unused_of_subscribeFails howned⟩
    · intro state' v v' hstate' hv' hnil
      rw [hentry] at hstate'
      obtain ⟨rfl, rfl⟩ := Prod.mk.inj (Option.some.inj hstate')
      obtain ⟨hwithout, hkept⟩ := subscribeFails_entry hv'
      refine hkept ⟨rfl, ?_⟩
      rw [SubscriptionTable.isUnused, (SubscriptionTable.entry_eq_some.mp hwithout).2]
      simp [hnil]

/-! ## The call -/

/-- The gateway when a call of `subscribeResource` goes on after its await. -/
def goesOn (g : SubscriptionGateway) (a : AwaitedCall)
    (serverId resourceUri sessionId userId : String) : SubscriptionGateway :=
  match g.startSubscribe serverId resourceUri sessionId userId with
  | (g, .awaits _ state _ call) => g.awaitCall a state call
  | (g, _) => g

/-- A call that throws because there is no connection leaves no trace if the session was recorded
    before. -/
theorem threw_leavesNoTrace_iff {before awaiting : SubscriptionGateway}
    (hstart : RecordsAt key sessionId before awaiting)
    (hunused : ∀ k, awaiting.table.Unused k → before.table.Unused k)
    (hown : awaiting.table.Recorded key sessionId) :
    LeavesNoTrace key sessionId before awaiting awaiting awaiting ↔
      before.table.Recorded key sessionId := by
  constructor
  · intro htrace
    exact (htrace.own.mp hown).1
  · intro hbefore
    refine ⟨hstart.others, fun _ _ _ => Iff.rfl, ?_, fun k => ⟨hunused k, id⟩, ?_⟩
    · exact iff_of_true hown ⟨hbefore, hown⟩
    · intro state value value' _ hentry hnil
      exact ScopeSubscription.entries_eq_nil.mp hnil sessionId
        ((SubscriptionTable.recorded_of_entry hentry).mp hown)

/-- When a call that throws leaves no trace. -/
theorem subscribeResource_leavesNoTrace_iff {a : AwaitedCall} {error : SubscribeError}
    (hothers : KeepsOut sessionId a.others)
    (h : g.subscribeResource a serverId resourceUri sessionId userId = (.error error, g')) :
    ∃ c, g.manager.getServerContext serverId (some userId) = some c ∧
      (LeavesNoTrace (buildResourceSubscriptionKey c.id resourceUri) sessionId g
          (g.startSubscribe serverId resourceUri sessionId userId).1
          (g.goesOn a serverId resourceUri sessionId userId) g' ↔
        (g.connection c.id = none →
          g.table.Recorded (buildResourceSubscriptionKey c.id resourceUri) sessionId) ∧
        (g.connection c.id ≠ none → ∀ state value,
          (g.startSubscribe serverId resourceUri sessionId userId).1.table.entry
              (buildResourceSubscriptionKey c.id resourceUri) = some (state, value) →
          ¬TakenOver (buildResourceSubscriptionKey c.id resourceUri) sessionId state g
            (g.goesOn a serverId resourceUri sessionId userId))) := by
  obtain ⟨⟨g₁, stage⟩, hg₁⟩ : ∃ e, e =
      g.startSubscribe serverId resourceUri sessionId userId := ⟨_, rfl⟩
  simp only [subscribeResource, goesOn, ← hg₁] at h ⊢
  rcases startSubscribe_cases hg₁.symm with rfl | ⟨c, hc, hstart, hown, hstage⟩
  · cases h
  have hunused : ∀ k, g₁.table.Unused k → g.table.Unused k := by
    intro k hk
    cases hstart.unused k hk with
    | inl heq => exact absurd (heq ▸ hk) (SubscriptionTable.not_unused hown)
    | inr hk => exact hk
  refine ⟨c, hc, ?_⟩
  rcases hstage with ⟨rfl, hnone⟩ | ⟨state, already, call, value, hsome, rfl, hentry, halready⟩
  · obtain ⟨-, rfl⟩ := Prod.mk.inj h
    rw [threw_leavesNoTrace_iff hstart hunused hown]
    simp [hnone]
  · have howned : OwnObject (buildResourceSubscriptionKey c.id resourceUri) sessionId state
        (g₁.awaitCall a state call) := by
      constructor
      · rintro k i v hi hhas rfl
        obtain ⟨v', hv'⟩ := entry_of_awaitCall hothers hi hhas
        rw [hentry] at hv'
        exact (Prod.mk.inj (Option.some.inj hv')).1.symm
      · intro k v hi hhas
        obtain ⟨v', hv'⟩ := entry_of_awaitCall hothers hi hhas
        exact SubscriptionTable.entry_unique hv' hentry
    simp only at h ⊢
    cases hresult : a.result with
    | ok u =>
      rw [hresult] at h
      cases h
    | error downstream =>
      rw [hresult] at h
      obtain ⟨-, rfl⟩ := Prod.mk.inj h
      rw [subscribeFails_leavesNoTrace_iff hstart hunused hentry halready howned]
      constructor
      · intro hnot
        refine ⟨fun hnone => absurd hnone hsome, fun _ state' value' hstate' => ?_⟩
        rw [hentry] at hstate'
        rw [← (Prod.mk.inj (Option.some.inj hstate')).1]
        exact hnot
      · rintro ⟨-, hnot⟩
        exact hnot hsome state value hentry

/-! ## Unsubscriptions -/

/-- What a part of an unsubscription changes: it may delete the session from an object and the key,
    and nothing is recorded. -/
structure Releases (key : String) (g g' : SubscriptionGateway) : Prop where
  manager : g'.manager = g.manager
  keys : g'.table.resourceSubscriptions = g.table.resourceSubscriptions ∨
    g'.table.resourceSubscriptions = g.table.resourceSubscriptions.erase key
  scopes : ∀ i, (g'.table.states.get? i).map (·.toSubscriptionScope) =
    (g.table.states.get? i).map (·.toSubscriptionScope)
  recorded : ∀ k x, g'.table.Recorded k x → g.table.Recorded k x

theorem Releases.refl (key : String) (g : SubscriptionGateway) : Releases key g g :=
  ⟨rfl, .inl rfl, fun _ => rfl, fun _ _ => id⟩

theorem releases_delete (key : String) (g : SubscriptionGateway) :
    Releases key g (g.setTable (g.table.delete key)) where
  manager := rfl
  keys := .inr rfl
  scopes _ := rfl
  recorded _ _ h := (SubscriptionTable.recorded_delete.mp h).2

theorem unsubscribeRest_releases (g : SubscriptionGateway) (key : String) (state : Nat) :
    Releases key g (g.unsubscribeRest key state).1 := by
  unfold unsubscribeRest
  split
  · exact .refl key g
  · split
    · exact .refl key g
    · simp only
      split
      · exact .refl key g
      · exact releases_delete key g

theorem unsubscribeResourceState_releases (g : SubscriptionGateway) (key : String) (state : Nat)
    (sessionId : String) :
    Releases key g (g.unsubscribeResourceState key state sessionId).1 := by
  have hdeleted : Releases key g (g.setTable (g.table.deleteSession state sessionId)) := by
    refine ⟨rfl, .inl rfl, ?_, fun _ _ => SubscriptionTable.recorded_of_deleteSession⟩
    intro i
    show ((g.table.modifyStates state _).get? i).map _ = _
    rw [SubscriptionTable.get?_modifyStates]
    split
    · cases g.table.states.get? i <;> rfl
    · rfl
  unfold unsubscribeResourceState
  simp only
  split
  · exact hdeleted
  · split
    · exact hdeleted
    · have hrest := unsubscribeRest_releases
        (g.setTable (g.table.deleteSession state sessionId)) key state
      exact ⟨hrest.manager, hrest.keys, fun i => (hrest.scopes i).trans (hdeleted.scopes i),
        fun k x h => hdeleted.recorded k x (hrest.recorded k x h)⟩

/-- The session is not recorded any more under the key whose object is found. -/
theorem unsubscribeResourceState_own (h : g.table.resourceSubscriptions.get? key = some state) :
    ¬(g.unsubscribeResourceState key state sessionId).1.table.Recorded key sessionId := by
  have hdeleted : ¬(g.table.deleteSession state sessionId).Recorded key sessionId := by
    intro hrec
    obtain ⟨i, value, hentry, -, hnot⟩ := SubscriptionTable.recorded_deleteSession.mp hrec
    rw [(SubscriptionTable.entry_eq_some.mp hentry).1] at h
    exact hnot ⟨Option.some.inj h, rfl⟩
  intro hrec
  apply hdeleted
  unfold unsubscribeResourceState at hrec
  simp only at hrec
  split at hrec
  · exact hrec
  · split at hrec
    · exact hrec
    · exact (unsubscribeRest_releases (g.setTable (g.table.deleteSession state sessionId)) key
        state).recorded key sessionId hrec

/-! ## The search of an entry -/

variable {p : ScopeSubscription → Bool}

theorem get?_of_findEntry (h : g.table.findEntry p = some (k, state)) :
    g.table.resourceSubscriptions.get? k = some state :=
  (Dict.mem_entries _ k state).mp (List.mem_of_find?_eq_some h)

/-- What an unsubscription finds is in the table. -/
theorem get?_of_findResourceSubscriptionEntry {scopeId : Option String}
    (h : g.findResourceSubscriptionEntry serverId resourceUri userId scopeId = some (k, state)) :
    g.table.resourceSubscriptions.get? k = some state := by
  simp only [SubscriptionGateway.findResourceSubscriptionEntry, Option.or_eq_some_iff] at h
  rcases h with hscope | ⟨-, hfound | ⟨-, hfound⟩⟩
  · cases scopeId with
    | none => cases hscope
    | some scopeId =>
      by_cases hempty : scopeId = ""
      · simp [hempty] at hscope
      · simp only [if_neg hempty, Option.map_eq_some_iff, Prod.mk.injEq] at hscope
        obtain ⟨i, hi, rfl, rfl⟩ := hscope
        exact hi
  all_goals exact get?_of_findEntry hfound

/-- A search by the scope finds the same objects. -/
theorem Releases.findEntry_eq (h : Releases key g g')
    (hp : ∀ v w : ScopeSubscription, v.toSubscriptionScope = w.toSubscriptionScope → p v = p w) :
    g'.table.findEntry p = g'.table.resourceSubscriptions.entries.find? fun e =>
      (g.table.states.get? e.2).any p := by
  have hsame : ∀ i, (g'.table.states.get? i).any p = (g.table.states.get? i).any p := by
    intro i
    have hscope := h.scopes i
    cases hg : g.table.states.get? i with
    | none =>
      rw [hg, Option.map_none, Option.map_eq_none_iff] at hscope
      rw [hscope]
    | some v =>
      rw [hg, Option.map_some, Option.map_eq_some_iff] at hscope
      obtain ⟨w, hw, heq⟩ := hscope
      rw [hw, Option.any_some, Option.any_some, hp w v heq]
  simp only [SubscriptionTable.findEntry, hsame]

theorem Releases.findEntry (h : Releases key g g')
    (hp : ∀ v w : ScopeSubscription, v.toSubscriptionScope = w.toSubscriptionScope → p v = p w)
    (hfound : g.table.findEntry p = some (k, state))
    (hkept : g'.table.resourceSubscriptions.get? k ≠ none) :
    g'.table.findEntry p = some (k, state) := by
  rw [h.findEntry_eq hp]
  cases h.keys with
  | inl hsame => rw [hsame]; exact hfound
  | inr herased =>
    rw [herased] at hkept ⊢
    refine Dict.find?_erase hfound fun heq => hkept ?_
    rw [Dict.get?_erase, if_pos heq]

theorem Releases.findEntry_none (h : Releases key g g')
    (hp : ∀ v w : ScopeSubscription, v.toSubscriptionScope = w.toSubscriptionScope → p v = p w)
    (hnone : g.table.findEntry p = none) : g'.table.findEntry p = none := by
  rw [h.findEntry_eq hp]
  cases h.keys with
  | inl hsame => rw [hsame]; exact hnone
  | inr herased => rw [herased]; exact Dict.find?_erase_eq_none hnone key

/-- A lookup of a key that is left finds the same. -/
theorem Releases.get? (h : Releases key g g') (hkept : g'.table.resourceSubscriptions.get? k ≠ none)
    : g'.table.resourceSubscriptions.get? k = g.table.resourceSubscriptions.get? k := by
  cases h.keys with
  | inl hsame => rw [hsame]
  | inr herased =>
    rw [herased, Dict.get?_erase] at hkept ⊢
    split at hkept
    · exact absurd rfl hkept
    · next hne => rw [if_neg hne]

theorem Releases.get?_none (h : Releases key g g')
    (hnone : g.table.resourceSubscriptions.get? k = none) :
    g'.table.resourceSubscriptions.get? k = none := by
  by_contra hkept
  exact hkept ((h.get? hkept).trans hnone)

/-- A search in three places, each of which finds the same. -/
theorem or_or_stable {α : Type} {x y z x' y' z' : Option α} {a : α}
    (h : (x.or (y.or z)) = some a) (hx : x = some a → x' = some a) (hx' : x = none → x' = none)
    (hy : y = some a → y' = some a) (hy' : y = none → y' = none) (hz : z = some a → z' = some a) :
    (x'.or (y'.or z')) = some a := by
  cases x with
  | some b => rw [hx h, Option.some_or]
  | none =>
    rw [hx' rfl, Option.none_or]
    cases y with
    | some b => rw [hy h, Option.some_or]
    | none => rw [hy' rfl, Option.none_or, hz h]

/-- The search that an unsubscription makes finds the same, unless the key is deleted. -/
theorem Releases.findResourceSubscriptionEntry (h : Releases key g g') {scopeId : Option String}
    (hfound : g.findResourceSubscriptionEntry serverId resourceUri userId scopeId =
      some (k, state)) (hkept : g'.table.resourceSubscriptions.get? k ≠ none) :
    g'.findResourceSubscriptionEntry serverId resourceUri userId scopeId = some (k, state) := by
  have hscope : ∀ user, ∀ v w : ScopeSubscription,
      v.toSubscriptionScope = w.toSubscriptionScope →
      (v.serverId == serverId && v.resourceUri == resourceUri && v.userId == user) =
        (w.serverId == serverId && w.resourceUri == resourceUri && w.userId == user) := by
    intro user v w heq
    rw [heq]
  refine or_or_stable hfound ?_ ?_ (h.findEntry (hscope _) · hkept) (h.findEntry_none (hscope _))
    (h.findEntry (hscope _) · hkept)
  · intro hscopeEntry
    cases scopeId with
    | none => cases hscopeEntry
    | some scopeId =>
      by_cases hempty : scopeId = ""
      · simp [hempty] at hscopeEntry
      · simp only [if_neg hempty, Option.map_eq_some_iff, Prod.mk.injEq] at hscopeEntry ⊢
        obtain ⟨i, hi, rfl, rfl⟩ := hscopeEntry
        exact ⟨i, (h.get? hkept).trans hi, rfl, rfl⟩
  · intro hnone
    cases scopeId with
    | none => rfl
    | some scopeId =>
      by_cases hempty : scopeId = ""
      · simp [hempty]
      · simp only [if_neg hempty, Option.map_eq_none_iff] at hnone ⊢
        exact h.get?_none hnone

end SubscriptionGateway

/-! ## The clean-up of a modern request -/

namespace ModernSubscriber

open SubscriptionGateway

variable {r : ModernSubscriber} {g g' : SubscriptionGateway}

/-- The entry that the unsubscription of a subscription finds. -/
def finds (r : ModernSubscriber) (g : SubscriptionGateway) (s : ModernSubscribed) :
    Option (String × Nat) :=
  g.findResourceSubscriptionEntry s.serverId s.resourceUri r.userId
    ((g.manager.getServerContext s.serverId (some r.userId)).map (·.id))

theorem finds_stable {key : String} (h : Releases key g g') {s : ModernSubscribed} {k : String}
    {state : Nat} (hfound : r.finds g s = some (k, state))
    (hkept : g'.table.resourceSubscriptions.get? k ≠ none) :
    r.finds g' s = some (k, state) := by
  rw [finds, h.manager]
  exact h.findResourceSubscriptionEntry hfound hkept

/-- What one unsubscription of the clean-up does up to its await. -/
theorem startUnsubscribe_cases (r : ModernSubscriber) (g : SubscriptionGateway)
    (s : ModernSubscribed) :
    ∃ key, Releases key g
        (g.startUnsubscribe s.serverId s.resourceUri r.subscriptionId r.userId).1 ∧
      ∀ k state, r.finds g s = some (k, state) →
        ¬(g.startUnsubscribe s.serverId s.resourceUri r.subscriptionId
          r.userId).1.table.Recorded k r.subscriptionId := by
  cases hfound : r.finds g s with
  | none =>
    have hstart : g.startUnsubscribe s.serverId s.resourceUri r.subscriptionId r.userId =
        (g, none) := by
      simp only [startUnsubscribe]
      rw [show g.findResourceSubscriptionEntry _ _ _ _ = none from hfound]
    rw [hstart]
    exact ⟨"", .refl "" g, fun _ _ h => by cases h⟩
  | some e =>
    obtain ⟨key, i⟩ := e
    have hstart : g.startUnsubscribe s.serverId s.resourceUri r.subscriptionId r.userId =
        g.unsubscribeResourceState key i r.subscriptionId := by
      simp only [startUnsubscribe]
      rw [show g.findResourceSubscriptionEntry _ _ _ _ = some (key, i) from hfound]
    rw [hstart]
    refine ⟨key, unsubscribeResourceState_releases g key i r.subscriptionId, ?_⟩
    intro k state heq
    obtain ⟨rfl, rfl⟩ := Prod.mk.inj (Option.some.inj heq)
    exact unsubscribeResourceState_own (get?_of_findResourceSubscriptionEntry hfound)

/-- The clean-up records nothing, and the sessions whose entries it finds are released. -/
theorem startCleanup_releases (r : ModernSubscriber) (subscriptions : List ModernSubscribed)
    (g : SubscriptionGateway) :
    (∀ k x, (r.startCleanup g subscriptions).1.table.Recorded k x → g.table.Recorded k x) ∧
      ∀ s ∈ subscriptions, ∀ k state, r.finds g s = some (k, state) →
        ¬(r.startCleanup g subscriptions).1.table.Recorded k r.subscriptionId := by
  induction subscriptions generalizing g with
  | nil => exact ⟨fun _ _ h => h, fun _ h => by cases h⟩
  | cons s subscriptions ih =>
    obtain ⟨key, hreleases, hown⟩ := startUnsubscribe_cases r g s
    obtain ⟨hmono, hfinds⟩ :=
      ih (g.startUnsubscribe s.serverId s.resourceUri r.subscriptionId r.userId).1
    refine ⟨fun k x h => hreleases.recorded k x (hmono k x h), ?_⟩
    intro s' hs' k state hfound hrec
    cases List.mem_cons.mp hs' with
    | inl heq =>
      subst heq
      exact hown k state hfound (hmono k _ hrec)
    | inr hmem =>
      by_cases hkept : (g.startUnsubscribe s.serverId s.resourceUri r.subscriptionId
          r.userId).1.table.resourceSubscriptions.get? k = none
      · obtain ⟨i, v, hentry, -⟩ := hmono k _ hrec
        rw [(SubscriptionTable.entry_eq_some.mp hentry).1] at hkept
        cases hkept
      · exact hfinds s' hmem k state (finds_stable hreleases hfound hkept) hrec

/-- The rest of the clean-up does not record the subscription id again. -/
theorem finishCleanup_recorded {sessionId key : String} {turns : List Turn}
    (hturns : ∀ turn ∈ turns, KeepsOut sessionId turn.others) {unsubscribing : List Unsubscribing}
    (h : finishCleanup g unsubscribing turns = some g')
    (hrec : g'.table.Recorded key sessionId) : g.table.Recorded key sessionId := by
  induction turns generalizing g unsubscribing with
  | nil =>
    rw [finishCleanup] at h
    split at h
    · cases h
      exact hrec
    · cases h
  | cons turn turns ih =>
    have hrest : ∀ turn ∈ turns, KeepsOut sessionId turn.others := fun t ht =>
      hturns t (List.mem_cons_of_mem turn ht)
    have hturn := hturns turn List.mem_cons_self
    rw [finishCleanup] at h
    simp only at h
    split at h
    · exact hturn.recorded (ih hrest h)
    · next u _ =>
      refine hturn.recorded (?_ : (turn.others g).table.Recorded key sessionId)
      have hresumed := ih hrest h
      cases u with
      | waits k state =>
        exact (unsubscribeRest_releases (turn.others g) k state).recorded key sessionId hresumed
      | unsubscribes k =>
        exact (releases_delete k (turn.others g)).recorded key sessionId hresumed

/-- When the server context is still that of the scope, the entry of the scope is found. -/
theorem finds_of_scope {s : ModernSubscribed} {sessionId : String}
    (hscope : (g.manager.getServerContext s.serverId (some r.userId)).map (·.id) = some s.scopeId)
    (hid : s.scopeId ≠ "") (hrec : g.table.Recorded s.recordedKey sessionId) :
    ∃ state, r.finds g s = some (s.recordedKey, state) := by
  obtain ⟨state, value, hentry, -⟩ := hrec
  refine ⟨state, ?_⟩
  have hkey : g.table.resourceSubscriptions.get?
      (buildResourceSubscriptionKey s.scopeId s.resourceUri) = some state :=
    (SubscriptionTable.entry_eq_some.mp hentry).1
  rw [finds, hscope]
  simp only [findResourceSubscriptionEntry, if_neg hid, hkey, Option.map_some, Option.some_or]
  rfl

/-- A request that throws releases the subscriptions whose entries its clean-up finds. -/
theorem subscribeModernResources_releases {turns : List Turn} {updated : Bool}
    {resourceUris : List String} {error : ModernSubscribeError}
    (hturns : ∀ turn ∈ turns, KeepsOut r.subscriptionId turn.others)
    (h : r.subscribeModernResources g turns updated resourceUris = some (.error error, g')) :
    ∃ subscriptions thrown,
      r.subscribeEach g [] resourceUris = (.error (error, subscriptions), thrown) ∧
      ((∀ s ∈ subscriptions, thrown.table.Recorded s.recordedKey r.subscriptionId →
          ∃ s' ∈ subscriptions, ∃ state, r.finds thrown s' = some (s.recordedKey, state)) →
        ∀ s ∈ subscriptions, ¬g'.table.Recorded s.recordedKey r.subscriptionId) := by
  rw [subscribeModernResources] at h
  split at h
  · cases h
  · split at h
    · cases h
    · next error' subscriptions thrown heach =>
      simp only [Option.map_eq_some_iff, Prod.mk.injEq, Except.error.injEq] at h
      obtain ⟨_, hfinish, rfl, rfl⟩ := h
      refine ⟨subscriptions, thrown, heach, ?_⟩
      obtain ⟨hmono, hreleased⟩ := startCleanup_releases r subscriptions thrown
      intro hfound s hs hrec
      have hstarted := finishCleanup_recorded hturns hfinish hrec
      obtain ⟨s', hs', state, hfinds⟩ := hfound s hs (hmono _ _ hstarted)
      exact hreleased s' hs' s.recordedKey state hfinds hstarted

end ModernSubscriber

namespace SubscriptionGateway

/-- What a failed subscribe leaves: `subscribeResource` leaves no trace exactly when there is a
    connection or the session was recorded before, and the key has not been taken over by another
    object with sessions when the object of the call has none left; and no earlier subscription of
    `subscribeModernResources` remains when its clean-up finds their entries. -/
theorem failed_subscribe (g g' : SubscriptionGateway) :
    (∀ (a : AwaitedCall) (serverId resourceUri sessionId userId : String) (error : SubscribeError),
      KeepsOut sessionId a.others →
      g.subscribeResource a serverId resourceUri sessionId userId = (.error error, g') →
      ∃ c, g.manager.getServerContext serverId (some userId) = some c ∧
        (LeavesNoTrace (buildResourceSubscriptionKey c.id resourceUri) sessionId g
            (g.startSubscribe serverId resourceUri sessionId userId).1
            (g.goesOn a serverId resourceUri sessionId userId) g' ↔
          (g.connection c.id = none →
            g.table.Recorded (buildResourceSubscriptionKey c.id resourceUri) sessionId) ∧
          (g.connection c.id ≠ none → ∀ state value,
            (g.startSubscribe serverId resourceUri sessionId userId).1.table.entry
                (buildResourceSubscriptionKey c.id resourceUri) = some (state, value) →
            ¬TakenOver (buildResourceSubscriptionKey c.id resourceUri) sessionId state g
              (g.goesOn a serverId resourceUri sessionId userId)))) ∧
    ∀ (r : ModernSubscriber) (turns : List Turn) (updated : Bool) (resourceUris : List String)
      (error : ModernSubscribeError),
      (∀ turn ∈ turns, KeepsOut r.subscriptionId turn.others) →
      r.subscribeModernResources g turns updated resourceUris = some (.error error, g') →
      ∃ subscriptions thrown,
        r.subscribeEach g [] resourceUris = (.error (error, subscriptions), thrown) ∧
        ((∀ s ∈ subscriptions, thrown.table.Recorded s.recordedKey r.subscriptionId →
            ∃ s' ∈ subscriptions, ∃ state, r.finds thrown s' = some (s.recordedKey, state)) →
          ∀ s ∈ subscriptions, ¬g'.table.Recorded s.recordedKey r.subscriptionId) :=
  ⟨fun _ _ _ _ _ _ hothers h => subscribeResource_leavesNoTrace_iff hothers h,
    fun _ _ _ _ _ hturns h =>
      ModernSubscriber.subscribeModernResources_releases hturns h⟩

/-! ### A server with one resource -/

/-- A context of a server that supports subscriptions. -/
private def filesContext : ServerContext CapabilityConfig where
  id := "1"
  serverID := "files"
  serverEntity :=
    { serverId := "files", serverName := "Files", enabled := true, capabilities := .empty
      allowUserInput := false, configTemplate := none, authType := 0, category := 0
      publicAccess := true, anonymousAccess := false, cached := .none }
  status := .sleeping
  capabilities := some ⟨none, some ⟨none, some true⟩, false, false⟩
  capabilitiesConfig := .empty
  lists := .none
  cached := .none
  userId := none

/-- The gateway without subscriptions, and whether the server has a connection. -/
private def filesGateway (connection : Option ProtocolEra) : SubscriptionGateway :=
  ⟨⟨Dict.empty.set "files" filesContext, .empty⟩, fun _ => connection, .empty, 0⟩

/-- A request whose second URI has no route. -/
private def filesRequest : ModernSubscriber where
  userId := "u1"
  subscriptionId := "r1:1"
  resolveResourceUriForSubscription _ uri :=
    if uri = "file:///a" then some ⟨"files", "file:///a"⟩ else none
  canAccessResourceById _ _ := true
  awaited _ := ⟨.ok (), id⟩
  afterwards _ := id

theorem keepsOut_id (sessionId : String) : KeepsOut sessionId id :=
  fun _ _ _ value h hhas => ⟨value, h, hhas⟩

/-- A call that the downstream server refuses, and a request whose second URI has no route. -/
theorem failed_subscribe_files :
    LeavesNoTrace "1::file:///a" "s1" (filesGateway (some .legacy))
      ((filesGateway (some .legacy)).startSubscribe "files" "file:///a" "s1" "u1").1
      ((filesGateway (some .legacy)).goesOn ⟨.error "refused", id⟩ "files" "file:///a" "s1" "u1")
      ((filesGateway (some .legacy)).subscribeResource ⟨.error "refused", id⟩ "files" "file:///a"
        "s1" "u1").2 ∧
    ∃ error g', filesRequest.subscribeModernResources (filesGateway (some .legacy)) [⟨id, 0⟩] true
        ["file:///a", "b"] = some (.error error, g') ∧
      ¬g'.table.Recorded "1::file:///a" "r1:1" := by
  constructor
  · obtain ⟨c, hc, htrace⟩ := (failed_subscribe (filesGateway (some .legacy)) _).1
      ⟨.error "refused", id⟩ "files" "file:///a" "s1" "u1" (.downstream "refused")
      (keepsOut_id "s1") rfl
    obtain rfl : filesContext = c := Option.some.inj hc
    refine htrace.mpr ⟨fun hnone => (by cases hnone), ?_⟩
    rintro - state value hentry ⟨-, state', value', hentry', hne, -⟩
    have hstate : 0 = state := congrArg Prod.fst (Option.some.inj hentry)
    have hstate' : 0 = state' := congrArg Prod.fst (Option.some.inj hentry')
    omega
  · obtain ⟨⟨result, g'⟩, hrun, hresult⟩ : ∃ e, filesRequest.subscribeModernResources
        (filesGateway (some .legacy)) [⟨id, 0⟩] true ["file:///a", "b"] = some e ∧
        e.1.isOk = false := ⟨_, rfl, rfl⟩
    cases result with
    | ok subscriptions => cases hresult
    | error error =>
      refine ⟨error, g', hrun, ?_⟩
      obtain ⟨subscriptions, thrown, heach, hreleased⟩ := (failed_subscribe
        (filesGateway (some .legacy)) g').2 filesRequest [⟨id, 0⟩] true ["file:///a", "b"] error
        (fun turn hturn => by
          rw [List.mem_singleton.mp hturn]
          exact keepsOut_id _) hrun
      have hsubscriptions : [⟨⟨"files", "file:///a", "file:///a"⟩, "1"⟩] = subscriptions :=
        congrArg Prod.snd (Except.error.inj (congrArg Prod.fst heach))
      subst hsubscriptions
      have hmanager : (filesGateway (some .legacy)).manager = thrown.manager :=
        congrArg (fun e => e.2.manager) heach
      refine hreleased ?_ _ (List.mem_singleton.mpr rfl)
      intro s hs hrec
      refine ⟨s, hs, ModernSubscriber.finds_of_scope ?_ ?_ hrec⟩
      · rw [List.mem_singleton.mp hs, ← hmanager]
        rfl
      · rw [List.mem_singleton.mp hs]
        decide

/-- The session is recorded although the call has thrown: the server sleeps. -/
theorem failed_subscribe_recorded :
    ¬∀ (g g' : SubscriptionGateway) (a : AwaitedCall)
      (serverId resourceUri sessionId userId : String) (error : SubscribeError),
      a.others = id →
      g.subscribeResource a serverId resourceUri sessionId userId = (.error error, g') →
      ∀ key x, g'.table.Recorded key x ↔ g.table.Recorded key x := by
  intro h
  have hsame := h (filesGateway none)
    ((filesGateway none).subscribeResource ⟨.ok (), id⟩ "files" "file:///a" "s1" "u1").2
    ⟨.ok (), id⟩ "files" "file:///a" "s1" "u1" (.notAvailable "files") rfl rfl "1::file:///a" "s1"
  have hafter : ((filesGateway none).subscribeResource ⟨.ok (), id⟩ "files" "file:///a" "s1"
      "u1").2.table.Recorded "1::file:///a" "s1" :=
    ⟨0, ⟨⟨"files", none, "file:///a", "1"⟩, ⟨Dict.empty.set "s1" (), false, none⟩⟩, rfl, rfl⟩
  exact SubscriptionTable.not_recorded_of_none rfl (hsame.mp hafter)

end SubscriptionGateway

end PetaCore
