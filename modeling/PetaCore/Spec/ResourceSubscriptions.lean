import PetaCore.Core.ResourceSubscriptions
import PetaCore.ForStd.Run

/-!
# The subscriptions of one URI

What holds about one URI while operations on it are in progress and calls are in flight, and how
each kind of step keeps it. A step on another URI does not touch it (`SameAt`).

Key results:
- `OkAt`: the invariant of a URI
- `OkAt.joins`, `OkAt.begins`: subscribes up to their first await
- `OkAt.leaves`, `OkAt.deletes`, `OkAt.stops`: unsubscribes up to their first await
- `OkAt.subscribed`, `OkAt.subscribeFails`, `OkAt.unsubscribed`: operations that go on
- `OkAt.processes`, `OkAt.settles`: calls
-/

namespace PetaCore

open Run

namespace SubscriptionOperation

def resourceUri : SubscriptionOperation → String
  | .subscribe _ uri _ _ _ | .unsubscribeWaits _ uri _ _ | .unsubscribe _ uri _ _ => uri

def sessionId : SubscriptionOperation → String
  | .subscribe _ _ session _ _ | .unsubscribeWaits _ _ session _
  | .unsubscribe _ _ session _ => session

def isSubscribe : SubscriptionOperation → Bool
  | .subscribe _ _ _ _ _ => true
  | .unsubscribeWaits _ _ _ _ | .unsubscribe _ _ _ _ => false

end SubscriptionOperation

namespace Subscriptions

variable {value value' : SubscriptionState} {s s' : Subscriptions} {uri session : String} {k : Nat}
  {call : DownstreamCall} {o : Nat}

/-! ## Objects and keys -/

/-- The objects are found under their own URIs. -/
def Keyed (s : Subscriptions) : Prop :=
  ∀ uri o, s.resourceSubscriptions.get? uri = some o →
    ∃ value, s.states.get? o = some value ∧ value.resourceUri = uri

theorem entry_eq_some {s : Subscriptions} {uri : String} {value : SubscriptionState} :
    s.entry uri = some (o, value) ↔
      s.resourceSubscriptions.get? uri = some o ∧ s.states.get? o = some value := by
  simp only [entry, Option.bind_eq_some_iff, Option.map_eq_some_iff, Prod.mk.injEq]
  constructor
  · rintro ⟨o', hkey, value', hvalue, rfl, rfl⟩
    exact ⟨hkey, hvalue⟩
  · rintro ⟨hkey, hvalue⟩
    exact ⟨o, hkey, value, hvalue, rfl, rfl⟩

theorem entry_unique {s : Subscriptions} {uri : String} {o o' : Nat}
    (h : s.entry uri = some (o, value)) (h' : s.entry uri = some (o', value')) :
    o = o' ∧ value = value' :=
  Prod.mk.inj (Option.some.inj (h.symm.trans h'))

theorem Keyed.resourceUri {s : Subscriptions} (h : s.Keyed) {uri : String}
    {value : SubscriptionState} (he : s.entry uri = some (o, value)) : value.resourceUri = uri := by
  obtain ⟨hkey, hvalue⟩ := entry_eq_some.mp he
  obtain ⟨value', hvalue', huri⟩ := h uri o hkey
  obtain rfl := Option.some.inj (hvalue'.symm.trans hvalue)
  exact huri

theorem Keyed.setState {s : Subscriptions} (h : s.Keyed) {uri : String}
    (he : s.entry uri = some (o, value)) (huri : value'.resourceUri = uri) :
    (s.setState o value').Keyed := by
  intro uri' o' hkey'
  obtain ⟨value₀, hvalue₀, huri₀⟩ := h uri' o' hkey'
  obtain ⟨hkey, hvalue⟩ := entry_eq_some.mp he
  simp only [Subscriptions.setState, Table.get?_put hvalue]
  split
  · next heq =>
    subst heq
    obtain rfl := Option.some.inj (hvalue₀.symm.trans hvalue)
    exact ⟨value', rfl, by rw [huri, ← h.resourceUri he, huri₀]⟩
  · exact ⟨value₀, hvalue₀, huri₀⟩

/-- An object changes: that of its URI. -/
theorem entry_setState {s : Subscriptions} (h : s.Keyed) {uri : String} {value : SubscriptionState}
    (he : s.entry uri = some (o, value)) (value' : SubscriptionState) (uri' : String) :
    (s.setState o value').entry uri' = if uri' = uri then some (o, value') else s.entry uri' := by
  obtain ⟨hkey, hvalue⟩ := entry_eq_some.mp he
  split
  · next heq =>
    subst heq
    refine entry_eq_some.mpr ⟨hkey, ?_⟩
    simp [Subscriptions.setState, Table.get?_put hvalue]
  · next hne =>
    simp only [entry, Subscriptions.setState]
    cases hkey' : s.resourceSubscriptions.get? uri' with
    | none => rfl
    | some o' =>
      have hother : o' ≠ o := by
        rintro rfl
        obtain ⟨value₀, hvalue₀, huri₀⟩ := h uri' o' hkey'
        obtain rfl := Option.some.inj (hvalue₀.symm.trans hvalue)
        exact hne (huri₀.symm.trans (h.resourceUri he))
      simp [Table.get?_put hvalue, hother]

theorem Keyed.deleteKey {s : Subscriptions} (h : s.Keyed) (uri : String) :
    (s.deleteKey uri).Keyed := by
  intro uri' o hkey
  simp only [Subscriptions.deleteKey, Dict.get?_erase] at hkey
  split at hkey
  · cases hkey
  · exact h uri' o hkey

theorem entry_deleteKey (s : Subscriptions) (uri uri' : String) :
    (s.deleteKey uri).entry uri' = if uri' = uri then none else s.entry uri' := by
  simp only [entry, Subscriptions.deleteKey, Dict.get?_erase]
  split <;> rfl

/-- A new object of a URI that has none. -/
def create (s : Subscriptions) (uri : String) : Subscriptions :=
  { s with
    states := s.states.add ⟨uri, .empty, false, none⟩
    resourceSubscriptions := s.resourceSubscriptions.set uri s.states.next }

theorem Keyed.create {s : Subscriptions} (h : s.Keyed) (uri : String) : (s.create uri).Keyed := by
  intro uri' o hkey
  simp only [Subscriptions.create, Dict.get?_set] at hkey
  simp only [Subscriptions.create, Table.get?_add]
  split at hkey
  · next heq =>
    cases hkey
    exact ⟨_, if_pos rfl, heq.symm⟩
  · obtain ⟨value, hvalue, huri⟩ := h uri' o hkey
    have hlt := Table.lt_next_of_get? hvalue
    exact ⟨value, by rw [if_neg (by omega), hvalue], huri⟩

theorem entry_create {s : Subscriptions} (h : s.Keyed) (uri uri' : String) :
    (s.create uri).entry uri' =
      if uri' = uri then some (s.states.next, ⟨uri, .empty, false, none⟩) else s.entry uri' := by
  simp only [entry, Subscriptions.create, Dict.get?_set]
  split
  · simp [Table.get?_add]
  · cases hkey : s.resourceSubscriptions.get? uri' with
    | none => rfl
    | some o =>
      obtain ⟨value, hvalue, _⟩ := h uri' o hkey
      have hlt := Table.lt_next_of_get? hvalue
      have hne : o ≠ s.states.next := by omega
      simp [Table.get?_add, hne]

/-! ## The invariant -/

/-- Nothing about the URI has changed. -/
structure SameAt (s s' : Subscriptions) (uri : String) : Prop where
  entry : s'.entry uri = s.entry uri
  operations : ∀ i (operation : SubscriptionOperation), operation.resourceUri = uri →
    (s'.operations.get? i = some operation ↔ s.operations.get? i = some operation)
  calls : ∀ c (call : DownstreamCall), call.resourceUri = uri →
    (s'.calls.get? c = some call ↔ s.calls.get? c = some call)
  downstream : ∀ k, s'.downstream k uri = s.downstream k uri
  last : ∀ session, s'.last uri session = s.last uri session

/-- A subscribe in progress: its session is recorded, and its call is the one that the object
    awaits, or has settled. -/
structure SubscribeOk (s : Subscriptions) (uri : String) (o : Nat) (session : String)
    (already : Bool) (c : Nat) : Prop where
  fresh : already = false ∧ s.last uri session = false
  entry : ∃ value, s.entry uri = some (o, value) ∧
    value.subscribedSessions.get? session = some () ∧
    ∃ call, s.calls.get? c = some call ∧ call.resourceUri = uri ∧
      (call.stage.inFlight = true → value.downstreamSubscription = some c) ∧
      (call.stage = .succeeded → value.downstreamSubscribed = true)

/-- A call that an object awaits: it is in flight, and somebody waits for it. -/
structure PendingOk (s : Subscriptions) (uri : String) (o : Nat) (value : SubscriptionState)
    (c : Nat) : Prop where
  unmarked : value.downstreamSubscribed = false
  call : ∃ call, s.calls.get? c = some call ∧ call.resourceUri = uri ∧
    call.stage.inFlight = true ∧ call.subscribes = true ∧ call.state = o
  waiting : ∃ i session already, s.operations.get? i = some (.subscribe o uri session already c)

/-- What holds about a URI, on connection `k`. -/
structure OkAt (k : Nat) (s : Subscriptions) (uri : String) : Prop where
  subscribes : ∀ i o session already c,
    s.operations.get? i = some (.subscribe o uri session already c) →
    s.SubscribeOk uri o session already c
  once : ∀ i j o o' session already already' c c',
    s.operations.get? i = some (.subscribe o uri session already c) →
    s.operations.get? j = some (.subscribe o' uri session already' c') → i = j
  noWaits : ∀ i o session c, s.operations.get? i ≠ some (.unsubscribeWaits o uri session c)
  leaving : ∀ i o session d, s.operations.get? i = some (.unsubscribe o uri session d) →
    (∀ j o session already c, s.operations.get? j ≠ some (.subscribe o uri session already c)) ∧
    ∀ o value, s.entry uri = some (o, value) → value.subscribedSessions.entries = []
  pending : ∀ o value c, s.entry uri = some (o, value) →
    value.downstreamSubscription = some c → s.PendingOk uri o value c
  connection : ∀ c call, s.calls.get? c = some call → call.resourceUri = uri →
    call.connection = k
  starting : ∀ c call, s.calls.get? c = some call → call.resourceUri = uri →
    call.stage.inFlight = true → call.subscribes = true →
    (∃ value, s.entry uri = some (call.state, value) ∧
      value.downstreamSubscription = some c) ∧
    (call.stage = .processed → s.downstream k uri = true)
  stopping : ∀ c call, s.calls.get? c = some call → call.resourceUri = uri →
    call.stage.inFlight = true → call.subscribes = false →
    ∃ i o session, s.operations.get? i = some (.unsubscribe o uri session c)
  recorded : ∀ o value session, s.entry uri = some (o, value) →
    value.subscribedSessions.get? session = some () →
    (s.last uri session = true ∧ value.downstreamSubscribed = true) ∨
      ∃ i already c, s.operations.get? i = some (.subscribe o uri session already c)
  last : ∀ session, s.last uri session = true →
    (∃ o value, s.entry uri = some (o, value) ∧
      value.subscribedSessions.get? session = some ()) ∨
    ∃ i o d, s.operations.get? i = some (.unsubscribe o uri session d)
  downstream : ∀ o value, s.entry uri = some (o, value) → value.downstreamSubscribed = true →
    (∀ i o session d, s.operations.get? i ≠ some (.unsubscribe o uri session d)) →
    s.downstream k uri = true

/-- A step on another URI. -/
theorem OkAt.same {uri : String} (h : OkAt k s uri) (hsame : s.SameAt s' uri) : OkAt k s' uri := by
  have hsub : ∀ i o session already c,
      s'.operations.get? i = some (.subscribe o uri session already c) ↔
        s.operations.get? i = some (.subscribe o uri session already c) :=
    fun i o session already c => hsame.operations i _ rfl
  have hunsub : ∀ i o session c, s'.operations.get? i = some (.unsubscribe o uri session c) ↔
        s.operations.get? i = some (.unsubscribe o uri session c) :=
    fun i o session c => hsame.operations i _ rfl
  have hcall : ∀ {c call}, s'.calls.get? c = some call → call.resourceUri = uri →
      s.calls.get? c = some call := fun hc huri => (hsame.calls _ _ huri).mp hc
  constructor
  case subscribes =>
    intro i o session already c hi
    obtain ⟨hfresh, value, he, hsession, call, hc, huri, hrest⟩ :=
      h.subscribes i o session already c ((hsub ..).mp hi)
    refine ⟨by rwa [hsame.last], value, by rwa [hsame.entry], hsession, call, ?_, huri, hrest⟩
    exact (hsame.calls c call huri).mpr hc
  case once =>
    intro i j o o' session already already' c c' hi hj
    exact h.once i j o o' session already already' c c' ((hsub ..).mp hi) ((hsub ..).mp hj)
  case noWaits =>
    intro i o session c hi
    exact h.noWaits i o session c ((hsame.operations i _ rfl).mp hi)
  case leaving =>
    intro i o session d hi
    obtain ⟨hnone, hempty⟩ := h.leaving i o session d ((hunsub ..).mp hi)
    rw [hsame.entry]
    exact ⟨fun j o session already c hj => hnone j o session already c ((hsub ..).mp hj), hempty⟩
  case pending =>
    intro o value c he hsubscription
    rw [hsame.entry] at he
    obtain ⟨hunmarked, ⟨call, hc, huri, hrest⟩, i, session, already, hi⟩ :=
      h.pending o value c he hsubscription
    exact ⟨hunmarked, ⟨call, (hsame.calls c call huri).mpr hc, huri, hrest⟩, i, session, already,
      (hsub ..).mpr hi⟩
  case connection => exact fun c call hc huri => h.connection c call (hcall hc huri) huri
  case starting =>
    intro c call hc huri
    rw [hsame.entry, hsame.downstream]
    exact h.starting c call (hcall hc huri) huri
  case stopping =>
    intro c call hc huri hflight hstops
    obtain ⟨i, o, session, hi⟩ := h.stopping c call (hcall hc huri) huri hflight hstops
    exact ⟨i, o, session, (hunsub ..).mpr hi⟩
  case recorded =>
    intro o value session he hsession
    rw [hsame.entry] at he
    rw [hsame.last]
    rcases h.recorded o value session he hsession with hlast | ⟨i, already, c, hi⟩
    · exact .inl hlast
    · exact .inr ⟨i, already, c, (hsub ..).mpr hi⟩
  case last =>
    intro session hlast
    rw [hsame.last] at hlast
    rw [hsame.entry]
    rcases h.last session hlast with hrecorded | ⟨i, o, d, hi⟩
    · exact .inl hrecorded
    · exact .inr ⟨i, o, d, (hunsub ..).mpr hi⟩
  case downstream =>
    intro o value he hmarked hnone
    rw [hsame.entry] at he
    rw [hsame.downstream]
    exact h.downstream o value he hmarked
      fun i o session d hi => hnone i o session d ((hunsub ..).mpr hi)

/-! ## Subscribes -/

/-- What a subscribe needs: no operation of its session on the URI is in progress, and no
    unsubscribe of the URI. -/
def Free (s : Subscriptions) (uri session : String) : Prop :=
  ∀ i operation, s.operations.get? i = some operation → operation.resourceUri = uri →
    operation.sessionId ≠ session ∧ operation.isSubscribe = true

theorem Free.not_unsubscribe (h : s.Free uri session) (i o : Nat) (session' : String) (d : Nat) :
    s.operations.get? i ≠ some (.unsubscribe o uri session' d) := by
  intro hi
  have hkind := (h i _ hi rfl).2
  simp [SubscriptionOperation.isSubscribe] at hkind

/-- A session joins an object that is subscribed. -/
theorem OkAt.joins (h : OkAt k s uri) (he : s.entry uri = some (o, value))
    (he' : s'.entry uri = some (o, value')) (hmarked : value.downstreamSubscribed = true)
    (hmarked' : value'.downstreamSubscribed = true)
    (hsubscription : value'.downstreamSubscription = value.downstreamSubscription)
    (hsessions : ∀ session', value'.subscribedSessions.get? session' =
      if session' = session then some () else value.subscribedSessions.get? session')
    (hops : s'.operations = s.operations) (hcalls : s'.calls = s.calls)
    (hdown : s'.downstream = s.downstream) (hlast : ∀ session', s'.last uri session' =
      if session' = session then true else s.last uri session')
    (hfree : s.Free uri session) :
    OkAt k s' uri := by
  constructor
  case subscribes =>
    intro i o' session' already c hi
    rw [hops] at hi
    obtain ⟨hfresh, value₀, he₀, hsession', call, hc, hrest⟩ :=
      h.subscribes i o' session' already c hi
    have hne : session' ≠ session := (hfree i _ hi rfl).1
    obtain ⟨rfl, rfl⟩ := entry_unique he₀ he
    refine ⟨by rw [hlast, if_neg hne]; exact hfresh, value', he', ?_, call, by rwa [hcalls],
      hrest.1, ?_, fun _ => hmarked'⟩
    · rw [hsessions, if_neg hne]
      exact hsession'
    · rw [hsubscription]
      exact hrest.2.1
  case once =>
    rw [hops]
    exact h.once
  case noWaits =>
    rw [hops]
    exact h.noWaits
  case leaving =>
    intro i o' session' d hi
    rw [hops] at hi
    exact absurd hi (hfree.not_unsubscribe i o' session' d)
  case pending =>
    intro o' value₁ c he₁ hsome
    obtain ⟨rfl, rfl⟩ := entry_unique he₁ he'
    rw [hsubscription] at hsome
    have hunmarked := (h.pending o' value c he hsome).unmarked
    simp [hmarked] at hunmarked
  case connection =>
    rw [hcalls]
    exact h.connection
  case starting =>
    intro c call hc huri hflight hstarts
    rw [hcalls] at hc
    obtain ⟨⟨value₀, he₀, hsome⟩, hprocessed⟩ := h.starting c call hc huri hflight hstarts
    obtain ⟨rfl, rfl⟩ := entry_unique he₀ he
    rw [hdown]
    exact ⟨⟨value', he', hsubscription.trans hsome⟩, hprocessed⟩
  case stopping =>
    rw [hcalls, hops]
    exact h.stopping
  case recorded =>
    intro o' value₁ session' he₁ hsession'
    obtain ⟨rfl, rfl⟩ := entry_unique he₁ he'
    rw [hops, hlast]
    by_cases heq : session' = session
    · exact .inl ⟨by simp [heq], hmarked'⟩
    · rw [hsessions, if_neg heq] at hsession'
      rw [if_neg heq]
      rcases h.recorded o' value session' he hsession' with ⟨hlast', _⟩ | hop
      · exact .inl ⟨hlast', hmarked'⟩
      · exact .inr hop
  case last =>
    intro session' hlast'
    rw [hlast] at hlast'
    rw [hops]
    by_cases heq : session' = session
    · exact .inl ⟨o, value', he', by rw [hsessions, if_pos heq]⟩
    · rw [if_neg heq] at hlast'
      rcases h.last session' hlast' with ⟨o₀, value₀, he₀, hsession'⟩ | hop
      · obtain ⟨rfl, rfl⟩ := entry_unique he₀ he
        exact .inl ⟨o₀, value', he', by rw [hsessions, if_neg heq]; exact hsession'⟩
      · exact .inr hop
  case downstream =>
    intro o' value₁ he₁ _ _
    rw [hdown]
    exact h.downstream o value he hmarked hfree.not_unsubscribe

/-- A new object, which has no session yet. -/
theorem OkAt.create {s : Subscriptions} (hkeyed : s.Keyed) {uri : String} (h : OkAt k s uri)
    (he : s.entry uri = none) : OkAt k (s.create uri) uri := by
  have he' := entry_create hkeyed uri uri
  rw [if_pos rfl] at he'
  have hvalue : ∀ {o value}, (s.create uri).entry uri = some (o, value) →
      value = ⟨uri, .empty, false, none⟩ := by
    intro o value hsome
    exact (entry_unique hsome he').2
  constructor
  case subscribes =>
    intro i o session already c hi
    obtain ⟨_, value, hsome, _⟩ := h.subscribes i o session already c hi
    simp [he] at hsome
  case once => exact h.once
  case noWaits => exact h.noWaits
  case leaving =>
    intro i o session d hi
    refine ⟨(h.leaving i o session d hi).1, ?_⟩
    intro o' value hsome
    rw [hvalue hsome]
    rfl
  case pending =>
    intro o value c hsome hsubscription
    rw [hvalue hsome] at hsubscription
    cases hsubscription
  case connection => exact h.connection
  case starting =>
    intro c call hc huri hflight hstarts
    obtain ⟨⟨value, hsome, _⟩, _⟩ := h.starting c call hc huri hflight hstarts
    simp [he] at hsome
  case stopping => exact h.stopping
  case recorded =>
    intro o value session hsome hsession
    rw [hvalue hsome] at hsession
    simp at hsession
  case last =>
    intro session hlast
    rcases h.last session hlast with ⟨_, _, hsome, _⟩ | hop
    · simp [he] at hsome
    · exact .inr hop
  case downstream =>
    intro o value hsome hmarked
    rw [hvalue hsome] at hmarked
    cases hmarked

/-- A session is recorded and waits for the call of the object, which may be a new one. -/
theorem OkAt.begins (h : OkAt k s uri) {o c : Nat} (he : s.entry uri = some (o, value))
    (he' : s'.entry uri = some (o, value')) (hunmarked : value.downstreamSubscribed = false)
    (hunmarked' : value'.downstreamSubscribed = false)
    (hsubscription : value'.downstreamSubscription = some c)
    (hsessions : ∀ session', value'.subscribedSessions.get? session' =
      if session' = session then some () else value.subscribedSessions.get? session')
    (hops : s'.operations = s.operations.add (.subscribe o uri session false c))
    (hcalls : s'.calls = s.calls ∧ value.downstreamSubscription = some c ∨
      value.downstreamSubscription = none ∧ c = s.calls.next ∧
        s'.calls = s.calls.add ⟨k, uri, true, o, .sent⟩) (hdown : s'.downstream = s.downstream)
    (hlast : ∀ session', s'.last uri session' = s.last uri session')
    (hfree : s.Free uri session) :
    OkAt k s' uri := by
  -- the call that is awaited is in flight
  have hcall : ∃ call, s'.calls.get? c = some call ∧ call.resourceUri = uri ∧
      call.stage.inFlight = true ∧ call.subscribes = true ∧ call.state = o := by
    rcases hcalls with ⟨hsame, hsome⟩ | ⟨_, rfl, hadd⟩
    · rw [hsame]
      exact (h.pending o value c he hsome).call
    · exact ⟨⟨k, uri, true, o, .sent⟩, by simp [hadd, Table.get?_add], rfl, rfl, rfl, rfl⟩
  have hkept : ∀ {c' call}, s.calls.get? c' = some call → s'.calls.get? c' = some call := by
    intro c' call hc'
    rcases hcalls with ⟨hsame, _⟩ | ⟨_, _, hadd⟩
    · rwa [hsame]
    · have hlt := Table.lt_next_of_get? hc'
      rw [hadd, Table.get?_add, if_neg (by omega)]
      exact hc'
  have hold : ∀ {c' call}, s'.calls.get? c' = some call → s.calls.get? c' = some call ∨
      c' = c ∧ call = ⟨k, uri, true, o, .sent⟩ := by
    intro c' call hc'
    rcases hcalls with ⟨hsame, _⟩ | ⟨_, rfl, hadd⟩
    · rw [hsame] at hc'
      exact .inl hc'
    · rw [hadd, Table.get?_add] at hc'
      split at hc'
      · next heq => exact .inr ⟨heq, (Option.some.inj hc').symm⟩
      · exact .inl hc'
  -- the calls that were in flight are the one the object awaits
  have hflying : ∀ {c' call}, s.calls.get? c' = some call → call.resourceUri = uri →
      call.stage.inFlight = true → call.subscribes = true → c' = c ∧ call.state = o := by
    intro c' call hc' huri hflight hstarts
    obtain ⟨⟨value₀, he₀, hsome⟩, _⟩ := h.starting c' call hc' huri hflight hstarts
    obtain ⟨hstate, rfl⟩ := entry_unique he₀ he
    rcases hcalls with ⟨_, hsome'⟩ | ⟨hnothing, _⟩
    · exact ⟨Option.some.inj (hsome.symm.trans hsome'), hstate⟩
    · simp [hnothing] at hsome
  have hcases : ∀ {i operation}, s'.operations.get? i = some operation →
      i = s.operations.next ∧ operation = .subscribe o uri session false c ∨
        s.operations.get? i = some operation := by
    intro i operation hi
    rw [hops, Table.get?_add] at hi
    split at hi
    · next heq => exact .inl ⟨heq, (Option.some.inj hi).symm⟩
    · exact .inr hi
  have hadded : s'.operations.get? s.operations.next =
      some (.subscribe o uri session false c) := by
    rw [hops, Table.get?_add_next]
  have hkeptOps : ∀ {i operation}, s.operations.get? i = some operation →
      s'.operations.get? i = some operation := by
    intro i operation hi
    rw [hops, Table.get?_add_of_some hi]
  have hnotLast : s.last uri session = false := by
    cases hl : s.last uri session with
    | false => rfl
    | true =>
      rcases h.last session hl with ⟨o₀, value₀, he₀, hsession⟩ | ⟨i, o₀, d, hi⟩
      · obtain ⟨rfl, rfl⟩ := entry_unique he₀ he
        rcases h.recorded _ _ session he hsession with ⟨_, hmarked⟩ | ⟨i, already, c', hi⟩
        · simp [hunmarked] at hmarked
        · exact absurd rfl (hfree i _ hi rfl).1
      · exact absurd hi (hfree.not_unsubscribe i o₀ session d)
  constructor
  case subscribes =>
    intro i o' session' already c' hi
    rcases hcases hi with ⟨_, heq⟩ | hi
    · obtain ⟨rfl, _, rfl, rfl, rfl⟩ := SubscriptionOperation.subscribe.inj heq
      obtain ⟨call, hc, huri, hflight, _⟩ := hcall
      refine ⟨⟨rfl, by rw [hlast]; exact hnotLast⟩, value', he', by simp [hsessions], call, hc,
        huri, fun _ => hsubscription, ?_⟩
      intro hsucceeded
      simp [hsucceeded, CallStage.inFlight] at hflight
    · obtain ⟨hfresh, value₀, he₀, hsession', call, hc, huri, hawaits, hmarked⟩ :=
        h.subscribes i o' session' already c' hi
      obtain ⟨rfl, rfl⟩ := entry_unique he₀ he
      have hne : session' ≠ session := (hfree i _ hi rfl).1
      refine ⟨by rwa [hlast], value', he', ?_, call, hkept hc, huri, ?_, ?_⟩
      · rw [hsessions, if_neg hne]
        exact hsession'
      · intro hflight
        rcases hcalls with ⟨_, hsome⟩ | ⟨hnothing, _⟩
        · rw [hsubscription, ← hsome]
          exact hawaits hflight
        · rw [hnothing] at hawaits
          cases hawaits hflight
      · intro hsucceeded
        rw [hmarked hsucceeded] at hunmarked
        cases hunmarked
  case once =>
    intro i j o₁ o₂ session' already already' c₁ c₂ hi hj
    rcases hcases hi with ⟨rfl, heq⟩ | hi
    · obtain ⟨_, _, rfl, _⟩ := SubscriptionOperation.subscribe.inj heq
      rcases hcases hj with ⟨rfl, _⟩ | hj
      · rfl
      · exact absurd rfl (hfree j _ hj rfl).1
    · rcases hcases hj with ⟨_, heq⟩ | hj
      · obtain ⟨_, _, rfl, _⟩ := SubscriptionOperation.subscribe.inj heq
        exact absurd rfl (hfree i _ hi rfl).1
      · exact h.once i j o₁ o₂ session' already already' c₁ c₂ hi hj
  case noWaits =>
    intro i o' session' c' hi
    rcases hcases hi with ⟨_, heq⟩ | hi
    · cases heq
    · exact h.noWaits i o' session' c' hi
  case leaving =>
    intro i o' session' d hi
    rcases hcases hi with ⟨_, heq⟩ | hi
    · cases heq
    · exact absurd hi (hfree.not_unsubscribe i o' session' d)
  case pending =>
    intro o' value₁ c' he₁ hsome
    obtain ⟨rfl, rfl⟩ := entry_unique he₁ he'
    obtain rfl := Option.some.inj (hsubscription.symm.trans hsome)
    exact ⟨hunmarked', hcall, _, session, false, hadded⟩
  case connection =>
    intro c' call hc' huri
    rcases hold hc' with hc' | ⟨_, rfl⟩
    · exact h.connection c' call hc' huri
    · rfl
  case starting =>
    intro c' call hc' huri hflight hstarts
    rw [hdown]
    rcases hold hc' with hc' | ⟨rfl, rfl⟩
    · obtain ⟨rfl, rfl⟩ := hflying hc' huri hflight hstarts
      exact ⟨⟨value', he', hsubscription⟩, (h.starting c' call hc' huri hflight hstarts).2⟩
    · exact ⟨⟨value', he', hsubscription⟩, fun hprocessed => by cases hprocessed⟩
  case stopping =>
    intro c' call hc' huri hflight hstops
    rcases hold hc' with hc' | ⟨_, rfl⟩
    · obtain ⟨i, o', session', hi⟩ := h.stopping c' call hc' huri hflight hstops
      exact absurd hi (hfree.not_unsubscribe i o' session' c')
    · cases hstops
  case recorded =>
    intro o' value₁ session' he₁ hsession'
    obtain ⟨rfl, rfl⟩ := entry_unique he₁ he'
    by_cases heq : session' = session
    · subst heq
      exact .inr ⟨_, false, c, hadded⟩
    · rw [hsessions, if_neg heq] at hsession'
      rcases h.recorded o' value session' he hsession' with ⟨_, hmarked⟩ | ⟨i, already, c', hi⟩
      · simp [hunmarked] at hmarked
      · exact .inr ⟨i, already, c', hkeptOps hi⟩
  case last =>
    intro session' hlast'
    rw [hlast] at hlast'
    rcases h.last session' hlast' with ⟨o₀, value₀, he₀, hsession'⟩ | ⟨i, o₀, d, hi⟩
    · obtain ⟨rfl, rfl⟩ := entry_unique he₀ he
      refine .inl ⟨o₀, value', he', ?_⟩
      rw [hsessions]
      split
      · rfl
      · exact hsession'
    · exact absurd hi (hfree.not_unsubscribe i o₀ session' d)
  case downstream =>
    intro o' value₁ he₁ hmarked
    obtain ⟨rfl, rfl⟩ := entry_unique he₁ he'
    simp [hunmarked'] at hmarked

/-! ## Unsubscribes -/

/-- The sessions of an object but one. -/
def Without (value value' : SubscriptionState) (session : String) : Prop :=
  ∀ session', value'.subscribedSessions.get? session' =
    if session' = session then none else value.subscribedSessions.get? session'

/-- A subscribe in progress keeps its session in the object, so the object is not empty when
    another session has left. -/
theorem OkAt.get?_without {s : Subscriptions} (h : OkAt k s uri)
    (he : s.entry uri = some (o, value)) (hwithout : Without value value' session) {i o' : Nat}
    {session' : String} {already : Bool} {c : Nat}
    (hi : s.operations.get? i = some (.subscribe o' uri session' already c))
    (hne : session' ≠ session) : value'.subscribedSessions.get? session' = some () := by
  obtain ⟨_, value₀, he₀, hsession', _⟩ := h.subscribes i o' session' already c hi
  obtain ⟨rfl, rfl⟩ := entry_unique he₀ he
  rw [hwithout, if_neg hne]
  exact hsession'

/-- A session leaves an object that others have, or is not recorded at all. -/
theorem OkAt.leaves (h : OkAt k s uri) (hentry : s.entry uri = none ∧ s'.entry uri = none ∨
      ∃ o value value', s.entry uri = some (o, value) ∧ s'.entry uri = some (o, value') ∧
        Without value value' session ∧
        value'.downstreamSubscribed = value.downstreamSubscribed ∧
        value'.downstreamSubscription = value.downstreamSubscription)
    (hops : s'.operations = s.operations) (hcalls : s'.calls = s.calls)
    (hdown : s'.downstream = s.downstream) (hlast : ∀ session', s'.last uri session' =
      if session' = session then false else s.last uri session') (hself : ∀ i o already c,
      s.operations.get? i ≠ some (.subscribe o uri session already c)) : OkAt k s' uri := by
  -- what the object was before
  have hback : ∀ {o value'}, s'.entry uri = some (o, value') → ∃ value,
      s.entry uri = some (o, value) ∧ Without value value' session ∧
      value'.downstreamSubscribed = value.downstreamSubscribed ∧
      value'.downstreamSubscription = value.downstreamSubscription := by
    intro o value' he'
    rcases hentry with ⟨_, hnone'⟩ | ⟨o₀, value, value₀, he, he₀, hrest⟩
    · simp [hnone'] at he'
    · obtain ⟨rfl, rfl⟩ := entry_unique he₀ he'
      exact ⟨value, he, hrest⟩
  have hforth : ∀ {o value}, s.entry uri = some (o, value) → ∃ value',
      s'.entry uri = some (o, value') ∧ Without value value' session ∧
      value'.downstreamSubscribed = value.downstreamSubscribed ∧
      value'.downstreamSubscription = value.downstreamSubscription := by
    intro o value he
    rcases hentry with ⟨hnone, _⟩ | ⟨o₀, value₀, value', he₀, he', hrest⟩
    · simp [hnone] at he
    · obtain ⟨rfl, rfl⟩ := entry_unique he₀ he
      exact ⟨value', he', hrest⟩
  constructor
  case subscribes =>
    intro i o session' already c hi
    rw [hops] at hi
    have hne : session' ≠ session := by
      rintro rfl
      exact hself i o already c hi
    obtain ⟨hfresh, value, he, hsession', call, hc, huri, hawaits, hmarked⟩ :=
      h.subscribes i o session' already c hi
    obtain ⟨value', he', hwithout, hmark, hsubscription⟩ := hforth he
    refine ⟨by rw [hlast, if_neg hne]; exact hfresh, value', he', ?_, call, by rwa [hcalls], huri,
      by rwa [hsubscription], by rwa [hmark]⟩
    rw [hwithout, if_neg hne]
    exact hsession'
  case once =>
    rw [hops]
    exact h.once
  case noWaits =>
    rw [hops]
    exact h.noWaits
  case leaving =>
    intro i o session' d hi
    rw [hops] at hi ⊢
    obtain ⟨hnone, hempty⟩ := h.leaving i o session' d hi
    refine ⟨hnone, ?_⟩
    intro o' value' he'
    obtain ⟨value, he, hwithout, _⟩ := hback he'
    refine Dict.entries_of_get? fun session'' => ?_
    rw [hwithout]
    split
    · rfl
    · exact Dict.get?_of_entries (hempty o' value he) session''
  case pending =>
    intro o value' c he' hsome
    obtain ⟨value, he, _, hmark, hsubscription⟩ := hback he'
    rw [hsubscription] at hsome
    obtain ⟨hunmarked, hcall, hwaiting⟩ := h.pending o value c he hsome
    exact ⟨hmark.trans hunmarked, by rwa [hcalls], by rwa [hops]⟩
  case connection =>
    rw [hcalls]
    exact h.connection
  case starting =>
    intro c call hc huri hflight hstarts
    rw [hcalls] at hc
    obtain ⟨⟨value, he, hsome⟩, hprocessed⟩ := h.starting c call hc huri hflight hstarts
    obtain ⟨value', he', _, _, hsubscription⟩ := hforth he
    rw [hdown]
    exact ⟨⟨value', he', hsubscription.trans hsome⟩, hprocessed⟩
  case stopping =>
    rw [hcalls, hops]
    exact h.stopping
  case recorded =>
    intro o value' session' he' hsession'
    obtain ⟨value, he, hwithout, hmark, _⟩ := hback he'
    rw [hwithout] at hsession'
    split at hsession'
    · cases hsession'
    · next hne =>
      rw [hlast, if_neg hne, hops, hmark]
      exact h.recorded o value session' he hsession'
  case last =>
    intro session' hlast'
    rw [hlast] at hlast'
    split at hlast'
    · cases hlast'
    · next hne =>
      rw [hops]
      rcases h.last session' hlast' with ⟨o, value, he, hsession'⟩ | hop
      · obtain ⟨value', he', hwithout, _⟩ := hforth he
        exact .inl ⟨o, value', he', by rw [hwithout, if_neg hne]; exact hsession'⟩
      · exact .inr hop
  case downstream =>
    intro o value' he' hmarked hnone
    obtain ⟨value, he, _, hmark, _⟩ := hback he'
    rw [hops] at hnone
    rw [hdown]
    exact h.downstream o value he (hmark.symm.trans hmarked) hnone

theorem OkAt.nobody (h : OkAt k s uri) (he : s.entry uri = some (o, value))
    (hwithout : Without value value' session) (hempty : value'.subscribedSessions.entries = [])
    (hself : ∀ i o already c,
      s.operations.get? i ≠ some (.subscribe o uri session already c)) :
    ∀ i o session' already c,
      s.operations.get? i ≠ some (.subscribe o uri session' already c) := by
  intro i o' session' already c hi
  have hne : session' ≠ session := by
    rintro rfl
    exact hself i o' already c hi
  have hsession' := h.get?_without he hwithout hi hne
  rw [Dict.get?_of_entries hempty] at hsession'
  cases hsession'

/-- The last session leaves an object that is not subscribed: the object goes. -/
theorem OkAt.deletes (h : OkAt k s uri) (he : s.entry uri = some (o, value))
    (hwithout : Without value value' session) (hempty : value'.subscribedSessions.entries = [])
    (he' : s'.entry uri = none) (hops : s'.operations = s.operations) (hcalls : s'.calls = s.calls)
    (hlast : ∀ session', s'.last uri session' =
      if session' = session then false else s.last uri session') (hself : ∀ i o already c,
      s.operations.get? i ≠ some (.subscribe o uri session already c)) : OkAt k s' uri := by
  have hnobody := h.nobody he hwithout hempty hself
  constructor
  case subscribes =>
    intro i o' session' already c hi
    rw [hops] at hi
    exact absurd hi (hnobody i o' session' already c)
  case once =>
    rw [hops]
    exact h.once
  case noWaits =>
    rw [hops]
    exact h.noWaits
  case leaving =>
    intro i o' session' d hi
    rw [hops]
    exact ⟨hnobody, by simp [he']⟩
  case pending => simp [he']
  case connection =>
    rw [hcalls]
    exact h.connection
  case starting =>
    intro c call hc huri hflight hstarts
    rw [hcalls] at hc
    obtain ⟨⟨value₀, he₀, hsome⟩, _⟩ := h.starting c call hc huri hflight hstarts
    obtain ⟨i, session', already, hi⟩ := (h.pending _ value₀ c he₀ hsome).waiting
    exact absurd hi (hnobody i _ session' already c)
  case stopping =>
    rw [hcalls, hops]
    exact h.stopping
  case recorded => simp [he']
  case last =>
    intro session' hlast'
    rw [hlast] at hlast'
    split at hlast'
    · cases hlast'
    · next hne =>
      rw [hops]
      rcases h.last session' hlast' with ⟨o₀, value₀, he₀, hsession'⟩ | hop
      · obtain ⟨rfl, rfl⟩ := entry_unique he₀ he
        have hkept := hwithout session'
        rw [if_neg hne, hsession', Dict.get?_of_entries hempty] at hkept
        cases hkept
      · exact .inr hop
  case downstream => simp [he']

/-- The last session leaves an object that is subscribed: the server is told. -/
theorem OkAt.stops (h : OkAt k s uri) (he : s.entry uri = some (o, value))
    (he' : s'.entry uri = some (o, value')) (hwithout : Without value value' session)
    (hempty : value'.subscribedSessions.entries = []) (hmarked : value.downstreamSubscribed = true)
    (hsubscription : value'.downstreamSubscription = value.downstreamSubscription)
    (hops : s'.operations = s.operations.add (.unsubscribe o uri session s.calls.next))
    (hcalls : s'.calls = s.calls.add ⟨k, uri, false, o, .sent⟩)
    (hlast : ∀ session', s'.last uri session' = s.last uri session') (hself : ∀ i o already c,
      s.operations.get? i ≠ some (.subscribe o uri session already c)) : OkAt k s' uri := by
  have hnobody := h.nobody he hwithout hempty hself
  have hcases : ∀ {i operation}, s'.operations.get? i = some operation →
      operation = .unsubscribe o uri session s.calls.next ∨
        s.operations.get? i = some operation := by
    intro i operation hi
    rw [hops, Table.get?_add] at hi
    split at hi
    · exact .inl (Option.some.inj hi).symm
    · exact .inr hi
  have hadded : s'.operations.get? s.operations.next =
      some (.unsubscribe o uri session s.calls.next) := by
    rw [hops, Table.get?_add_next]
  have hkept : ∀ {i operation}, s.operations.get? i = some operation →
      s'.operations.get? i = some operation := by
    intro i operation hi
    rw [hops, Table.get?_add_of_some hi]
  have hold : ∀ {c call}, s'.calls.get? c = some call → s.calls.get? c = some call ∨
      c = s.calls.next ∧ call = ⟨k, uri, false, o, .sent⟩ := by
    intro c call hc
    rw [hcalls, Table.get?_add] at hc
    split at hc
    · next heq => exact .inr ⟨heq, (Option.some.inj hc).symm⟩
    · exact .inl hc
  have hnobody' : ∀ i o session' already c,
      s'.operations.get? i ≠ some (.subscribe o uri session' already c) := by
    intro i o' session' already c hi
    rcases hcases hi with heq | hi
    · cases heq
    · exact hnobody i o' session' already c hi
  have hvalue' : ∀ {o₁ value₁}, s'.entry uri = some (o₁, value₁) → value₁ = value' :=
    fun he₁ => (entry_unique he₁ he').2
  constructor
  case subscribes =>
    exact fun i o' session' already c hi => absurd hi (hnobody' i o' session' already c)
  case once =>
    exact fun i j o₁ o₂ session' already _ c _ hi => absurd hi (hnobody' i o₁ session' already c)
  case noWaits =>
    intro i o' session' c hi
    rcases hcases hi with heq | hi
    · cases heq
    · exact h.noWaits i o' session' c hi
  case leaving =>
    intro i o' session' d hi
    refine ⟨hnobody', ?_⟩
    intro o₁ value₁ he₁
    rw [hvalue' he₁]
    exact hempty
  case pending =>
    intro o₁ value₁ c he₁ hsome
    rw [hvalue' he₁, hsubscription] at hsome
    have hunmarked := (h.pending o value c he hsome).unmarked
    simp [hmarked] at hunmarked
  case connection =>
    intro c call hc huri
    rcases hold hc with hc | ⟨_, rfl⟩
    · exact h.connection c call hc huri
    · rfl
  case starting =>
    intro c call hc huri hflight hstarts
    rcases hold hc with hc | ⟨_, rfl⟩
    · obtain ⟨⟨value₀, he₀, hsome⟩, _⟩ := h.starting c call hc huri hflight hstarts
      obtain ⟨i, session', already, hi⟩ := (h.pending _ value₀ c he₀ hsome).waiting
      exact absurd hi (hnobody i _ session' already c)
    · cases hstarts
  case stopping =>
    intro c call hc huri hflight hstops
    rcases hold hc with hc | ⟨rfl, rfl⟩
    · obtain ⟨i, o', session', hi⟩ := h.stopping c call hc huri hflight hstops
      exact ⟨i, o', session', hkept hi⟩
    · exact ⟨_, o, session, hadded⟩
  case recorded =>
    intro o₁ value₁ session' he₁ hsession'
    rw [hvalue' he₁, Dict.get?_of_entries hempty] at hsession'
    cases hsession'
  case last =>
    intro session' hlast'
    rw [hlast] at hlast'
    rcases h.last session' hlast' with ⟨o₀, value₀, he₀, hsession'⟩ | ⟨i, o₀, d, hi⟩
    · obtain ⟨rfl, rfl⟩ := entry_unique he₀ he
      by_cases heq : session' = session
      · subst heq
        exact .inr ⟨_, o₀, _, hadded⟩
      · have hstays := hwithout session'
        rw [if_neg heq, hsession', Dict.get?_of_entries hempty] at hstays
        cases hstays
    · exact .inr ⟨i, o₀, d, hkept hi⟩
  case downstream =>
    intro o₁ value₁ _ _ hnone
    exact absurd hadded (hnone _ o session _)

/-! ## Operations that end -/

/-- While a session subscribes nobody unsubscribes from the resource. -/
theorem OkAt.not_leaving (h : OkAt k s uri) {i o c : Nat} {already : Bool}
    (hi : s.operations.get? i = some (.subscribe o uri session already c)) {j o' d : Nat}
    {session' : String} : s.operations.get? j ≠ some (.unsubscribe o' uri session' d) :=
  fun hj => (h.leaving j o' session' d hj).1 i o session already c hi

/-- A subscribe ends whose call has succeeded. -/
theorem OkAt.subscribed (h : OkAt k s uri) {i o c : Nat} {already : Bool}
    (hi : s.operations.get? i = some (.subscribe o uri session already c))
    (hc : s.calls.get? c = some call) (hstage : call.stage = .succeeded)
    (hentry : s'.entry uri = s.entry uri) (hops : s'.operations = s.operations.erase i)
    (hcalls : s'.calls = s.calls) (hdown : s'.downstream = s.downstream)
    (hlast : ∀ session', s'.last uri session' =
      if session' = session then true else s.last uri session') : OkAt k s' uri := by
  obtain ⟨_, value, he, hsession, call₀, hc₀, _, _, hmarks⟩ :=
    h.subscribes i o session already c hi
  obtain rfl := Option.some.inj (hc₀.symm.trans hc)
  have hmarked := hmarks hstage
  have hback := fun {j operation} => Table.of_eq_erase (j := j) (a := operation) hops
  have hforth := fun {j operation} => Table.eq_erase_of_ne (j := j) (a := operation) hops
  constructor
  case subscribes =>
    intro j o' session' already' c' hj
    obtain ⟨hji, hj⟩ := hback hj
    have hne : session' ≠ session := by
      rintro rfl
      exact hji (h.once j i o' o session' already' already c' c hj hi)
    obtain ⟨hfresh, hrest⟩ := h.subscribes j o' session' already' c' hj
    refine ⟨by rw [hlast, if_neg hne]; exact hfresh, ?_⟩
    rwa [hentry, hcalls]
  case once =>
    intro j j' o₁ o₂ session' already₁ already₂ c₁ c₂ hj hj'
    exact h.once j j' o₁ o₂ session' already₁ already₂ c₁ c₂ (hback hj).2 (hback hj').2
  case noWaits => exact fun j o' session' c' hj => h.noWaits j o' session' c' (hback hj).2
  case leaving => exact fun _ _ _ _ hj => absurd (hback hj).2 (h.not_leaving hi)
  case pending =>
    intro o' value' c' he' hsome
    rw [hentry] at he'
    obtain ⟨hunmarked, hcall, j, session', already', hj⟩ := h.pending o' value' c' he' hsome
    refine ⟨hunmarked, by rwa [hcalls], j, session', already', hforth ?_ hj⟩
    -- the call that is awaited is in flight
    rintro rfl
    obtain ⟨rfl, _, _, _, rfl⟩ :=
      SubscriptionOperation.subscribe.inj (Option.some.inj (hi.symm.trans hj))
    obtain ⟨call₁, hc₁, _, hflight, _⟩ := hcall
    obtain rfl := Option.some.inj (hc₁.symm.trans hc)
    simp [hstage, CallStage.inFlight] at hflight
  case connection =>
    rw [hcalls]
    exact h.connection
  case starting =>
    rw [hcalls, hentry, hdown]
    exact h.starting
  case stopping =>
    intro c' call' hc' huri hflight hstops
    rw [hcalls] at hc'
    obtain ⟨j, o', session', hj⟩ := h.stopping c' call' hc' huri hflight hstops
    exact absurd hj (h.not_leaving hi)
  case recorded =>
    intro o' value' session' he' hsession'
    rw [hentry] at he'
    rw [hlast]
    obtain ⟨rfl, rfl⟩ := entry_unique he' he
    by_cases heq : session' = session
    · exact .inl ⟨by simp [heq], hmarked⟩
    · rw [if_neg heq]
      rcases h.recorded o' value' session' he hsession' with hlast' | ⟨j, already', c', hj⟩
      · exact .inl hlast'
      · refine .inr ⟨j, already', c', hforth ?_ hj⟩
        rintro rfl
        obtain ⟨_, _, rfl, _⟩ :=
          SubscriptionOperation.subscribe.inj (Option.some.inj (hi.symm.trans hj))
        exact heq rfl
  case last =>
    intro session' hlast'
    rw [hlast] at hlast'
    rw [hentry]
    by_cases heq : session' = session
    · subst heq
      exact .inl ⟨o, value, he, hsession⟩
    · rw [if_neg heq] at hlast'
      rcases h.last session' hlast' with hrecorded | ⟨j, o', d, hj⟩
      · exact .inl hrecorded
      · exact absurd hj (h.not_leaving hi)
  case downstream =>
    intro o' value' he' hmarked' _
    rw [hentry] at he'
    rw [hdown]
    refine h.downstream o' value' he' hmarked' fun j o₁ session' d hj => ?_
    exact absurd hj (h.not_leaving hi)

/-- A subscribe ends whose call has failed: its session is forgotten, and the object with it when
    it was the last. -/
theorem OkAt.subscribeFails (h : OkAt k s uri) {i o c : Nat} {already : Bool}
    (hi : s.operations.get? i = some (.subscribe o uri session already c))
    (hc : s.calls.get? c = some call) (hstage : call.stage = .failed)
    (he : s.entry uri = some (o, value)) (hwithout : Without value value' session)
    (hmark : value'.downstreamSubscribed = value.downstreamSubscribed)
    (hsubscription : value'.downstreamSubscription = value.downstreamSubscription)
    (he' : s'.entry uri =
      if value'.subscribedSessions.entries = [] then none else some (o, value'))
    (hops : s'.operations = s.operations.erase i) (hcalls : s'.calls = s.calls)
    (hdown : s'.downstream = s.downstream)
    (hlast : ∀ session', s'.last uri session' = s.last uri session') : OkAt k s' uri := by
  have hfresh := (h.subscribes i o session already c hi).fresh.2
  have hback := fun {j operation} => Table.of_eq_erase (j := j) (a := operation) hops
  have hforth := fun {j operation} => Table.eq_erase_of_ne (j := j) (a := operation) hops
  have hothers : ∀ {j o' session' already' c'}, j ≠ i →
      s.operations.get? j = some (.subscribe o' uri session' already' c') →
      session' ≠ session := by
    rintro j o' session' already' c' hji hj rfl
    exact hji (h.once j i o' o session' already' already c' c hj hi)
  -- an object that somebody else has stays
  have hstays : ∀ {session'}, value'.subscribedSessions.get? session' = some () →
      s'.entry uri = some (o, value') := by
    intro session' hsession'
    rw [he', if_neg]
    intro hempty
    rw [Dict.get?_of_entries hempty] at hsession'
    cases hsession'
  have hvalue : ∀ {o₁ value₁}, s'.entry uri = some (o₁, value₁) → o₁ = o ∧ value₁ = value' := by
    intro o₁ value₁ he₁
    rw [he'] at he₁
    split at he₁
    · cases he₁
    · obtain ⟨rfl, rfl⟩ := Prod.mk.inj (Option.some.inj he₁)
      exact ⟨rfl, rfl⟩
  -- whoever waits for a call in flight is another operation
  have hwaiting : ∀ {c'}, value.downstreamSubscription = some c' →
      ∃ j session' already', j ≠ i ∧
        s.operations.get? j = some (.subscribe o uri session' already' c') := by
    intro c' hsome
    obtain ⟨_, ⟨call', hc', _, hflight, _⟩, j, session', already', hj⟩ :=
      h.pending o value c' he hsome
    refine ⟨j, session', already', ?_, hj⟩
    rintro rfl
    obtain ⟨_, _, _, _, rfl⟩ :=
      SubscriptionOperation.subscribe.inj (Option.some.inj (hi.symm.trans hj))
    obtain rfl := Option.some.inj (hc'.symm.trans hc)
    simp [hstage, CallStage.inFlight] at hflight
  constructor
  case subscribes =>
    intro j o' session' already' c' hj
    obtain ⟨hji, hj⟩ := hback hj
    obtain ⟨hfresh', value₀, he₀, _, call', hc', huri, hawaits, hmarks⟩ :=
      h.subscribes j o' session' already' c' hj
    obtain ⟨rfl, rfl⟩ := entry_unique he₀ he
    have hsession' := h.get?_without he hwithout hj (hothers hji hj)
    exact ⟨by rwa [hlast], value', hstays hsession', hsession', call', by rwa [hcalls], huri,
      by rwa [hsubscription], by rwa [hmark]⟩
  case once =>
    intro j j' o₁ o₂ session' already₁ already₂ c₁ c₂ hj hj'
    exact h.once j j' o₁ o₂ session' already₁ already₂ c₁ c₂ (hback hj).2 (hback hj').2
  case noWaits => exact fun j o' session' c' hj => h.noWaits j o' session' c' (hback hj).2
  case leaving => exact fun _ _ _ _ hj => absurd (hback hj).2 (h.not_leaving hi)
  case pending =>
    intro o₁ value₁ c' he₁ hsome
    obtain ⟨rfl, rfl⟩ := hvalue he₁
    rw [hsubscription] at hsome
    obtain ⟨j, session', already', hji, hj⟩ := hwaiting hsome
    have hpending := h.pending o₁ value c' he hsome
    exact ⟨hmark.trans hpending.unmarked, by rw [hcalls]; exact hpending.call, j, session',
      already', hforth hji hj⟩
  case connection =>
    rw [hcalls]
    exact h.connection
  case starting =>
    intro c' call' hc' huri hflight hstarts
    rw [hcalls] at hc'
    obtain ⟨⟨value₀, he₀, hsome⟩, hprocessed⟩ := h.starting c' call' hc' huri hflight hstarts
    obtain ⟨hstate, rfl⟩ := entry_unique he₀ he
    obtain ⟨j, session', already', hji, hj⟩ := hwaiting hsome
    have hsession' := h.get?_without he hwithout hj (hothers hji hj)
    rw [hdown, hstate]
    exact ⟨⟨value', hstays hsession', hsubscription.trans hsome⟩, hprocessed⟩
  case stopping =>
    intro c' call' hc' huri hflight hstops
    rw [hcalls] at hc'
    obtain ⟨j, o', session', hj⟩ := h.stopping c' call' hc' huri hflight hstops
    exact absurd hj (h.not_leaving hi)
  case recorded =>
    intro o₁ value₁ session' he₁ hsession'
    obtain ⟨rfl, rfl⟩ := hvalue he₁
    rw [hwithout] at hsession'
    split at hsession'
    · cases hsession'
    next hne =>
    rw [hlast, hmark]
    rcases h.recorded o₁ value session' he hsession' with hlast' | ⟨j, already', c', hj⟩
    · exact .inl hlast'
    · refine .inr ⟨j, already', c', hforth ?_ hj⟩
      rintro rfl
      obtain ⟨_, _, rfl, _⟩ :=
        SubscriptionOperation.subscribe.inj (Option.some.inj (hi.symm.trans hj))
      exact hne rfl
  case last =>
    intro session' hlast'
    rw [hlast] at hlast'
    have hne : session' ≠ session := by
      rintro rfl
      simp [hfresh] at hlast'
    rcases h.last session' hlast' with ⟨o₀, value₀, he₀, hsession'⟩ | ⟨j, o', d, hj⟩
    · obtain ⟨rfl, rfl⟩ := entry_unique he₀ he
      have hkept : value'.subscribedSessions.get? session' = some () := by
        rw [hwithout, if_neg hne]
        exact hsession'
      exact .inl ⟨o₀, value', hstays hkept, hkept⟩
    · exact absurd hj (h.not_leaving hi)
  case downstream =>
    intro o₁ value₁ he₁ hmarked _
    obtain ⟨rfl, rfl⟩ := hvalue he₁
    rw [hdown]
    refine h.downstream o₁ value he (hmark.symm.trans hmarked) fun j o₂ session' d hj => ?_
    exact absurd hj (h.not_leaving hi)

/-- An unsubscribe ends: the object goes, which nobody has. -/
theorem OkAt.unsubscribed (h : OkAt k s uri) {i o d : Nat}
    (hi : s.operations.get? i = some (.unsubscribe o uri session d))
    (hc : s.calls.get? d = some call) (hstage : call.stage.inFlight = false)
    (he' : s'.entry uri = none) (hops : s'.operations = s.operations.erase i)
    (hcalls : s'.calls = s.calls) (hlast : ∀ session', s'.last uri session' =
      if session' = session then false else s.last uri session') : OkAt k s' uri := by
  obtain ⟨hnobody, hempty⟩ := h.leaving i o session d hi
  have hback := fun {j operation} => Table.of_eq_erase (j := j) (a := operation) hops
  have hforth := fun {j operation} => Table.eq_erase_of_ne (j := j) (a := operation) hops
  constructor
  case subscribes =>
    exact fun j o' session' already c hj => absurd (hback hj).2 (hnobody j o' session' already c)
  case once =>
    exact fun j _ o' _ session' already _ c _ hj _ =>
      absurd (hback hj).2 (hnobody j o' session' already c)
  case noWaits => exact fun j o' session' c hj => h.noWaits j o' session' c (hback hj).2
  case leaving =>
    intro j o' session' d' _
    refine ⟨fun j' o₁ session'' already c hj' => ?_, by simp [he']⟩
    exact hnobody j' o₁ session'' already c (hback hj').2
  case pending => simp [he']
  case connection =>
    rw [hcalls]
    exact h.connection
  case starting =>
    intro c call' hc' huri hflight hstarts
    rw [hcalls] at hc'
    obtain ⟨⟨value₀, he₀, hsome⟩, _⟩ := h.starting c call' hc' huri hflight hstarts
    obtain ⟨j, session', already, hj⟩ := (h.pending _ value₀ c he₀ hsome).waiting
    exact absurd hj (hnobody j _ session' already c)
  case stopping =>
    intro c call' hc' huri hflight hstops
    rw [hcalls] at hc'
    obtain ⟨j, o', session', hj⟩ := h.stopping c call' hc' huri hflight hstops
    refine ⟨j, o', session', hforth ?_ hj⟩
    rintro rfl
    obtain ⟨_, _, _, rfl⟩ :=
      SubscriptionOperation.unsubscribe.inj (Option.some.inj (hi.symm.trans hj))
    obtain rfl := Option.some.inj (hc'.symm.trans hc)
    simp [hstage] at hflight
  case recorded => simp [he']
  case last =>
    intro session' hlast'
    rw [hlast] at hlast'
    split at hlast'
    · cases hlast'
    next hne =>
    rcases h.last session' hlast' with ⟨o₀, value₀, he₀, hsession'⟩ | ⟨j, o', d', hj⟩
    · rw [Dict.get?_of_entries (hempty o₀ value₀ he₀)] at hsession'
      cases hsession'
    · refine .inr ⟨j, o', d', hforth ?_ hj⟩
      rintro rfl
      obtain ⟨_, _, rfl, _⟩ :=
        SubscriptionOperation.unsubscribe.inj (Option.some.inj (hi.symm.trans hj))
      exact hne rfl
  case downstream => simp [he']

/-! ## Calls -/

/-- The server processes the request of a call. -/
theorem OkAt.processes {uri : String} (h : OkAt k s uri) {c : Nat} (hc : s.calls.get? c = some call)
    (huri : call.resourceUri = uri) (hsent : call.stage = .sent)
    (hentry : s'.entry uri = s.entry uri) (hops : s'.operations = s.operations)
    (hcalls : s'.calls = s.calls.put c { call with stage := .processed })
    (hdown : s'.downstream k uri = call.subscribes)
    (hlast : ∀ session', s'.last uri session' = s.last uri session') : OkAt k s' uri := by
  have hflight : call.stage.inFlight = true := by simp [hsent, CallStage.inFlight]
  -- each call is as far as before, but for this one
  have hback : ∀ {c' call'}, s'.calls.get? c' = some call' →
      c' = c ∧ call' = { call with stage := .processed } ∨
        c' ≠ c ∧ s.calls.get? c' = some call' := by
    intro c' call' hc'
    rw [hcalls, Table.get?_put hc] at hc'
    split at hc'
    · next heq => exact .inl ⟨heq, (Option.some.inj hc').symm⟩
    · next hne => exact .inr ⟨hne, hc'⟩
  have hforth : ∀ {c' call'}, s.calls.get? c' = some call' → ∃ call'',
      s'.calls.get? c' = some call'' ∧ call''.resourceUri = call'.resourceUri ∧
      call''.subscribes = call'.subscribes ∧ call''.state = call'.state ∧
      call''.stage.inFlight = call'.stage.inFlight ∧
      (call''.stage = .succeeded ↔ call'.stage = .succeeded) := by
    intro c' call' hc'
    by_cases heq : c' = c
    · subst heq
      obtain rfl := Option.some.inj (hc'.symm.trans hc)
      refine ⟨{ call' with stage := .processed }, by rw [hcalls, Table.get?_put hc, if_pos rfl],
        rfl, rfl, rfl, ?_, ?_⟩
      · simp [hsent, CallStage.inFlight]
      · simp [hsent]
    · exact ⟨call', by rw [hcalls, Table.get?_put hc, if_neg heq, hc'], rfl, rfl, rfl, rfl, Iff.rfl⟩
  constructor
  case subscribes =>
    intro i o session already c' hi
    rw [hops] at hi
    obtain ⟨hfresh, value, he, hsession, call', hc', huri', hawaits, hmarks⟩ :=
      h.subscribes i o session already c' hi
    obtain ⟨call'', hc'', huri'', _, _, hflight'', hsucceeded⟩ := hforth hc'
    exact ⟨by rwa [hlast], value, by rwa [hentry], hsession, call'', hc'', huri''.trans huri',
      by rwa [hflight''], fun hstage => hmarks (hsucceeded.mp hstage)⟩
  case once =>
    rw [hops]
    exact h.once
  case noWaits =>
    rw [hops]
    exact h.noWaits
  case leaving =>
    rw [hops, hentry]
    exact h.leaving
  case pending =>
    intro o value c' he hsome
    rw [hentry] at he
    obtain ⟨hunmarked, ⟨call', hc', huri', hflight', hstarts, hstate⟩, hwaiting⟩ :=
      h.pending o value c' he hsome
    obtain ⟨call'', hc'', huri'', hstarts'', hstate'', hflight'', _⟩ := hforth hc'
    exact ⟨hunmarked, ⟨call'', hc'', huri''.trans huri', hflight''.trans hflight',
      hstarts''.trans hstarts, hstate''.trans hstate⟩, by rwa [hops]⟩
  case connection =>
    intro c' call' hc' huri'
    rcases hback hc' with ⟨_, rfl⟩ | ⟨_, hc'⟩
    · exact h.connection c call hc huri
    · exact h.connection c' call' hc' huri'
  case starting =>
    intro c' call' hc' huri' hflight' hstarts
    rw [hentry]
    rcases hback hc' with ⟨rfl, rfl⟩ | ⟨hne, hc'⟩
    · have hstarts' : call.subscribes = true := hstarts
      exact ⟨(h.starting c' call hc huri hflight hstarts').1,
        fun _ => by rw [hdown, hstarts']⟩
    · obtain ⟨⟨value, he, hsome⟩, _⟩ := h.starting c' call' hc' huri' hflight' hstarts
      refine ⟨⟨value, he, hsome⟩, fun _ => ?_⟩
      rw [hdown]
      cases hkind : call.subscribes with
      | true => rfl
      | false =>
        -- no unsubscribe is in flight beside a subscribe
        obtain ⟨i, o, session, hi⟩ := h.stopping c call hc huri hflight hkind
        obtain ⟨j, session', already, hj⟩ := (h.pending _ value c' he hsome).waiting
        exact absurd hj ((h.leaving i o session c hi).1 j _ session' already c')
  case stopping =>
    intro c' call' hc' huri' hflight' hstops
    rw [hops]
    rcases hback hc' with ⟨rfl, rfl⟩ | ⟨_, hc'⟩
    · exact h.stopping c' call hc huri hflight hstops
    · exact h.stopping c' call' hc' huri' hflight' hstops
  case recorded =>
    intro o value session he hsession
    rw [hentry] at he
    rw [hlast, hops]
    exact h.recorded o value session he hsession
  case last =>
    intro session hlast'
    rw [hlast] at hlast'
    rw [hentry, hops]
    exact h.last session hlast'
  case downstream =>
    intro o value he hmarked hnone
    rw [hentry] at he
    rw [hops] at hnone
    rw [hdown]
    cases hkind : call.subscribes with
    | true => rfl
    | false =>
      obtain ⟨i, o', session, hi⟩ := h.stopping c call hc huri hflight hkind
      exact absurd hi (hnone i o' session c)

/-- A call settles. The object that awaits it is marked when it has succeeded. -/
theorem OkAt.settles {uri : String} (h : OkAt k s uri) {c : Nat} {ok : Bool}
    (hc : s.calls.get? c = some call) (huri : call.resourceUri = uri)
    (hflight : call.stage.inFlight = true) (hprocessed : ok = true → call.stage = .processed)
    (hentry : call.subscribes = false ∧ s'.entry uri = s.entry uri ∨
      ∃ o value, s.entry uri = some (o, value) ∧ call.subscribes = true ∧
        value.downstreamSubscription = some c ∧
        s'.entry uri = some (o,
          { value with
            downstreamSubscribed := value.downstreamSubscribed || ok
            downstreamSubscription := none })) (hops : s'.operations = s.operations)
    (hcalls : s'.calls = s.calls.put c
      { call with stage := if ok then .succeeded else .failed })
    (hdown : s'.downstream = s.downstream)
    (hlast : ∀ session', s'.last uri session' = s.last uri session') : OkAt k s' uri := by
  have hstage : (if ok then CallStage.succeeded else .failed).inFlight = false := by
    cases ok <;> rfl
  have hback : ∀ {c' call'}, s'.calls.get? c' = some call' → call'.stage.inFlight = true →
      c' ≠ c ∧ s.calls.get? c' = some call' := by
    intro c' call' hc' hflight'
    rw [hcalls, Table.get?_put hc] at hc'
    split at hc'
    · cases hc'
      simp [hstage] at hflight'
    · next hne => exact ⟨hne, hc'⟩
  have hself : s'.calls.get? c = some { call with stage := if ok then .succeeded else .failed } := by
    rw [hcalls, Table.get?_put hc, if_pos rfl]
  have hother : ∀ {c'}, c' ≠ c → s'.calls.get? c' = s.calls.get? c' := by
    intro c' hne
    rw [hcalls, Table.get?_put hc, if_neg hne]
  -- the object before and after
  have hobject : ∀ {o value}, s.entry uri = some (o, value) → ∃ value',
      s'.entry uri = some (o, value') ∧
      value'.subscribedSessions = value.subscribedSessions ∧
      (call.subscribes = false ∧ value' = value ∨ call.subscribes = true ∧
        value.downstreamSubscription = some c ∧ value'.downstreamSubscription = none ∧
        value'.downstreamSubscribed = (value.downstreamSubscribed || ok)) := by
    intro o value he
    rcases hentry with ⟨hkind, hsame⟩ | ⟨o₀, value₀, he₀, hkind, hsome, hset⟩
    · exact ⟨value, hsame.trans he, rfl, .inl ⟨hkind, rfl⟩⟩
    · obtain ⟨rfl, rfl⟩ := entry_unique he₀ he
      exact ⟨_, hset, rfl, .inr ⟨hkind, hsome, rfl, rfl⟩⟩
  have hbefore : ∀ {o value'}, s'.entry uri = some (o, value') →
      ∃ value, s.entry uri = some (o, value) := by
    intro o value' he'
    rcases hentry with ⟨_, hsame⟩ | ⟨o₀, value₀, he₀, _, _, hset⟩
    · exact ⟨value', hsame.symm.trans he'⟩
    · obtain ⟨rfl, _⟩ := entry_unique hset he'
      exact ⟨value₀, he₀⟩
  constructor
  case subscribes =>
    intro i o session already c' hi
    rw [hops] at hi
    obtain ⟨hfresh, value, he, hsession, call', hc', huri', hawaits, hmarks⟩ :=
      h.subscribes i o session already c' hi
    obtain ⟨value', he', hsessions, hrest⟩ := hobject he
    refine ⟨by rwa [hlast], value', he', by rwa [hsessions], ?_⟩
    by_cases heq : c' = c
    · subst heq
      obtain rfl := Option.some.inj (hc'.symm.trans hc)
      refine ⟨_, hself, huri, by simp [hstage], ?_⟩
      intro hsucceeded
      -- a call that a subscribe awaits is the one the object awaits
      have hsome := hawaits hflight
      rcases hrest with ⟨hkind, _⟩ | ⟨_, _, _, hmark⟩
      · obtain ⟨_, ⟨call₁, hc₁, _, _, hkind', _⟩, _⟩ := h.pending o value c' he hsome
        obtain rfl := Option.some.inj (hc₁.symm.trans hc)
        simp [hkind] at hkind'
      · cases ok with
        | true => simp [hmark]
        | false => simp at hsucceeded
    · refine ⟨call', by rwa [hother heq], huri', ?_, ?_⟩
      · intro hflight'
        have hsome := hawaits hflight'
        rcases hrest with ⟨_, rfl⟩ | ⟨_, hsome', _⟩
        · exact hsome
        · exact absurd (Option.some.inj (hsome.symm.trans hsome')) heq
      · intro hsucceeded
        have hmarked := hmarks hsucceeded
        rcases hrest with ⟨_, rfl⟩ | ⟨_, _, _, hmark⟩
        · exact hmarked
        · simp [hmark, hmarked]
  case once =>
    rw [hops]
    exact h.once
  case noWaits =>
    rw [hops]
    exact h.noWaits
  case leaving =>
    intro i o session d hi
    rw [hops] at hi ⊢
    obtain ⟨hnobody, hempty⟩ := h.leaving i o session d hi
    refine ⟨hnobody, ?_⟩
    intro o' value' he'
    obtain ⟨value, he⟩ := hbefore he'
    obtain ⟨value₁, he₁, hsessions, _⟩ := hobject he
    obtain ⟨_, rfl⟩ := entry_unique he₁ he'
    rw [hsessions]
    exact hempty o' value he
  case pending =>
    intro o value' c' he' hsome'
    obtain ⟨value, he⟩ := hbefore he'
    obtain ⟨value₁, he₁, _, hrest⟩ := hobject he
    obtain ⟨_, rfl⟩ := entry_unique he₁ he'
    rcases hrest with ⟨hkind, rfl⟩ | ⟨_, _, hnone, _⟩
    · obtain ⟨hunmarked, ⟨call', hc', hrest'⟩, hwaiting⟩ := h.pending o _ c' he hsome'
      have hne : c' ≠ c := by
        rintro rfl
        obtain rfl := Option.some.inj (hc'.symm.trans hc)
        simp [hkind] at hrest'
      exact ⟨hunmarked, ⟨call', by rwa [hother hne], hrest'⟩, by rwa [hops]⟩
    · simp [hnone] at hsome'
  case connection =>
    intro c' call' hc' huri'
    by_cases heq : c' = c
    · subst heq
      obtain rfl := Option.some.inj (hself.symm.trans hc')
      exact h.connection c' call hc huri
    · rw [hother heq] at hc'
      exact h.connection c' call' hc' huri'
  case starting =>
    intro c' call' hc' huri' hflight' hstarts
    obtain ⟨hne, hc'⟩ := hback hc' hflight'
    obtain ⟨⟨value, he, hsome⟩, hprocessed'⟩ := h.starting c' call' hc' huri' hflight' hstarts
    obtain ⟨value', he', _, hrest⟩ := hobject he
    rw [hdown]
    rcases hrest with ⟨_, rfl⟩ | ⟨_, hsome', _⟩
    · exact ⟨⟨value', he', hsome⟩, hprocessed'⟩
    · exact absurd (Option.some.inj (hsome.symm.trans hsome')) hne
  case stopping =>
    intro c' call' hc' huri' hflight' hstops
    rw [hops]
    exact h.stopping c' call' (hback hc' hflight').2 huri' hflight' hstops
  case recorded =>
    intro o value' session he' hsession
    obtain ⟨value, he⟩ := hbefore he'
    obtain ⟨value₁, he₁, hsessions, hrest⟩ := hobject he
    obtain ⟨_, rfl⟩ := entry_unique he₁ he'
    rw [hsessions] at hsession
    rw [hlast, hops]
    rcases h.recorded o value session he hsession with ⟨hlast', hmarked⟩ | hop
    · left
      refine ⟨hlast', ?_⟩
      rcases hrest with ⟨_, rfl⟩ | ⟨_, _, _, hmark⟩
      · exact hmarked
      · simp [hmark, hmarked]
    · exact .inr hop
  case last =>
    intro session hlast'
    rw [hlast] at hlast'
    rw [hops]
    rcases h.last session hlast' with ⟨o, value, he, hsession⟩ | hop
    · obtain ⟨value', he', hsessions, _⟩ := hobject he
      exact .inl ⟨o, value', he', by rwa [hsessions]⟩
    · exact .inr hop
  case downstream =>
    intro o value' he' hmarked hnone
    obtain ⟨value, he⟩ := hbefore he'
    obtain ⟨value₁, he₁, _, hrest⟩ := hobject he
    obtain ⟨_, rfl⟩ := entry_unique he₁ he'
    rw [hops] at hnone
    rw [hdown]
    rcases hrest with ⟨_, rfl⟩ | ⟨hkind, hsome, _, hmark⟩
    · exact h.downstream o _ he hmarked hnone
    · have hunmarked := (h.pending o value c he hsome).unmarked
      rw [hmark, hunmarked, Bool.false_or] at hmarked
      exact (h.starting c call hc huri hflight hkind).2 (hprocessed hmarked)

end Subscriptions

end PetaCore
