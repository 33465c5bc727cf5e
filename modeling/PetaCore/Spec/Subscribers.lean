import PetaCore.Spec.ResourceSubscriptions

/-!
# Subscribers are recorded

On one connection of a server that supports subscriptions, the sessions recorded for a URI are
those whose last operation on it was a subscribe, and the server has been told so. This needs that
no subscribe begins while an unsubscribe of the URI awaits the server, since the object that it
joins is deleted afterwards, and that operations of one session on one URI do not overlap
(`separate`).

Each step is about one URI, and what `Spec.ResourceSubscriptions` says of its kind is used there.

Key results:
- `Ok.step`: each step keeps the invariant of every URI
- `subscribers_are_recorded`: the sessions that are recorded, and the server
- `subscriber_is_dropped`: a session can lose its subscription
-/

namespace PetaCore

open Run

namespace Subscriptions

/-! ## Steps on another URI -/

theorem SameAt.refl (s : Subscriptions) (uri : String) : s.SameAt s uri :=
  ⟨rfl, fun _ _ _ => Iff.rfl, fun _ _ _ => Iff.rfl, fun _ => rfl, fun _ => rfl⟩

theorem SameAt.trans {s t u : Subscriptions} {uri : String} (h : s.SameAt t uri)
    (h' : t.SameAt u uri) : s.SameAt u uri := by
  constructor
  case entry => rw [h'.entry, h.entry]
  case operations =>
    intro i operation huri
    exact (h'.operations i operation huri).trans (h.operations i operation huri)
  case calls =>
    intro c call huri
    exact (h'.calls c call huri).trans (h.calls c call huri)
  case downstream =>
    intro k
    rw [h'.downstream, h.downstream]
  case last =>
    intro session
    rw [h'.last, h.last]

section

variable {s : Subscriptions} {uri uri' : String} (hne : uri' ≠ uri)
include hne

theorem SameAt.setState (h : s.Keyed) {o : Nat} {value : SubscriptionState}
    (he : s.entry uri = some (o, value)) (value' : SubscriptionState) :
    s.SameAt (s.setState o value') uri' := by
  refine { SameAt.refl s uri' with entry := ?_ }
  rw [entry_setState h he, if_neg hne]

theorem SameAt.deleteKey : s.SameAt (s.deleteKey uri) uri' := by
  refine { SameAt.refl s uri' with entry := ?_ }
  rw [entry_deleteKey, if_neg hne]

theorem SameAt.create (h : s.Keyed) : s.SameAt (s.create uri) uri' := by
  refine { SameAt.refl s uri' with entry := ?_ }
  rw [entry_create h, if_neg hne]

theorem SameAt.complete (session : String) (subscribed : Bool) :
    s.SameAt (s.complete uri session subscribed) uri' := by
  refine { SameAt.refl s uri' with last := ?_ }
  intro session'
  simp [Subscriptions.complete, hne]

theorem SameAt.send (call : DownstreamCall) (huri : call.resourceUri = uri) :
    s.SameAt (s.send call) uri' := by
  refine { SameAt.refl s uri' with calls := ?_ }
  intro c call' huri'
  simp only [Subscriptions.send, Table.get?_add]
  split
  · next heq =>
    constructor
    · rintro ⟨⟩
      exact absurd (huri'.symm.trans huri) hne
    · intro hc
      have := Table.lt_next_of_get? hc
      omega
  · exact Iff.rfl

theorem SameAt.addOperation {operation : SubscriptionOperation}
    (huri : operation.resourceUri = uri) :
    s.SameAt { s with operations := s.operations.add operation } uri' := by
  refine { SameAt.refl s uri' with operations := ?_ }
  intro i operation' huri'
  simp only [Table.get?_add]
  split
  · next heq =>
    constructor
    · rintro ⟨⟩
      exact absurd (huri'.symm.trans huri) hne
    · intro hi
      have := Table.lt_next_of_get? hi
      omega
  · exact Iff.rfl

theorem SameAt.eraseOperation {i : Nat} {operation : SubscriptionOperation}
    (hi : s.operations.get? i = some operation) (huri : operation.resourceUri = uri) :
    s.SameAt { s with operations := s.operations.erase i } uri' := by
  refine { SameAt.refl s uri' with operations := ?_ }
  intro j operation' huri'
  simp only [Table.get?_erase]
  split
  · next heq =>
    subst heq
    constructor
    · intro hj
      cases hj
    · intro hj
      obtain rfl := Option.some.inj (hi.symm.trans hj)
      exact absurd (huri'.symm.trans huri) hne
  · exact Iff.rfl

theorem SameAt.putCall {c : Nat} {call : DownstreamCall} (hc : s.calls.get? c = some call)
    (huri : call.resourceUri = uri) (stage : CallStage) :
    s.SameAt { s with calls := s.calls.put c { call with stage := stage } } uri' := by
  refine { SameAt.refl s uri' with calls := ?_ }
  intro c' call' huri'
  simp only [Table.get?_put hc]
  split
  · next heq =>
    subst heq
    constructor
    · rintro ⟨⟩
      exact absurd (huri'.symm.trans huri) hne
    · intro hc'
      obtain rfl := Option.some.inj (hc.symm.trans hc')
      exact absurd (huri'.symm.trans huri) hne
  · exact Iff.rfl

end

variable {s : Subscriptions} {uri session : String} {k : Nat}

/-- The invariant, of every URI. -/
structure Ok (k : Nat) (s : Subscriptions) : Prop where
  keyed : s.Keyed
  okAt : ∀ uri, OkAt k s uri

variable {s' : Subscriptions}

/-- A step on one URI. -/
theorem Ok.of_uri {s : Subscriptions} (h : Ok k s) (uri : String) (hkeyed : s'.Keyed)
    (hself : OkAt k s' uri) (hother : ∀ uri', uri' ≠ uri → s.SameAt s' uri') : Ok k s' := by
  refine ⟨hkeyed, ?_⟩
  intro uri'
  by_cases heq : uri' = uri
  · rw [heq]
    exact hself
  · exact (h.okAt uri').same (hother uri' heq)

/-! ## Steps -/

theorem Ok.init (k : Nat) : Ok k init := by
  refine ⟨?_, ?_⟩
  · intro uri o hkey
    simp [Subscriptions.init] at hkey
  · intro uri
    constructor <;> simp [Subscriptions.init, entry]

/-- The object of the URI is there afterwards, and the operations are as before. -/
theorem Ok.getOrCreate (h : Ok k s) (uri : String) :
    ∃ s' o value, s.getOrCreate uri = (s', o, value) ∧ Ok k s' ∧
      s'.entry uri = some (o, value) ∧ s'.operations = s.operations := by
  cases he : s.entry uri with
  | some e =>
    obtain ⟨o, value⟩ := e
    exact ⟨s, o, value, by simp [Subscriptions.getOrCreate, he], h, he, rfl⟩
  | none =>
    refine ⟨s.create uri, s.states.next, ⟨uri, .empty, false, none⟩, ?_, ?_, ?_, rfl⟩
    · simp [Subscriptions.getOrCreate, he, create]
    · apply h.of_uri uri (h.keyed.create uri) ((h.okAt uri).create h.keyed he)
      exact fun uri' hne => SameAt.create hne h.keyed
    · rw [entry_create h.keyed, if_pos rfl]

variable {value : SubscriptionState} {o : Nat}

variable {value' : SubscriptionState}

/-- A subscribe to an object that is subscribed. -/
theorem Ok.joins (h : Ok k s)
    (he : s.entry uri = some (o, value)) (hvalue' : value' = { value with
      subscribedSessions := value.subscribedSessions.set session () })
    (hmarked : value.downstreamSubscribed = true)
    (hfree : s.Free uri session) :
    Ok k ((s.setState o value').complete uri session true) := by
  have huri : value'.resourceUri = uri := by
    rw [hvalue']
    show value.resourceUri = uri
    exact h.keyed.resourceUri he
  have he' : ((s.setState o value').complete uri session true).entry uri = some (o, value') := by
    show (s.setState o value').entry uri = some (o, value')
    rw [entry_setState h.keyed he, if_pos rfl]
  apply h.of_uri uri
  · exact h.keyed.setState he huri
  · apply (h.okAt uri).joins he he' hmarked _ _ _ rfl rfl rfl _ hfree
    · rw [hvalue']
      exact hmarked
    · rw [hvalue']
    · intro session'
      rw [hvalue', Dict.get?_set]
    · intro session'
      simp [Subscriptions.complete, Subscriptions.setState]
  · intro uri' hne
    exact (SameAt.setState hne h.keyed he value').trans (SameAt.complete hne session true)

/-- A subscribe of a session that is recorded, to an object that is subscribed. -/
theorem Ok.rejoins (h : Ok k s)
    (he : s.entry uri = some (o, value)) (hmarked : value.downstreamSubscribed = true)
    (hsession : (value.subscribedSessions.get? session).isSome = true)
    (hfree : s.Free uri session) :
    Ok k (s.complete uri session true) := by
  have he' : (s.complete uri session true).entry uri = some (o, value) := he
  apply h.of_uri uri
  · exact h.keyed
  · apply (h.okAt uri).joins he he' hmarked hmarked rfl _ rfl rfl rfl _ hfree
    · intro session'
      split
      · next heq =>
        rw [heq]
        obtain ⟨_, hsome⟩ := Option.isSome_iff_exists.mp hsession
        exact hsome
      · rfl
    · intro session'
      simp [Subscriptions.complete]
  · intro uri' hne
    exact SameAt.complete hne session true

/-- A subscribe that awaits the call of the object. -/
theorem Ok.begins (h : Ok k s)
    (he : s.entry uri = some (o, value)) (hvalue' : value' = { value with
      subscribedSessions := value.subscribedSessions.set session () })
    (hunmarked : value.downstreamSubscribed = false)
    (hfree : s.Free uri session) :
    (∀ c, value.downstreamSubscription = some c →
      Ok k { s.setState o value' with
        operations := s.operations.add (.subscribe o uri session false c) }) ∧
    (value.downstreamSubscription = none →
      Ok k { (((s.setState o value').send ⟨k, uri, true, o, .sent⟩).setState o
          { value' with downstreamSubscription := some s.calls.next }) with
        operations := s.operations.add (.subscribe o uri session false s.calls.next) }) := by
  have huri : value'.resourceUri = uri := by
    rw [hvalue']
    show value.resourceUri = uri
    exact h.keyed.resourceUri he
  have he' : (s.setState o value').entry uri = some (o, value') := by
    rw [entry_setState h.keyed he, if_pos rfl]
  have hkeyed' := h.keyed.setState he huri
  have hsessions : ∀ session', value'.subscribedSessions.get? session' =
      if session' = session then some () else value.subscribedSessions.get? session' := by
    intro session'
    rw [hvalue', Dict.get?_set]
  have hunmarked' : value'.downstreamSubscribed = false := by
    rw [hvalue']
    exact hunmarked
  constructor
  · intro c hsome
    apply h.of_uri uri
    · exact hkeyed'
    · refine (h.okAt uri).begins he he' hunmarked hunmarked' ?_ hsessions rfl ?_ rfl
        (fun _ => rfl) hfree
      · rw [hvalue']
        exact hsome
      · exact Or.inl ⟨rfl, hsome⟩
    · intro uri' hne
      exact (SameAt.setState hne h.keyed he value').trans (SameAt.addOperation hne rfl)
  · intro hsome
    have he'' : ((s.setState o value').send ⟨k, uri, true, o, .sent⟩).entry uri =
        some (o, value') := he'
    have hkeyed'' : ((s.setState o value').send ⟨k, uri, true, o, .sent⟩).Keyed := hkeyed'
    apply h.of_uri uri
    · exact hkeyed''.setState he'' huri
    · have he₃ := (entry_setState hkeyed'' he''
        { value' with downstreamSubscription := some s.calls.next } uri).trans (if_pos rfl)
      exact (h.okAt uri).begins he he₃ hunmarked hunmarked' rfl hsessions rfl
        (Or.inr ⟨hsome, rfl, rfl⟩) rfl (fun _ => rfl) hfree
    · intro uri' hne
      apply (SameAt.setState hne h.keyed he value').trans
      apply (SameAt.send hne ⟨k, uri, true, o, .sent⟩ rfl).trans
      exact (SameAt.setState hne hkeyed'' he'' _).trans (SameAt.addOperation hne rfl)

theorem Ok.subscribeResource (h : Ok k s) (hfree : s.Free uri session) :
    Ok k (s.subscribeResource true (some k) uri session) := by
  obtain ⟨s', o, value, hcreate, h', he, hops⟩ := h.getOrCreate uri
  have hfree : s'.Free uri session := by
    intro i operation hi
    rw [hops] at hi
    exact hfree i operation hi
  obtain ⟨uri₀, sessions, marked, pending⟩ := value
  simp only [Subscriptions.subscribeResource, hcreate, Bool.not_true, Bool.false_eq_true, if_false]
  cases marked with
  | true =>
    split
    · next halready => exact h'.rejoins he rfl (by simpa using halready) hfree
    · simpa using h'.joins he rfl rfl hfree
  | false =>
    -- a session that is recorded before has a subscribe in progress
    have halready : sessions.get? session = none := by
      cases hsession : sessions.get? session with
      | none => rfl
      | some _ =>
        rcases (h'.okAt uri).recorded o _ session he hsession with ⟨_, hm⟩ | ⟨i, already, c, hi⟩
        · cases hm
        · exact absurd rfl (hfree i _ hi rfl).1
    obtain ⟨hwaits, hsends⟩ := h'.begins he rfl rfl hfree
    simp only [halready, Option.isSome_none, Bool.and_false, Bool.false_eq_true, if_false]
    cases pending with
    | some c => exact hwaits c rfl
    | none => exact hsends rfl

/-- No subscribe of the session on the URI is in progress. -/
def NotSubscribing (s : Subscriptions) (uri session : String) : Prop :=
  ∀ i o already c, s.operations.get? i ≠ some (.subscribe o uri session already c)

/-- An unsubscribe keeps the invariant, touches its URI only, and is no subscribe. -/
structure Unsubscribes (k : Nat) (s s' : Subscriptions) (uri session : String) : Prop where
  ok : Ok k s'
  same : ∀ uri', uri' ≠ uri → s.SameAt s' uri'
  notSubscribing : s'.NotSubscribing uri session

theorem Ok.unsubscribes {s : Subscriptions} (h : Ok k s) (hself : s.NotSubscribing uri session)
    (hkeyed : s'.Keyed) (hok : OkAt k s' uri) (hsame : ∀ uri', uri' ≠ uri → s.SameAt s' uri')
    (hops : s'.operations = s.operations) : Unsubscribes k s s' uri session := by
  refine ⟨h.of_uri uri hkeyed hok hsame, hsame, ?_⟩
  intro i o already c hi
  rw [hops] at hi
  exact hself i o already c hi

/-- The three ways an unsubscribe goes on when nobody waits for the call of the object. -/
theorem unsubscribeResourceState_eq {k : Nat}
    (hvalue : s.states.get? o = some value) (hvalue' : value' =
      { value with subscribedSessions := value.subscribedSessions.erase session })
    (hpending : value'.subscribedSessions.entries = [] → value.downstreamSubscription = none) :
    s.unsubscribeResourceState (some k) o uri session =
      if value'.subscribedSessions.entries ≠ [] then
        (s.setState o value').complete uri session false
      else if value.downstreamSubscribed then
        { (s.setState o value').send ⟨k, uri, false, o, .sent⟩ with
          operations := s.operations.add (.unsubscribe o uri session s.calls.next) }
      else ((s.setState o value').deleteKey uri).complete uri session false := by
  have hget : (s.setState o value').states.get? o = some value' := by
    simp [Subscriptions.setState, Table.get?_put hvalue]
  obtain ⟨uri₀, sessions, marked, pending⟩ := value
  simp only [unsubscribeResourceState, hvalue, ← hvalue', unsubscribeRest, hget]
  rw [hvalue'] at hpending ⊢
  cases hentries : (sessions.erase session).entries with
  | cons e entries => simp
  | nil =>
    obtain rfl : pending = none := hpending hentries
    cases marked <;> rfl

/-- An object without one of its sessions. -/
theorem Ok.withoutSession (h : Ok k s) (he : s.entry uri = some (o, value)) (session : String) :
    ∃ value', value' =
        { value with subscribedSessions := value.subscribedSessions.erase session } ∧
      Without value value' session ∧ (s.setState o value').Keyed ∧
      (s.setState o value').entry uri = some (o, value') := by
  have huri : value.resourceUri = uri := h.keyed.resourceUri he
  refine ⟨_, rfl, ?_, h.keyed.setState he huri, ?_⟩
  · intro session'
    rw [Dict.get?_erase]
  · rw [entry_setState h.keyed he, if_pos rfl]

theorem Ok.unsubscribeResourceState (h : Ok k s)
    (he : s.entry uri = some (o, value)) (hself : s.NotSubscribing uri session) :
    Unsubscribes k s (s.unsubscribeResourceState (some k) o uri session) uri session := by
  have hvalue := (entry_eq_some.mp he).2
  obtain ⟨value', hvalue', hwithout, hkeyed', he'⟩ := h.withoutSession he session
  have hsame := fun uri' (hne : uri' ≠ uri) => SameAt.setState hne h.keyed he value'
  rw [unsubscribeResourceState_eq hvalue hvalue']
  · split
    · refine h.unsubscribes hself hkeyed' ?_ ?_ rfl
      · refine (h.okAt uri).leaves (Or.inr ⟨o, value, value', he, he', hwithout, ?_, ?_⟩)
          rfl rfl rfl ?_ hself
        · rw [hvalue']
        · rw [hvalue']
        · intro session'
          simp [complete, Subscriptions.setState]
      · exact fun uri' hne => (hsame uri' hne).trans (SameAt.complete hne session false)
    next hempty =>
    rw [ne_eq, Decidable.not_not] at hempty
    split
    · next hmarked =>
      have hok : OkAt k { (s.setState o value').send ⟨k, uri, false, o, .sent⟩ with
          operations := s.operations.add (.unsubscribe o uri session s.calls.next) } uri := by
        refine (h.okAt uri).stops he he' hwithout hempty hmarked ?_ rfl rfl (fun _ => rfl) hself
        rw [hvalue']
      have hothers : ∀ uri', uri' ≠ uri →
          s.SameAt { (s.setState o value').send ⟨k, uri, false, o, .sent⟩ with
            operations := s.operations.add (.unsubscribe o uri session s.calls.next) } uri' := by
        intro uri' hne
        apply (hsame uri' hne).trans
        apply (SameAt.send hne ⟨k, uri, false, o, .sent⟩ rfl).trans
        exact SameAt.addOperation hne rfl
      refine ⟨h.of_uri uri hkeyed' hok hothers, hothers, ?_⟩
      intro i o' already c hi
      simp only [Table.get?_add] at hi
      split at hi
      · cases hi
      · exact hself i o' already c hi
    · refine h.unsubscribes hself (hkeyed'.deleteKey uri) ?_ ?_ rfl
      · refine (h.okAt uri).deletes he hwithout hempty ?_ rfl rfl ?_ hself
        · exact (entry_deleteKey _ uri uri).trans (if_pos rfl)
        · intro session'
          simp [complete, Subscriptions.setState, deleteKey]
      · intro uri' hne
        apply (hsame uri' hne).trans
        exact (SameAt.deleteKey hne).trans (SameAt.complete hne session false)
  · -- a session that waits for the call is still recorded
    intro hempty
    cases hsome : value.downstreamSubscription with
    | none => rfl
    | some c =>
      obtain ⟨i, session', already, hi⟩ := ((h.okAt uri).pending o value c he hsome).waiting
      have hne : session' ≠ session := by
        rintro rfl
        exact hself i o already c hi
      have hthere := (h.okAt uri).get?_without he hwithout hi hne
      rw [Dict.get?_of_entries hempty] at hthere
      cases hthere

theorem Ok.unsubscribeResource (h : Ok k s) (hself : s.NotSubscribing uri session) :
    Ok k (s.unsubscribeResource (some k) uri session) := by
  simp only [Subscriptions.unsubscribeResource]
  cases he : s.entry uri with
  | some e => exact (h.unsubscribeResourceState he hself).ok
  | none =>
    apply h.of_uri uri
    · exact h.keyed
    · refine (h.okAt uri).leaves (Or.inl ⟨he, he⟩) rfl rfl rfl ?_ hself
      intro session'
      simp [complete]
    · exact fun uri' hne => SameAt.complete hne session false

/-- The objects of the session one after another. They have different URIs, so an unsubscribe
    leaves the others as they are. -/
theorem Ok.unsubscribeAll {session : String} (l : List (String × Nat)) (h : Ok k s)
    (hnodup : (l.map Prod.fst).Nodup) (hentries : ∀ e ∈ l, ∃ value, s.entry e.1 = some (e.2, value))
    (hself : ∀ uri, s.NotSubscribing uri session) :
    Ok k (l.foldl (fun s e => s.unsubscribeResourceState (some k) e.2 e.1 session) s) := by
  induction l generalizing s with
  | nil => exact h
  | cons e l ih =>
    obtain ⟨value, he⟩ := hentries e List.mem_cons_self
    obtain ⟨hnotMem, hnodup⟩ := List.nodup_cons.mp hnodup
    have hunsub := h.unsubscribeResourceState he (hself e.1)
    rw [List.foldl_cons]
    apply ih hunsub.ok hnodup
    · intro e' he'
      have hne : e'.1 ≠ e.1 := fun heq => hnotMem (heq ▸ List.mem_map_of_mem he')
      rw [(hunsub.same e'.1 hne).entry]
      exact hentries e' (List.mem_cons_of_mem e he')
    · intro uri
      by_cases heq : uri = e.1
      · rw [heq]
        exact hunsub.notSubscribing
      · intro i o already c hi
        exact hself uri i o already c (((hunsub.same uri heq).operations i _ rfl).mp hi)

theorem Ok.cleanupSessionSubscriptions {session : String} (h : Ok k s)
    (hself : ∀ uri, s.NotSubscribing uri session) :
    Ok k (s.cleanupSessionSubscriptions (some k) session) := by
  apply Ok.unsubscribeAll _ h _ _ hself
  · exact s.resourceSubscriptions.nodup.sublist (List.filter_sublist.map Prod.fst)
  · intro e he
    have hkey := (Dict.mem_entries _ _ _).mp (List.mem_filter.mp he).1
    obtain ⟨value, hvalue, _⟩ := h.keyed e.1 e.2 hkey
    exact ⟨value, entry_eq_some.mpr ⟨hkey, hvalue⟩⟩

/-! ## Operations that go on -/

variable {c : Nat}

theorem settled_eq_some {ok : Bool} (h : s.settled c = some ok) :
    ∃ call, s.calls.get? c = some call ∧ call.stage = if ok then .succeeded else .failed := by
  simp only [settled, Option.bind_eq_some_iff] at h
  obtain ⟨call, hc, hstage⟩ := h
  refine ⟨call, hc, ?_⟩
  split at hstage
  · cases hstage
  · cases hstage
  · next hsucceeded =>
    cases hstage
    exact hsucceeded
  · next hfailed =>
    cases hstage
    exact hfailed

variable {call : DownstreamCall}

theorem Ok.subscribed (h : Ok k s) {i : Nat} {already : Bool}
    (hi : s.operations.get? i = some (.subscribe o uri session already c))
    (hc : s.calls.get? c = some call) (hstage : call.stage = .succeeded) :
    Ok k (complete { s with operations := s.operations.erase i } uri session true) := by
  apply h.of_uri uri
  · exact h.keyed
  · refine (h.okAt uri).subscribed hi hc hstage rfl rfl rfl rfl ?_
    intro session'
    simp [complete]
  · intro uri' hne
    exact (SameAt.eraseOperation hne hi rfl).trans (SameAt.complete hne session true)

theorem Ok.subscribeFails {k : Nat} {s : Subscriptions} {uri session : String} (h : Ok k s)
    {i : Nat} {already : Bool}
    (hi : s.operations.get? i = some (.subscribe o uri session already c))
    (hc : s.calls.get? c = some call) (hstage : call.stage = .failed) :
    Ok k (subscribeFails { s with operations := s.operations.erase i } o uri session already) := by
  obtain ⟨⟨rfl, _⟩, value, he, _⟩ := (h.okAt uri).subscribes i o session already c hi
  have hvalue := (entry_eq_some.mp he).2
  obtain ⟨value', hvalue', hwithout, hkeyed', he'⟩ := h.withoutSession he session
  have hsame := fun uri' (hne : uri' ≠ uri) =>
    (SameAt.eraseOperation hne hi rfl).trans
      (SameAt.setState (s := { s with operations := s.operations.erase i }) hne h.keyed he value')
  have hmark : value'.downstreamSubscribed = value.downstreamSubscribed := by rw [hvalue']
  have hpending : value'.downstreamSubscription = value.downstreamSubscription := by rw [hvalue']
  simp only [Subscriptions.subscribeFails, hvalue, Bool.false_eq_true, if_false, ← hvalue']
  split
  · next hempty =>
    apply h.of_uri uri
    · exact hkeyed'.deleteKey uri
    · refine (h.okAt uri).subscribeFails hi hc hstage he hwithout hmark hpending ?_ rfl rfl rfl
        (fun _ => rfl)
      rw [if_pos hempty]
      exact (entry_deleteKey _ uri uri).trans (if_pos rfl)
    · exact fun uri' hne => (hsame uri' hne).trans (SameAt.deleteKey hne)
  · next hsessions =>
    apply h.of_uri uri
    · exact hkeyed'
    · refine (h.okAt uri).subscribeFails hi hc hstage he hwithout hmark hpending ?_ rfl rfl rfl
        (fun _ => rfl)
      rw [if_neg hsessions]
      exact he'
    · exact hsame

theorem Ok.unsubscribed (h : Ok k s) {i d : Nat}
    (hi : s.operations.get? i = some (.unsubscribe o uri session d))
    (hc : s.calls.get? d = some call) (hstage : call.stage.inFlight = false) :
    Ok k ((deleteKey { s with operations := s.operations.erase i } uri).complete uri session
      false) := by
  apply h.of_uri uri
  · exact h.keyed.deleteKey uri
  · refine (h.okAt uri).unsubscribed hi hc hstage ?_ rfl rfl ?_
    · exact (entry_deleteKey _ uri uri).trans (if_pos rfl)
    · intro session'
      simp [complete, deleteKey]
  · intro uri' hne
    apply (SameAt.eraseOperation hne hi rfl).trans
    exact (SameAt.deleteKey hne).trans (SameAt.complete hne session false)

theorem Ok.resume {s : Subscriptions} (h : Ok k s) {i : Nat} {operation : SubscriptionOperation}
    (hi : s.operations.get? i = some operation) (hstep : s.resume (some k) i operation = some s') :
    Ok k s' := by
  cases operation with
  | subscribe o uri session already c =>
    simp only [Subscriptions.resume, Option.map_eq_some_iff] at hstep
    obtain ⟨ok, hsettled, rfl⟩ := hstep
    obtain ⟨call, hc, hstage⟩ := settled_eq_some hsettled
    cases ok with
    | true => exact h.subscribed hi hc hstage
    | false => exact h.subscribeFails hi hc hstage
  | unsubscribeWaits o uri session c => exact absurd hi ((h.okAt uri).noWaits i o session c)
  | unsubscribe o uri session d =>
    simp only [Subscriptions.resume, Option.map_eq_some_iff] at hstep
    obtain ⟨ok, hsettled, rfl⟩ := hstep
    obtain ⟨call, hc, hstage⟩ := settled_eq_some hsettled
    apply h.unsubscribed hi hc
    rw [hstage]
    cases ok <;> rfl

/-! ## Calls that settle -/

theorem Ok.processes {s : Subscriptions} (h : Ok k s) {supported : Bool}
    (hstep : step supported (some k) s (.processes c) = some s') : Ok k s' := by
  cases hc : s.calls.get? c with
  | none => simp [step, hc] at hstep
  | some call =>
    simp only [step, hc] at hstep
    split at hstep
    · next hsent =>
      cases hstep
      have hconnection := (h.okAt call.resourceUri).connection c call hc rfl
      apply h.of_uri call.resourceUri
      · exact h.keyed
      · refine (h.okAt call.resourceUri).processes hc rfl hsent rfl rfl rfl ?_ (fun _ => rfl)
        simp [hconnection]
      · intro uri' hne
        refine { SameAt.putCall hne hc rfl .processed with downstream := ?_ }
        intro k'
        simp [hne]
    · cases hstep

theorem Ok.settles {s : Subscriptions} (h : Ok k s) {ok : Bool}
    (hc : s.calls.get? c = some call) (hflight : call.stage.inFlight = true)
    (hprocessed : ok = true → call.stage = .processed) (hs' : s' =
      { s with calls := s.calls.put c { call with stage := if ok then .succeeded else .failed } }) :
    Ok k (s'.settleState c call ok) := by
  have hput : ∀ uri', uri' ≠ call.resourceUri → s.SameAt s' uri' := by
    intro uri' hne
    rw [hs']
    exact SameAt.putCall hne hc rfl (if ok then .succeeded else .failed)
  have hstates : s'.states = s.states := by rw [hs']
  have hkeyed' : s'.Keyed := by
    rw [hs']
    exact h.keyed
  have hentry : ∀ uri, s'.entry uri = s.entry uri := by
    intro uri
    rw [hs']
    rfl
  by_cases hkind : call.subscribes = true
  · -- the object awaits the call
    obtain ⟨⟨value, he, hsome⟩, _⟩ := (h.okAt call.resourceUri).starting c call hc rfl hflight hkind
    have huri := h.keyed.resourceUri he
    have hvalue : s'.states.get? call.state = some value := by
      rw [hstates]
      exact (entry_eq_some.mp he).2
    have he' : s'.entry call.resourceUri = some (call.state, value) := (hentry _).trans he
    simp only [settleState, hvalue, hkind, hsome, and_self, if_true]
    apply h.of_uri call.resourceUri
    · exact hkeyed'.setState he' huri
    · refine (h.okAt call.resourceUri).settles hc rfl hflight hprocessed
        (Or.inr ⟨call.state, value, he, hkind, hsome, ?_⟩) ?_ ?_ ?_ ?_
      · exact (entry_setState hkeyed' he' _ _).trans (if_pos rfl)
      all_goals simp [Subscriptions.setState, hs']
    · intro uri' hne
      exact (hput uri' hne).trans (SameAt.setState hne hkeyed' he' _)
  · rw [Bool.not_eq_true] at hkind
    have hstate : s'.settleState c call ok = s' := by
      simp only [settleState, hkind, Bool.false_eq_true, false_and, if_false]
      split <;> rfl
    rw [hstate]
    apply h.of_uri call.resourceUri hkeyed' _ hput
    refine (h.okAt call.resourceUri).settles hc rfl hflight hprocessed
      (Or.inl ⟨hkind, hentry _⟩) ?_ ?_ ?_ ?_
    all_goals simp [hs']

/-! ## Runs -/

/-- The condition on a step. A subscribe is sent to a server that supports it, when no operation of
    its session on the URI and no unsubscribe of the URI is in progress. A session unsubscribes
    when none of its subscribes on the URI is in progress. -/
def separate (supported : Bool) (s : Subscriptions) : SubscriptionAction → Bool
  | .subscribeResource resourceUri sessionId =>
    supported && !s.operations.any fun _ operation =>
      operation.resourceUri == resourceUri &&
        (operation.sessionId == sessionId || !operation.isSubscribe)
  | .unsubscribeResource resourceUri sessionId =>
    !s.operations.any fun _ operation =>
      operation.isSubscribe && operation.resourceUri == resourceUri &&
        operation.sessionId == sessionId
  | .cleanupSessionSubscriptions sessionId =>
    !s.operations.any fun _ operation =>
      operation.isSubscribe && operation.sessionId == sessionId
  | .resumes _ | .processes _ | .answered _ | .fails _ => true

/-- Each step keeps the invariant. -/
theorem Ok.step {k : Nat} {supported : Bool} {s : Subscriptions} {a : SubscriptionAction}
    (h : Ok k s) (hstep : step supported (some k) s a = some s')
    (hseparate : s.separate supported a = true) : Ok k s' := by
  cases a with
  | subscribeResource uri session =>
    simp only [separate, Bool.and_eq_true, Bool.not_eq_true', ← Bool.not_eq_true,
      Table.any_eq_true] at hseparate
    obtain ⟨rfl, hnone⟩ := hseparate
    cases hstep
    apply h.subscribeResource
    intro i operation hi huri
    by_contra hcon
    refine hnone ⟨i, operation, hi, ?_⟩
    by_cases hsession : operation.sessionId = session
    · simp [huri, hsession]
    · simp only [hsession, ne_eq, not_false_eq_true, true_and, Bool.not_eq_true] at hcon
      simp [huri, hcon]
  | unsubscribeResource uri session =>
    simp only [separate, Bool.not_eq_true', ← Bool.not_eq_true, Table.any_eq_true] at hseparate
    cases hstep
    apply h.unsubscribeResource
    intro i o already c hi
    exact hseparate ⟨i, _, hi, by simp [SubscriptionOperation.isSubscribe,
      SubscriptionOperation.resourceUri, SubscriptionOperation.sessionId]⟩
  | cleanupSessionSubscriptions session =>
    simp only [separate, Bool.not_eq_true', ← Bool.not_eq_true, Table.any_eq_true] at hseparate
    cases hstep
    apply h.cleanupSessionSubscriptions
    intro uri i o already c hi
    exact hseparate ⟨i, _, hi, by simp [SubscriptionOperation.isSubscribe,
      SubscriptionOperation.sessionId]⟩
  | resumes i =>
    cases hi : s.operations.get? i with
    | none => simp [Subscriptions.step, hi] at hstep
    | some operation =>
      simp only [Subscriptions.step, hi] at hstep
      exact h.resume hi hstep
  | processes c => exact h.processes hstep
  | answered c =>
    cases hc : s.calls.get? c with
    | none => simp [Subscriptions.step, hc] at hstep
    | some call =>
      simp only [Subscriptions.step, hc] at hstep
      split at hstep
      · next hprocessed =>
        cases hstep
        have hflight : call.stage.inFlight = true := by simp [hprocessed, CallStage.inFlight]
        exact h.settles hc hflight (fun _ => hprocessed) rfl
      · cases hstep
  | fails c =>
    cases hc : s.calls.get? c with
    | none => simp [Subscriptions.step, hc] at hstep
    | some call =>
      simp only [Subscriptions.step, hc] at hstep
      split at hstep
      · next hflight =>
        cases hstep
        have hfalse : false = true → call.stage = .processed := by simp
        exact h.settles hc hflight hfalse rfl
      · cases hstep

/-- When all operations have finished, the sessions recorded for a URI are those whose last
    completed operation on it was a subscribe, and if there is one, the last request about the URI
    that the server has processed was a subscribe. -/
theorem subscribers_are_recorded (supported : Bool) (k : Nat)
    (trs : List (Transition Subscriptions SubscriptionAction)) (s : Subscriptions)
    (hrun : IsRun (step supported (some k)) init trs s)
    (hseparate : ∀ tr ∈ trs, tr.pre.separate supported tr.act = true)
    (hrest : s.operations.any (fun _ _ => true) = false) (resourceUri : String) :
    (∀ sessionId, sessionId ∈ s.getResourceSubscribersForScope resourceUri ↔
      s.last resourceUri sessionId = true) ∧
    (s.getResourceSubscribersForScope resourceUri ≠ [] → s.downstream k resourceUri = true) := by
  have hok : Ok k s :=
    IsRun.history_of (G := fun tr => tr.pre.separate supported tr.act = true)
      (P := fun _ s => Ok k s) (Ok.init k)
      (fun _ _ _ _ _ h hstep hguard => h.step hstep hguard) hrun hseparate
  have hat := hok.okAt resourceUri
  have hnone := Table.get?_of_any hrest
  cases he : s.entry resourceUri with
  | none =>
    simp only [getResourceSubscribersForScope, he]
    refine ⟨?_, by simp⟩
    intro sessionId
    constructor
    · intro hmem
      cases hmem
    · intro hlast
      rcases hat.last sessionId hlast with ⟨o, value, he', _⟩ | ⟨i, o, d, hi⟩
      · simp [he] at he'
      · simp [hnone] at hi
  | some e =>
    obtain ⟨o, value⟩ := e
    have hmem : ∀ sessionId, sessionId ∈ s.getResourceSubscribersForScope resourceUri ↔
        value.subscribedSessions.get? sessionId = some () := by
      intro sessionId
      simp only [getResourceSubscribersForScope, he, List.mem_map, Prod.exists, exists_and_right,
        exists_eq_right]
      constructor
      · rintro ⟨_, hsession⟩
        exact (Dict.mem_entries _ _ _).mp hsession
      · intro hsession
        exact ⟨(), (Dict.mem_entries _ _ _).mpr hsession⟩
    -- a recorded session has no subscribe in progress
    have hrecorded : ∀ sessionId, value.subscribedSessions.get? sessionId = some () →
        s.last resourceUri sessionId = true ∧ value.downstreamSubscribed = true := by
      intro sessionId hsession
      rcases hat.recorded o value sessionId he hsession with hlast | ⟨i, already, c, hi⟩
      · exact hlast
      · simp [hnone] at hi
    constructor
    · intro sessionId
      rw [hmem]
      constructor
      · intro hsession
        exact (hrecorded sessionId hsession).1
      · intro hlast
        rcases hat.last sessionId hlast with ⟨o', value', he', hsession⟩ | ⟨i, o', d, hi⟩
        · obtain ⟨rfl, rfl⟩ := Prod.mk.inj (Option.some.inj (he.symm.trans he'))
          exact hsession
        · simp [hnone] at hi
    · intro hsome
      obtain ⟨sessionId, hsession⟩ := List.exists_mem_of_ne_nil _ hsome
      have hmarked := (hrecorded sessionId ((hmem sessionId).mp hsession)).2
      exact hat.downstream o value he hmarked fun i o session d hi => by simp [hnone] at hi

/-- Two sessions subscribe, and one of them unsubscribes again. -/
def sharedActions : List SubscriptionAction :=
  [.subscribeResource "file:///a" "S1", .subscribeResource "file:///a" "S2", .processes 0,
    .answered 0, .resumes 0, .resumes 1, .unsubscribeResource "file:///a" "S1"]

theorem subscribers_are_recorded_sharedActions :
    ∃ s, exec (step true (some 7)) init sharedActions = some s ∧
      ((∀ sessionId, sessionId ∈ s.getResourceSubscribersForScope "file:///a" ↔
        s.last "file:///a" sessionId = true) ∧
      (s.getResourceSubscribersForScope "file:///a" ≠ [] →
        s.downstream 7 "file:///a" = true)) ∧
      s.getResourceSubscribersForScope "file:///a" = ["S2"] := by
  refine ⟨(exec (step true (some 7)) init sharedActions).get (by decide), by simp, ?_, by decide⟩
  apply subscribers_are_recorded true 7 (trace (step true (some 7)) init sharedActions)
  · exact isRun_trace _ _ _ (by simp)
  · decide
  · decide

/-- `S2` subscribes while the unsubscribe of `S1` awaits the server. -/
def dropActions : List SubscriptionAction :=
  [.subscribeResource "file:///a" "S1", .processes 0, .answered 0, .resumes 0,
    .unsubscribeResource "file:///a" "S1", .subscribeResource "file:///a" "S2", .processes 1,
    .answered 1, .resumes 1]

/-- A subscribe that joins the object of an unsubscribe in progress is lost. -/
theorem subscriber_is_dropped :
    ¬ ∀ (k : Nat) (trs : List (Transition Subscriptions SubscriptionAction)) (s : Subscriptions),
      IsRun (step true (some k)) init trs s →
      s.operations.any (fun _ _ => true) = false → ∀ resourceUri,
      (∀ sessionId, sessionId ∈ s.getResourceSubscribersForScope resourceUri ↔
        s.last resourceUri sessionId = true) ∧
      (s.getResourceSubscribersForScope resourceUri ≠ [] →
        s.downstream k resourceUri = true) := by
  intro hall
  have hrun : IsRun (step true (some 7)) init (trace (step true (some 7)) init dropActions)
      ((exec (step true (some 7)) init dropActions).get (by decide)) :=
    isRun_trace _ _ _ (by simp)
  have hsession := ((hall 7 _ _ hrun (by decide) "file:///a").1 "S2").mpr (by decide)
  exact absurd hsession (by decide)

end Subscriptions

end PetaCore
