import PetaCore.Core.SubscriptionStream
import PetaCore.ForStd.Except
import PetaCore.ForStd.Run

/-!
# What an open subscription delivers, and when it expires

The acknowledged kinds are kinds of the filter, so that an event of such a kind is dropped only by
the filters for servers and resources. The one for resources asks for a URI, which the events of
changed lists do not have. The timer for the expiry is given the time that is left, of which
`setTimeout` makes one millisecond when it is too long.

## Key results

- `mem_methods_of_build`: the methods of a filter are asked for
- `requestedUri_of_subscribed`: what is acknowledged is in the filter
- `acknowledged_delivered_iff`: which events of an acknowledged kind are written
- `closed_after_expiry_iff`: when a subscription may be closed before the expiry
-/

namespace PetaCore

open Run

/-! ## The expiry -/

namespace SubscriptionStream

/-- The expiry of the token if there is one, and else that of the user. -/
def expiry (context : ModernRequestContext) : Option Int :=
  match context.oauthAccessTokenExpiresAt with
  | some seconds => some seconds
  | none => context.expiresAt

theorem authExpirationMs_of_expiry {context : ModernRequestContext} {seconds : Int}
    (h : expiry context = some seconds) (now : Int) : authExpirationMs context now =
      if seconds = 0 then none else some (max 0 (seconds * 1000 - now)) := by
  have hor : context.oauthAccessTokenExpiresAt.or context.expiresAt = some seconds := by
    rw [← h, expiry]
    cases context.oauthAccessTokenExpiresAt <;> rfl
  simp only [authExpirationMs, hor]

/-- A delay that fits in 32 bits is waited for. -/
theorem le_timeoutDelay {delay : Int} (h : delay ≤ 2147483647) : delay ≤ timeoutDelay delay := by
  rw [timeoutDelay]
  split <;> omega

/-- The stream has not been closed for the expiry before a time, and will not be. -/
structure NotBefore (time : Int) (s : SubscriptionStream) : Prop where
  timer : ∀ t, s.authExpiryTimer = some t → time ≤ t
  closed : ∀ t, s.closed = some (.authExpired, t) → time ≤ t

theorem NotBefore.closeSubscription {time : Int} {s : SubscriptionStream} (h : NotBefore time s)
    {reason : SubscriptionDropReason} (hreason : reason = .authExpired → time ≤ s.now) :
    NotBefore time (s.closeSubscription reason) := by
  rw [SubscriptionStream.closeSubscription]
  split
  · exact h
  · constructor
    case timer =>
      intro t ht
      cases ht
    case closed =>
      intro t ht
      simp only [Option.some.injEq, Prod.mk.injEq] at ht
      obtain ⟨hauth, rfl⟩ := ht
      exact hreason hauth

theorem NotBefore.step {time : Int} {s s' : SubscriptionStream} {act : StreamAction}
    (h : NotBefore time s) (hstep : step s act = some s') : NotBefore time s' := by
  cases act with
  | publish m event =>
    simp only [SubscriptionStream.step] at hstep
    split at hstep
    · cases hstep
      exact h
    · cases hstep
      simp only [deliver]
      split
      · exact h
      · split
        · exact h
        · exact ⟨h.timer, h.closed⟩
  | heartbeat =>
    simp only [SubscriptionStream.step] at hstep
    split at hstep
    · cases hstep
    · cases hstep
      exact ⟨h.timer, h.closed⟩
  | tick t =>
    cases hstep
    exact ⟨h.timer, h.closed⟩
  | authExpires =>
    simp only [SubscriptionStream.step] at hstep
    split at hstep
    · cases hstep
    · next t htimer =>
      split at hstep
      · next hfires =>
        cases hstep
        have htime := h.timer t htimer
        exact h.closeSubscription (fun _ => by omega)
      · cases hstep
  | clientCloses =>
    cases hstep
    exact h.closeSubscription (fun hreason => by cases hreason)

/-- The timer is too early by a millisecond's delay when more is left than fits in 32 bits. -/
theorem closes_early {context : ModernRequestContext} {seconds now : Int}
    (h : expiry context = some seconds) (hzero : seconds ≠ 0)
    (hfar : 2147483647 < seconds * 1000 - now) (filter : ModernSubscriptionFilter)
    (acknowledged : AcknowledgedNotifications) (subscriptionId : Json) :
    ∃ trs s, IsRun step (opened context filter acknowledged subscriptionId now) trs s ∧
      s.closed = some (.authExpired, now + 1) := by
  have hdelay : timeoutDelay (max 0 (seconds * 1000 - now)) = 1 := by
    rw [timeoutDelay, if_pos (by omega)]
  have htimer : (opened context filter acknowledged subscriptionId now).authExpiryTimer =
      some (now + 1) := by
    simp only [opened, authExpirationMs_of_expiry h, if_neg hzero, Option.map_some, hdelay]
  have hfires : step { opened context filter acknowledged subscriptionId now with now := now + 1 }
      .authExpires = some (closeSubscription
        { opened context filter acknowledged subscriptionId now with now := now + 1 }
        .authExpired) := by
    simp only [step, htimer]
    exact if_pos (Int.le_refl _)
  exact ⟨[⟨_, .tick 1, _⟩, ⟨_, .authExpires, _⟩], _, ⟨rfl, rfl, rfl, hfires, rfl⟩, rfl⟩

/-- A subscription is closed for the expiry only after it just when the time that is left at its
    start fits in 32 bits, or no expiry is set. -/
theorem closed_after_expiry_iff (context : ModernRequestContext)
    (filter : ModernSubscriptionFilter) (acknowledged : AcknowledgedNotifications)
    (subscriptionId : Json) (now : Int) :
    (∀ trs s, IsRun step (opened context filter acknowledged subscriptionId now) trs s →
      ∀ t, s.closed = some (.authExpired, t) → ∀ seconds, expiry context = some seconds →
        seconds * 1000 ≤ t) ↔
    ∀ seconds, expiry context = some seconds →
      seconds = 0 ∨ seconds * 1000 - now ≤ 2147483647 := by
  constructor
  · intro h seconds hexpiry
    by_contra hfar
    rw [not_or] at hfar
    have hleft : 2147483647 < seconds * 1000 - now := by omega
    obtain ⟨trs, s, hrun, hclosed⟩ := closes_early hexpiry hfar.1 hleft filter acknowledged
      subscriptionId
    have hafter := h trs s hrun _ hclosed seconds hexpiry
    omega
  · intro h trs s hrun t hclosed seconds hexpiry
    have hstart : NotBefore (seconds * 1000)
        (opened context filter acknowledged subscriptionId now) := by
      constructor
      case timer =>
        intro t ht
        simp only [opened, authExpirationMs_of_expiry hexpiry, Option.map_eq_some_iff] at ht
        obtain ⟨delay, hdelay, rfl⟩ := ht
        split at hdelay
        · cases hdelay
        · next hzero =>
          cases hdelay
          have hfits := (h seconds hexpiry).resolve_left hzero
          have hwait := le_timeoutDelay (by omega : max 0 (seconds * 1000 - now) ≤ 2147483647)
          omega
      case closed =>
        intro t ht
        cases ht
    exact (IsRun.invariant (fun _ _ _ hn hs => NotBefore.step hn hs) hrun hstart).closed t hclosed

/-- A token that is good for thirty days. -/
theorem month_closes_early : ¬ ∀ (context : ModernRequestContext)
    (filter : ModernSubscriptionFilter) (acknowledged : AcknowledgedNotifications)
    (subscriptionId : Json) (now : Int) (trs : List (Transition SubscriptionStream StreamAction))
    (s : SubscriptionStream),
    IsRun step (opened context filter acknowledged subscriptionId now) trs s →
    ∀ t, s.closed = some (.authExpired, t) → ∀ seconds, expiry context = some seconds →
      seconds * 1000 ≤ t := by
  intro h
  have hexpiry : expiry ⟨⟨false, "u", .empty, .empty⟩, some "client", some ["mcp:tools"],
      some (1700000000 + 30 * 24 * 60 * 60), none⟩ = some 1702592000 := rfl
  obtain ⟨trs, s, hrun, hclosed⟩ := closes_early hexpiry (by decide)
    (by decide : (2147483647 : Int) < 1702592000 * 1000 - 1700000000000) ⟨[], [], [], []⟩
    ⟨false, false, false, []⟩ .null
  have hafter := h _ _ _ _ _ trs s hrun _ hclosed _ hexpiry
  omega

end SubscriptionStream

/-! ## The filter -/

namespace ModernSubscriptionFilter

/-- What a request asks for: a method by itself, or a flag or resources that stand for it. -/
def AsksFor (params : List (String × Json)) (method : String) : Prop :=
  (∃ items, params.lookup "methods" = some (.arr items) ∧ .str method ∈ items) ∨
  ∃ notifications, params.lookup "notifications" = some (.obj notifications) ∧
    ((method = toolsListChangedMethod ∧
        notifications.lookup "toolsListChanged" = some (.bool true)) ∨
      (method = promptsListChangedMethod ∧
        notifications.lookup "promptsListChanged" = some (.bool true)) ∨
      (method = resourcesListChangedMethod ∧
        notifications.lookup "resourcesListChanged" = some (.bool true)) ∨
      (method = resourcesUpdatedMethod ∧
        ∃ items, notifications.lookup "resourceSubscriptions" = some (.arr items) ∧ items ≠ []))

variable {notifications : List (String × Json)}

theorem isSet_iff {key : String} :
    isSet notifications key = true ↔ notifications.lookup key = some (.bool true) := by
  rw [isSet]
  split
  · next h => simp [h]
  · next h => exact iff_of_false (by decide) h

theorem mem_nonEmptyStrings {items : List Json} {s : String} (h : s ∈ nonEmptyStrings items) :
    .str s ∈ items := by
  obtain ⟨item, hitem, hs⟩ := List.mem_filterMap.mp h
  split at hs
  · split at hs
    · cases hs
    · cases hs
      exact hitem
  · cases hs

variable {params : List (String × Json)}

theorem requireStringArrayFilter_eq_ok {key : String}
    {values : List String} (h : requireStringArrayFilter params key = .ok values) {s : String}
    (hs : s ∈ values) : ∃ items, params.lookup key = some (.arr items) ∧ .str s ∈ items := by
  rw [requireStringArrayFilter] at h
  split at h
  · cases h
    cases hs
  · next items hlookup =>
    split at h
    · cases h
    · cases h
      exact ⟨items, hlookup, mem_nonEmptyStrings hs⟩
  · cases h

theorem buildSubscriptionNotifications_eq_ok
    (h : buildSubscriptionNotifications params = .ok notifications) :
    params.lookup "notifications" = some (.obj notifications) := by
  rw [buildSubscriptionNotifications] at h
  split at h
  · cases h
  · next members hlookup =>
    obtain ⟨_, _, h⟩ := Except.bind_eq_ok.mp h
    obtain ⟨_, _, h⟩ := Except.bind_eq_ok.mp h
    obtain ⟨_, _, h⟩ := Except.bind_eq_ok.mp h
    obtain ⟨_, _, h⟩ := Except.bind_eq_ok.mp h
    cases h
    exact hlookup
  · cases h

/-- The parts that a filter is made of. -/
theorem build_eq_ok {filter : ModernSubscriptionFilter} (h : build params = .ok filter) : ∃ methods,
      buildSubscriptionNotifications params = .ok filter.notifications ∧
      requireStringArrayFilter params "methods" = .ok methods ∧
      filter.methods = methods ++ notificationMethods filter.notifications := by
  obtain ⟨notifications, hnotifications, h⟩ := Except.bind_eq_ok.mp h
  obtain ⟨methods, hmethods, h⟩ := Except.bind_eq_ok.mp h
  dsimp only at h
  split at h
  · cases h
  · obtain ⟨serverIds, _, h⟩ := Except.bind_eq_ok.mp h
    obtain ⟨resourceUris, _, h⟩ := Except.bind_eq_ok.mp h
    cases h
    exact ⟨methods, hnotifications, hmethods, rfl⟩

theorem mem_notificationMethods {method : String} :
    method ∈ notificationMethods notifications ↔
      (isSet notifications "toolsListChanged" = true ∧ method = toolsListChangedMethod) ∨
      (isSet notifications "promptsListChanged" = true ∧ method = promptsListChangedMethod) ∨
      (isSet notifications "resourcesListChanged" = true ∧ method = resourcesListChangedMethod) ∨
      (resourceSubscriptions notifications ≠ [] ∧ method = resourcesUpdatedMethod) := by
  have hmem : ∀ (p : Prop) [Decidable p] (m : String),
      method ∈ (if p then [m] else []) ↔ p ∧ method = m := by
    intro p _ m
    split <;> simp [*]
  simp only [notificationMethods, List.mem_append, hmem, or_assoc]

/-- The methods of a filter are asked for. -/
theorem mem_methods_of_build {filter : ModernSubscriptionFilter}
    (h : build params = .ok filter) {method : String} (hmem : method ∈ filter.methods) :
    AsksFor params method := by
  obtain ⟨methods, hnotifications, hmethods, heq⟩ := build_eq_ok h
  rw [heq, List.mem_append, mem_notificationMethods] at hmem
  rcases hmem with hmem | hmem
  · exact .inl (requireStringArrayFilter_eq_ok hmethods hmem)
  · refine .inr ⟨_, buildSubscriptionNotifications_eq_ok hnotifications, ?_⟩
    rcases hmem with ⟨hset, hm⟩ | ⟨hset, hm⟩ | ⟨hset, hm⟩ | ⟨hne, hm⟩
    · exact .inl ⟨hm, isSet_iff.mp hset⟩
    · exact .inr (.inl ⟨hm, isSet_iff.mp hset⟩)
    · exact .inr (.inr (.inl ⟨hm, isSet_iff.mp hset⟩))
    · refine .inr (.inr (.inr ⟨hm, ?_⟩))
      rw [resourceSubscriptions] at hne
      split at hne
      · next items hlookup =>
        refine ⟨items, hlookup, ?_⟩
        rintro rfl
        exact hne rfl
      · exact absurd rfl hne

end ModernSubscriptionFilter

/-! ## The acknowledgement -/

namespace ModernSubscriber

variable {r : ModernSubscriber}

/-- The subscriptions are made for URIs of the list. -/
theorem requestedUri_of_subscribeEach {g g' : SubscriptionGateway} {uris : List String}
    {subscriptions result : List ModernSubscribed}
    (h : r.subscribeEach g subscriptions uris = (.ok result, g')) :
    ∀ sub ∈ result, sub ∈ subscriptions ∨ sub.requestedUri ∈ uris := by
  induction uris generalizing g subscriptions with
  | nil =>
    obtain ⟨hok, -⟩ := Prod.mk.inj h
    cases hok
    exact fun sub hsub => .inl hsub
  | cons uri uris ih =>
    have hlater : ∀ {g : SubscriptionGateway} {subs : List ModernSubscribed},
        r.subscribeEach g subs uris = (.ok result, g') →
        ∀ sub ∈ result, sub ∈ subs ∨ sub.requestedUri ∈ uri :: uris := by
      intro g subs heach sub hsub
      exact (ih heach sub hsub).imp_right (List.mem_cons_of_mem uri)
    rw [subscribeEach] at h
    split at h
    · cases (Prod.mk.inj h).1
    · split at h
      · cases (Prod.mk.inj h).1
      · split at h
        · exact hlater h
        · split at h
          · exact hlater h
          · split at h
            · cases (Prod.mk.inj h).1
            · intro sub hsub
              rcases hlater h sub hsub with hmem | hmem
              · rcases List.mem_append.mp hmem with hold | hnew
                · exact .inl hold
                · obtain rfl := List.mem_singleton.mp hnew
                  exact .inr List.mem_cons_self
              · exact .inr hmem

theorem requestedUri_of_subscribed {g g' : SubscriptionGateway} {turns : List Turn}
    {updated : Bool} {uris : List String} {result : List ModernSubscribed}
    (h : r.subscribeModernResources g turns updated uris = some (.ok result, g')) :
    ∀ sub ∈ result, updated = true ∧ sub.requestedUri ∈ uris := by
  rw [subscribeModernResources] at h
  split at h
  · obtain ⟨hok, -⟩ := Prod.mk.inj (Option.some.inj h)
    cases hok
    intro sub hsub
    cases hsub
  · next hupdated =>
    split at h
    · next heach =>
      obtain ⟨hok, hg⟩ := Prod.mk.inj (Option.some.inj h)
      cases hok
      intro sub hsub
      have hmem := requestedUri_of_subscribeEach heach sub hsub
      refine ⟨by simp_all, hmem.resolve_left (List.not_mem_nil)⟩
    · obtain ⟨_, _, hcases⟩ := Option.map_eq_some_iff.mp h
      cases (Prod.mk.inj hcases).1

end ModernSubscriber

namespace SubscriptionStream

open ModernSubscriptionFilter ModernMcpController

variable {m : ServerManager CapabilityConfig} {event : ModernSubscriptionEvent}
  {s s' : SubscriptionStream}

/-- The stream that a request opens, of which only URIs and methods of its filter are
    acknowledged. -/
theorem handleSubscriptionListen_eq_ok {r : ModernSubscriber} {g : SubscriptionGateway}
    {turns : List Turn} {context : ModernRequestContext} {capabilities : ListChanged} {now : Int}
    {request : SubscriptionListenRequest} {s : SubscriptionStream}
    (h : handleSubscriptionListen r g turns context capabilities now request = some (.ok s)) :
    ∃ params filter acknowledged subscriptionId, request.params = some params ∧
      ModernSubscriptionFilter.build params = .ok filter ∧
      s = opened context filter acknowledged subscriptionId now ∧
      (acknowledged.toolsListChanged = true → toolsListChangedMethod ∈ filter.methods) ∧
      (acknowledged.promptsListChanged = true → promptsListChangedMethod ∈ filter.methods) ∧
      (acknowledged.resourcesListChanged = true → resourcesListChangedMethod ∈ filter.methods) ∧
      ∀ uri ∈ acknowledged.resourceSubscriptions,
        resourcesUpdatedMethod ∈ filter.methods ∧ uri ∈ filter.resourceUris := by
  simp only [handleSubscriptionListen] at h
  split at h
  · cases h
  · cases h
  · next params subscriptionId hparams _ =>
    split at h
    · cases h
    · next filter hfilter =>
      split at h
      · cases h
      · obtain ⟨⟨result, g'⟩, hsubscribed, hresult⟩ := Option.map_eq_some_iff.mp h
        cases result with
        | error error => cases hresult
        | ok downstream =>
          cases hresult
          obtain ⟨methods, _, _, hmethods⟩ := build_eq_ok hfilter
          have hflag : ∀ {key method : String} {listChanged : Bool},
              (isSet filter.notifications key && listChanged) = true →
              (isSet filter.notifications key = true →
                method ∈ notificationMethods filter.notifications) →
              method ∈ filter.methods := by
            intro key method listChanged hacknowledged hmem
            rw [hmethods]
            exact List.mem_append_right _ (hmem (Bool.and_eq_true_iff.mp hacknowledged).1)
          refine ⟨params, filter, _, subscriptionId, hparams, hfilter, rfl, ?_, ?_, ?_, ?_⟩
          · exact fun h => hflag h fun hset =>
              mem_notificationMethods.mpr (.inl ⟨hset, rfl⟩)
          · exact fun h => hflag h fun hset =>
              mem_notificationMethods.mpr (.inr (.inl ⟨hset, rfl⟩))
          · exact fun h => hflag h fun hset =>
              mem_notificationMethods.mpr (.inr (.inr (.inl ⟨hset, rfl⟩)))
          · intro uri huri
            obtain ⟨sub, hsub, rfl⟩ := List.mem_map.mp huri
            obtain ⟨hupdated, hmem⟩ :=
              ModernSubscriber.requestedUri_of_subscribed hsubscribed sub hsub
            exact ⟨of_decide_eq_true hupdated, List.mem_eraseDups.mp hmem⟩

/-! ## Delivery -/

/-- What is published on the bus: a list of a server has changed, or a resource. -/
inductive IsPublished : ModernSubscriptionEvent → Prop
  | listChanged (method : String) (serverId : String) (params : List (String × Json))
    (h : method = toolsListChangedMethod ∨ method = promptsListChangedMethod ∨
      method = resourcesListChangedMethod) :
    IsPublished ⟨method, some serverId, none, none, params⟩
  | updated (serverId scopeId : String) (resourceUri : String) (params : List (String × Json)) :
    IsPublished ⟨resourcesUpdatedMethod, some serverId, some scopeId, some resourceUri, params⟩

/-- The kind of the event is acknowledged, or its URI in one of its forms. -/
def IsAcknowledged (a : AcknowledgedNotifications) (m : ServerManager CapabilityConfig)
    (userId : String) (event : ModernSubscriptionEvent) : Prop :=
  (event.method = toolsListChangedMethod ∧ a.toolsListChanged = true) ∨
  (event.method = promptsListChangedMethod ∧ a.promptsListChanged = true) ∨
  (event.method = resourcesListChangedMethod ∧ a.resourcesListChanged = true) ∨
  (event.method = resourcesUpdatedMethod ∧
    ∃ uri ∈ subscriptionResourceUris m userId event, uri ∈ a.resourceSubscriptions)

/-- The events of changed lists have no URI. -/
theorem IsPublished.method_of_mem (h : IsPublished event) {userId uri : String}
    (hmem : uri ∈ subscriptionResourceUris m userId event) :
    event.method = resourcesUpdatedMethod := by
  cases h with
  | listChanged method serverId params _ => cases hmem
  | updated serverId scopeId resourceUri params => rfl

/-- An event of a resource is acknowledged by its URI. -/
theorem IsAcknowledged.of_updated {a : AcknowledgedNotifications} {userId : String}
    (h : IsAcknowledged a m userId event) (hmethod : event.method = resourcesUpdatedMethod) :
    ∃ uri ∈ subscriptionResourceUris m userId event, uri ∈ a.resourceSubscriptions := by
  rcases h with ⟨hother, _⟩ | ⟨hother, _⟩ | ⟨hother, _⟩ | hupdated
  iterate 3
    · rw [hmethod] at hother
      exact absurd hother (by decide)
  · exact hupdated.2

/-- What a step leaves as it is. -/
theorem step_fixed {act : StreamAction} (h : step s act = some s') :
    s'.context = s.context ∧ s'.filter = s.filter ∧ s'.acknowledged = s.acknowledged ∧
      s'.subscriptionId = s.subscriptionId := by
  have hclose : ∀ reason, (s.closeSubscription reason).context = s.context ∧
      (s.closeSubscription reason).filter = s.filter ∧
      (s.closeSubscription reason).acknowledged = s.acknowledged ∧
      (s.closeSubscription reason).subscriptionId = s.subscriptionId := by
    intro reason
    rw [closeSubscription]
    split <;> exact ⟨rfl, rfl, rfl, rfl⟩
  cases act with
  | publish m event =>
    simp only [step] at h
    split at h
    · cases h
      exact ⟨rfl, rfl, rfl, rfl⟩
    · cases h
      simp only [deliver]
      split
      · exact ⟨rfl, rfl, rfl, rfl⟩
      · split <;> exact ⟨rfl, rfl, rfl, rfl⟩
  | heartbeat =>
    simp only [step] at h
    split at h
    · cases h
    · cases h
      exact ⟨rfl, rfl, rfl, rfl⟩
  | tick time =>
    cases h
    exact ⟨rfl, rfl, rfl, rfl⟩
  | authExpires =>
    simp only [step] at h
    split at h
    · cases h
    · split at h
      · cases h
        exact hclose _
      · cases h
  | clientCloses =>
    cases h
    exact hclose _

/-- An event that matches and that the user may receive is written, and no other. -/
theorem written_publish (hopen : s.closed = none) (h : step s (.publish m event) = some s')
    (hreceive : canReceiveSubscriptionEvent m s.context.authContext event = true) :
    (s'.written = s.written ++
        [eventMessage m s.context.authContext.userId s.subscriptionId event] ↔
      subscriptionMatches m s.context.authContext.userId s.filter event = true) := by
  simp only [step, hopen, Option.isSome_none, Bool.false_eq_true, if_false, Option.some.injEq] at h
  rw [← h, deliver]
  cases subscriptionMatches m s.context.authContext.userId s.filter event with
  | false => simp
  | true => simp [hreceive]

theorem written_publish_of_not (hopen : s.closed = none) (h : step s (.publish m event) = some s')
    (hno : subscriptionMatches m s.context.authContext.userId s.filter event = false) :
    s'.written = s.written := by
  simp only [step, hopen, Option.isSome_none, Bool.false_eq_true, if_false, Option.some.injEq] at h
  rw [← h, deliver]
  simp [hno]

/-- An event of an acknowledged kind is dropped by the filter for resources only. -/
theorem subscriptionMatches_iff {userId : String} {filter : ModernSubscriptionFilter}
    (hmethod : event.method ∈ filter.methods) (hserver : passesServers filter event = true) :
    subscriptionMatches m userId filter event = true ↔ filter.resourceUris = [] ∨
      ∃ uri ∈ subscriptionResourceUris m userId event, uri ∈ filter.resourceUris := by
  have hne : filter.methods ≠ [] := List.ne_nil_of_mem hmethod
  rw [subscriptionMatches, if_neg hne, if_neg (not_not.mpr hmethod), if_neg (by simp [hserver])]
  by_cases huris : filter.resourceUris = []
  · simp [huris]
  · simp [huris]


theorem fixed_of_run {trs : List (Transition SubscriptionStream StreamAction)}
    (h : IsRun step s trs s') :
    s'.context = s.context ∧ s'.filter = s.filter ∧ s'.acknowledged = s.acknowledged ∧
      s'.subscriptionId = s.subscriptionId := by
  refine IsRun.history (P := fun _ t => t.context = s.context ∧ t.filter = s.filter ∧
    t.acknowledged = s.acknowledged ∧ t.subscriptionId = s.subscriptionId)
    ⟨rfl, rfl, rfl, rfl⟩ ?_ h
  intro _ t act t' _ hfixed hstep
  obtain ⟨hcontext, hfilter, hacknowledged, hid⟩ := step_fixed hstep
  rw [hcontext, hfilter, hacknowledged, hid]
  exact hfixed

/-- An acknowledged event that passes the filter for servers and that the user may receive is
    written just when a resource has been updated or the filter has no resources. An event of a kind
    that the request does not ask for is not written. -/
theorem acknowledged_delivered_iff {r : ModernSubscriber} {g : SubscriptionGateway}
    {turns : List Turn} {context : ModernRequestContext} {capabilities : ListChanged} {now : Int}
    {request : SubscriptionListenRequest} {stream s : SubscriptionStream}
    (hlisten : handleSubscriptionListen r g turns context capabilities now request =
      some (.ok stream))
    {trs : List (Transition SubscriptionStream StreamAction)} (hrun : IsRun step stream trs s)
    {tr : Transition SubscriptionStream StreamAction} (htr : tr ∈ trs)
    {m : ServerManager CapabilityConfig} {event : ModernSubscriptionEvent}
    (hact : tr.act = .publish m event) (hpublished : IsPublished event)
    (hopen : tr.pre.closed = none) {params : List (String × Json)}
    (hparams : request.params = some params) :
    (IsAcknowledged stream.acknowledged m context.authContext.userId event →
      passesServers stream.filter event = true →
      canReceiveSubscriptionEvent m context.authContext event = true →
      (tr.post.written = tr.pre.written ++
          [eventMessage m context.authContext.userId stream.subscriptionId event] ↔
        event.method = resourcesUpdatedMethod ∨ stream.filter.resourceUris = [])) ∧
    (¬ AsksFor params event.method → tr.post.written = tr.pre.written) := by
  obtain ⟨params', filter, acknowledged, subscriptionId, hparams', hbuild, rfl, htools, hprompts,
    hresources, huris⟩ := handleSubscriptionListen_eq_ok hlisten
  obtain rfl := Option.some.inj (hparams.symm.trans hparams')
  obtain ⟨xs, ys, rfl⟩ := List.append_of_mem htr
  obtain ⟨hbefore, hstep, -⟩ := hrun.split
  obtain ⟨hcontext, hfilter, -, hid⟩ := fixed_of_run hbefore
  rw [hact] at hstep
  simp only [opened] at hcontext hfilter hid ⊢
  constructor
  · intro hacknowledged hserver hreceive
    have hmethod : event.method ∈ filter.methods := by
      rcases hacknowledged with ⟨heq, h⟩ | ⟨heq, h⟩ | ⟨heq, h⟩ | ⟨heq, uri, _, h⟩
      · rw [heq]; exact htools h
      · rw [heq]; exact hprompts h
      · rw [heq]; exact hresources h
      · rw [heq]; exact (huris uri h).1
    have hsome : (∃ uri ∈ subscriptionResourceUris m context.authContext.userId event,
        uri ∈ filter.resourceUris) ↔ event.method = resourcesUpdatedMethod := by
      constructor
      · rintro ⟨uri, hmem, _⟩
        exact hpublished.method_of_mem hmem
      · intro hupdated
        obtain ⟨uri, hmem, h⟩ := hacknowledged.of_updated hupdated
        exact ⟨uri, hmem, (huris uri h).2⟩
    rw [or_comm, ← hsome, ← subscriptionMatches_iff hmethod hserver]
    have hwritten := written_publish hopen hstep (by rw [hcontext]; exact hreceive)
    rwa [hcontext, hfilter, hid] at hwritten
  · intro hasks
    have hmethod : event.method ∉ filter.methods := fun h => hasks (mem_methods_of_build hbuild h)
    have hno : subscriptionMatches m context.authContext.userId filter event = false := by
      rw [subscriptionMatches]
      split <;> rfl
    exact written_publish_of_not hopen hstep (by rw [hcontext, hfilter]; exact hno)

/-! ### A server with tools and one resource -/

private def libraryServer : ServerContext CapabilityConfig where
  id := "1"
  serverID := "library"
  serverEntity :=
    { serverId := "library", serverName := "Library", enabled := true, capabilities := .empty
      allowUserInput := false, configTemplate := none, authType := 0, category := 0
      publicAccess := true, anonymousAccess := false, cached := .none }
  status := .online
  capabilities := some ⟨none, some ⟨none, some true⟩, false, false⟩
  capabilitiesConfig := .empty
  lists := ⟨none, some [⟨"a", "file:///a", none⟩], none, none⟩
  cached := .none
  userId := none

private def libraryManager : ServerManager CapabilityConfig :=
  ⟨Dict.empty.set "library" libraryServer, .empty⟩

private def libraryGateway : SubscriptionGateway :=
  ⟨libraryManager, fun _ => some .legacy, .empty, 0⟩

private def librarySubscriber : ModernSubscriber where
  userId := "u1"
  subscriptionId := "r1:1"
  resolveResourceUriForSubscription _ _ := some ⟨"library", "file:///a"⟩
  canAccessResourceById _ _ := true
  awaited _ := ⟨.ok (), id⟩
  afterwards _ := id

private def libraryContext : ModernRequestContext :=
  ⟨⟨false, "u1", .empty, .empty⟩, none, none, none, none⟩

private def libraryRequest : SubscriptionListenRequest :=
  ⟨some (.str "1"), some [("notifications", .obj [("toolsListChanged", .bool true),
    ("resourceSubscriptions", .arr [.str "file:///a"])])]⟩

private def libraryStream : SubscriptionStream :=
  opened libraryContext
    ⟨[toolsListChangedMethod, resourcesUpdatedMethod], [], ["file:///a"],
      [("toolsListChanged", .bool true), ("resourceSubscriptions", .arr [.str "file:///a"])]⟩
    ⟨true, false, false, ["file:///a"]⟩ (.str "1") 0

private def toolsEvent : ModernSubscriptionEvent :=
  ⟨toolsListChangedMethod, some "library", none, none, [("serverId", .str "library")]⟩

private def updatedEvent : ModernSubscriptionEvent :=
  ⟨resourcesUpdatedMethod, some "library", some "1", some "file:///a",
    [("serverId", .str "library"), ("uri", .str "file:///a")]⟩

private theorem library_listen : handleSubscriptionListen librarySubscriber libraryGateway []
    libraryContext ⟨true, false, false⟩ 0 libraryRequest = some (.ok libraryStream) := by
  rfl

theorem acknowledged_delivered_iff_library :
    (libraryStream.deliver libraryManager updatedEvent).written = libraryStream.written ++
        [eventMessage libraryManager "u1" (.str "1") updatedEvent] ↔
      updatedEvent.method = resourcesUpdatedMethod ∨ libraryStream.filter.resourceUris = [] := by
  have hrun : IsRun step libraryStream [⟨libraryStream, .publish libraryManager updatedEvent,
      libraryStream.deliver libraryManager updatedEvent⟩]
      (libraryStream.deliver libraryManager updatedEvent) := ⟨rfl, rfl, rfl⟩
  exact (acknowledged_delivered_iff library_listen hrun (List.mem_singleton_self _) rfl
    (.updated _ _ _ _) rfl rfl).1
    (.inr (.inr (.inr ⟨rfl, "file:///a", by decide, by decide⟩))) rfl rfl

/-- The tools of the server change while the request has a resource as well. -/
theorem tools_event_dropped : ¬ ∀ (r : ModernSubscriber) (g : SubscriptionGateway)
    (turns : List Turn) (context : ModernRequestContext) (capabilities : ListChanged) (now : Int)
    (request : SubscriptionListenRequest) (stream s : SubscriptionStream)
    (trs : List (Transition SubscriptionStream StreamAction))
    (tr : Transition SubscriptionStream StreamAction) (m : ServerManager CapabilityConfig)
    (event : ModernSubscriptionEvent),
    handleSubscriptionListen r g turns context capabilities now request = some (.ok stream) →
    IsRun step stream trs s → tr ∈ trs → tr.act = .publish m event → IsPublished event →
    tr.pre.closed = none →
    IsAcknowledged stream.acknowledged m context.authContext.userId event →
    passesServers stream.filter event = true →
    canReceiveSubscriptionEvent m context.authContext event = true →
    tr.post.written = tr.pre.written ++
      [eventMessage m context.authContext.userId stream.subscriptionId event] := by
  intro h
  have hwritten := h _ _ _ _ _ _ _ _ _ [⟨libraryStream, .publish libraryManager toolsEvent,
    libraryStream.deliver libraryManager toolsEvent⟩] _ libraryManager toolsEvent library_listen
    ⟨rfl, rfl, rfl⟩ (List.mem_singleton_self _) rfl (.listChanged _ _ _ (.inl rfl)) rfl
    (.inl ⟨rfl, rfl⟩) rfl rfl
  have hlength := congrArg List.length hwritten
  revert hlength
  decide

end SubscriptionStream

end PetaCore
