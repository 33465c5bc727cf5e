import PetaCore.Core.SubscriptionListen
import PetaCore.ForStd.Run

/-!
# A closed listener leaves nothing behind

What a `subscriptions/listen` request has acquired is released by its `close` handler, or by the
`catch` around its subscriptions. The handler is attached at the end, so a client that has gone
before that is not noticed.

Key results:
- `RequestOk.step`: what a request holds at each stage
- `closed_listener_leaves_nothing`: a request whose client has gone holds nothing, in every run in
  which no stream is opened for a client that has gone
- `early_close_leaves_listener`: a client that goes during the subscriptions leaves the listener
-/

namespace PetaCore

open Run

namespace ListenRequest

variable {subscriptions : List ModernResourceSubscription}

/-- The keys of a list of subscriptions. -/
def keys (subscriptions : List ModernResourceSubscription) : List (String × String) :=
  subscriptions.map (·.key)

/-- What a request holds at its stage. -/
def Recorded (r : ListenRequest) : Prop :=
  match r.stage with
  | .subscribing _ subscriptions => ∀ key ∈ r.recorded, key ∈ keys subscriptions
  | .awaiting subscription alreadySubscribed _ subscriptions =>
    (∀ key ∈ r.recorded, key ∈ keys subscriptions ∨ key = subscription.key) ∧
      (alreadySubscribed = true → subscription.key ∈ keys subscriptions)
  | .streaming subscriptions =>
    (∀ key ∈ r.recorded, key ∈ keys subscriptions) ∧ r.clientGone = false
  | .cleaning _ | .threw _ | .closed => ∀ key ∈ r.recorded, key ∈ r.releases

/-- The stream is open. -/
def isStreaming (r : ListenRequest) : Bool :=
  match r.stage with
  | .streaming _ => true
  | _ => false

/-- The handling of the request has finished. -/
def isHandled (r : ListenRequest) : Bool :=
  match r.stage with
  | .streaming _ | .closed | .threw _ => true
  | .subscribing _ _ | .awaiting _ _ _ _ | .cleaning _ => false

theorem recorded_init (updated : Bool) (resourceUris : List String) :
    (init updated resourceUris).Recorded := by
  simp [Recorded, init]

variable {r : ListenRequest}

/-- The `catch` releases what is in the list of subscriptions. -/
theorem Recorded.rethrow (h : ∀ key ∈ r.recorded, key ∈ keys subscriptions)
    (error : String) : (r.rethrow subscriptions error).Recorded := by
  intro key hkey
  exact List.mem_append_right r.releases (h key hkey)

variable {resourceUris : List String}

theorem Recorded.subscribeUri {uri : String}
    (h : r.Recorded) (hstage : r.stage = .subscribing (uri :: resourceUris) subscriptions)
    (route : SubscriptionRoute) :
    (r.subscribeUri uri resourceUris subscriptions route).Recorded := by
  simp only [Recorded, hstage] at h
  cases route with
  | invalid | denied => exact Recorded.rethrow h _
  | skipped => exact h
  | subscribes serverId originalName =>
    simp only [Recorded, ListenRequest.subscribeUri]
    constructor
    · intro key hkey
      split at hkey
      · exact Or.inl (h key hkey)
      · rcases List.mem_append.mp hkey with hold | hnew
        · exact Or.inl (h key hold)
        · exact Or.inr (List.mem_singleton.mp hnew)
    · intro halready
      exact h _ (by simpa using halready)

theorem Recorded.subscribed {subscription : ModernResourceSubscription}
    {alreadySubscribed : Bool} (h : r.Recorded)
    (hstage : r.stage = .awaiting subscription alreadySubscribed resourceUris subscriptions) :
    Recorded { r with stage := .subscribing resourceUris (subscriptions ++ [subscription]) } := by
  simp only [Recorded, hstage] at h ⊢
  intro key hkey
  simp only [keys, List.map_append, List.mem_append, List.map_cons, List.map_nil,
    List.mem_singleton]
  exact h.1 key hkey

theorem Recorded.subscribeFails {subscription : ModernResourceSubscription}
    {alreadySubscribed : Bool} (h : r.Recorded)
    (hstage : r.stage = .awaiting subscription alreadySubscribed resourceUris subscriptions)
    (error : String) :
    (r.subscribeFails subscription alreadySubscribed subscriptions error).Recorded := by
  simp only [Recorded, hstage] at h
  obtain ⟨hrecorded, halready⟩ := h
  apply Recorded.rethrow
  intro key hkey
  have hkey' : key ∈ (if alreadySubscribed = true then r.recorded
      else r.recorded.filter fun key => key ≠ subscription.key) := hkey
  split at hkey'
  · next hthere =>
    -- the subscription was made for an earlier URI, and is in the list
    rcases hrecorded key hkey' with hmem | rfl
    · exact hmem
    · exact halready hthere
  · obtain ⟨hmem, hne⟩ := List.mem_filter.mp hkey'
    rcases hrecorded key hmem with hmem | rfl
    · exact hmem
    · simp at hne

end ListenRequest

namespace ListenState

variable {s : ListenState}

/-- A request with its listener and its timers: it has them as long as its stream is open. -/
structure RequestOk (s : ListenState) (i : Nat) (r : ListenRequest) : Prop where
  recorded : r.Recorded
  listener : i ∈ s.listeners → r.isStreaming = true
  heartbeat : r.heartbeat = true → r.isStreaming = true
  authExpiryTimer : r.authExpiryTimer = true → r.isStreaming = true

structure Ok (s : ListenState) : Prop where
  requests : ∀ i r, s.requests.get? i = some r → RequestOk s i r
  nodup : s.listeners.Nodup
  known : ∀ i ∈ s.listeners, i < s.requests.next

theorem ok_init : Ok init := by
  constructor
  all_goals simp [init]

variable {r : ListenRequest}

/-- A request goes on, without a stream before or after. -/
theorem Ok.setRequest (h : Ok s) {i : Nat} (hr : s.requests.get? i = some r)
    (hbefore : r.isStreaming = false) (r' : ListenRequest) (hrecorded : r'.Recorded)
    (hheartbeat : r'.heartbeat = r.heartbeat) (htimer : r'.authExpiryTimer = r.authExpiryTimer) :
    Ok (s.setRequest i r') := by
  have hok := h.requests i r hr
  constructor
  case requests =>
    intro j q hq
    have hq' : (s.requests.put i r').get? j = some q := hq
    rw [Table.get?_put hr] at hq'
    split at hq'
    · next hji =>
      subst hji
      cases hq'
      refine ⟨hrecorded, ?_, ?_, ?_⟩
      · intro hlistener
        simp [hok.listener hlistener] at hbefore
      · intro hbeat
        rw [hheartbeat] at hbeat
        simp [hok.heartbeat hbeat] at hbefore
      · intro hexpiry
        rw [htimer] at hexpiry
        simp [hok.authExpiryTimer hexpiry] at hbefore
    · have hold := h.requests j q hq'
      exact ⟨hold.recorded, hold.listener, hold.heartbeat, hold.authExpiryTimer⟩
  case nodup => exact h.nodup
  case known =>
    intro j hj
    show j < (s.requests.put i r').next
    rw [Table.next_put]
    exact h.known j hj

theorem Ok.listen (h : Ok s) (updated : Bool) (resourceUris : List String) :
    Ok { s with requests := s.requests.add (.init updated resourceUris) } := by
  constructor
  case requests =>
    intro j q hq
    rcases Table.get?_add_eq_some.mp hq with ⟨rfl, rfl⟩ | hold
    · refine ⟨ListenRequest.recorded_init updated resourceUris, ?_, ?_, ?_⟩
      · intro hlistener
        have hlt := h.known _ hlistener
        omega
      · intro hbeat
        cases hbeat
      · intro hexpiry
        cases hexpiry
    · have hok := h.requests j q hold
      exact ⟨hok.recorded, hok.listener, hok.heartbeat, hok.authExpiryTimer⟩
  case nodup => exact h.nodup
  case known =>
    intro j hj
    have hlt := h.known j hj
    show j < (s.requests.add (.init updated resourceUris)).next
    rw [Table.next_add]
    omega

/-- The stream is opened for a client that is there. -/
theorem Ok.finish (h : Ok s) {i : Nat}
    {subscriptions : List ModernResourceSubscription} (hr : s.requests.get? i = some r)
    (hstage : r.stage = .subscribing [] subscriptions) (hclient : r.clientGone = false)
    (authExpiry : Bool) : Ok (s.finish i r subscriptions authExpiry) := by
  have hok := h.requests i r hr
  have hnew : i ∉ s.listeners := by
    intro hmem
    have hstreaming := hok.listener hmem
    simp [ListenRequest.isStreaming, hstage] at hstreaming
  have hlt : i < s.requests.next := Table.lt_next_of_get? hr
  constructor
  case requests =>
    intro j q hq
    have hq' : (s.requests.put i _).get? j = some q := hq
    rw [Table.get?_put hr] at hq'
    split at hq'
    · cases hq'
      have hrecorded := hok.recorded
      simp only [ListenRequest.Recorded, hstage] at hrecorded
      exact ⟨⟨hrecorded, hclient⟩, fun _ => rfl, fun _ => rfl, fun _ => rfl⟩
    · next hji =>
      have hold := h.requests j q hq'
      refine ⟨hold.recorded, ?_, hold.heartbeat, hold.authExpiryTimer⟩
      intro hmem
      rcases List.mem_append.mp hmem with hmem | hmem
      · exact hold.listener hmem
      · exact absurd (List.mem_singleton.mp hmem) hji
  case nodup =>
    show (s.listeners ++ [i]).Nodup
    rw [List.nodup_append]
    refine ⟨h.nodup, by simp, ?_⟩
    intro j hj k hk
    obtain rfl := List.mem_singleton.mp hk
    rintro rfl
    exact hnew hj
  case known =>
    intro j hj
    show j < (s.requests.put i _).next
    rw [Table.next_put]
    rcases List.mem_append.mp hj with hmem | hmem
    · exact h.known j hmem
    · obtain rfl := List.mem_singleton.mp hmem
      exact hlt

/-- A stream is closed. -/
theorem Ok.closeSubscription (h : Ok s) {i : Nat} {r' : ListenRequest}
    {subscriptions : List ModernResourceSubscription} (hr : s.requests.get? i = some r)
    (hstage : r.stage = .streaming subscriptions) (hrecorded : r'.recorded = r.recorded) :
    Ok (s.closeSubscription i r' subscriptions) := by
  have hok := h.requests i r hr
  constructor
  case requests =>
    intro j q hq
    have hq' : (s.requests.put i _).get? j = some q := hq
    rw [Table.get?_put hr] at hq'
    split at hq'
    · next hji =>
      subst hji
      cases hq'
      have hheld := hok.recorded
      simp only [ListenRequest.Recorded, hstage] at hheld
      refine ⟨?_, ?_, by simp, by simp⟩
      · intro key hkey
        have hkey' : key ∈ r'.recorded := hkey
        rw [hrecorded] at hkey'
        exact List.mem_append_right r'.releases (hheld.1 key hkey')
      · intro hmem
        exact absurd hmem h.nodup.not_mem_erase
    · have hold := h.requests j q hq'
      exact ⟨hold.recorded, fun hmem => hold.listener (List.mem_of_mem_erase hmem), hold.heartbeat,
        hold.authExpiryTimer⟩
  case nodup => exact h.nodup.erase i
  case known =>
    intro j hj
    show j < (s.requests.put i _).next
    rw [Table.next_put]
    exact h.known j (List.mem_of_mem_erase hj)

/-! ## The steps -/

/-- The condition on a step: no stream is opened for a client that has gone. -/
def inOrder (s : ListenState) : ListenAction → Bool
  | .finish i _ => (s.requests.get? i).all fun r => !r.clientGone
  | _ => true

theorem Ok.clientCloses {s s' : ListenState} (h : Ok s) {i : Nat} (hr : s.requests.get? i = some r)
    (hstep : (match r.stage with
      | .streaming subscriptions =>
        some (s.closeSubscription i { r with clientGone := true } subscriptions)
      | _ => some (s.setRequest i { r with clientGone := true })) = some s') : Ok s' := by
  have hok := h.requests i r hr
  split at hstep
  · next subscriptions hstage =>
    cases hstep
    exact h.closeSubscription hr hstage rfl
  · next hstage =>
    cases hstep
    have hbefore : r.isStreaming = false := by
      unfold ListenRequest.isStreaming
      split
      · next subscriptions hstreaming => exact absurd hstreaming (hstage subscriptions)
      · rfl
    refine h.setRequest hr hbefore { r with clientGone := true } ?_ rfl rfl
    have hrecorded := hok.recorded
    unfold ListenRequest.Recorded at hrecorded ⊢
    cases hcase : r.stage with
    | streaming subscriptions => exact absurd hcase (hstage subscriptions)
    | subscribing _ _ | cleaning _ | threw _ | closed => simpa only [hcase] using hrecorded
    | awaiting subscription alreadySubscribed resourceUris subscriptions =>
      simpa only [hcase] using hrecorded

theorem Ok.step {s s' : ListenState} {a : ListenAction} (h : Ok s) (hstep : s.step a = some s')
    (horder : s.inOrder a = true) : Ok s' := by
  cases a with
  | listen updated resourceUris =>
    cases hstep
    exact h.listen updated resourceUris
  | route i route =>
    obtain ⟨r, hr, hstep⟩ := Option.bind_eq_some_iff.mp hstep
    split at hstep
    · next uri resourceUris subscriptions hstage =>
      cases hstep
      have hrecorded := (h.requests i r hr).recorded.subscribeUri hstage route
      apply h.setRequest hr _ _ hrecorded
      · cases route <;> rfl
      · cases route <;> rfl
      · simp [ListenRequest.isStreaming, hstage]
    · cases hstep
  | subscribed i =>
    obtain ⟨r, hr, hstep⟩ := Option.bind_eq_some_iff.mp hstep
    split at hstep
    · next hstage =>
      cases hstep
      apply h.setRequest hr _ _ ((h.requests i r hr).recorded.subscribed hstage) rfl rfl
      simp [ListenRequest.isStreaming, hstage]
    · cases hstep
  | subscribeFails i error =>
    obtain ⟨r, hr, hstep⟩ := Option.bind_eq_some_iff.mp hstep
    split at hstep
    · next hstage =>
      cases hstep
      apply h.setRequest hr _ _ ((h.requests i r hr).recorded.subscribeFails hstage error) rfl rfl
      simp [ListenRequest.isStreaming, hstage]
    · cases hstep
  | cleaned i =>
    obtain ⟨r, hr, hstep⟩ := Option.bind_eq_some_iff.mp hstep
    split at hstep
    · next error hstage =>
      cases hstep
      have hrecorded := (h.requests i r hr).recorded
      simp only [ListenRequest.Recorded, hstage] at hrecorded
      apply h.setRequest hr _ { r with stage := .threw error } hrecorded rfl rfl
      simp [ListenRequest.isStreaming, hstage]
    · cases hstep
  | finish i authExpiry =>
    obtain ⟨r, hr, hstep⟩ := Option.bind_eq_some_iff.mp hstep
    split at hstep
    · next subscriptions hstage =>
      cases hstep
      have hclient : r.clientGone = false := by simpa [inOrder, hr] using horder
      exact h.finish hr hstage hclient authExpiry
    · cases hstep
  | authExpires i =>
    obtain ⟨r, hr, hstep⟩ := Option.bind_eq_some_iff.mp hstep
    split at hstep
    · next hstage _ =>
      cases hstep
      exact h.closeSubscription hr hstage rfl
    · cases hstep
  | clientCloses i =>
    obtain ⟨r, hr, hstep⟩ := Option.bind_eq_some_iff.mp hstep
    split at hstep
    · cases hstep
    · exact h.clientCloses hr hstep

/-! ## Runs -/

theorem ok_of_isRun {trs : List (Transition ListenState ListenAction)}
    (hrun : IsRun step init trs s) (horder : ∀ tr ∈ trs, tr.pre.inOrder tr.act = true) : Ok s := by
  apply hrun.history_of (G := fun tr => tr.pre.inOrder tr.act = true) (P := fun _ s => Ok s)
  · exact ok_init
  · intro _ _ _ _ _ hok hstep hin
    exact hok.step hstep hin
  · exact horder

/-- A closed listener leaves nothing behind: when its handling has finished and the client has gone,
    a request has no listener on the bus and no timer, and has tried to release each subscription
    that is recorded under its subscription id. -/
theorem closed_listener_leaves_nothing {s : ListenState}
    {trs : List (Transition ListenState ListenAction)} (hrun : IsRun step init trs s)
    (horder : ∀ tr ∈ trs, tr.pre.inOrder tr.act = true) {i : Nat} {r : ListenRequest}
    (hr : s.requests.get? i = some r) (hhandled : r.isHandled = true)
    (hgone : r.clientGone = true) :
    i ∉ s.listeners ∧ r.heartbeat = false ∧ r.authExpiryTimer = false ∧
      ∀ key ∈ r.recorded, key ∈ r.releases := by
  have hok := (ok_of_isRun hrun horder).requests i r hr
  have hrecorded := hok.recorded
  -- the stream is not open any more
  have hclosed : r.isStreaming = false ∧ ∀ key ∈ r.recorded, key ∈ r.releases := by
    unfold ListenRequest.Recorded at hrecorded
    cases hstage : r.stage with
    | streaming subscriptions =>
      simp only [hstage, hgone] at hrecorded
      exact absurd hrecorded.2 (by decide)
    | subscribing _ _ | cleaning _ => simp [ListenRequest.isHandled, hstage] at hhandled
    | awaiting subscription alreadySubscribed resourceUris subscriptions =>
      simp [ListenRequest.isHandled, hstage] at hhandled
    | threw _ | closed =>
      simp only [hstage] at hrecorded
      exact ⟨by simp [ListenRequest.isStreaming, hstage], hrecorded⟩
  refine ⟨?_, ?_, ?_, hclosed.2⟩
  · intro hmem
    simp [hok.listener hmem] at hclosed
  · rw [← Bool.not_eq_true]
    intro hbeat
    simp [hok.heartbeat hbeat] at hclosed
  · rw [← Bool.not_eq_true]
    intro hexpiry
    simp [hok.authExpiryTimer hexpiry] at hclosed

/-- Two streams, one of which the client closes; a third request fails at its second URI. -/
def listenActions : List ListenAction :=
  [.listen true ["file:///a", "file:///b"], .route 0 (.subscribes "files" "file:///a"),
    .listen false [], .subscribed 0, .route 0 .skipped, .finish 0 true, .finish 1 false,
    .listen true ["file:///a", "file:///c"], .route 2 (.subscribes "files" "file:///a"),
    .subscribed 2, .clientCloses 2, .route 2 .denied, .cleaned 2, .clientCloses 0]

theorem closed_listener_leaves_nothing_listenActions :
    ∃ s r, exec step init listenActions = some s ∧ s.requests.get? 0 = some r ∧
      0 ∉ s.listeners ∧ r.heartbeat = false ∧ r.authExpiryTimer = false ∧
        ∀ key ∈ r.recorded, key ∈ r.releases := by
  have hrun : IsRun step init (trace step init listenActions)
      ((exec step init listenActions).get (by decide)) := isRun_trace _ _ _ (by simp)
  refine ⟨(exec step init listenActions).get (by decide),
    (((exec step init listenActions).get (by decide)).requests.get? 0).get (by decide),
    by simp, by simp, ?_⟩
  exact closed_listener_leaves_nothing hrun (by decide) (by simp) (by decide) (by decide)

/-- The client goes while the request subscribes. -/
def earlyCloseActions : List ListenAction :=
  [.listen true ["file:///a"], .route 0 (.subscribes "files" "file:///a"), .clientCloses 0,
    .subscribed 0, .finish 0 false]

theorem early_close_leaves_listener :
    ¬ ∀ (s : ListenState) (trs : List (Transition ListenState ListenAction)),
      IsRun step init trs s → ∀ (i : Nat) (r : ListenRequest), s.requests.get? i = some r →
      r.isHandled = true → r.clientGone = true →
      i ∉ s.listeners ∧ r.heartbeat = false ∧ r.authExpiryTimer = false ∧
        ∀ key ∈ r.recorded, key ∈ r.releases := by
  intro h
  have hrun : IsRun step init (trace step init earlyCloseActions)
      ((exec step init earlyCloseActions).get (by decide)) := isRun_trace _ _ _ (by simp)
  have hlistener := (h _ _ hrun 0
    ((((exec step init earlyCloseActions).get (by decide)).requests.get? 0).get (by decide))
    (by simp) (by decide) (by decide)).1
  revert hlistener
  decide

end ListenState

end PetaCore
