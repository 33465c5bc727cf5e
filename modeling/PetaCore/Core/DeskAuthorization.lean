import PetaCore.Core.OAuth
import PetaCore.ForStd.Table

/-!
# DeskAuthorization

The authorization flows that Peta Desk completes without a browser tab. A flow is created when the
authorization page is shown, completed by a callback of Desk and polled by the page. Its id is its
number in the table of flows.
-/

namespace PetaCore

inductive DeskFlowStatus where
  | pending
  | completed
  | failed
  | expired
deriving DecidableEq

/-- The text of a status. -/
def DeskFlowStatus.text : DeskFlowStatus → String
  | pending => "pending"
  | completed => "completed"
  | failed => "failed"
  | expired => "expired"

/-- `DeskAuthorizationFlow` -/
structure DeskFlow where
  issuer : String
  params : AuthorizationParams
  status : DeskFlowStatus
  expiresAt : Nat
  redirect : Option Redirect
  error : Option String
  errorDescription : Option String
deriving DecidableEq

/-- What a callback answers. -/
inductive DeskAnswer where
  | completed
  | failed (error errorDescription : String)
deriving DecidableEq

/-- What a callback awaits. -/
inductive DeskStage where
  /-- `validateToken` -/
  | validating
  /-- `getAuthorizationClient` -/
  | lookingUp (userId : String)
  /-- the code is being created -/
  | creating (row : AuthorizationCode)
  /-- the redirect of `completeAuthorizationGrant` -/
  | granted (redirect : Redirect)
  | answered (answer : DeskAnswer)
deriving DecidableEq

/-- A callback, with the URLs that are read off its request. -/
structure DeskCallback where
  flowId : Nat
  params : AuthorizationParams
  issuer : String
  publicUrl : String
  stage : DeskStage
deriving DecidableEq

/-- The flows, the callbacks, and the codes that have been created, each with the id of its flow. -/
structure DeskState where
  flows : Table DeskFlow
  callbacks : Table DeskCallback
  codes : List (Nat × AuthorizationCode)
  now : Nat
deriving DecidableEq

inductive DeskAction where
  /-- `showAuthorizePage` -/
  | showPage (flowId : Option Nat) (params : AuthorizationParams) (issuer : String)
  /-- `deskAuthorizationStatus` -/
  | poll (flowId : Nat)
  | callback (flowId : Nat) (userToken issuer publicUrl : String)
  /-- `validateToken` has returned, or thrown -/
  | validated (callback : Nat) (userId : Option String)
  | clientFound (callback : Nat) (client : Option OAuthClient) (code : String)
  | clientFails (callback : Nat) (message : String)
  | created (callback : Nat)
  | createFails (callback : Nat) (message : String)
  /-- the callback goes on with its redirect -/
  | complete (callback : Nat)
  | tick (time : Nat)
deriving DecidableEq

namespace DeskState

/-- `ttlMs` -/
def ttlMs : Nat := 5 * 60 * 1000

def init (now : Nat) : DeskState := ⟨.empty, .empty, [], now⟩

/-- A flow, expired if its time has come. -/
def expire (now : Nat) (flow : DeskFlow) : DeskFlow :=
  if flow.status = .pending ∧ flow.expiresAt ≤ now then
    { flow with
      status := .expired
      error := some "expired"
      errorDescription := some "Authorization flow has expired" }
  else flow

/-- `getFlow` -/
def getFlow (s : DeskState) (flowId : Nat) : DeskState :=
  match s.flows.get? flowId with
  | none => s
  | some flow => { s with flows := s.flows.put flowId (expire s.now flow) }

/-- `completeFlow` -/
def completeFlow (s : DeskState) (flowId : Nat) (redirect : Redirect) : DeskState :=
  let s := s.getFlow flowId
  match s.flows.get? flowId with
  | none => s
  | some flow =>
    if flow.status = .pending then
      { s with
        flows := s.flows.put flowId { flow with status := .completed, redirect := some redirect } }
    else s

/-- `failFlow` -/
def failFlow (s : DeskState) (flowId : Nat) (error errorDescription : String) : DeskState :=
  let s := s.getFlow flowId
  match s.flows.get? flowId with
  | none => s
  | some flow =>
    if flow.status = .pending then
      { s with
        flows := s.flows.put flowId
          { flow with
            status := .failed
            error := some error
            errorDescription := some errorDescription } }
    else s

/-- The flows that `cleanupExpired` deletes: not those that expire now, and no completed one. -/
def isOld (now : Nat) (flow : DeskFlow) : Bool :=
  !(flow.status = .pending && flow.expiresAt ≤ now) &&
    (flow.expiresAt + ttlMs ≤ now && flow.status ≠ .completed)

/-- `cleanupExpired` -/
def cleanupExpired (s : DeskState) : DeskState :=
  { s with flows := (s.flows.eraseIf (isOld s.now)).map (expire s.now) }

/-- `createFlow` -/
def createFlow (s : DeskState) (params : AuthorizationParams) (issuer : String) : DeskState :=
  let s := s.cleanupExpired
  { s with
    flows := s.flows.add
      { issuer
        params
        status := .pending
        expiresAt := s.now + ttlMs
        redirect := none
        error := none
        errorDescription := none } }

/-- Whether `getReusableFlow` returns the flow, once it has been expired if its time has come. -/
def isReusable (flow : DeskFlow) (params : AuthorizationParams) (issuer : String) : Bool :=
  (flow.status = .pending || flow.status = .completed) && flow.issuer = issuer &&
    flow.params = params

/-- The flow of `showAuthorizePage`. -/
def showPage (s : DeskState) (flowId : Option Nat) (params : AuthorizationParams)
    (issuer : String) : DeskState :=
  match flowId with
  | none => s.createFlow params issuer
  | some flowId =>
    let s := s.getFlow flowId
    match s.flows.get? flowId with
    | none => s.createFlow params issuer
    | some flow => if isReusable flow params issuer then s else s.createFlow params issuer

def addCallback (s : DeskState) (flowId : Nat) (params : AuthorizationParams)
    (issuer publicUrl : String) (stage : DeskStage) : DeskState :=
  { s with callbacks := s.callbacks.add ⟨flowId, params, issuer, publicUrl, stage⟩ }

/-- The parameters of a callback that has no flow. -/
def noParams : AuthorizationParams := ⟨"", "", none, none, none, none, none⟩

/-- `deskAuthorizationCallback` up to its first await. -/
def callback (s : DeskState) (flowId : Nat) (userToken issuer publicUrl : String) : DeskState :=
  let s := s.getFlow flowId
  match s.flows.get? flowId with
  | none =>
    s.addCallback flowId noParams issuer publicUrl
      (.answered (.failed "invalid_flow" "Authorization flow not found"))
  | some flow =>
    let add (s : DeskState) := s.addCallback flowId flow.params issuer publicUrl
    match flow.status with
    | .completed => add s (.answered .completed)
    | .pending =>
      if userToken = "" then
        add (s.failFlow flowId "invalid_request" "User token is required")
          (.answered (.failed "invalid_request" "User token is required"))
      else add s .validating
    | .failed | .expired =>
      add s (.answered (.failed (flow.error.getD flow.status.text)
        (flow.errorDescription.getD "Authorization flow is not pending")))

def setStage (s : DeskState) (i : Nat) (c : DeskCallback) (stage : DeskStage) : DeskState :=
  { s with callbacks := s.callbacks.put i { c with stage := stage } }

/-- The callback fails its flow and answers with the error. -/
def fail (s : DeskState) (i : Nat) (c : DeskCallback) (answer : String × String) : DeskState :=
  (s.failFlow c.flowId answer.1 answer.2).setStage i c (.answered (.failed answer.1 answer.2))

/-- `completeAuthorizationGrant`, when the client has been looked up. -/
def clientFound (rt : UrlRuntime) (s : DeskState) (i : Nat) (c : DeskCallback) (userId : String)
    (client : Option OAuthClient) (code : String) : DeskState :=
  match OAuth.checkClient rt c.params client with
  | .error message => s.fail i c (OAuth.errorAnswer message)
  | .ok client =>
    match OAuth.grant client c.params userId code c.publicUrl s.now with
    | .error redirect => s.setStage i c (.granted redirect)
    | .ok row => s.setStage i c (.creating row)

def step (rt : UrlRuntime) (s : DeskState) : DeskAction → Option DeskState
  | .showPage flowId params issuer => some (s.showPage flowId params issuer)
  | .poll flowId => some (s.getFlow flowId)
  | .callback flowId userToken issuer publicUrl =>
    some (s.callback flowId userToken issuer publicUrl)
  | .validated i userId => do
    let c ← s.callbacks.get? i
    match c.stage, userId with
    | .validating, some userId => some (s.setStage i c (.lookingUp userId))
    | .validating, none => some (s.fail i c ("invalid_request", "Invalid user token"))
    | _, _ => none
  | .clientFound i client code => do
    let c ← s.callbacks.get? i
    match c.stage with
    | .lookingUp userId => some (s.clientFound rt i c userId client code)
    | _ => none
  | .clientFails i message => do
    let c ← s.callbacks.get? i
    match c.stage with
    | .lookingUp _ => some (s.fail i c (OAuth.errorAnswer message))
    | _ => none
  | .created i => do
    let c ← s.callbacks.get? i
    match c.stage with
    | .creating row =>
      some ({ s with codes := s.codes ++ [(c.flowId, row)] }.setStage i c
        (.granted (OAuth.successRedirect c.params c.issuer row)))
    | _ => none
  | .createFails i message => do
    let c ← s.callbacks.get? i
    match c.stage with
    | .creating _ => some (s.fail i c (OAuth.errorAnswer message))
    | _ => none
  | .complete i => do
    let c ← s.callbacks.get? i
    match c.stage with
    | .granted redirect =>
      some ((s.completeFlow c.flowId redirect).setStage i c (.answered .completed))
    | _ => none
  | .tick time => some { s with now := s.now + time }

end DeskState

end PetaCore
