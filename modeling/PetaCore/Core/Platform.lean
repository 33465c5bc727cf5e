import PetaCore.Core.CapabilitySystem
import PetaCore.Core.ClientSession
import PetaCore.Core.ToolCall

/-!
# Tool calls under changing capability configuration

The two systems side by side: administrators and users change configuration, permissions
and preferences while tool calls are made. They meet where a call takes the danger level
that it evaluates the policies with.
-/

namespace PetaCore

namespace CapabilityState

/-- A session of a user, with the permissions and preferences of the user's row. -/
def session (s : CapabilityState) (userId : String) : Option ClientSession :=
  (s.users.get? userId).map fun user =>
    ⟨false, userId, user.permissions, user.userPreferences.getD .empty⟩

/-- The danger level of `handleToolCall` and `callTool`: the user's, or else the server's, or
    else `Silent`. There is none when the server has no context. -/
def dangerLevel (s : CapabilityState) (userId : String) (route : Route) : Option DangerLevel := do
  let session ← s.session userId
  let c ← s.view.getServerContext route.serverId (some userId)
  return ((session.getDangerLevel route.serverId route.toolName).or
    (c.getDangerLevel route.toolName)).getD .silent

end CapabilityState

structure Platform where
  capabilities : CapabilityState
  gateway : Gateway

inductive PlatformAction where
  | capability (a : CapabilityAction)
  | gateway (a : GatewayAction)

namespace Platform

def init (clock : Timestamp) : Platform := ⟨.init, .init clock⟩

/-- The danger level a call is about to be decided with is that of its user. -/
def usesDangerLevel (p : Platform) : GatewayAction → Bool
  | .call i (.resolve route level) =>
    match p.gateway.calls[i]? with
    | none => false
    | some c => p.capabilities.dangerLevel c.request.userId route == some level
  | _ => true

/-- One step; `none` when the action is not enabled. -/
def step (rt : DslRuntime) (sha256 : String → String) (p : Platform) :
    PlatformAction → Option Platform
  | .capability a => do
    let s ← p.capabilities.step a
    return { p with capabilities := s }
  | .gateway a =>
    if p.usesDangerLevel a then do
      let g ← p.gateway.step rt sha256 a
      return { p with gateway := g }
    else none

end Platform

end PetaCore
