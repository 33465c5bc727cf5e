import PetaCore.Core.ModernMcpController
import PetaCore.Spec.ClientSession

/-!
# The checks of the two endpoints agree

The session endpoint looks a server up by its id and then checks, the sessionless one checks the
context it is given. On a server without user input both come to the same decision.

## Key results

- `modern_checks_eq_legacy`: the checks on a server and on its tools, resources and prompts
-/

namespace PetaCore

open Run CapabilityState

section

variable {m : ServerManager CapabilityConfig} {authContext : AuthContext} {serverID : String}
  {c : ServerContext CapabilityConfig}

/-- The checks on the server itself. -/
theorem modern_canAccessServer_eq
    (hc : m.getServerContext serverID (some authContext.userId) = some c)
    (hid : c.serverID = serverID) (hinput : c.serverEntity.allowUserInput = false) :
    ClientSession.canAccessServer m ⟨authContext⟩ serverID =
      ModernMcpController.canAccessServer authContext c := by
  rw [canAccessServer_of_context hc]
  unfold ModernMcpController.canAccessServer
  simp only [ClientSession.canAccessServerContext, hinput, hid, ClientSession.permissions,
    ClientSession.userPreferences, Bool.false_eq_true, if_false]

/-- The checks on an item. -/
theorem modern_canUse_eq (kind : CapabilityKind)
    (hc : m.getServerContext serverID (some authContext.userId) = some c)
    (hid : c.serverID = serverID) (hinput : c.serverEntity.allowUserInput = false)
    (name : String) :
    ClientSession.canUse kind m ⟨authContext⟩ serverID name =
      ModernMcpController.canUse kind authContext c name := by
  rw [canUse_eq kind hc, modern_canAccessServer_eq hc hid hinput]
  unfold ModernMcpController.canUse ModernMcpController.canAccessCapability
  cases ModernMcpController.canAccessServer authContext c with
  | false => rfl
  | true =>
    cases (c.configEnabled kind name).getD true with
    | false => simp [hinput]
    | true =>
      -- a permission that is missing counts as given on both sides
      simp only [ClientSession.canUseByServerContext, hinput, ClientSession.permissions,
        ClientSession.userPreferences]
      obtain hperm | ⟨enabled, hperm⟩ :=
        Option.eq_none_or_eq_some (authContext.permissions.itemEnabled c.serverID kind name)
      · simp [hperm]
      · cases enabled with
        | false => simp [hperm]
        | true => simp [hperm]

end

/-- In every state that is reached, on every managed server without user input, the checks of
    the session endpoint and of the sessionless one agree. -/
theorem modern_checks_eq_legacy {trs : List (Transition CapabilityState CapabilityAction)}
    {st : CapabilityState} (hrun : IsRun CapabilityState.step CapabilityState.init trs st)
    {serverID : String} {c : ServerContext CapabilityConfig}
    (hc : st.view.serverContexts.get? serverID = some c)
    (hinput : c.serverEntity.allowUserInput = false) (authContext : AuthContext) :
    ClientSession.canAccessServer st.view ⟨authContext⟩ serverID =
        ModernMcpController.canAccessServer authContext c ∧
      (∀ toolName, ClientSession.canUseTool st.view ⟨authContext⟩ serverID toolName =
        ModernMcpController.canUseTool authContext c toolName) ∧
      (∀ resourceName, ClientSession.canAccessResource st.view ⟨authContext⟩ serverID resourceName =
        ModernMcpController.canAccessResource authContext c resourceName) ∧
      ∀ promptName, ClientSession.canUsePrompt st.view ⟨authContext⟩ serverID promptName =
        ModernMcpController.canUsePrompt authContext c promptName := by
  have hid : c.serverID = serverID := ((contextsOk_of_run hrun).placed (true, serverID) c hc).1
  have hfound : st.view.getServerContext serverID (some authContext.userId) = some c := by
    unfold ServerManager.getServerContext
    rw [hc]
  exact ⟨modern_canAccessServer_eq hfound hid hinput, modern_canUse_eq .tool hfound hid hinput,
    modern_canUse_eq .resource hfound hid hinput, modern_canUse_eq .prompt hfound hid hinput⟩

/-- A user for whom the tool of the shared server is switched off. -/
def aliceContext : AuthContext := ⟨false, alice.value, purgeOff, .empty⟩

theorem modern_checks_eq_legacy_shareFiles :
    ∃ st c, exec CapabilityState.step CapabilityState.init (shareFiles filesLists) = some st ∧
      st.view.serverContexts.get? "files" = some c ∧ c.serverEntity.allowUserInput = false ∧
      ClientSession.canUseTool st.view ⟨aliceContext⟩ "files" "purge" = false ∧
      ClientSession.canUseTool st.view ⟨aliceContext⟩ "files" "purge" =
        ModernMcpController.canUseTool aliceContext c "purge" := by
  have hobs : (exec CapabilityState.step CapabilityState.init (shareFiles filesLists)).map (fun st =>
      ((st.view.serverContexts.get? "files").map (·.serverEntity.allowUserInput),
        ClientSession.canUseTool st.view ⟨aliceContext⟩ "files" "purge")) =
      some (some false, false) := by
    decide +kernel
  obtain ⟨st, hst, hobs⟩ := Option.map_eq_some_iff.mp hobs
  obtain ⟨hinput, hdenied⟩ := Prod.mk.inj hobs
  obtain ⟨c, hc, hinput⟩ := Option.map_eq_some_iff.mp hinput
  have hagree := modern_checks_eq_legacy (isRun_trace _ _ _ hst) hc hinput aliceContext
  exact ⟨st, c, hst, hc, hinput, hdenied, hagree.2.1 "purge"⟩

end PetaCore
