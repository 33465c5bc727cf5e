import PetaCore.Core.ClientSession
import PetaCore.ForStd.Json

/-!
# Resource results

The results of `resources/read`, and their rewriting into the names of the gateway: the URI of
each content, and in HTML the names of the tools and the URIs of the resources of the server.
`ProxySession` and `ModernMcpController` each have their own.

`split('')` cuts a text into its characters here; the source cuts it into UTF-16 code units.
-/

namespace PetaCore

/-- One of the `contents` of a result; `rest` are the fields that nothing reads. -/
structure ResourceContents where
  uri : String
  mimeType : Option String
  text : Option String
  rest : List (String × Json)

/-- `ReadResourceResult` -/
structure ReadResourceResult where
  contents : List ResourceContents
  rest : List (String × Json)

/-! ## Texts -/

/-- `text.split(separator)` with a separator that is not empty; `current` is the piece that
    has been read, from its end, and `skip` counts the characters left of a separator. -/
def splitChars (separator : List Char) (current : List Char) (skip : Nat) :
    List Char → List (List Char)
  | [] => [current.reverse]
  | c :: cs =>
    match skip with
    | skip + 1 => splitChars separator current skip cs
    | 0 =>
      if separator.isPrefixOf (c :: cs) then
        current.reverse :: splitChars separator [] (separator.length - 1) cs
      else splitChars separator (c :: current) 0 cs

/-- `text.split(original).join(replacement)` -/
def splitJoin (original replacement text : String) : String :=
  let pieces :=
    if original.toList = [] then text.toList.map fun c => [c]
    else splitChars original.toList [] 0 text.toList
  String.ofList (replacement.toList.intercalate pieces)

/-- `length`: the number of UTF-16 code units. -/
def utf16Length (s : String) : Nat := (s.toList.flatMap Json.codeUnits).length

/-- `buildAppResourceReplacements`: the names of a server and their gateway names, the longer
    ones first. -/
def buildAppResourceReplacements (c : ServerContext CapabilityConfig) : List (String × String) :=
  let tools := (c.toolsData.getD []).map fun tool =>
    (tool.name, ClientSession.generateNewName c.id tool.name)
  let resources := (c.resourcesData.getD []).map fun resource =>
    (resource.uri, ClientSession.generateNewName c.id resource.uri)
  let replaceMap := Dict.ofList (tools ++ resources)
  replaceMap.entries.insertionSort fun a b => utf16Length b.1 ≤ utf16Length a.1

/-- `rewriteAppResourceText` -/
def rewriteAppResourceText (text : String) (mimeType : Option String)
    (replacements : List (String × String)) : String :=
  if (mimeType.map fun m => "text/html".toList.isPrefixOf m.toList) = some true then
    replacements.foldl (fun t r => splitJoin r.1 r.2 t) text
  else text

/-! ## Results -/

/-- `rewriteAppResourceResult` of `ProxySession` -/
def rewriteAppResourceResult (m : ServerManager CapabilityConfig) (s : ClientSession)
    (serverResult : ReadResourceResult) (targetServerId : String) : ReadResourceResult :=
  match m.getServerContext targetServerId (some s.userId) with
  | none => serverResult
  | some targetServer =>
    let replacements := buildAppResourceReplacements targetServer
    { serverResult with
      contents := serverResult.contents.map fun content =>
        { content with
          uri := ClientSession.generateNewName targetServer.id content.uri
          text := content.text.map fun text =>
            rewriteAppResourceText text content.mimeType replacements } }

/-- `rewriteResourceResult` of `ModernMcpController` -/
def rewriteResourceResult (m : ServerManager CapabilityConfig) (result : ReadResourceResult)
    (serverID userId : String) (supportsMcpApps : Bool) : ReadResourceResult :=
  let serverContext := m.getServerContext serverID (some userId)
  let replacements :=
    match serverContext with
    | some c => buildAppResourceReplacements c
    | none => []
  { result with
    contents := result.contents.map fun content =>
      { content with
        uri :=
          match serverContext with
          | some c => ClientSession.generateNewName c.id content.uri
          | none => content.uri
        text := content.text.map fun text =>
          if supportsMcpApps then rewriteAppResourceText text content.mimeType replacements
          else text } }

end PetaCore
