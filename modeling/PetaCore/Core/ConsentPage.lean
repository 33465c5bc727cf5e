import PetaCore.ForStd.Json
import PetaCore.ForStd.Substitution
import PetaCore.Core.OAuth

/-!
# The consent page

The page on which a user confirms an authorization: a template in which eleven placeholders are
replaced, one after the other, by values of the request and of the client, escaped for HTML or
for a JavaScript string literal.
-/

namespace PetaCore

/-- `text.replace(/c/g, replacement)` for one character `c` -/
def replaceEach (c : Char) (replacement text : List Char) : List Char :=
  text.flatMap fun d => if d = c then replacement else [d]

/-- `escapeHtml` -/
def escapeHtml (str : List Char) : List Char :=
  let str := replaceEach '&' "&amp;".toList str
  let str := replaceEach '<' "&lt;".toList str
  let str := replaceEach '>' "&gt;".toList str
  let str := replaceEach '"' "&quot;".toList str
  replaceEach '\'' "&#39;".toList str

/-- `jsEscape`: what `JSON.stringify` prints between the quotes. -/
def jsEscape (val : List Char) : List Char :=
  let val := val.flatMap Json.escapeChar
  let val := replaceEach '<' "\\u003C".toList val
  let val := replaceEach '>' "\\u003E".toList val
  replaceEach '&' "\\u0026".toList val

namespace ConsentPage

/-- `scopeDescriptions` -/
def scopeDescriptions : List (String × String) :=
  [("mcp:tools", "Execute MCP tools and functions"),
    ("mcp:resources", "Access MCP resources and data"),
    ("mcp:prompts", "Use MCP prompt templates")]

/-- The properties that every object inherits. None of their values is a string. -/
def inheritedNames : List String :=
  ["constructor", "hasOwnProperty", "isPrototypeOf", "propertyIsEnumerable", "toLocaleString",
    "toString", "valueOf", "__defineGetter__", "__defineSetter__", "__lookupGetter__",
    "__lookupSetter__", "__proto__"]

/-- The item of a scope, with `scopeDescriptions[s] || s`; `none` when `escapeHtml` throws. -/
def scopeItem (s : String) : Option (List Char) :=
  let item (text : String) : List Char :=
    "<li><span class=\"scope-icon\">✓</span>".toList ++ escapeHtml text.toList ++ "</li>".toList
  match scopeDescriptions.lookup s with
  | some description => some (item description)
  | none => if s ∈ inheritedNames then none else some (item s)

/-- `scopeListHtml` -/
def scopeListHtml (requestedScopes : List String) : Option (List Char) :=
  (requestedScopes.mapM scopeItem).map List.flatten

/-- `value || ''` -/
def orEmpty (value : Option String) : List Char := (value.getD "").toList

/-- What `showAuthorizePage` fills in: the name of the client, the parameters of the request, the
flow for the desk app and the key of the proxy. -/
structure Values where
  client_name : Option String
  client_id : String
  redirect_uri : String
  scope : Option String
  state : Option String
  code_challenge : Option String
  code_challenge_method : Option String
  resource : Option String
  flowId : String
  proxyKey : String

/-- The placeholders, in the order in which they are replaced. -/
def placeholders : List (List Char) :=
  ["__CLIENT_NAME__".toList, "\x7b\x7bSCOPE_LIST\x7d\x7d".toList,
    "\x7b\x7bCLIENT_ID\x7d\x7d".toList, "\x7b\x7bREDIRECT_URI\x7d\x7d".toList,
    "\x7b\x7bSCOPE\x7d\x7d".toList, "\x7b\x7bSTATE\x7d\x7d".toList,
    "\x7b\x7bCODE_CHALLENGE\x7d\x7d".toList, "\x7b\x7bCODE_CHALLENGE_METHOD\x7d\x7d".toList,
    "\x7b\x7bRESOURCE\x7d\x7d".toList, "\x7b\x7bDESK_FLOW_ID\x7d\x7d".toList,
    "\x7b\x7bPROXY_KEY\x7d\x7d".toList]

/-- The escaped values, in this order. -/
def Values.escaped (v : Values) (scopeListHtml : List Char) : List (List Char) :=
  let name := match v.client_name with
    | none | some "" => "Unknown Application"
    | some name => name
  [escapeHtml name.toList, scopeListHtml, jsEscape v.client_id.toList,
    jsEscape v.redirect_uri.toList, jsEscape (orEmpty v.scope), jsEscape (orEmpty v.state),
    jsEscape (orEmpty v.code_challenge), jsEscape (orEmpty v.code_challenge_method),
    jsEscape (orEmpty v.resource), jsEscape v.flowId.toList, jsEscape v.proxyKey.toList]

/-- The placeholders with their values; `none` when the list of scopes cannot be built. -/
def Values.fields (v : Values) : Option (List (List Char × List Char)) :=
  (scopeListHtml (OAuth.parseScope v.scope)).map fun list => placeholders.zip (v.escaped list)

/-- `showAuthorizePage`: the page that is built from the template, if one is. -/
def Values.page (v : Values) (html : List Char) : Option (List Char) :=
  v.fields.map fun fields => Template.sequentialString fields html

end ConsentPage

end PetaCore
